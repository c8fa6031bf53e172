import Pyrad2.Eap.Respond

/-!
# Mutual authentication

What an EAP-MSCHAPv2 object has seen when it acknowledges a success. The object keeps what it computed
for the last challenge, and a success message with an authenticator response is checked against that.
A message without one is acknowledged as it is.
-/

namespace Pyrad2

open EStateM

namespace MschapV2Method

open Eap

/-- A call of `respond`: the challenge, and the packet and the process it finds. -/
structure Call where
  challenge : Packet
  before : PacketState

/-- What was computed for a challenge. -/
structure Answer where
  authenticatorChallenge : Bytes
  peerChallenge : Bytes
  ntResponse : Bytes

/-- The challenge in a packet with OpCode 1 that passes the checks. -/
def OffersChallenge (challenge : Packet) (authenticatorChallenge : Bytes) : Prop :=
  ∃ payload, FirstBytes challenge eapMessageAttr payload ∧ payload[4]? = some eapTypeMschapv2 ∧
    payload[5]? = some opChallenge ∧ 26 ≤ payload.length ∧ payload[9]? = some 16 ∧
    authenticatorChallenge = (payload.drop 10).take 16

variable (X : Mschap)

/-- A challenge is answered: an NT-Response is computed for it. -/
structure Answers (m : MschapV2Method) (c : Call) (a : Answer) : Prop where
  offers : OffersChallenge c.challenge a.authenticatorChallenge
  peerChallenge : a.peerChallenge = (c.before.world.bytes 16).1
  computes : X.generateNtResponse a.authenticatorChallenge a.peerChallenge m.userName m.password =
    .ok a.ntResponse

/-- The object after a call, whether that returned or raised. -/
def afterCall (m : MschapV2Method) (c : Call) : MschapV2Method :=
  (after (respond X c.challenge) (m, c.before)).1

/-- The object after calls one after the other, and the last answer among them. -/
inductive Session (m₀ : MschapV2Method) : MschapV2Method → Option Answer → Prop
  | start : Session m₀ m₀ none
  | answered {m last c a} : Session m₀ m last → Answers X m c a →
      Session m₀ (afterCall X m c) (some a)
  | other {m last c} : Session m₀ m last → (∀ a, ¬ Answers X m c a) →
      Session m₀ (afterCall X m c) last

/-- The response that `respond` builds and then stores. -/
def Produces (m : MschapV2Method) (c : Call) (response : Bytes) : Prop :=
  ∃ s, (build X c.challenge).run (m, c.before) = .ok response s

/-- The message contains the authenticator response for the answer. -/
def VerifiedBy (m : MschapV2Method) (a : Answer) (message : Bytes) : Prop :=
  ∃ expected, X.generateAuthenticatorResponse m.password a.ntResponse a.peerChallenge
    a.authenticatorChallenge m.userName = .ok expected ∧ expected <:+: message

variable {X}

/-! ### What a call does to the object -/

/-- The object stays as it is. -/
def SameObject {M : Type} (s t : EapState M) : Prop := t.1 = s.1

instance {M : Type} : IsPreorder (EapState M) SameObject where
  refl := fun _ ↦ rfl
  trans := fun _ _ _ h h' ↦ h'.trans h

/-- Only an answer to a challenge changes the object. -/
theorem respects_sameObject_buildResponseTo (payload : Bytes) (eapId : UInt8) {opCode : UInt8}
    (h : opCode ≠ opChallenge) :
    Respects SameObject (buildResponseTo X payload eapId opCode) := by
  have hheader (length : ℕ) (opCode : UInt8) :
      Respects SameObject (liftM (packMschapv2Header eapId length opCode) : Hook Bytes) :=
    respects_liftM _
  rw [buildResponseTo, if_neg h]
  split
  · refine respects_get.bind fun t ↦ ?_
    split
    · refine (respects_liftM _).bind fun valid ↦ ?_
      split
      · exact hheader _ _
      · exact respects_throw _
    · exact hheader _ _
  split
  · exact hheader _ _
  · exact respects_throw _

section

variable {eapId mschapId : UInt8} {challenge : Bytes} {s : EapState MschapV2Method}

theorem ensures_tokenBytes {Q : Bytes → EapState MschapV2Method → Prop}
    {R : Exn → EapState MschapV2Method → Prop} :
    Ensures tokenBytes s Q R ↔
      Q (s.2.world.bytes 16).1 (s.1, { s.2 with world := (s.2.world.bytes 16).2 }) := Iff.rfl

theorem after_answerChallenge_of_ok {ntResponse : Bytes}
    (h : X.generateNtResponse challenge (s.2.world.bytes 16).1 s.1.userName s.1.password =
      .ok ntResponse) :
    (after (answerChallenge X eapId mschapId challenge) s).1 =
      { s.1 with
        authenticatorChallenge := challenge, peerChallenge := (s.2.world.bytes 16).1, ntResponse } := by
  refine ensures_iff_after (P := fun t : EapState MschapV2Method ↦ t.1 = _).1 ?_
  refine ensures_bind.2 (ensures_modify.2 (ensures_bind.2 (ensures_tokenBytes.2 (ensures_bind.2
    (ensures_modify.2 (ensures_bind.2 (ensures_get.2 (ensures_bind.2 ?_))))))))
  refine ensures_liftM (fun nt hok ↦ ?_) fun e hraise ↦ (by cases h.symm.trans hraise)
  obtain rfl := Except.ok.inj (h.symm.trans hok)
  dsimp only
  rw [ensures_bind, ensures_modify]
  -- what is left packs the response
  generalize packMschapv2Header _ _ _ = header
  generalize packUnsigned _ _ = length
  rw [ensures_bind]
  refine ensures_liftM (fun _ _ ↦ ?_) fun _ _ ↦ rfl
  rw [ensures_bind]
  exact ensures_liftM (fun _ _ ↦ rfl) fun _ _ ↦ rfl

theorem after_answerChallenge_of_error {e : Exn}
    (h : X.generateNtResponse challenge (s.2.world.bytes 16).1 s.1.userName s.1.password =
      .error e) :
    (after (answerChallenge X eapId mschapId challenge) s).1 =
      { s.1 with
        authenticatorChallenge := challenge, peerChallenge := (s.2.world.bytes 16).1 } := by
  refine ensures_iff_after (P := fun t : EapState MschapV2Method ↦ t.1 = _).1 ?_
  refine ensures_bind.2 (ensures_modify.2 (ensures_bind.2 (ensures_tokenBytes.2 (ensures_bind.2
    (ensures_modify.2 (ensures_bind.2 (ensures_get.2 (ensures_bind.2 ?_))))))))
  exact ensures_liftM (fun ntResponse hok ↦ by cases h.symm.trans hok) fun _ _ ↦ rfl

end

section

variable {m : MschapV2Method} {c : Call}

/-- The writes are to the packet. -/
theorem afterCall_eq : afterCall X m c = (after (build X c.challenge) (m, c.before)).1 := by
  rw [afterCall, respond_eq]
  rcases hbuild : (build X c.challenge).run (m, c.before) with ⟨response, s⟩ | ⟨e, s⟩
  · rw [after_bind_of_ok hbuild, after_onPart, after_of_ok hbuild]
  · rw [after_of_error (run_bind_of_error hbuild), after_of_error hbuild]

theorem OffersChallenge.unique {challenge : Packet} {b b' : Bytes} (h : OffersChallenge challenge b)
    (h' : OffersChallenge challenge b') : b' = b := by
  obtain ⟨payload, ⟨rest, hstored⟩, -, -, -, -, rfl⟩ := h
  obtain ⟨payload', ⟨rest', hstored'⟩, -, -, -, -, rfl⟩ := h'
  rw [hstored] at hstored'
  cases hstored'
  rfl

/-- A challenge that passes the checks is taken up. -/
theorem exists_afterCall_of_offers {b : Bytes} (h : OffersChallenge c.challenge b) :
    ∃ eapId mschapId, afterCall X m c =
      (after (answerChallenge X eapId mschapId b) (m, c.before)).1 := by
  obtain ⟨payload, hpayload, htype, hop, hlen, hsize, rfl⟩ := h
  obtain ⟨stored, hstored, hv⟩ := exists_firstOf_rawItem.2 hpayload
  have hparts : unpackEapMschapv2 (.bytes payload) = .ok (payload, payload[1], opChallenge) :=
    unpackEapMschapv2_eq_ok_iff.2 ⟨rfl, List.getElem?_eq_getElem _, htype, hop⟩
  have hbody : ∃ mschapId l l', payload.drop 6 = mschapId :: l :: l' :: 16 :: payload.drop 10 := by
    have hdrop : payload.drop 6 = payload[6] :: payload[7] :: payload[8] :: payload[9] ::
        payload.drop 10 := by
      rw [List.drop_eq_getElem_cons, List.drop_eq_getElem_cons, List.drop_eq_getElem_cons,
        List.drop_eq_getElem_cons]
    rw [List.getElem?_eq_getElem (by omega), Option.some.injEq] at hsize
    exact ⟨_, _, _, hsize ▸ hdrop⟩
  obtain ⟨mschapId, l, l', hbody⟩ := hbody
  refine ⟨payload[1], mschapId, ?_⟩
  rw [afterCall_eq, build, hstored, after_bind_of_ok (run_liftM_ok ..), hv,
    after_bind_of_ok (run_liftM_ok ..), hparts, after_bind_of_ok (run_liftM_ok ..), buildResponseTo,
    if_pos rfl, buildResponse, if_neg (not_lt.2 hlen), hbody]
  rfl

/-- Any other challenge leaves the object alone. -/
theorem afterCall_of_not_offers (h : ∀ b, ¬ OffersChallenge c.challenge b) : afterCall X m c = m := by
  rw [afterCall_eq, build]
  rcases hstored : rawItem c.challenge eapMessageAttr with e | stored
  · rfl
  rw [after_bind_of_ok (run_liftM_ok ..)]
  rcases hv : firstOf stored with e | v
  · rfl
  rw [after_bind_of_ok (run_liftM_ok ..)]
  rcases hparts : unpackEapMschapv2 v with e | ⟨payload, eapId, opCode⟩
  · rfl
  rw [after_bind_of_ok (run_liftM_ok ..)]
  obtain ⟨rfl, -, htype, hop⟩ := unpackEapMschapv2_eq_ok_iff.1 hparts
  by_cases hchallenge : opCode = opChallenge
  · subst hchallenge
    show (after (buildResponseTo X payload eapId opChallenge) (m, c.before)).1 = m
    rw [buildResponseTo, if_pos rfl, buildResponse]
    split
    · rfl
    case isFalse hlen =>
      -- the size of the value is not that of a challenge
      have hsize : payload[9]? ≠ some 16 := fun hsize ↦ h _
        ⟨payload, exists_firstOf_rawItem.1 ⟨stored, hstored, hv⟩, htype, hop, by omega, hsize, rfl⟩
      have hdrop : payload[9]? = (payload.drop 6)[3]? := by simp
      rw [hdrop] at hsize
      generalize payload.drop 6 = rest at hsize
      rcases rest with - | ⟨mschapId, - | ⟨l, - | ⟨l', - | ⟨valueSize, body⟩⟩⟩⟩
      iterate 4 rfl
      dsimp only
      rw [if_pos fun heq ↦ hsize (congrArg some heq)]
      rfl
  · exact respects_sameObject_buildResponseTo payload eapId hchallenge (m, c.before)

/-- An answer is kept. -/
theorem afterCall_of_answers {a : Answer} (h : Answers X m c a) :
    afterCall X m c = { m with
      authenticatorChallenge := a.authenticatorChallenge
      peerChallenge := a.peerChallenge
      ntResponse := a.ntResponse } := by
  obtain ⟨eapId, mschapId, hafter⟩ := exists_afterCall_of_offers (X := X) (m := m) h.offers
  have hcomputes := h.computes
  rw [h.peerChallenge] at hcomputes
  rw [hafter, after_answerChallenge_of_ok (s := (m, c.before)) hcomputes, h.peerChallenge]

/-- What has no answer leaves the one before it. -/
theorem afterCall_of_offers_of_error {b : Bytes} {e : Exn} (hb : OffersChallenge c.challenge b)
    (h : X.generateNtResponse b (c.before.world.bytes 16).1 m.userName m.password = .error e) :
    afterCall X m c = { m with
      authenticatorChallenge := b
      peerChallenge := (c.before.world.bytes 16).1 } := by
  obtain ⟨eapId, mschapId, hafter⟩ := exists_afterCall_of_offers (X := X) (m := m) hb
  rw [hafter, after_answerChallenge_of_error (s := (m, c.before)) h]

end

/-- The fields are those of the last answer. -/
structure Remembers (X : Mschap) (m₀ m : MschapV2Method) (last : Option Answer) : Prop where
  userName : m.userName = m₀.userName
  password : m.password = m₀.password
  nothing : last = none → m.ntResponse = []
  answer : ∀ a, last = some a → m.authenticatorChallenge = a.authenticatorChallenge ∧
    m.peerChallenge = a.peerChallenge ∧ m.ntResponse = a.ntResponse ∧
    X.generateNtResponse a.authenticatorChallenge a.peerChallenge m₀.userName m₀.password =
      .ok a.ntResponse

/-- **Step.** A call keeps the fields those of the last answer. -/
theorem Remembers.afterCall (hsha1 : ∀ b, 8 ≤ (X.sha1 b).length) {m₀ m : MschapV2Method}
    {last : Option Answer} (h : Remembers X m₀ m last) (c : Call) :
    (∀ a, Answers X m c a → Remembers X m₀ (afterCall X m c) (some a)) ∧
      ((∀ a, ¬ Answers X m c a) → Remembers X m₀ (afterCall X m c) last) := by
  constructor
  · intro a ha
    have hcomputes := ha.computes
    rw [h.userName, h.password] at hcomputes
    rw [afterCall_of_answers ha]
    refine ⟨h.userName, h.password, fun hnone ↦ (by cases hnone), fun a' ha' ↦ ?_⟩
    cases ha'
    exact ⟨rfl, rfl, rfl, hcomputes⟩
  · intro hnot
    by_cases hoffers : ∃ b, OffersChallenge c.challenge b
    · obtain ⟨b, hb⟩ := hoffers
      rcases hgenerate : X.generateNtResponse b (c.before.world.bytes 16).1 m.userName m.password
        with e | ntResponse
      · have hnone : last = none := by
          -- where there was an answer, the next challenge has one as well
          by_contra hlast
          obtain ⟨a, rfl⟩ := Option.ne_none_iff_exists'.1 hlast
          obtain ⟨-, -, -, hcomputes⟩ := h.answer a rfl
          obtain ⟨payload, -, -, -, hlen, -, rfl⟩ := hb
          have hlength : ((payload.drop 10).take 16).length = 16 := by simp; omega
          obtain ⟨ntResponse, hcomputes'⟩ := Mschap.exists_generateNtResponse hsha1
            (Mschap.length_ntPasswordHash_of_generateNtResponse hcomputes) hlength
            (c.before.world.length_bytes 16) m₀.userName
          rw [h.userName, h.password, hcomputes'] at hgenerate
          cases hgenerate
        rw [afterCall_of_offers_of_error hb hgenerate]
        exact ⟨h.userName, h.password, h.nothing, fun a ha ↦ (by cases hnone.symm.trans ha)⟩
      · exact absurd ⟨hb, rfl, hgenerate⟩ (hnot ⟨b, _, ntResponse⟩)
    · rw [afterCall_of_not_offers fun b hb ↦ hoffers ⟨b, hb⟩]
      exact h

/-- **Run.** -/
theorem Session.remembers (hsha1 : ∀ b, 8 ≤ (X.sha1 b).length) {m₀ m : MschapV2Method}
    {last : Option Answer} (hstart : m₀.ntResponse = []) (h : Session X m₀ m last) :
    Remembers X m₀ m last := by
  induction h with
  | start => exact ⟨rfl, rfl, fun _ ↦ hstart, fun a ha ↦ (by cases ha)⟩
  | answered _ ha ih => exact (ih.afterCall hsha1 _).1 _ ha
  | other _ hnot ih => exact (ih.afterCall hsha1 _).2 hnot

/-! ### What is acknowledged -/

theorem fromMarker_suffix {message rest : Bytes} (h : Mschap.fromMarker message = some rest) :
    rest <:+ message := by
  induction message with
  | nil => cases h
  | cons b message ih =>
    rw [Mschap.fromMarker] at h
    split at h
    · cases h
      exact List.suffix_rfl
    · exact (ih h).trans (List.suffix_cons ..)

/-- A message that verifies contains the response that was expected. -/
theorem exists_expected_of_verify {password : String} {message : Bytes}
    {ntResponse peerChallenge authenticatorChallenge userName : Bytes}
    (h : X.verifyAuthenticatorResponse password ntResponse peerChallenge authenticatorChallenge
      userName message = .ok true) :
    ∃ expected, X.generateAuthenticatorResponse password ntResponse peerChallenge
      authenticatorChallenge userName = .ok expected ∧ expected <:+: message := by
  obtain ⟨expected, hexpected, h⟩ := Except.bind_eq_ok_iff.1 h
  refine ⟨expected, hexpected, ?_⟩
  rcases hmarker : Mschap.fromMarker message with - | rest
  · rw [hmarker] at h
    cases h
  · rw [hmarker] at h
    have htake : rest.take 42 = expected := of_decide_eq_true (Except.ok.inj h)
    rw [← htake]
    exact (List.take_prefix 42 rest).isInfix.trans (fromMarker_suffix hmarker).isInfix

theorem opCode_of_packMschapv2Header {eapId opCode : UInt8} {length : ℕ} {header : Bytes}
    (h : packMschapv2Header eapId length opCode = .ok header) (rest : Bytes) :
    (header ++ rest)[5]? = some opCode := by
  obtain ⟨field, hfield, h⟩ := Except.bind_eq_ok_iff.1 h
  cases h
  have hlen : field.length = 2 := by
    rw [packUnsigned] at hfield
    split at hfield
    · cases hfield
      exact Bytes.length_ofNatBE ..
    · cases hfield
  rcases field with - | ⟨a, - | ⟨b, - | ⟨c, field⟩⟩⟩
  · cases hlen
  · cases hlen
  · rfl
  · simp at hlen

/-- The response to a challenge has OpCode 2. -/
theorem ensures_answerChallenge (eapId mschapId : UInt8) (challenge : Bytes)
    (s : EapState MschapV2Method) :
    Ensures (answerChallenge X eapId mschapId challenge) s
      (fun response _ ↦ response[5]? = some opResponse) fun _ _ ↦ True := by
  refine ensures_bind.2 (ensures_modify.2 (ensures_bind.2 (ensures_tokenBytes.2 (ensures_bind.2
    (ensures_modify.2 (ensures_bind.2 (ensures_get.2 (ensures_bind.2 ?_))))))))
  refine ensures_liftM (fun ntResponse _ ↦ ?_) fun _ _ ↦ trivial
  dsimp only
  rw [ensures_bind, ensures_modify]
  rcases hheader : packMschapv2Header _ _ _ with e | header
  · exact ensures_bind.2 (ensures_liftM (fun _ h ↦ (by cases h)) fun _ _ ↦ trivial)
  generalize packUnsigned _ _ = length
  rw [ensures_bind]
  refine ensures_liftM (fun header' h ↦ ?_) fun _ _ ↦ trivial
  cases h
  rw [ensures_bind]
  refine ensures_liftM (fun length _ ↦ ?_) fun _ _ ↦ trivial
  rw [ensures_pure]
  simp only [List.append_assoc]
  exact opCode_of_packMschapv2Header hheader _

theorem opCode_of_run_buildResponse {eapId : UInt8} {payload response : Bytes}
    {s s' : EapState MschapV2Method}
    (h : (buildResponse X eapId payload).run s = .ok response s') :
    response[5]? = some opResponse := by
  rw [buildResponse] at h
  split at h
  · cases h
  · split at h
    · split at h
      · cases h
      · exact (ensures_answerChallenge _ _ _ s).of_run_eq_ok h
    · cases h

/-- Only a success is acknowledged as one, and then what it says of the server was checked. -/
theorem verify_of_run_buildResponseTo {payload response : Bytes} {eapId opCode : UInt8}
    {s s' : EapState MschapV2Method}
    (h : (buildResponseTo X payload eapId opCode).run s = .ok response s')
    (hop : response[5]? = some opSuccess) :
    Mschap.fromMarker (payload.drop 6) = none ∨ X.verifyAuthenticatorResponse s.1.password
      s.1.ntResponse s.1.peerChallenge s.1.authenticatorChallenge s.1.userName (payload.drop 6) =
        .ok true := by
  rw [buildResponseTo] at h
  split at h
  · exact absurd ((opCode_of_run_buildResponse h).symm.trans hop) (by decide)
  split at h
  · rw [buildSuccessResponse, run_bind_of_ok (run_get s)] at h
    split at h
    · obtain ⟨valid, s₁, hvalid, hrest⟩ := run_bind_eq_ok_iff.1 h
      obtain ⟨hvalid, rfl⟩ := run_liftM_eq_ok_iff.1 hvalid
      rcases valid with - | -
      · cases hrest
      · exact .inr hvalid
    case isFalse hmarker => exact .inl (Option.not_isSome_iff_eq_none.1 hmarker)
  split at h
  · obtain ⟨hheader, -⟩ := run_liftM_eq_ok_iff.1 h
    have hop' := opCode_of_packMschapv2Header hheader []
    rw [List.append_nil] at hop'
    exact absurd (hop'.symm.trans hop) (by decide)
  · cases h

/-- A new object has not computed a response when it starts. -/
theorem ntResponse_of_start {E : Env} {s₀ s₁ : PacketState} {m₀ : MschapV2Method}
    (h : (start E).run ({}, s₀) = .ok () (m₀, s₁)) : m₀.ntResponse = [] := by
  simp only [start, startFrom, run_bind_eq_ok_iff, run_liftM_eq_ok_iff] at h
  obtain ⟨_, _, hget, _, _, ⟨-, rfl⟩, _, _, ⟨-, rfl⟩, _, _, ⟨-, rfl⟩, _, _, ⟨-, rfl⟩, _, _, ⟨-, rfl⟩, _, _,
    hmodify, hstore⟩ := h
  cases hget
  cases hmodify
  cases hstore
  rfl

/-- **What an object acknowledges.** A response with OpCode 3 goes to a message without the marker of
an authenticator response, or to one that contains the authenticator response for the last challenge
that was answered. -/
theorem acknowledges (hsha1 : ∀ b, 8 ≤ (X.sha1 b).length) {E : Env} {s₀ s₁ : PacketState}
    {m₀ m : MschapV2Method} (hstart : (start E).run ({}, s₀) = .ok () (m₀, s₁)) {last : Option Answer}
    (h : Session X m₀ m last) {c : Call} {payload response : Bytes}
    (hpayload : FirstBytes c.challenge eapMessageAttr payload) (hresponse : Produces X m c response)
    (hop : response[5]? = some opSuccess) :
    Mschap.fromMarker (payload.drop 6) = none ∨
      ∃ a, last = some a ∧ VerifiedBy X m₀ a (payload.drop 6) := by
  have hremembers := h.remembers hsha1 (ntResponse_of_start hstart)
  obtain ⟨s, hrun⟩ := hresponse
  simp only [build, run_bind_eq_ok_iff, run_liftM_eq_ok_iff] at hrun
  obtain ⟨stored, _, ⟨hstored, rfl⟩, v, _, ⟨hv, rfl⟩, parts, _, ⟨hparts, rfl⟩, hbuild⟩ := hrun
  obtain ⟨rfl, -, -, -⟩ := unpackEapMschapv2_eq_ok_iff.1 hparts
  obtain rfl : payload = parts.1 := by
    obtain ⟨rest, hrest⟩ := hpayload
    obtain ⟨rest', hrest'⟩ := exists_firstOf_rawItem.1 ⟨stored, hstored, hv⟩
    rw [hrest] at hrest'
    cases hrest'
    rfl
  refine (verify_of_run_buildResponseTo hbuild hop).imp_right fun hverify ↦ ?_
  obtain ⟨expected, hexpected, hinfix⟩ := exists_expected_of_verify hverify
  rcases last with - | a
  · -- the empty NT-Response is refused
    obtain ⟨-, -, hnothing, -⟩ := hremembers
    rw [Mschap.generateAuthenticatorResponse, if_pos (by simp [hnothing rfl])] at hexpected
    cases hexpected
  · obtain ⟨hauth, hpeer, hnt, -⟩ := hremembers.answer a rfl
    refine ⟨a, rfl, expected, ?_, hinfix⟩
    rw [← hremembers.password, ← hremembers.userName, ← hauth, ← hpeer, ← hnt]
    exact hexpected

/-- An Access-Request of the user `u` with the password `p`. -/
def userRequest : Packet :=
  { cls := .auth, code := PacketType.accessRequest, id := some 7, authType := "eap-mschapv2"
    attrs := OrderedDict.set (OrderedDict.set ∅ (.int 1) (.vals [.bytes [117]])) (.int 2)
      (.vals [.bytes [112]]) }

/-- The object that this request starts. -/
def userMethod : MschapV2Method := { userName := [117], password := "p" }

/-- A call with this EAP-Message and a State. -/
def callWith (payload : Bytes) : Call where
  challenge :=
    { cls := .auth, code := PacketType.accessChallenge, id := some 7
      attrs := OrderedDict.set (OrderedDict.set ∅ (.int 79) (.vals [.bytes payload])) (.int 24)
        (.vals [.bytes [1]]) }
  before := { pkt := userRequest, world := default }

/-- A challenge of zeros. -/
def zeroChallenge : Bytes := [1, 9, 0, 26, 26, 1, 5, 0, 21, 16] ++ List.replicate 16 0

/-- The success message for it, where the digests are zeros. -/
def zeroSuccess : Bytes := [1, 10, 0, 48, 26, 3, 0x53, 0x3D] ++ List.replicate 40 0x30

theorem exists_run_start_userRequest : ∃ s, (start (Env.ofByte (fun _ ↦ 0) fun _ _ ↦ 0)).run
    ({}, { pkt := userRequest, world := default }) = .ok () (userMethod, s) := by
  have hutf8 : Tools.utf8? [112] = some "p" := by decide +kernel
  have hdecode : decodePassword (.bytes [112]) = .ok "p" := by rw [decodePassword, hutf8]
  have huser : userNameFromPacket (Env.ofByte (fun _ ↦ 0) fun _ _ ↦ 0) userRequest =
      .ok (.bytes [117]) := by
    decide +kernel
  have hpassword : passwordFromPacket userRequest = .ok (.bytes [112]) := by decide +kernel
  have hidentity : packResponse (default : World).currentId 1 [117] = .ok [2, 0, 0, 6, 1, 117] := by
    decide +kernel
  simp only [start, startFrom, run_bind_eq_ok_iff, run_liftM_eq_ok_iff]
  exact ⟨_, _, _, rfl, .bytes [117], _, ⟨huser, rfl⟩, .bytes [112], _, ⟨hpassword, rfl⟩, "p", _, ⟨hdecode, rfl⟩,
    [117], _, ⟨rfl, rfl⟩, _, _, ⟨hidentity, rfl⟩, _, _, rfl, rfl⟩

theorem acknowledges_zeroSuccess : ∃ last, (Mschap.fromMarker (zeroSuccess.drop 6) = none ∨
    ∃ a, last = some a ∧ VerifiedBy Mschap.zero userMethod a (zeroSuccess.drop 6)) ∧
    Produces Mschap.zero (afterCall Mschap.zero userMethod (callWith zeroChallenge))
      (callWith zeroSuccess) [2, 10, 0, 6, 26, 3] := by
  have hanswers : Answers Mschap.zero userMethod (callWith zeroChallenge)
      ⟨List.replicate 16 0, List.replicate 16 0, List.replicate 24 0⟩ :=
    ⟨⟨zeroChallenge, ⟨[], rfl⟩, rfl, rfl, by decide, rfl, rfl⟩, rfl, by decide +kernel⟩
  have hproduces : Produces Mschap.zero (afterCall Mschap.zero userMethod (callWith zeroChallenge))
      (callWith zeroSuccess) [2, 10, 0, 6, 26, 3] := by
    rw [afterCall_of_answers hanswers]
    exact ⟨_, rfl⟩
  obtain ⟨s, hstart⟩ := exists_run_start_userRequest
  exact ⟨_, acknowledges (X := Mschap.zero) (fun _ ↦ (by decide : 8 ≤ 20)) hstart
    (.answered .start hanswers) ⟨[], rfl⟩ hproduces rfl,
    hproduces⟩

/-- The first packet that a new object sees says that all went well, and nothing of the server: it is
acknowledged. -/
theorem acknowledges_unauthenticated :
    Session Mschap.zero userMethod userMethod none ∧
      Produces Mschap.zero userMethod (callWith [1, 9, 0, 6, 26, 3]) [2, 9, 0, 6, 26, 3] :=
  ⟨.start, _, rfl⟩

end MschapV2Method

end Pyrad2
