import Pyrad2.Eap.Methods

/-!
# All or nothing

A registered method answers a challenge in two parts. It builds the response, which may raise and
changes no attribute, and then it writes the response and the state of the challenge. The second write
raises where the challenge has no state, and the first one is not taken back.
-/

namespace Pyrad2

open EStateM

namespace Eap

/-- The writes: the response, and the state of the challenge. -/
def answer (reply : Packet) (response : Bytes) : PacketMethod Unit := do
  Packet.store (.int eapMessageAttr) (.vals [.bytes response])
  Packet.store (.int stateAttr) (← rawItem reply stateAttr)

/-- `apply_eap_md5_challenge`, up to the writes. -/
def buildMd5 (E : Env) (reply : Packet) : PacketMethod Bytes := do
  let eapPayload ← firstOf (← rawItem reply eapMessageAttr)
  let parts ← unpackEapMd5 eapPayload
  let password ← (← passwordFromPacket (← get).pkt).asBytes
  return buildEapMd5Challenge E parts.1 password parts.2

/-- `apply_eap_gtc_challenge`, up to the writes. -/
def buildGtc (reply : Packet) : PacketMethod Bytes := do
  let eapPayload ← firstOf (← rawItem reply eapMessageAttr)
  let eapId ← eapIdentifier "EAP-GTC challenge" 5 eapPayload
  let password ← packedString (← passwordFromPacket (← get).pkt)
  packResponse eapId 6 password

/-- The packet with both of them. -/
def answered (p : Packet) (response : Bytes) (state : Stored PyVal) : Packet :=
  { p with
    attrs := OrderedDict.set (p.attrs.set (.int eapMessageAttr) (.vals [.bytes response]))
      (.int stateAttr) state }

theorem run_answer_of_some {reply : Packet} {response : Bytes} {state : Stored PyVal}
    {s : PacketState} (h : reply.attrs.get? (.int stateAttr) = some state) :
    (answer reply response).run s = .ok () { s with pkt := answered s.pkt response state } := by
  have hstate : rawItem reply stateAttr = .ok state := by rw [rawItem, h]
  rw [answer, hstate]
  rfl

theorem run_answer_of_none {reply : Packet} {response : Bytes} {s : PacketState}
    (h : reply.attrs.get? (.int stateAttr) = none) :
    (answer reply response).run s = .error .keyError { s with
      pkt := { s.pkt with
        attrs := s.pkt.attrs.set (.int eapMessageAttr) (.vals [.bytes response]) } } := by
  have hstate : rawItem reply stateAttr = .error .keyError := by rw [rawItem, h]
  rw [answer, hstate]
  rfl

theorem applyEapMd5Challenge_eq (E : Env) (reply : Packet) :
    applyEapMd5Challenge E reply = buildMd5 E reply >>= answer reply := by
  rw [buildMd5]
  simp only [bind_assoc, pure_bind]
  rfl

theorem applyEapGtcChallenge_eq (reply : Packet) :
    applyEapGtcChallenge reply = buildGtc reply >>= answer reply := by
  rw [buildGtc]
  simp only [bind_assoc]
  rfl

end Eap

namespace MschapV2Method

open Eap

/-- `respond(pkt, challenge)`, up to the writes. -/
def build (X : Mschap) (challenge : Packet) : Hook Bytes := do
  let eapPayload ← firstOf (← rawItem challenge eapMessageAttr)
  let parts ← unpackEapMschapv2 eapPayload
  buildResponseTo X parts.1 parts.2.1 parts.2.2

theorem respond_eq (X : Mschap) (challenge : Packet) :
    respond X challenge = build X challenge >>= fun response ↦
      EStateM.onPart Prod.snd (fun s t ↦ (t.1, s)) (answer challenge response) := by
  have hanswer (response : Bytes) : onPart (σ := EapState MschapV2Method) Prod.snd
      (fun s t ↦ (t.1, s)) (answer challenge response) =
        onPart Prod.snd (fun s t ↦ (t.1, s))
          (Packet.store (.int eapMessageAttr) (.vals [.bytes response])) >>= fun _ ↦
        onPart Prod.snd (fun s t ↦ (t.1, s)) (do
          Packet.store (.int stateAttr) (← rawItem challenge stateAttr)) := by
    apply onPart_bind
    · exact fun _ _ ↦ rfl
    · exact fun _ _ _ ↦ rfl
  rw [build, respond]
  simp only [bind_assoc, hanswer]
  rcases rawItem challenge stateAttr with e | state <;> rfl

end MschapV2Method

/-- The packet stays as it is. -/
def SamePacket {M : Type} (s t : EapState M) : Prop := t.2.pkt = s.2.pkt

instance {M : Type} : IsPreorder (EapState M) SamePacket where
  refl := fun _ ↦ rfl
  trans := fun _ _ _ h h' ↦ h'.trans h

namespace MschapV2Method

/-- Building a response draws random bytes and changes the object. -/
theorem respects_samePacket_build (X : Mschap) (challenge : Packet) :
    Respects SamePacket (build X challenge) := by
  have hheader (eapId : UInt8) (length : ℕ) (opCode : UInt8) :
      Respects SamePacket (liftM (packMschapv2Header eapId length opCode) : Hook Bytes) :=
    respects_liftM _
  have hobject (f : MschapV2Method → MschapV2Method) :
      Respects SamePacket (modify fun t ↦ (f t.1, t.2) : Hook PUnit) := respects_modify fun _ ↦ rfl
  have htoken : Respects SamePacket tokenBytes := fun _ ↦ rfl
  have hanswer (eapId mschapId : UInt8) (authenticatorChallenge : Bytes) :
      Respects SamePacket (answerChallenge X eapId mschapId authenticatorChallenge) :=
    (hobject fun m ↦ { m with authenticatorChallenge }).bind fun _ ↦ htoken.bind fun peerChallenge ↦
      (hobject fun m ↦ { m with peerChallenge }).bind fun _ ↦ respects_get.bind fun _ ↦
      (respects_liftM _).bind fun ntResponse ↦ (hobject fun m ↦ { m with ntResponse }).bind fun _ ↦
      (respects_liftM _).bind fun _ ↦ (respects_liftM _).bind fun _ ↦ respects_pure _
  have hresponse (eapId : UInt8) (payload : Bytes) :
      Respects SamePacket (buildResponse X eapId payload) := by
    rw [buildResponse]
    split
    · exact respects_throw _
    split
    · split
      · exact respects_throw _
      · exact hanswer _ _ _
    · exact respects_throw _
  have hsuccess (eapId : UInt8) (payload : Bytes) :
      Respects SamePacket (buildSuccessResponse X eapId payload) := by
    refine respects_get.bind fun t ↦ ?_
    split
    · refine (respects_liftM _).bind fun valid ↦ ?_
      split
      · exact hheader _ _ _
      · exact respects_throw _
    · exact hheader _ _ _
  refine (respects_liftM _).bind fun stored ↦ (respects_liftM _).bind fun payload ↦
    (respects_liftM _).bind fun parts ↦ ?_
  rw [buildResponseTo]
  split
  · exact hresponse _ _
  split
  · exact hsuccess _ _
  split
  · exact hheader _ _ _
  · exact respects_throw _

end MschapV2Method

/-! ### When a response is built -/

namespace Eap

/-- What raises returns nothing. -/
theorem not_exists_error {α : Type} (e : Exn) :
    ¬ ∃ a, (.error e : Except Exn α) = .ok a := by
  rintro ⟨a, h⟩
  cases h

theorem not_exists_run_throw {σ α : Type} (e : Exn) (s : σ) :
    ¬ ∃ a s', (throw e : Method σ α).run s = .ok a s' := by
  rintro ⟨a, s', h⟩
  cases h

/-- The first value of an attribute, where that is a byte string. -/
def FirstBytes (p : Packet) (code : Int) (b : Bytes) : Prop :=
  ∃ rest, p.attrs.get? (.int code) = some (.vals (.bytes b :: rest))

variable {p : Packet} {code : Int} {v : PyVal} {b : Bytes}

theorem rawItem_eq_ok_iff {stored : Stored PyVal} :
    rawItem p code = .ok stored ↔ p.attrs.get? (.int code) = some stored := by
  rw [rawItem]
  rcases p.attrs.get? (.int code) with - | stored' <;> simp

theorem firstOf_eq_ok_iff {stored : Stored PyVal} :
    firstOf stored = .ok v ↔ ∃ rest, stored = .vals (v :: rest) := by
  rcases stored with (- | ⟨v', rest⟩) | m <;> simp [firstOf]

theorem asBytes_eq_ok_iff : v.asBytes = .ok b ↔ v = .bytes b := by
  rcases v with - | i | t | b' <;> simp [PyVal.asBytes]

theorem packedString_eq_ok_iff : packedString v = .ok b ↔ v = .bytes b := by
  rcases v with - | i | t | b' <;> simp [packedString]

/-- The first value of an attribute as the methods read it. -/
theorem exists_firstOf_rawItem :
    (∃ stored, rawItem p code = .ok stored ∧ firstOf stored = .ok (.bytes b)) ↔
      FirstBytes p code b := by
  simp [rawItem_eq_ok_iff, firstOf_eq_ok_iff, FirstBytes]

theorem passwordFromPacket_eq_ok_iff :
    passwordFromPacket p = .ok (.bytes b) ↔ FirstBytes p userPasswordAttr b := by
  rw [← exists_firstOf_rawItem, passwordFromPacket]
  split
  case isTrue h =>
    have hnone : p.attrs.get? (.int userPasswordAttr) = none := by
      simpa [OrderedDict.contains] using h
    refine ⟨fun hraise ↦ (by cases hraise), ?_⟩
    rintro ⟨stored, hstored, -⟩
    rw [rawItem_eq_ok_iff, hnone] at hstored
    cases hstored
  case isFalse h => exact Except.bind_eq_ok_iff

theorem exists_unpackEapMd5_iff :
    (∃ parts, unpackEapMd5 v = .ok parts) ↔ ∃ payload, v = .bytes payload ∧ 5 ≤ payload.length := by
  have hbytes (h : ¬ ∃ payload, v = .bytes payload) :
      ¬ ∃ payload, v = .bytes payload ∧ 5 ≤ payload.length := by
    rintro ⟨payload, hv, -⟩
    exact h ⟨payload, hv⟩
  rcases v with - | i | t | payload
  · exact iff_of_false (not_exists_error _) (hbytes (by simp))
  · exact iff_of_false (not_exists_error _) (hbytes (by simp))
  · refine iff_of_false ?_ (hbytes (by simp))
    rw [unpackEapMd5, PyVal.len, Except.bind_of_ok]
    split <;> exact not_exists_error _
  · rw [unpackEapMd5, PyVal.len_bytes, Except.bind_of_ok]
    simp only [PyVal.bytes.injEq, exists_eq_left']
    split
    case isTrue h => exact iff_of_false (not_exists_error _) (by omega)
    case isFalse h =>
      refine iff_of_true ?_ (by omega)
      rcases payload with - | ⟨a, - | ⟨eapId, rest⟩⟩
      · simp at h
      · simp at h
      · exact ⟨_, rfl⟩

/-- An identifier that is read fits a byte. -/
theorem eapIdentifier_eq_ok {what : String} {least n : ℕ} (h : eapIdentifier what least v = .ok n) :
    ∃ payload, v = .bytes payload ∧ least ≤ payload.length ∧ n < 256 := by
  obtain ⟨length, hlen, h⟩ := Except.bind_eq_ok_iff.1 h
  split at h
  · cases h
  case isFalse hleast =>
    rcases v with - | i | t | payload
    iterate 3 cases h
    cases hlen
    rcases payload with - | ⟨a, - | ⟨eapId, rest⟩⟩
    · cases h
    · cases h
    · cases h
      exact ⟨_, rfl, by omega, eapId.toNat_lt⟩

theorem exists_eapIdentifier (what : String) {least : ℕ} {payload : Bytes} (hleast : 2 ≤ least)
    (hlen : least ≤ payload.length) : ∃ n, eapIdentifier what least (.bytes payload) = .ok n := by
  rcases payload with - | ⟨a, - | ⟨eapId, rest⟩⟩
  · simp at hlen
    omega
  · simp at hlen
    omega
  · refine ⟨eapId.toNat, ?_⟩
    rw [eapIdentifier, PyVal.len_bytes, Except.bind_of_ok, if_neg (by omega)]
    rfl

/-- The number of bytes is a field of two bytes. -/
theorem exists_packResponse_iff {eapId : ℕ} (type : UInt8) {data : Bytes} (hid : eapId < 256) :
    (∃ response, packResponse eapId type data = .ok response) ↔ data.length + 5 < 65536 := by
  have hpack : packUnsigned 1 eapId = .ok (Bytes.ofNatBE 1 eapId) := by
    rw [packUnsigned, if_pos (by omega), Int.toNat_natCast]
  rw [packResponse, hpack, Except.bind_of_ok, packUnsigned]
  split
  case isTrue h => exact iff_of_true ⟨_, rfl⟩ (by omega)
  case isFalse h => exact iff_of_false (not_exists_error _) (by omega)

variable {s : PacketState}

/-- **What EAP-MD5 answers.** -/
theorem exists_run_buildMd5_iff (E : Env) (challenge : Packet) :
    (∃ response s', (buildMd5 E challenge).run s = .ok response s') ↔
      ∃ payload, FirstBytes challenge eapMessageAttr payload ∧ 5 ≤ payload.length ∧
        ∃ password, FirstBytes s.pkt userPasswordAttr password := by
  simp only [buildMd5, run_bind_eq_ok_iff, run_liftM_eq_ok_iff]
  constructor
  · rintro ⟨_, _, stored, _, ⟨hstored, rfl⟩, v, _, ⟨hv, rfl⟩, parts, _, ⟨hparts, rfl⟩, _, _, hget,
      raw, _, ⟨hraw, rfl⟩, password, _, ⟨hpassword, rfl⟩, -⟩
    cases hget
    obtain ⟨payload, rfl, hlen⟩ := exists_unpackEapMd5_iff.1 ⟨parts, hparts⟩
    rw [asBytes_eq_ok_iff] at hpassword
    subst hpassword
    exact ⟨payload, exists_firstOf_rawItem.1 ⟨stored, hstored, hv⟩, hlen, password,
      passwordFromPacket_eq_ok_iff.1 hraw⟩
  · rintro ⟨payload, hpayload, hlen, password, hpassword⟩
    obtain ⟨stored, hstored, hv⟩ := exists_firstOf_rawItem.2 hpayload
    obtain ⟨parts, hparts⟩ := exists_unpackEapMd5_iff.2 ⟨payload, rfl, hlen⟩
    exact ⟨_, _, stored, _, ⟨hstored, rfl⟩, _, _, ⟨hv, rfl⟩, parts, _, ⟨hparts, rfl⟩, s, s, rfl,
      _, _, ⟨passwordFromPacket_eq_ok_iff.2 hpassword, rfl⟩, _, _, ⟨rfl, rfl⟩, rfl⟩

/-- **What EAP-GTC answers.** -/
theorem exists_run_buildGtc_iff (challenge : Packet) :
    (∃ response s', (buildGtc challenge).run s = .ok response s') ↔
      ∃ payload, FirstBytes challenge eapMessageAttr payload ∧ 5 ≤ payload.length ∧
        ∃ password, FirstBytes s.pkt userPasswordAttr password ∧
          password.length + 5 < 65536 := by
  simp only [buildGtc, run_bind_eq_ok_iff, run_liftM_eq_ok_iff]
  constructor
  · rintro ⟨response, _, stored, _, ⟨hstored, rfl⟩, v, _, ⟨hv, rfl⟩, eapId, _, ⟨hid, rfl⟩, _, _, hget,
      raw, _, ⟨hraw, rfl⟩, password, _, ⟨hpassword, rfl⟩, hpack, -⟩
    cases hget
    obtain ⟨payload, rfl, hlen, hbyte⟩ := eapIdentifier_eq_ok hid
    rw [packedString_eq_ok_iff] at hpassword
    subst hpassword
    exact ⟨payload, exists_firstOf_rawItem.1 ⟨stored, hstored, hv⟩, hlen, password,
      passwordFromPacket_eq_ok_iff.1 hraw, (exists_packResponse_iff 6 hbyte).1 ⟨response, hpack⟩⟩
  · rintro ⟨payload, hpayload, hlen, password, hpassword, hfits⟩
    obtain ⟨stored, hstored, hv⟩ := exists_firstOf_rawItem.2 hpayload
    obtain ⟨eapId, hid⟩ := exists_eapIdentifier "EAP-GTC challenge" (by decide) hlen
    obtain ⟨-, -, -, hbyte⟩ := eapIdentifier_eq_ok hid
    obtain ⟨response, hresponse⟩ := (exists_packResponse_iff 6 hbyte).2 hfits
    exact ⟨response, _, stored, _, ⟨hstored, rfl⟩, _, _, ⟨hv, rfl⟩, eapId, _, ⟨hid, rfl⟩, s, s, rfl,
      _, _, ⟨passwordFromPacket_eq_ok_iff.2 hpassword, rfl⟩, _, _, ⟨rfl, rfl⟩, hresponse, rfl⟩

end Eap

namespace MschapV2Method

open Eap

/-- A challenge to the client, which it can answer: the challenge itself has 16 bytes, and the length
of the answer is a field of two bytes. -/
structure HoldsChallenge (m : MschapV2Method) (payload : Bytes) : Prop where
  opCode : payload[5]? = some opChallenge
  length : 26 ≤ payload.length
  valueSize : payload[9]? = some 16
  fits : m.userName.length + 59 < 65536

/-- The end of an exchange that went well. An authenticator response is that of the server. -/
structure HoldsSuccess (X : Mschap) (m : MschapV2Method) (payload : Bytes) : Prop where
  opCode : payload[5]? = some opSuccess
  verified : (Mschap.fromMarker (payload.drop 6)).isSome → X.verifyAuthenticatorResponse m.password
    m.ntResponse m.peerChallenge m.authenticatorChallenge m.userName (payload.drop 6) = .ok true

/-- The packets of the protocol that an object answers. -/
structure Understands (X : Mschap) (m : MschapV2Method) (payload : Bytes) : Prop where
  eapType : payload[4]? = some eapTypeMschapv2
  message : m.HoldsChallenge payload ∨ m.HoldsSuccess X payload ∨ payload[5]? = some opFailure

variable {X : Mschap} {s : EapState MschapV2Method}

theorem exists_packMschapv2Header_iff (eapId : UInt8) (length : ℕ) (opCode : UInt8) :
    (∃ header, packMschapv2Header eapId length opCode = .ok header) ↔ length < 65536 := by
  rw [packMschapv2Header, packUnsigned]
  split
  case isTrue h => exact iff_of_true ⟨_, rfl⟩ (by omega)
  case isFalse h => exact iff_of_false (not_exists_error _) (by omega)

theorem exists_run_answerChallenge_iff (hX : X.DigestLengths) (eapId mschapId : UInt8)
    {challenge : Bytes} (hchallenge : challenge.length = 16) :
    (∃ response s', (answerChallenge X eapId mschapId challenge).run s = .ok response s') ↔
      s.1.userName.length + 59 < 65536 := by
  obtain ⟨ntResponse, hnt⟩ := Mschap.exists_generateNtResponse (fun b ↦ by rw [hX.sha1]; decide)
    (hX.md4 (Mschap.utf16le s.1.password)) hchallenge (s.2.world.length_bytes 16) s.1.userName
  simp only [answerChallenge, run_bind_eq_ok_iff, run_liftM_eq_ok_iff]
  constructor
  · rintro ⟨_, _, _, _, hfirst, _, _, htoken, _, _, hsecond, _, _, hget, _, _, -, _, _, -, header, _,
      ⟨hheader, -⟩, -⟩
    cases hfirst
    cases htoken
    cases hsecond
    cases hget
    have hfits := (exists_packMschapv2Header_iff ..).1 ⟨header, hheader⟩
    change 5 + (1 + 1 + 2 + 1 + 49 + s.1.userName.length) < 65536 at hfits
    omega
  · intro hfits
    obtain ⟨header, hheader⟩ := (exists_packMschapv2Header_iff eapId
      (5 + (1 + 1 + 2 + 1 + 49 + s.1.userName.length)) opResponse).2 (by omega)
    have hlength : packUnsigned 2 (1 + 1 + 2 + 1 + 49 + s.1.userName.length : ℕ) =
        .ok (Bytes.ofNatBE 2 (1 + 1 + 2 + 1 + 49 + s.1.userName.length)) := by
      rw [packUnsigned, if_pos (by omega), Int.toNat_natCast]
    exact ⟨_, _, _, _, rfl, _, _, rfl, _, _, rfl, _, _, rfl, ntResponse, _, ⟨hnt, rfl⟩, _, _, rfl, header,
      _, ⟨hheader, rfl⟩, _, _, ⟨hlength, rfl⟩, rfl⟩

theorem exists_run_buildResponse_iff (hX : X.DigestLengths) (eapId : UInt8) (payload : Bytes) :
    (∃ response s', (buildResponse X eapId payload).run s = .ok response s') ↔
      26 ≤ payload.length ∧ payload[9]? = some 16 ∧ s.1.userName.length + 59 < 65536 := by
  rw [buildResponse]
  split
  case isTrue h => exact iff_of_false (not_exists_run_throw _ s) fun hread ↦ absurd hread.1 (by omega)
  case isFalse h =>
    have hbody : (payload.drop 6).length = payload.length - 6 := by simp
    have hsize : payload[9]? = (payload.drop 6)[3]? := by simp
    rw [hsize]
    generalize payload.drop 6 = rest at hbody
    rcases rest with - | ⟨mschapId, - | ⟨l, - | ⟨l', - | ⟨valueSize, body⟩⟩⟩⟩
    iterate 4
      simp only [List.length_nil, List.length_cons] at hbody
      omega
    simp only [List.length_cons] at hbody
    dsimp only
    split
    case cons.cons.cons.cons.isTrue hne =>
      exact iff_of_false (not_exists_run_throw _ s) fun hread ↦ hne (Option.some.inj hread.2.1)
    case cons.cons.cons.cons.isFalse heq =>
      rw [exists_run_answerChallenge_iff hX eapId mschapId (by rw [List.length_take]; omega)]
      exact ⟨fun hfits ↦ ⟨by omega, congrArg some (not_not.1 heq), hfits⟩, fun hread ↦ hread.2.2⟩

theorem exists_run_buildSuccessResponse_iff (eapId : UInt8) (payload : Bytes) :
    (∃ response s', (buildSuccessResponse X eapId payload).run s = .ok response s') ↔
      ((Mschap.fromMarker (payload.drop 6)).isSome → X.verifyAuthenticatorResponse s.1.password
        s.1.ntResponse s.1.peerChallenge s.1.authenticatorChallenge s.1.userName (payload.drop 6) =
          .ok true) := by
  obtain ⟨header, hheader⟩ := (exists_packMschapv2Header_iff eapId 6 opSuccess).2 (by decide)
  have hack : (liftM (packMschapv2Header eapId 6 opSuccess) : Hook Bytes).run s = .ok header s := by
    rw [hheader, run_liftM_ok]
  rw [buildSuccessResponse, run_bind_of_ok (run_get s)]
  split
  case isTrue h =>
    simp only [h, true_imp_iff]
    constructor
    · rintro ⟨response, s', hrun⟩
      obtain ⟨valid, _, hvalid, hrest⟩ := run_bind_eq_ok_iff.1 hrun
      obtain ⟨hvalid, rfl⟩ := run_liftM_eq_ok_iff.1 hvalid
      rcases valid with - | -
      · cases hrest
      · exact hvalid
    · intro hvalid
      rw [hvalid]
      exact ⟨header, s, hack⟩
  case isFalse h => exact ⟨fun _ hsome ↦ absurd hsome h, fun _ ↦ ⟨header, s, hack⟩⟩

theorem exists_run_buildResponseTo_iff (hX : X.DigestLengths) {payload : Bytes} {opCode : UInt8}
    (hop : payload[5]? = some opCode) (eapId : UInt8) :
    (∃ response s', (buildResponseTo X payload eapId opCode).run s = .ok response s') ↔
      s.1.HoldsChallenge payload ∨ s.1.HoldsSuccess X payload ∨ payload[5]? = some opFailure := by
  have hfailure : (buildFailureResponse eapId : Hook Bytes).run s =
      .ok ([2, eapId] ++ Bytes.ofNatBE 2 6 ++ [eapTypeMschapv2, opFailure]) s := rfl
  rw [buildResponseTo]
  split
  case isTrue h =>
    subst h
    rw [exists_run_buildResponse_iff hX]
    refine ⟨fun hread ↦ .inl ⟨hop, hread.1, hread.2.1, hread.2.2⟩, ?_⟩
    rintro (h | h | h)
    · exact ⟨h.length, h.valueSize, h.fits⟩
    · exact absurd (hop.symm.trans h.opCode) (by decide)
    · exact absurd (hop.symm.trans h) (by decide)
  split
  case isFalse.isTrue h =>
    subst h
    rw [exists_run_buildSuccessResponse_iff]
    refine ⟨fun hverified ↦ .inr (.inl ⟨hop, hverified⟩), ?_⟩
    rintro (h | h | h)
    · exact absurd (hop.symm.trans h.opCode) (by decide)
    · exact h.verified
    · exact absurd (hop.symm.trans h) (by decide)
  split
  case isFalse.isFalse.isTrue h =>
    subst h
    exact ⟨fun _ ↦ .inr (.inr hop), fun _ ↦ ⟨_, _, hfailure⟩⟩
  case isFalse.isFalse.isFalse hchallenge hsuccess hne =>
    refine iff_of_false (not_exists_run_throw _ s) ?_
    rintro (h | h | h)
    · exact absurd (Option.some.inj (hop.symm.trans h.opCode)) hchallenge
    · exact absurd (Option.some.inj (hop.symm.trans h.opCode)) hsuccess
    · exact absurd (Option.some.inj (hop.symm.trans h)) hne

theorem unpackEapMschapv2_eq_ok_iff {v : PyVal} {parts : Bytes × UInt8 × UInt8} :
    unpackEapMschapv2 v = .ok parts ↔ v = .bytes parts.1 ∧ parts.1[1]? = some parts.2.1 ∧
      parts.1[4]? = some eapTypeMschapv2 ∧ parts.1[5]? = some parts.2.2 := by
  rcases parts with ⟨payload, eapId, opCode⟩
  constructor
  · intro h
    obtain ⟨length, hlen, h⟩ := Except.bind_eq_ok_iff.1 h
    split at h
    · cases h
    split at h
    · split at h
      · cases h
      case isFalse htype =>
        cases h
        exact ⟨rfl, rfl, congrArg some (not_not.1 htype), rfl⟩
    · cases h
  · rintro ⟨rfl, hid, htype, hop⟩
    rcases payload with - | ⟨code, - | ⟨b, - | ⟨l, - | ⟨l', - | ⟨t, - | ⟨o, rest⟩⟩⟩⟩⟩⟩
    iterate 6 cases hop
    obtain rfl : b = eapId := Option.some.inj hid
    obtain rfl : t = eapTypeMschapv2 := Option.some.inj htype
    obtain rfl : o = opCode := Option.some.inj hop
    rw [unpackEapMschapv2, PyVal.len_bytes, Except.bind_of_ok, if_neg (by simp)]
    rfl

/-- **What EAP-MSCHAPv2 answers.** -/
theorem exists_run_build_iff (hX : X.DigestLengths) (challenge : Packet) :
    (∃ response s', (build X challenge).run s = .ok response s') ↔
      ∃ payload, FirstBytes challenge eapMessageAttr payload ∧ s.1.Understands X payload := by
  simp only [build, run_bind_eq_ok_iff, run_liftM_eq_ok_iff]
  constructor
  · rintro ⟨response, s', stored, _, ⟨hstored, rfl⟩, v, _, ⟨hv, rfl⟩, parts, _, ⟨hparts, rfl⟩, hbuild⟩
    obtain ⟨rfl, -, htype, hop⟩ := unpackEapMschapv2_eq_ok_iff.1 hparts
    exact ⟨parts.1, exists_firstOf_rawItem.1 ⟨stored, hstored, hv⟩, htype,
      (exists_run_buildResponseTo_iff hX hop _).1 ⟨response, s', hbuild⟩⟩
  · rintro ⟨payload, hpayload, htype, hmessage⟩
    obtain ⟨stored, hstored, hv⟩ := exists_firstOf_rawItem.2 hpayload
    have hlen : 4 < payload.length := (List.getElem?_eq_some_iff.1 htype).1
    obtain ⟨opCode, hop⟩ : ∃ opCode, payload[5]? = some opCode := by
      rcases hmessage with h | h | h
      exacts [⟨_, h.opCode⟩, ⟨_, h.opCode⟩, ⟨_, h⟩]
    have hparts : unpackEapMschapv2 (.bytes payload) = .ok (payload, payload[1], opCode) :=
      unpackEapMschapv2_eq_ok_iff.2 ⟨rfl, List.getElem?_eq_getElem _, htype, hop⟩
    obtain ⟨response, s', hbuild⟩ := (exists_run_buildResponseTo_iff hX hop payload[1]).2 hmessage
    exact ⟨response, s', stored, _, ⟨hstored, rfl⟩, _, _, ⟨hv, rfl⟩, _, _, ⟨hparts, rfl⟩, hbuild⟩

end MschapV2Method

namespace EapMethod

variable (E : Env) (X : Mschap)

/-- The first part of `method.respond(pkt, challenge)`. -/
def build (challenge : Packet) : Method (EapState EapMethod) Bytes := do
  match (← get).1 with
  | md5 => onPart Prod.snd (fun s t ↦ (t.1, s)) (Eap.buildMd5 E challenge)
  | gtc => onPart Prod.snd (fun s t ↦ (t.1, s)) (Eap.buildGtc challenge)
  | mschapv2 method =>
    onPart (fun s ↦ (method, s.2)) (fun t _ ↦ (mschapv2 t.1, t.2))
      (MschapV2Method.build X challenge)

/-- **A method builds its response and then writes it.** -/
theorem respond_eq (challenge : Packet) :
    respond E X challenge = build E X challenge >>= fun response ↦
      onPacket (Eap.answer challenge response) := by
  have hmschapv2 (method : MschapV2Method) (s : EapState EapMethod) :
      (onMschapv2 method (MschapV2Method.respond X challenge)).run s =
        (onPart (fun s ↦ (method, s.2)) (fun t _ ↦ (mschapv2 t.1, t.2))
          (MschapV2Method.build X challenge) >>= fun response ↦
            onPacket (Eap.answer challenge response)).run s := by
    rw [onMschapv2, MschapV2Method.respond_eq, run_onPart, run_bind, run_bind, run_onPart]
    rcases (MschapV2Method.build X challenge).run (method, s.2) with ⟨response, t⟩ | ⟨e, t⟩
    · dsimp only
      rw [run_onPart, onPacket, run_onPart]
      rcases (Eap.answer challenge response).run t.2 with ⟨u, t'⟩ | ⟨e, t'⟩ <;> rfl
    · rfl
  have hpacket (m : PacketMethod Bytes) :
      onPacket (m >>= Eap.answer challenge) =
        onPart Prod.snd (fun s t ↦ (t.1, s)) m >>= fun response ↦
          onPacket (Eap.answer challenge response) := by
    apply onPart_bind
    · exact fun _ _ ↦ rfl
    · exact fun _ _ _ ↦ rfl
  funext s
  rcases s with ⟨method, s⟩
  cases method with
  | md5 =>
    have h := (congrArg onPacket (Eap.applyEapMd5Challenge_eq E challenge)).trans (hpacket _)
    exact congrFun h (md5, s)
  | gtc =>
    have h := (congrArg onPacket (Eap.applyEapGtcChallenge_eq challenge)).trans (hpacket _)
    exact congrFun h (gtc, s)
  | mschapv2 method => exact hmschapv2 method (mschapv2 method, s)

theorem respects_samePacket_build (challenge : Packet) :
    Respects SamePacket (build E X challenge) := by
  have hmd5 : Respects Eq (Eap.buildMd5 E challenge) :=
    (respects_liftM _).bind fun _ ↦ (respects_liftM _).bind fun _ ↦ (respects_liftM _).bind fun _ ↦
      respects_get.bind fun _ ↦ (respects_liftM _).bind fun _ ↦ (respects_liftM _).bind fun _ ↦
      respects_pure _
  have hgtc : Respects Eq (Eap.buildGtc challenge) :=
    (respects_liftM _).bind fun _ ↦ (respects_liftM _).bind fun _ ↦ (respects_liftM _).bind fun _ ↦
      respects_get.bind fun _ ↦ (respects_liftM _).bind fun _ ↦ (respects_liftM _).bind fun _ ↦
      respects_liftM _
  rintro ⟨method, s⟩
  cases method with
  | md5 =>
    show SamePacket (md5, s) (after (onPart Prod.snd (fun s t ↦ (t.1, s)) (Eap.buildMd5 E challenge))
      (md5, s))
    rw [after_onPart]
    exact congrArg PacketState.pkt (hmd5 s).symm
  | gtc =>
    show SamePacket (gtc, s) (after (onPart Prod.snd (fun s t ↦ (t.1, s)) (Eap.buildGtc challenge))
      (gtc, s))
    rw [after_onPart]
    exact congrArg PacketState.pkt (hgtc s).symm
  | mschapv2 method =>
    show SamePacket (mschapv2 method, s) (after (onPart (fun s ↦ (method, s.2))
      (fun t _ ↦ (mschapv2 t.1, t.2)) (MschapV2Method.build X challenge)) (mschapv2 method, s))
    rw [after_onPart]
    exact MschapV2Method.respects_samePacket_build X challenge (method, s)

/-- The method finds what it reads: a packet of its type in the first EAP-Message, and in the request
the credentials that the response rests on. -/
def WellFormed (challenge : Packet) (s : EapState EapMethod) : Prop :=
  ∃ payload, Eap.FirstBytes challenge Eap.eapMessageAttr payload ∧
    match s.1 with
    | md5 => 5 ≤ payload.length ∧ ∃ password, Eap.FirstBytes s.2.pkt Eap.userPasswordAttr password
    | gtc => 5 ≤ payload.length ∧ ∃ password, Eap.FirstBytes s.2.pkt Eap.userPasswordAttr password ∧
        password.length + 5 < 65536
    | mschapv2 method => method.Understands X payload

variable {X} {challenge : Packet} {s : EapState EapMethod}

/-- A response is built for the well-formed challenges. -/
theorem exists_run_build_iff (hX : X.DigestLengths) :
    (∃ response s', (build E X challenge).run s = .ok response s') ↔ WellFormed X challenge s := by
  have hpart {τ : Type} (get : EapState EapMethod → τ) (set : τ → EapState EapMethod → EapState EapMethod)
      (m : Method τ Bytes) : (∃ response s', (onPart get set m).run s = .ok response s') ↔
        ∃ response t, m.run (get s) = .ok response t := by
    rw [run_onPart]
    rcases m.run (get s) with ⟨response, t⟩ | ⟨e, t⟩ <;> simp
  rcases s with ⟨method, s⟩
  cases method with
  | md5 => exact (hpart Prod.snd (fun s t ↦ (t.1, s)) _).trans (Eap.exists_run_buildMd5_iff E challenge)
  | gtc => exact (hpart Prod.snd (fun s t ↦ (t.1, s)) _).trans (Eap.exists_run_buildGtc_iff challenge)
  | mschapv2 method =>
    exact (hpart (fun s ↦ (method, s.2)) (fun t _ ↦ (mschapv2 t.1, t.2)) _).trans
      (MschapV2Method.exists_run_build_iff hX challenge)

variable (X)

/-- The response is in the EAP-Message, and the State is the challenge's. -/
structure Answered (challenge : Packet) (s s' : EapState EapMethod) : Prop where
  response : ∃ response s₁, (build E X challenge).run s = .ok response s₁ ∧
    s'.2.pkt.attrs.get? (.int Eap.eapMessageAttr) = some (.vals [.bytes response])
  state : ∀ state, challenge.attrs.get? (.int Eap.stateAttr) = some state →
    s'.2.pkt.attrs.get? (.int Eap.stateAttr) = some state

/-- All or nothing. -/
structure RespondsWell (challenge : Packet) (s : EapState EapMethod) : Prop where
  returned : ∀ s', (respond E X challenge).run s = .ok () s' → Answered E X challenge s s'
  raised : ∀ e s', (respond E X challenge).run s = .error e s' → s'.2.pkt.attrs = s.2.pkt.attrs
  succeeds : WellFormed X challenge s → ∃ s', (respond E X challenge).run s = .ok () s'

variable {E X}

/-! ### What becomes of a response -/

theorem exists_contains_iff : challenge.attrs.contains (.int Eap.stateAttr) ↔
    ∃ state, challenge.attrs.get? (.int Eap.stateAttr) = some state := by
  rw [OrderedDict.contains, Option.isSome_iff_exists]

/-- A response that is not built leaves the packet alone. -/
theorem attrs_of_build_raises {e : Exn} {s₁ : EapState EapMethod}
    (hbuild : (build E X challenge).run s = .error e s₁) :
    (respond E X challenge).run s = .error e s₁ ∧ s₁.2.pkt.attrs = s.2.pkt.attrs := by
  have hsame := respects_samePacket_build E X challenge s
  rw [after_of_error hbuild] at hsame
  exact ⟨by rw [respond_eq, run_bind_of_error hbuild], congrArg Packet.attrs hsame⟩

/-- With a State to carry over, the response is given. -/
theorem exists_answered_of_state {response : Bytes} {s₁ : EapState EapMethod}
    {state : Stored PyVal} (hbuild : (build E X challenge).run s = .ok response s₁)
    (hstate : challenge.attrs.get? (.int Eap.stateAttr) = some state) :
    ∃ s', (respond E X challenge).run s = .ok () s' ∧ Answered E X challenge s s' := by
  refine ⟨(s₁.1, { s₁.2 with pkt := Eap.answered s₁.2.pkt response state }), ?_,
    ⟨response, s₁, hbuild, ?_⟩, fun state' hstate' ↦ ?_⟩
  · rw [respond_eq, run_bind_of_ok hbuild, onPacket, run_onPart, Eap.run_answer_of_some hstate]
  · show (Eap.answered s₁.2.pkt response state).attrs.get? _ = _
    rw [Eap.answered, OrderedDict.get?_set_ne _ (by decide), OrderedDict.get?_set_self]
  · show (Eap.answered s₁.2.pkt response state).attrs.get? _ = _
    rw [Eap.answered, OrderedDict.get?_set_self, ← hstate, hstate']

/-- Without a State the lookup raises, and by then the response is stored. -/
theorem exists_raises_of_no_state {response : Bytes} {s₁ : EapState EapMethod}
    (hbuild : (build E X challenge).run s = .ok response s₁)
    (hstate : ¬ challenge.attrs.contains (.int Eap.stateAttr)) :
    ∃ s', (respond E X challenge).run s = .error .keyError s' ∧
      s'.2.pkt.attrs.get? (.int Eap.eapMessageAttr) = some (.vals [.bytes response]) := by
  have hnone : challenge.attrs.get? (.int Eap.stateAttr) = none := by
    simpa [OrderedDict.contains] using hstate
  rw [respond_eq, run_bind_of_ok hbuild, onPacket, run_onPart, Eap.run_answer_of_none hnone]
  exact ⟨_, rfl, OrderedDict.get?_set_self ..⟩

/-- **A method answers all or nothing exactly where there is a State to carry over, or where there is
nothing to answer.** -/
theorem respondsWell_iff (hX : X.DigestLengths) :
    RespondsWell E X challenge s ↔
      challenge.attrs.contains (.int Eap.stateAttr) ∨ ¬ WellFormed X challenge s := by
  constructor
  · intro h
    by_contra hcon
    obtain ⟨hstate, hwell⟩ := not_or.1 hcon
    rw [not_not] at hwell
    obtain ⟨response, s₁, hbuild⟩ := (exists_run_build_iff E hX).2 hwell
    obtain ⟨s', hraise, -⟩ := exists_raises_of_no_state hbuild hstate
    obtain ⟨s'', hreturn⟩ := h.succeeds hwell
    rw [hraise] at hreturn
    cases hreturn
  · intro h
    rcases hbuild : (build E X challenge).run s with ⟨response, s₁⟩ | ⟨e, s₁⟩
    · have hwell := (exists_run_build_iff E hX).1 ⟨response, s₁, hbuild⟩
      obtain ⟨state, hstate⟩ := exists_contains_iff.1 (h.resolve_right (not_not.2 hwell))
      obtain ⟨s', hreturn, hanswered⟩ := exists_answered_of_state hbuild hstate
      refine ⟨fun s'' hok ↦ ?_, fun e s'' hraise ↦ ?_, fun _ ↦ ⟨s', hreturn⟩⟩
      · rw [hreturn] at hok
        cases hok
        exact hanswered
      · rw [hreturn] at hraise
        cases hraise
    · obtain ⟨hraise, hattrs⟩ := attrs_of_build_raises hbuild
      refine ⟨fun s'' hok ↦ ?_, fun e' s'' hraise' ↦ ?_, fun hwell ↦ ?_⟩
      · rw [hraise] at hok
        cases hok
      · rw [hraise] at hraise'
        cases hraise'
        exact hattrs
      · obtain ⟨response, s', hok⟩ := (exists_run_build_iff E hX).2 hwell
        rw [hbuild] at hok
        cases hok

/-- An Access-Request with a password, answering with EAP-GTC. -/
def gtcRequest : Packet :=
  { cls := .auth, code := PacketType.accessRequest, id := some 7, authType := "eap-gtc",
    attrs := OrderedDict.set ∅ (.int 2) (.vals [.bytes [112]]) }

/-- An Access-Challenge with an EAP-GTC prompt, and perhaps a State. -/
def gtcChallenge (others : Attrs PyVal) : Packet :=
  { cls := .auth, code := PacketType.accessChallenge, id := some 7,
    attrs := others.set (.int 79) (.vals [.bytes [1, 9, 0, 7, 6, 63, 32]]) }

theorem respondsWell_gtcChallenge :
    RespondsWell (Env.ofByte (fun _ ↦ 0) fun _ _ ↦ 0) Mschap.zero
      (gtcChallenge (OrderedDict.set ∅ (.int 24) (.vals [.bytes [1]])))
      (gtc, { pkt := gtcRequest, world := default }) :=
  (respondsWell_iff Mschap.digestLengths_zero).2 (.inl (by decide))

/-- The challenge has no State, which it need not have: the response is stored, and then the lookup
of the State raises. -/
theorem not_respondsWell_gtcChallenge :
    ¬ RespondsWell (Env.ofByte (fun _ ↦ 0) fun _ _ ↦ 0) Mschap.zero (gtcChallenge ∅)
      (gtc, { pkt := gtcRequest, world := default }) := by
  intro h
  have hwell : WellFormed Mschap.zero (gtcChallenge ∅)
      (gtc, { pkt := gtcRequest, world := default }) :=
    ⟨[1, 9, 0, 7, 6, 63, 32], ⟨[], rfl⟩, by decide, [112], ⟨[], rfl⟩, by decide⟩
  obtain ⟨s', hreturn⟩ := h.succeeds hwell
  cases hreturn

end EapMethod

end Pyrad2
