import Pyrad2.Eap.Base
import Pyrad2.Packet.Salt

/-!
# EAP-MD5

The challenge and response of EAP-MD5, and its binding as a method.
-/

namespace Pyrad2

namespace Eap

/-- `build_eap_md5_challenge(eap_id, password, eap_md5)` -/
def buildEapMd5Challenge (E : Env) (eapId : UInt8) (password eapMd5 : Bytes) : Bytes :=
  let md5Challenge := E.md5 ([eapId] ++ password ++ eapMd5.drop 1)
  [2, eapId] ++ Bytes.ofNatBE 2 (md5Challenge.length + 6) ++ [4] ++
    Bytes.ofNatBE 1 md5Challenge.length ++ md5Challenge

/-- `struct.unpack("!BBHB%ds" % (len(eap_payload) - 5), eap_payload)`: the identifier, and what
follows the type. -/
def unpackEapMd5 (payload : PyVal) : Except Exn (UInt8 × Bytes) := do
  let length ← payload.len
  if length < 5 then throw .structError
  match ← payload.asBytes with
  | _ :: eapId :: rest => return (eapId, rest.drop 3)
  | _ => throw .structError

/-- `apply_eap_md5_challenge(pkt, reply)` -/
def applyEapMd5Challenge (E : Env) (reply : Packet) : PacketMethod Unit := do
  let eapPayload ← firstOf (← rawItem reply eapMessageAttr)
  let (eapId, eapMd5) ← unpackEapMd5 eapPayload
  let password ← (← passwordFromPacket (← get).pkt).asBytes
  Packet.store (.int eapMessageAttr) (.vals [.bytes (buildEapMd5Challenge E eapId password eapMd5)])
  Packet.store (.int stateAttr) (← rawItem reply stateAttr)

/-! ### The response -/

/-- A packet of EAP-MD5: code, identifier, length, type, the size of the value, the value, and a name
behind it. -/
def eapMd5Packet (code eapId : UInt8) (value name : Bytes) : Bytes :=
  [code, eapId] ++ Bytes.ofNatBE 2 (6 + value.length + name.length) ++
    [4, UInt8.ofNat value.length] ++ value ++ name

/-- What is built is a response, to the digest of everything behind the first byte. -/
theorem buildEapMd5Challenge_eq (E : Env) (eapId : UInt8) (password eapMd5 : Bytes) :
    buildEapMd5Challenge E eapId password eapMd5 =
      eapMd5Packet 2 eapId (E.md5 ([eapId] ++ password ++ eapMd5.drop 1)) [] := by
  rw [buildEapMd5Challenge, eapMd5Packet, E.md5_length]
  simp [Bytes.ofNatBE]

/-- The values of the reply's EAP-Message make up the packet. -/
structure CarriesEap (reply : Packet) (first : Bytes) (rest : List Bytes) (payload : Bytes) :
    Prop where
  stored : reply.attrs.get? (.int eapMessageAttr) = some (.vals ((first :: rest).map .bytes))
  joined : (first :: rest).flatten = payload

/-- The EAP-Message that the hook leaves is the response with the digest of identifier, password and
value, whether or not the hook returns. -/
def AnswersMd5 (E : Env) (s : PacketState) (reply : Packet) (eapId : UInt8)
    (password value : Bytes) : Prop :=
  (EStateM.after (applyEapMd5Challenge E reply) s).pkt.attrs.get? (.int eapMessageAttr) =
    some (.vals [.bytes (eapMd5Packet 2 eapId (E.md5 ([eapId] ++ password ++ value)) [])])

section

variable {s : PacketState} {reply : Packet} {first : Bytes} {rest : List Bytes} {eapId : UInt8}
  {password value name : Bytes}

/-- What the hook stores when the first value of the EAP-Message reaches as far as the type. -/
theorem after_applyEapMd5Challenge (E : Env) {payload : Bytes}
    (hreply : CarriesEap reply first rest payload)
    (hpassword : passwordFromPacket s.pkt = .ok (.bytes password)) (hlen : 5 ≤ first.length)
    (hid : first[1]? = some eapId) :
    (EStateM.after (applyEapMd5Challenge E reply) s).pkt.attrs.get? (.int eapMessageAttr) =
      some (.vals [.bytes (buildEapMd5Challenge E eapId password (first.drop 5))]) := by
  have hunpack : unpackEapMd5 (.bytes first) = .ok (eapId, first.drop 5) := by
    rcases first with - | ⟨a, - | ⟨b, t⟩⟩
    · simp at hlen
    · simp at hlen
    · cases hid
      rw [unpackEapMd5, PyVal.len_bytes, Except.bind_of_ok]
      rw [if_neg hlen.not_gt]
      rfl
  have hitem : (liftM (rawItem reply eapMessageAttr) : PacketMethod (Stored PyVal)).run s =
      .ok (.vals ((first :: rest).map .bytes)) s := by
    rw [rawItem, hreply.stored]
    rfl
  have hparts : (liftM (unpackEapMd5 (.bytes first)) : PacketMethod (UInt8 × Bytes)).run s =
      .ok (eapId, first.drop 5) s := by
    rw [hunpack]
    rfl
  have hread : (liftM (passwordFromPacket s.pkt) : PacketMethod PyVal).run s =
      .ok (.bytes password) s := by
    rw [hpassword]
    rfl
  have hstored (st : PacketState) :
      (EStateM.after (do Packet.store (.int stateAttr) (← rawItem reply stateAttr) :
        PacketMethod Unit) st).pkt.attrs.get? (.int eapMessageAttr) =
          st.pkt.attrs.get? (.int eapMessageAttr) := by
    have hne : Key.int eapMessageAttr ≠ .int stateAttr := by decide
    rcases hstate : rawItem reply stateAttr with e | stored
    · rfl
    · exact OrderedDict.get?_set_ne _ hne _
  rw [applyEapMd5Challenge, EStateM.after_bind_of_ok hitem]
  show (EStateM.after (liftM (unpackEapMd5 (.bytes first)) >>= fun parts ↦ _) s).pkt.attrs.get? _ = _
  rw [EStateM.after_bind_of_ok hparts]
  show (EStateM.after (liftM (passwordFromPacket s.pkt) >>= fun password ↦ _) s).pkt.attrs.get? _ = _
  rw [EStateM.after_bind_of_ok hread]
  refine (hstored _).trans ?_
  exact OrderedDict.get?_set_self ..

/-- The hook raises at a shorter value, and stores nothing. -/
theorem after_applyEapMd5Challenge_of_lt (E : Env) {payload : Bytes}
    (hreply : CarriesEap reply first rest payload) (hlen : first.length < 5) :
    EStateM.after (applyEapMd5Challenge E reply) s = s := by
  have hitem : (liftM (rawItem reply eapMessageAttr) : PacketMethod (Stored PyVal)).run s =
      .ok (.vals ((first :: rest).map .bytes)) s := by
    rw [rawItem, hreply.stored]
    rfl
  have hunpack : unpackEapMd5 (.bytes first) = .error .structError := by
    rw [unpackEapMd5, PyVal.len_bytes, Except.bind_of_ok, if_pos hlen]
    rfl
  rw [applyEapMd5Challenge, EStateM.after_bind_of_ok hitem]
  show EStateM.after (liftM (unpackEapMd5 (.bytes first)) >>= fun parts ↦ _) s = s
  rw [hunpack]
  rfl

/-- The response is right for a digest if the digest does not tell the two inputs apart. -/
theorem answersMd5_iff_md5_eq (E : Env)
    (hreply : CarriesEap reply first rest (eapMd5Packet 1 eapId value name))
    (hpassword : passwordFromPacket s.pkt = .ok (.bytes password)) (hlen : 5 ≤ first.length) :
    AnswersMd5 E s reply eapId password value ↔
      E.md5 ([eapId] ++ password ++ first.drop 6) = E.md5 ([eapId] ++ password ++ value) := by
  have hid : first[1]? = some eapId := by
    have hjoined := congrArg (fun b : Bytes ↦ b[1]?) hreply.joined
    simp only [List.flatten_cons] at hjoined
    rw [List.getElem?_append_left (by omega)] at hjoined
    rw [hjoined]
    rfl
  rw [AnswersMd5, after_applyEapMd5Challenge E hreply hpassword hlen hid, buildEapMd5Challenge_eq,
    List.drop_drop]
  simp [eapMd5Packet]

/-- **The response is the CHAP response of the challenge**, for every digest, exactly if the first
value of the EAP-Message ends with the value of the challenge. -/
theorem answersMd5_iff
    (hreply : CarriesEap reply first rest (eapMd5Packet 1 eapId value name))
    (hpassword : passwordFromPacket s.pkt = .ok (.bytes password)) :
    (∀ E, AnswersMd5 E s reply eapId password value) ↔ 5 ≤ first.length ∧ first.drop 6 = value := by
  rcases Nat.lt_or_ge first.length 5 with hlen | hlen
  · refine iff_of_false (fun hall ↦ ?_) fun h ↦ absurd h.1 hlen.not_ge
    -- one stored value would be the response for two digests
    have hzero := hall (Env.ofByte (fun _ ↦ 0) fun _ _ ↦ 0)
    have hone := hall (Env.ofByte (fun _ ↦ 1) fun _ _ ↦ 0)
    rw [AnswersMd5, after_applyEapMd5Challenge_of_lt _ hreply hlen] at hzero hone
    rw [hzero] at hone
    simp [eapMd5Packet, Env.ofByte] at hone
  · rw [and_iff_right hlen]
    constructor
    · intro hall
      have heq := (answersMd5_iff_md5_eq (Packet.markedEnv ([eapId] ++ password ++ value)) hreply
        hpassword hlen).1 (hall _)
      by_contra hne
      have hkey : [eapId] ++ password ++ first.drop 6 ≠ [eapId] ++ password ++ value :=
        fun h ↦ hne (List.append_cancel_left h)
      simp only [Packet.markedEnv, Env.ofByte, if_neg hkey, if_true] at heq
      revert heq
      decide
    · intro heq E
      rw [answersMd5_iff_md5_eq E hreply hpassword hlen, heq]

end

/-- A reply with a challenge of two bytes and a name of one. -/
def namedChallenge : Packet where
  attrs := (OrderedDict.set ∅ (.int eapMessageAttr)
    (.vals [.bytes [1, 7, 0, 9, 4, 2, 10, 11, 97]])).set (.int stateAttr) (.vals [.bytes [1]])

/-- The same challenge without the name. -/
def plainChallenge : Packet where
  attrs := (OrderedDict.set ∅ (.int eapMessageAttr)
    (.vals [.bytes [1, 7, 0, 8, 4, 2, 10, 11]])).set (.int stateAttr) (.vals [.bytes [1]])

/-- A request with a password. -/
def eapRequest : PacketState :=
  ⟨{ cls := .auth, attrs := OrderedDict.set ∅ (.int userPasswordAttr) (.vals [.bytes [112]]) },
    default⟩

theorem answersMd5_plainChallenge :
    (∀ E, AnswersMd5 E eapRequest plainChallenge 7 [112] [10, 11]) ↔
      5 ≤ ([1, 7, 0, 8, 4, 2, 10, 11] : Bytes).length ∧
        ([1, 7, 0, 8, 4, 2, 10, 11] : Bytes).drop 6 = [10, 11] :=
  @answersMd5_iff eapRequest plainChallenge _ [] 7 [112] [10, 11] [] ⟨rfl, rfl⟩ rfl

/-- With the name the digest is of something else. -/
theorem not_answersMd5_namedChallenge :
    CarriesEap namedChallenge [1, 7, 0, 9, 4, 2, 10, 11, 97] [] (eapMd5Packet 1 7 [10, 11] [97]) ∧
      ¬ ∀ E, AnswersMd5 E eapRequest namedChallenge 7 [112] [10, 11] := by
  have hcarries : CarriesEap namedChallenge [1, 7, 0, 9, 4, 2, 10, 11, 97] []
      (eapMd5Packet 1 7 [10, 11] [97]) := ⟨rfl, rfl⟩
  refine ⟨hcarries, fun hall ↦ ?_⟩
  have hiff := @answersMd5_iff_md5_eq eapRequest namedChallenge _ [] 7 [112] [10, 11] [97]
    (Packet.markedEnv [7, 112, 10, 11]) hcarries rfl (by decide)
  have heq := hiff.1 (hall _)
  revert heq
  decide

/-- A hook of a method without a state. -/
def stateless (m : PacketMethod Unit) : Method (EapState Unit) Unit :=
  EStateM.onPart Prod.snd (fun s t ↦ (t.1, s)) m

theorem onlyRaises_applyEapMd5Challenge (E : Env) (reply : Packet) :
    EStateM.OnlyRaises (· ≠ .divergence) (applyEapMd5Challenge E reply) := by
  have hunpack (v : PyVal) : Except.OnlyRaises (· ≠ .divergence) (unpackEapMd5 v) := by
    rcases v with - | i | t | b
    · exact Except.onlyRaises_error (by simp)
    · exact Except.onlyRaises_error (by simp)
    · refine (Except.onlyRaises_ok t.length).bind fun length ↦ ?_
      split
      · exact Except.onlyRaises_error (by simp)
      · exact Except.onlyRaises_error (by simp)
    · refine (Except.onlyRaises_ok b.length).bind fun length ↦ ?_
      split
      · exact Except.onlyRaises_error (by simp)
      · refine (Except.onlyRaises_ok b).bind fun b ↦ ?_
        split
        · exact Except.onlyRaises_ok _
        · exact Except.onlyRaises_error (by simp)
  refine (EStateM.onlyRaises_liftM (onlyRaises_rawItem reply _)).bind fun stored ↦
    (EStateM.onlyRaises_liftM (onlyRaises_firstOf stored)).bind fun eapPayload ↦
    (EStateM.onlyRaises_liftM (hunpack eapPayload)).bind fun parts ↦
    EStateM.onlyRaises_get.bind fun s ↦
    (EStateM.onlyRaises_liftM (onlyRaises_passwordFromPacket s.pkt)).bind fun password ↦
    (EStateM.onlyRaises_liftM (onlyRaises_asBytes password)).bind fun password ↦
    (EStateM.onlyRaises_modify _).bind fun _ ↦
    (EStateM.onlyRaises_liftM (onlyRaises_rawItem reply _)).bind fun state ↦
    EStateM.onlyRaises_modify _

/-- The registry with `Md5Method` alone. -/
def md5Methods (E : Env) : EapMethods Unit where
  getMethod := fun name ↦ if name = "eap-md5" then some () else none
  start := stateless injectEapIdentity
  respond := fun challenge ↦ stateless (applyEapMd5Challenge E challenge)
  respond_ends := by
    intro challenge s s' h
    rw [stateless, EStateM.run_onPart] at h
    rcases hrun : (applyEapMd5Challenge E challenge).run s.2 with ⟨u, t⟩ | ⟨e, t⟩
    · rw [hrun] at h
      cases h
    · rw [hrun] at h
      cases h
      exact ((onlyRaises_applyEapMd5Challenge E challenge).ensures s.2).of_run_eq_error hrun rfl

end Eap

end Pyrad2
