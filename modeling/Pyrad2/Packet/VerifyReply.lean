import Pyrad2.Packet.Frame
import Pyrad2.Packet.MessageAuthenticator

/-!
# Checking a reply

What `create_reply` makes of received bytes, and what `verify_reply` has found when it accepts them.

The check works on the decoded packet and on the bytes: the digest of the reply is taken of the
bytes, the identifier and the header that enters the HMAC are rebuilt from decoded fields, and the
Message-Authenticator is read by name. For an accepted reply all of these are what stands on the
wire.
-/

namespace Pyrad2

open EStateM

namespace Packet

/-! ### Replies from the wire -/

/-- The fields a reply to `p` is constructed with. -/
def replyFields (p : Packet) (cls : PacketClass) (code : ℕ) : Packet :=
  { cls, code, id := p.id, secret := p.secret, authenticator := p.authenticator,
    radiusVersion := p.radiusVersion, dict := p.dict,
    authType := if cls = .auth then p.authType else "pap" }

/-- The class and the code of a reply for which no code is given. -/
def replyKind (p : Packet) : PacketClass × ℕ :=
  match p.cls with
  | .packet => (.packet, 0)
  | .status => (.packet, PacketType.accessAccept)
  | .auth => (.auth, PacketType.accessAccept)
  | .acct => (.acct, PacketType.accountingResponse)
  | .coa => (.coa, PacketType.coaACK)

/-- The reply that `create_reply` makes of bytes that decode. -/
def receivedReply (p : Packet) (raw : Bytes) (st : DecodeState) : Packet :=
  p.setReplyContext (received (p.replyFields p.replyKind.1 p.replyKind.2) raw st)

section

variable {E : Env} {p : Packet} {raw : Bytes} {st : DecodeState}

theorem createReply_eq (E : Env) (p : Packet) (packet : Option Bytes) (attributes : KwAttributes) :
    createReply E p none packet attributes =
      makeReply E p p.replyKind.1 p.replyKind.2 packet attributes := by
  unfold createReply replyKind
  rcases p.cls <;> rfl

theorem makeReply_eq (E : Env) (p : Packet) (cls : PacketClass) (code : ℕ) (packet : Option Bytes)
    (attributes : KwAttributes) :
    makeReply E p cls code packet attributes = (do
      let reply ← construct E (p.replyFields cls code) packet attributes
      return p.setReplyContext reply) := rfl

/-- **A reply from the wire**: bytes that decode make it, others raise `PacketError`. -/
theorem ensures_createReply (hversion : p.radiusVersion = .v1_0) (raw : Bytes) (w : World) :
    Ensures (createReply E p none (some raw) []) w
      (fun reply _ ↦ ∃ st, Decoded p.dict raw st ∧ reply = p.receivedReply raw st)
      fun e _ ↦ e.isPacketError = true ∧ ∀ st, ¬ Decoded p.dict raw st := by
  rw [createReply_eq, makeReply_eq]
  have hfields : (p.replyFields p.replyKind.1 p.replyKind.2).radiusVersion = .v1_0 := hversion
  have hconstruct := ensures_construct E hfields rfl raw w
  refine ensures_bind.2 (hconstruct.imp (fun reply _ hreply ↦ ?_) fun _ _ he ↦ he)
  obtain ⟨st, hst, rfl⟩ := hreply
  exact ⟨st, hst, rfl⟩

/-! ### Accepted replies -/

/-- **What an accepted reply proves.** The identifier is that of the request, the length field is
right, the response authenticator is the digest of the bytes with the request authenticator in its
place, and the body is tiled by attributes of which exactly one has type 80; that one has sixteen
bytes, the HMAC of the bytes with the request authenticator in place and the sixteen bytes zeroed. -/
def AuthenticReply (E : Env) (p : Packet) (raw : Bytes) : Prop :=
  p.id = some (wireId raw) ∧ wireLength raw = raw.length ∧
    ∃ authenticator, p.authenticator = some authenticator ∧
      wireAuthenticator raw = E.md5 (raw.take 4 ++ authenticator ++ raw.drop 20 ++ p.secret) ∧
      ∃ m : MacSplit (raw.drop 20),
        m.mac.value = E.hmacMd5 p.secret (raw.take 4 ++ authenticator ++ m.zeroed)

theorem verifyAuthenticator_of_access {reply : Packet} {authenticator : Bytes}
    (hcode : reply.code ∈ [PacketType.accessAccept, PacketType.accessReject,
      PacketType.accessChallenge]) (originalCode : Option ℕ) :
    reply.verifyAuthenticator (some authenticator) originalCode = .ok authenticator := by
  rw [verifyAuthenticator]
  obtain h | h | h : reply.code = 2 ∨ reply.code = 3 ∨ reply.code = 11 := by simpa using hcode
  · rw [h]
    rfl
  · rw [h]
    rfl
  · rw [h]
    rfl

/-- A check with the packet's own secret uses that secret, also when it is empty. -/
theorem macKey_some {reply : Packet} {secret : Bytes} (h : reply.secret = secret) :
    reply.macKey (some secret) = secret := by
  rcases secret with - | ⟨b, secret⟩
  · exact h
  · rfl

/-- The value under the name is the one on the wire, and so is the header that was digested. -/
theorem exists_mac_of_macMatches {D : Dictionary} (hdict : p.dict = some D)
    (hD : D.DeclaresMessageAuthenticator) (hst : Decoded p.dict raw st)
    (hcode : wireCode raw ∈ [PacketType.accessAccept, PacketType.accessReject,
      PacketType.accessChallenge]) {authenticator : Bytes}
    (h : MacMatches E (p.receivedReply raw st) raw (some p.secret) (some authenticator)
      (some p.code)) :
    ∃ m : MacSplit (raw.drop 20),
      m.mac.value = E.hmacMd5 p.secret (raw.take 4 ++ authenticator ++ m.zeroed) := by
  obtain ⟨m, item, prev, header, auth, hitem, hprev, hheader, hauth, heq⟩ := h
  have hitem' : (p.receivedReply raw st).getItem E "Message-Authenticator" =
      .ok (.vals [.bytes m.mac.value]) := by
    refine getItem_messageAuthenticator hD E (p := p.receivedReply raw st) hdict ?_
    have hfields : (p.replyFields p.replyKind.1 p.replyKind.2).dict = some D := hdict
    have hget := get?_received_mac hD hfields (hdict ▸ hst) m.body_eq
    rw [m.macsOf_eq] at hget
    exact hget
  have hvalue : prev = m.mac.value := by
    rw [hitem] at hitem'
    cases hitem'
    cases hprev
    rfl
  have hlength : 20 + m.zeroed.length = raw.length := by
    have hframed := hst.framed.header
    rw [m.length_zeroed, List.length_drop]
    omega
  have hheader' : header = raw.take 4 := by
    rw [hlength] at hheader
    exact Except.ok.inj (hheader.symm.trans (packHeader_wire hst.framed))
  have hauth' : auth = authenticator :=
    Except.ok.inj (hauth.symm.trans (verifyAuthenticator_of_access hcode (some p.code)))
  refine ⟨m, ?_⟩
  have hkey : (p.receivedReply raw st).macKey (some p.secret) = p.secret := macKey_some rfl
  rw [← hvalue, heq, hkey, hheader', hauth']

theorem ensures_verifyReply {D : Dictionary} (hversion : p.radiusVersion = .v1_0)
    (hcode : p.code = PacketType.accessRequest) (hdict : p.dict = some D)
    (hD : D.DeclaresMessageAuthenticator) (hst : Decoded p.dict raw st)
    (hraw : wireCode raw ∈ [PacketType.accessAccept, PacketType.accessReject,
      PacketType.accessChallenge]) (w : World) :
    Ensures (verifyReply E p (some raw) true) ⟨p.receivedReply raw st, w⟩
      (fun accepted _ ↦ accepted = true → AuthenticReply E p raw) fun _ _ ↦ True := by
  have hne : raw ≠ [] := by
    have hheader := hst.framed.header
    rintro rfl
    exact absurd hheader (by decide)
  rw [verifyReply]
  refine ensures_bind.2 (ensures_get.2 ?_)
  dsimp only
  rw [if_neg (by rw [hversion]; decide)]
  split
  · exact fun h ↦ by cases h
  next hid =>
  have hid' : p.id = some (wireId raw) := (not_not.1 hid).symm
  refine ensures_bind.2 (ensures_pure.2 (ensures_bind.2 ?_))
  -- the second encoding of the reply has no effect but what it may raise
  rw [Ensures, run_encodeAttributes E rfl]
  rcases (p.receivedReply raw st).encodeStored [] with e | b
  · trivial
  refine ensures_bind.2 (ensures_liftM (fun authenticator hauth ↦ ?_) fun _ _ ↦ trivial)
  have hauth' : p.authenticator = some authenticator := by
    rcases ha : p.authenticator with - | a <;> rw [ha] at hauth <;> cases hauth
    rfl
  split
  · exact fun h ↦ by cases h
  next hhash =>
  have hwire : wireAuthenticator raw =
      E.md5 (raw.take 4 ++ authenticator ++ raw.drop 20 ++ p.secret) := (not_not.1 hhash).symm
  refine ensures_bind.2 (ensures_get.2 ?_)
  split
  · refine ensures_tryCatch.2 (ensures_bind.2 ?_)
    have hvalid : Ensures (requireValidMessageAuthenticator E (some p.secret) p.authenticator
        (some p.code)) ⟨p.receivedReply raw st, w⟩
        (fun _ _ ↦ MacMatches E (p.receivedReply raw st) raw (some p.secret) p.authenticator
          (some p.code)) fun _ _ ↦ True := ensures_requireValidMessageAuthenticator rfl hne
    refine hvalid.imp (fun _ _ hmac _ ↦ ?_) fun e _ _ ↦ ?_
    · rw [hauth'] at hmac
      exact ⟨hid', hst.framed.length_eq.symm, authenticator, hauth', hwire,
        exists_mac_of_macMatches hdict hD hst hraw hmac⟩
    · split
      · exact fun h ↦ by cases h
      · trivial
  · rw [hcode]
    exact fun h ↦ by cases h

/-- **Reply verification is sound.** A reply with code 2, 3 or 11 to an Access-Request that
`verify_reply` accepts with `enforce_ma` is authentic. -/
theorem authentic_of_verifyReply {D : Dictionary} (hversion : p.radiusVersion = .v1_0)
    (hcode : p.code = PacketType.accessRequest) (hdict : p.dict = some D)
    (hD : D.DeclaresMessageAuthenticator)
    (hraw : wireCode raw ∈ [PacketType.accessAccept, PacketType.accessReject,
      PacketType.accessChallenge]) {reply : Packet} {w w' w'' : World} {s : PacketState}
    (hreply : (createReply E p none (some raw) []).run w = .ok reply w')
    (hverify : (verifyReply E p (some raw) true).run ⟨reply, w''⟩ = .ok true s) :
    AuthenticReply E p raw := by
  obtain ⟨st, hst, rfl⟩ := (ensures_createReply hversion raw w).of_run_eq_ok hreply
  exact (ensures_verifyReply hversion hcode hdict hD hst hraw w'').of_run_eq_ok hverify rfl

end

/-- An Access-Request with identifier 7. -/
def accessRequest7 : Packet :=
  { cls := .auth, code := PacketType.accessRequest, id := some 7, secret := [115],
    authenticator := some (List.replicate 16 1), dict := some Dictionary.messageAuthenticatorOnly }

/-- An Access-Accept for it, under digests that are all fives and all nines. -/
def accessAccept7 : Bytes :=
  [2, 7, 0, 38] ++ List.replicate 16 5 ++ [80, 18] ++ List.replicate 16 9

theorem authentic_of_verifyReply_accessAccept7 :
    AuthenticReply (Env.ofByte (fun _ ↦ 5) fun _ _ ↦ 9) accessRequest7 accessAccept7 := by
  obtain ⟨reply, w, hreply, s, hverify⟩ : ∃ reply w,
      (createReply (Env.ofByte (fun _ ↦ 5) fun _ _ ↦ 9) accessRequest7 none (some accessAccept7)
        []).run { rng := ⟨fun _ ↦ 0⟩ } = .ok reply w ∧
      ∃ s, (verifyReply (Env.ofByte (fun _ ↦ 5) fun _ _ ↦ 9) accessRequest7 (some accessAccept7)
        true).run ⟨reply, w⟩ = .ok true s := ⟨_, _, rfl, _, rfl⟩
  exact authentic_of_verifyReply rfl rfl rfl Dictionary.declares_messageAuthenticatorOnly (by decide)
    hreply hverify

end Packet

end Pyrad2
