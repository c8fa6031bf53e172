import Pyrad2.Acceptance
import Pyrad2.Packet.DecodeKeys
import Pyrad2.Packet.MacCoverage

/-!
# Requests the server accepts

What a pyrad2 client sends, a pyrad2 server with the same secret and dictionary accepts.

The checks of the server are gone through with what is known of the bytes: their digest is the one
the server takes, since both sides choose the authenticator for it by the code alone.
-/

namespace Pyrad2

open EStateM

namespace Packet

/-! ### Checking succeeds -/

section

variable {E : Env} {D : Dictionary} {p : Packet} {raw header authenticator : Bytes}
  {secret originalAuthenticator : Option Bytes} {originalCode : Option ℕ}

/-- **The check of a Message-Authenticator** comes out as the digests compare. -/
theorem run_verifyMessageAuthenticator (hD : D.DeclaresMessageAuthenticator)
    (hdict : p.dict = some D) (hraw : p.rawPacket = some raw) (hne : raw ≠ [])
    (hflag : p.messageAuthenticator = some true) (m : MacSplit (raw.drop 20))
    (hvals : p.attrs.get? (.int 80) = some (.vals [.bytes m.mac.value]))
    (hhex : ∀ digits, m.mac.value ≠ 0x30 :: 0x78 :: digits)
    (hheader : packHeader p.code p.id (20 + m.zeroed.length) = .ok header)
    (hauth : p.verifyAuthenticator originalAuthenticator originalCode = .ok authenticator)
    (w : World) :
    (verifyMessageAuthenticator E secret originalAuthenticator originalCode).run ⟨p, w⟩ =
      .ok (decide (m.mac.value = E.hmacMd5 (p.macKey secret) (header ++ authenticator ++ m.zeroed)))
        (p.macState m.mac.value w) := by
  have hitem := getItem_messageAuthenticator hD E hdict hvals
  have hattr : (verifyAttributes E).run ⟨p, w⟩ = .ok m.zeroed ⟨p, w⟩ := by
    rw [run_verifyAttributes hraw hne, m.zeroMessageAuthenticator_eq]
    rfl
  have hset := run_setMessageAuthenticator_of_ne (E := E) hD hdict hhex w
  rw [verifyMessageAuthenticator]
  simp only [run_bind, run_get, hflag, hitem]
  rw [if_neg (by decide), run_bind_of_ok (run_liftM_ok _ _), run_bind_of_ok hattr]
  simp only [run_bind, run_get, hheader, hauth, run_liftM_ok, ItemView.first, hset]
  rfl

/-- A packet whose digest matches is let through. -/
theorem run_requireValidMessageAuthenticator {s : PacketState}
    (h : (verifyMessageAuthenticator E secret originalAuthenticator originalCode).run s =
      .ok true (p.macState raw s.world)) :
    (requireValidMessageAuthenticator E secret originalAuthenticator originalCode).run s =
      .ok () (p.macState raw s.world) := by
  rw [requireValidMessageAuthenticator,
    run_bind_of_ok (Method.run_catchException_of_ok h)]
  rfl

end

/-! ### The bytes decode -/

section

variable {D : Option Dictionary} {raw : Bytes} {fields : Packet}

/-- A well-framed sequence of attributes decodes, whatever the attributes are. -/
theorem exists_decoded (D : Option Dictionary) (hframed : Framed raw) {l : List Avp}
    (hbody : raw.drop 20 = Avp.join l) :
    ∃ st, Decoded D raw st ∧
      st = after (l.forM fun a ↦ decodeAvp D .v1_0 a.code a.value) ({} : DecodeState) := by
  have hshape := ensures_forM_decodeAvp l (shaped_initial D none)
  rw [Ensures] at hshape
  rcases hrun : (l.forM fun a ↦ decodeAvp D .v1_0 a.code a.value).run ({} : DecodeState) with
    ⟨u, st⟩ | ⟨e, st⟩
  · refine ⟨st, ⟨hframed, ?_⟩, (after_of_ok hrun).symm⟩
    rw [hbody, decodeAvps_join D .v1_0 le_rfl]
    exact hrun
  · rw [hrun] at hshape
    exact hshape.elim

theorem get?_received_eq_none {st : DecodeState} {key : Key} (h : st.attrs.get? key = none) :
    (received fields raw st).attrs.get? key = none := by
  have hfinish : (finishAttributes fields.dict st.attrs).get? key = none := by
    rcases fields.dict with - | D
    · exact h
    · rw [finishAttributes, OrderedDict.get?_mapValues, OrderedDict.get?_mapValues, h]
      rfl
  rw [received, OrderedDict.get?_mapValues, hfinish]
  rfl

/-- **What comes in under a code** has come in attributes of that type. -/
theorem get?_received_of_typeFree {type : UInt8} (hfree : TypeFree type (raw.drop 20))
    {st : DecodeState} (hst : Decoded D raw st) :
    (received fields raw st).attrs.get? (.int type.toNat) = none := by
  obtain ⟨l, hl, hcodes⟩ := hfree
  obtain ⟨st', hst', heq⟩ := exists_decoded D hst.framed hl
  rw [hst.unique hst', heq]
  exact get?_received_eq_none (get?_of_forM_decodeAvp hcodes {})

/-- A packet in which neither the code nor the key of the name is stored. -/
theorem hasAttribute_eq_false {p : Packet} {name : String} {code : Int}
    (hcode : p.attrs.get? (.int code) = none)
    (hname : ∀ key, p.encodeKey name = .ok key → p.attrs.get? key = none) :
    p.hasAttribute name code = false := by
  have hcontains : p.attrs.contains (.int code) = false := by
    rw [OrderedDict.contains, hcode]
    rfl
  rw [hasAttribute]
  split
  · next h =>
    rw [contains] at h
    split at h
    · next key hkey =>
      rw [OrderedDict.contains, hname key hkey] at h
      cases h
    · cases h
    · cases h
  · exact hcontains

theorem encodeKey_of_dict {p : Packet} {D : Dictionary} (hdict : p.dict = some D) (name : String) :
    p.encodeKey name = D.encodeKey name := by
  rw [encodeKey, theDict, hdict]
  rfl

/-- The name stands for attribute 79, if the dictionary has it. -/
def NamesEapMessage (D : Dictionary) : Prop :=
  ∀ key, D.encodeKey "EAP-Message" = .ok key → key = .int 79

theorem hasEapMessage_received {D : Dictionary} (hnames : NamesEapMessage D)
    (hdict : fields.dict = some D) (hfree : TypeFree 79 (raw.drop 20)) {st : DecodeState}
    (hst : Decoded (some D) raw st) : (received fields raw st).hasEapMessage = false := by
  have hget : (received fields raw st).attrs.get? (.int 79) = none :=
    get?_received_of_typeFree hfree hst
  refine hasAttribute_eq_false hget fun key hkey ↦ ?_
  rw [encodeKey_of_dict (p := received fields raw st) hdict] at hkey
  rw [hnames key hkey]
  exact hget

theorem hasMessageAuthenticator_received {D : Dictionary} (hD : D.DeclaresMessageAuthenticator)
    (hdict : fields.dict = some D) (hfree : TypeFree 80 (raw.drop 20)) {st : DecodeState}
    (hst : Decoded (some D) raw st) :
    (received fields raw st).hasMessageAuthenticator = false := by
  obtain ⟨l, hl, hcodes⟩ := hfree
  have hmacs : macsOf l = [] := by
    rw [macsOf, List.map_eq_nil_iff, List.filter_eq_nil_iff]
    intro a ha hmac
    exact hcodes a ha (by simpa [Avp.isMac] using hmac)
  have hshaped := hst.shaped hl
  rw [hmacs, if_pos rfl] at hshaped
  have hget : (received fields raw st).attrs.get? (.int 80) = none := by
    rw [get?_received_mac hD hdict hst hl, hmacs]
    rfl
  have hattribute : (received fields raw st).hasAttribute "Message-Authenticator" 80 = false := by
    refine hasAttribute_eq_false hget fun key hkey ↦ ?_
    rw [encodeKey_of_dict (p := received fields raw st) hdict, hD.encodeKey_eq] at hkey
    cases hkey
    exact hget
  rw [hasMessageAuthenticator, hattribute]
  change (decide (st.messageAuthenticator = some true) || false) = false
  rw [hshaped.flag]
  rfl

end

/-! ### The client -/

/-- The requests of the classes. -/
inductive IsRequest : PacketClass → ℕ → Prop
  | access : IsRequest .auth PacketType.accessRequest
  | accounting : IsRequest .acct PacketType.accountingRequest
  | coa : IsRequest .coa PacketType.coaRequest
  | disconnect : IsRequest .coa PacketType.disconnectRequest
  | status : IsRequest .status PacketType.statusServer

/-- `prepare_request_message_authenticator(pkt, require_message_authenticator=True)`, and then
`pkt.request_packet()` -/
def sendRequest (E : Env) : PacketMethod Bytes := do
  prepareRequestMessageAuthenticator E true
  requestPacket E

section

variable {E : Env} {D : Dictionary} {p : Packet} {raw : Bytes}

/-- Accounting and CoA requests carry a digest of their body. -/
theorem ensures_serializeRequest {Q : Bytes → PacketState → Prop} {s : PacketState}
    (hversion : p.radiusVersion = .v1_0) (hcls : p.cls = .acct ∨ p.cls = .coa)
    (h : Ensures (encodeV10RequestWithBodyMd5Authenticator E) s Q fun _ _ ↦ True) :
    Ensures (do
      if p.radiusVersion = .v1_1 then return ← serializeV11 E
      match p.cls with
      | .status => do
        ensureAuthenticator
        prepareRequestMessageAuthenticator E false
        encodeV10RequestWithRandomAuthenticator E
      | .auth => encodeV10RequestWithRandomAuthenticator E
      | _ => encodeV10RequestWithBodyMd5Authenticator E) s Q fun _ _ ↦ True := by
  rw [if_neg (by rw [hversion]; decide)]
  split
  · next hstatus =>
    rw [hstatus] at hcls
    rcases hcls with hcls | hcls <;> cases hcls
  · next hauth =>
    rw [hauth] at hcls
    rcases hcls with hcls | hcls <;> cases hcls
  · exact h

/-- Nothing of a type goes out if no attribute has it, provided no digest has to be made. -/
theorem ensures_requestPacket_typeFree {type : UInt8} (hversion : p.radiusVersion = .v1_0)
    (hcls : p.cls = .acct ∨ p.cls = .coa) (hflag : p.messageAuthenticator ≠ some true)
    (hfree : p.FreeOf type) (w : World) :
    Ensures (requestPacket E) ⟨p, w⟩ (fun raw _ ↦ TypeFree type (raw.drop 20)) fun _ _ ↦ True := by
  have hencode (id : Option ℕ) (w : World) :
      Ensures (encodeV10RequestWithBodyMd5Authenticator E) ⟨{ p with id }, w⟩
        (fun raw _ ↦ TypeFree type (raw.drop 20)) fun _ _ ↦ True := by
    have hskip : (refreshIfCarried E).run ⟨{ p with id }, w⟩ = .ok () ⟨{ p with id }, w⟩ := by
      rw [refreshIfCarried]
      simp [hflag]
    have hfree' : FreeOf type { p with id } := ⟨hfree.stored, hfree.pending⟩
    rw [encodeV10RequestWithBodyMd5Authenticator]
    refine ensures_bind.2 (.of_ok hskip (ensures_bind.2 ?_))
    refine (ensures_encodeAttributes_typeFree hfree' w).imp (fun body s hbody ↦ ?_) fun _ _ h ↦ h
    refine ensures_bind.2 (ensures_get.2 (ensures_bind.2 (ensures_liftM (fun header hheader ↦ ?_)
      fun _ _ ↦ trivial)))
    refine ensures_bind.2 (ensures_modify.2 (ensures_pure.2 ?_))
    have hfront : (header ++ E.md5 (header ++ zeros16 ++ body ++ s.pkt.secret)).length = 20 := by
      rw [List.length_append, length_header hheader, E.md5_length]
    rwa [List.drop_left' hfront]
  have hsend (id : Option ℕ) (w : World) := ensures_serializeRequest hversion hcls (hencode id w)
  rw [requestPacket]
  refine ensures_bind.2 (ensures_get.2 ?_)
  dsimp only
  rw [if_neg (by rcases hcls with hcls | hcls <;> rw [hcls] <;> decide)]
  refine ensures_bind.2 ?_
  rw [ensureId]
  refine ensures_bind.2 (ensures_get.2 ?_)
  split
  · exact ensures_bind.2 (.of_ok rfl (ensures_modify.2 (hsend _ _)))
  · exact hsend p.id w

/-- **A request that was sent** is what goes out of a packet that the one sent was completed to. An
Access-Request or Status-Server carries a Message-Authenticator. -/
structure RequestSent (E : Env) (D : Dictionary) (p : Packet) (raw : Bytes) (sent p' : Packet) :
    Prop where
  sendable : Sendable E D p'
  completes : Completes p p'
  put : RequestPut E p' sent raw
  flagged : p.code = PacketType.accessRequest ∨ p.code = PacketType.statusServer →
    p'.messageAuthenticator = some true
  free : ∀ type, p.FreeOf type → p'.messageAuthenticator = some true ∨ TypeFree type (raw.drop 20)

theorem IsRequest.cls_of_code {cls : PacketClass} {code : ℕ} (h : IsRequest cls code) :
    (cls = .auth ∨ cls = .status) ∧
        (code = PacketType.accessRequest ∨ code = PacketType.statusServer) ∨
      (cls = .acct ∨ cls = .coa) ∧
        code ∉ [PacketType.accessRequest, PacketType.statusServer] := by
  rcases h
  · exact .inl ⟨.inl rfl, .inl rfl⟩
  · exact .inr ⟨.inl rfl, by decide⟩
  · exact .inr ⟨.inr rfl, by decide⟩
  · exact .inr ⟨.inr rfl, by decide⟩
  · exact .inl ⟨.inr rfl, .inr rfl⟩

theorem IsRequest.code_mem {cls : PacketClass} {code : ℕ} (h : IsRequest cls code)
    (hcode : code ∉ [PacketType.accessRequest, PacketType.statusServer]) :
    code ∈ [PacketType.accountingRequest, PacketType.disconnectRequest, PacketType.coaRequest] := by
  rcases h
  · exact absurd (by decide) hcode
  · decide
  · decide
  · decide
  · exact absurd (by decide) hcode

theorem exists_requestSent (h : Sendable E D p) (hkind : IsRequest p.cls p.code) {w : World}
    {s : PacketState} (hrun : (sendRequest E).run ⟨p, w⟩ = .ok raw s) :
    ∃ p', RequestSent E D p raw s.pkt p' := by
  rw [sendRequest, run_bind_eq_ok_iff] at hrun
  obtain ⟨⟨⟩, s₁, hprepare, hrequest⟩ := hrun
  obtain ⟨hready, hflag, hsame⟩ :=
    (ensures_prepareRequestMessageAuthenticator h true w).of_run_eq_ok hprepare
  obtain ⟨p', hp', hcompletes, hput, -⟩ :=
    (ensures_requestPacket hready.1 s₁.world).of_run_eq_ok hrequest
  have hcarried (hcode : p.code = PacketType.accessRequest ∨ p.code = PacketType.statusServer) :
      p'.messageAuthenticator = some true := by
    refine hcompletes.flag (hflag ?_)
    rcases hcode with hcode | hcode
    · exact .inl ⟨hcode, rfl⟩
    · exact .inr hcode
  refine ⟨p', hp', hready.2.trans hcompletes, hput, hcarried, fun type hfree ↦ ?_⟩
  rcases hkind.cls_of_code with ⟨-, hcode⟩ | ⟨hcls, hcode⟩
  · exact .inl (hcarried hcode)
  · have hpkt : s₁.pkt = p := hsame hcode
    by_cases hset : p.messageAuthenticator = some true
    · exact .inl ((hready.2.trans hcompletes).flag hset)
    · have hrequest' : (requestPacket E).run ⟨p, s₁.world⟩ = .ok raw s := by
        rw [← hpkt]
        exact hrequest
      exact .inr ((ensures_requestPacket_typeFree h.version hcls hset hfree
        s₁.world).of_run_eq_ok hrequest')

end

end Packet

/-! ### The server -/

open Packet

namespace RequestRouter

variable {E : Env} {r : RequestRouter} {D : Dictionary} {raw secret : Bytes} {st : DecodeState}

/-- Bytes that decode are parsed. -/
theorem exists_run_parse (E : Env) (hst : Decoded r.dictionary raw st) (w : World) :
    ∃ w', (r.parse E raw secret).run w = .ok (r.parsed raw secret st none) w' := by
  have hparse := ensures_parse E r raw secret w
  rw [Ensures] at hparse
  rcases hrun : (r.parse E raw secret).run w with ⟨q, w'⟩ | ⟨e, w'⟩
  · rw [hrun] at hparse
    obtain ⟨st', hst', rfl⟩ := hparse
    exact ⟨w', by rw [hst.unique hst']⟩
  · obtain ⟨b, rest, rfl⟩ := List.exists_cons_of_ne_nil (ne_nil_of_decoded hst)
    have hconstruct : ∃ w', (r.parse E (b :: rest) secret).run w =
        .ok (received { cls := classFor b.toNat, secret, dict := r.dictionary } (b :: rest) st) w' :=
      exists_run_construct E rfl rfl hst w
    obtain ⟨w'', hok⟩ := hconstruct
    rw [hrun] at hok
    cases hok

theorem not_v11_parsed : ¬ (r.parsed raw secret st none).radiusVersion = .v1_1 := by
  intro h
  cases h

/-- What verification asks of the bytes of a request. -/
def Verifiable (E : Env) (secret raw : Bytes) : Prop :=
  if wireCode raw = PacketType.accessRequest then wireAuthenticator raw ≠ zeros16
  else wireCode raw ∈ [PacketType.accountingRequest, PacketType.coaRequest,
      PacketType.disconnectRequest] →
    wireAuthenticator raw = E.md5 (raw.take 4 ++ zeros16 ++ raw.drop 20 ++ secret)

theorem verifyRequest_eq_ok (hst : Decoded r.dictionary raw st)
    (h : Verifiable E secret raw) : r.verifyRequest E (r.parsed raw secret st none) = .ok () := by
  obtain ⟨b, rest, rfl⟩ := List.exists_cons_of_ne_nil (ne_nil_of_decoded hst)
  have hcode : (r.parsed (b :: rest) secret st none).code = wireCode (b :: rest) := rfl
  rw [verifyRequest]
  split
  · rfl
  rw [Verifiable] at h
  by_cases haccess : wireCode (b :: rest) = PacketType.accessRequest
  · rw [if_pos haccess] at h
    have hclass : (r.parsed (b :: rest) secret st none).cls = .auth := by
      change classFor (wireCode (b :: rest)) = .auth
      rw [haccess]
      rfl
    have hne : wireAuthenticator (b :: rest) ≠ [] := by
      intro hnil
      have hlength := congrArg List.length hnil
      have hheader := hst.framed.header
      rw [wireAuthenticator, List.length_take, List.length_drop, List.length_nil] at hlength
      omega
    have htrue : (r.parsed (b :: rest) secret st none).verifyAuthRequest = .ok true := by
      have hbyte : b.toNat = PacketType.accessRequest := by rw [← wireCode_cons b rest, haccess]
      rw [verifyAuthRequest]
      simp [parsed, received, hbyte, h, hne]
    rw [hcode, if_pos haccess, hclass, htrue]
    rfl
  · rw [if_neg haccess] at h
    rw [hcode, if_neg haccess]
    split
    · next hdigest =>
      have htrue : verifyPacket E (r.parsed (b :: rest) secret st none) = .ok true := by
        rw [verifyPacket]
        simpa [parsed, received] using (h hdigest).symm
      rw [htrue]
      rfl
    · rfl

/-- A request whose digest is the right one passes the policy. -/
theorem exists_run_policy_of_covered (hD : D.DeclaresMessageAuthenticator)
    (hdict : r.dictionary = some D)
    (hdigits : ∀ (m : MacSplit (raw.drop 20)) digits, m.mac.value ≠ 0x30 :: 0x78 :: digits)
    (hst : Decoded r.dictionary raw st) {authenticator : Bytes}
    (hauth : (r.parsed raw secret st none).verifyAuthenticator none none = .ok authenticator)
    (hcovered : Covered E secret authenticator raw) (w : World) :
    ∃ s, (r.validateMessageAuthenticatorPolicy E).run ⟨r.parsed raw secret st none, w⟩ =
      .ok () s := by
  obtain ⟨m, hvalue⟩ := hcovered
  have hvals : (r.parsed raw secret st none).attrs.get? (.int 80) =
      some (.vals [.bytes m.mac.value]) := by
    let fields : Packet := { cls := classFor (wireCode raw), secret, dict := r.dictionary }
    have hfields : fields.dict = some D := hdict
    have hget := get?_received_mac hD hfields (hdict ▸ hst) m.body_eq
    rw [m.macsOf_eq] at hget
    exact hget
  have hflag : (r.parsed raw secret st none).messageAuthenticator = some true := by
    have hshaped := hst.shaped m.body_eq
    rw [m.macsOf_eq, if_neg (List.cons_ne_nil _ _)] at hshaped
    exact hshaped.flag
  have hheader : packHeader (wireCode raw) (some (wireId raw)) (20 + m.zeroed.length) =
      .ok (raw.take 4) := by
    have hlength : 20 + m.zeroed.length = raw.length := by
      have hframe := hst.framed.header
      rw [m.length_zeroed, List.length_drop]
      omega
    rw [hlength]
    exact packHeader_wire hst.framed
  have hverify : (verifyMessageAuthenticator E none none none).run
      ⟨r.parsed raw secret st none, w⟩ = .ok _ _ :=
    run_verifyMessageAuthenticator hD hdict rfl (ne_nil_of_decoded hst) hflag m hvals (hdigits m) hheader
      hauth w
  have hmatch : m.mac.value = E.hmacMd5 ((r.parsed raw secret st none).macKey none)
      (raw.take 4 ++ authenticator ++ m.zeroed) := hvalue
  rw [decide_eq_true hmatch] at hverify
  have hrequire := run_requireValidMessageAuthenticator
    (s := ⟨r.parsed raw secret st none, w⟩) hverify
  have hcarries : (r.parsed raw secret st none).hasMessageAuthenticator = true := by
    rw [hasMessageAuthenticator, hflag]
    rfl
  refine ⟨(r.parsed raw secret st none).macState m.mac.value w, ?_⟩
  rw [validateMessageAuthenticatorPolicy, Packet.validateMessageAuthenticatorPolicy]
  simp only [run_bind, run_get]
  rw [if_neg not_v11_parsed, hcarries]
  exact hrequire

/-- So does a request that needs none. -/
theorem exists_run_policy_of_typeFree (hD : D.DeclaresMessageAuthenticator)
    (hdict : r.dictionary = some D) (hnames : NamesEapMessage D)
    (hst : Decoded r.dictionary raw st)
    (hcode : wireCode raw ∉ [PacketType.accessRequest, PacketType.statusServer])
    (hmac : TypeFree 80 (raw.drop 20)) (heap : TypeFree 79 (raw.drop 20)) (w : World) :
    ∃ s, (r.validateMessageAuthenticatorPolicy E).run ⟨r.parsed raw secret st none, w⟩ =
      .ok () s := by
  have hcarries : (r.parsed raw secret st none).hasMessageAuthenticator = false :=
    hasMessageAuthenticator_received hD hdict hmac (hdict ▸ hst)
  have hnone : (r.parsed raw secret st none).hasEapMessage = false :=
    hasEapMessage_received hnames hdict heap (hdict ▸ hst)
  have hstatus : (r.parsed raw secret st none).code ≠ PacketType.statusServer := by
    intro h
    exact hcode (by rw [show wireCode raw = PacketType.statusServer from h]; decide)
  have haccess : (r.parsed raw secret st none).code ≠ PacketType.accessRequest := by
    intro h
    exact hcode (by rw [show wireCode raw = PacketType.accessRequest from h]; decide)
  refine ⟨⟨r.parsed raw secret st none, w⟩, ?_⟩
  rw [validateMessageAuthenticatorPolicy, Packet.validateMessageAuthenticatorPolicy]
  simp only [run_bind, run_get]
  rw [if_neg not_v11_parsed, hcarries, hnone]
  simp [hstatus, haccess]

/-- The server makes a request with this code and identifier of the bytes, and lets it through. -/
def Accepts (E : Env) (r : RequestRouter) (secret : Bytes) (code : ℕ) (id : Option ℕ)
    (raw : Bytes) : Prop :=
  ∀ w, ∃ q w', (r.parse E raw secret).run w = .ok q w' ∧ q.code = code ∧ q.id = id ∧
    r.verifyRequest E q = .ok () ∧
      ∃ s, (r.validateMessageAuthenticatorPolicy E).run ⟨q, w'⟩ = .ok () s

end RequestRouter

/-! ### Both -/

namespace Packet

/-- Whatever is sent of the packet, if it is not too long and no Access-Request has zeros for its
authenticator, the server accepts it. -/
def RequestAccepted (E : Env) (r : RequestRouter) (p : Packet) : Prop :=
  ∀ w raw s, (sendRequest E).run ⟨p, w⟩ = .ok raw s → raw.length ≤ 8192 →
    (p.code = PacketType.accessRequest → wireAuthenticator raw ≠ zeros16) →
    r.Accepts E p.secret p.code s.pkt.id raw

section

variable {E : Env} {D : Dictionary} {r : RequestRouter} {p p' sent : Packet} {raw : Bytes}

/-- An authenticator that is set has sixteen bytes. -/
def WholeAuthenticator (p : Packet) : Prop := ∀ a, p.authenticator = some a → a.length = 16

theorem Completes.wholeAuthenticator (h : Completes p p') (hp : p.WholeAuthenticator) :
    p'.WholeAuthenticator := by
  intro a ha
  rcases hown : p.authenticator with - | b
  · exact h.drawn hown a ha
  · rw [h.authenticator b hown] at ha
    cases ha
    exact hp _ hown

/-- **Both sides digest the same authenticator**: it is on the wire, or is all zeros. -/
theorem verifyAuthenticator_eq (h : RequestPut E p sent raw) (hkind : IsRequest p.cls p.code)
    (hwhole : p.WholeAuthenticator) {st : DecodeState} (hcode : wireCode raw = p.code) :
    (r.parsed raw p.secret st none).verifyAuthenticator none none = p.macAuthenticator := by
  have hparsed : (r.parsed raw p.secret st none).code = p.code := hcode
  rcases hkind.cls_of_code with ⟨hcls, hcode⟩ | ⟨-, hcode⟩
  · obtain ⟨a, ha, ⟨body, hwire, -⟩, -⟩ := h.random hcls.symm
    have hsame : wireAuthenticator raw = a := by
      rw [hwire.authenticator_eq, take_drawn (hwhole a ha)]
    have hown : (r.parsed raw p.secret st none).authenticator = some a := by
      rw [← hsame]
      rfl
    rw [verifyAuthenticator, macAuthenticator, hparsed, hown, ha]
    rcases hcode with hcode | hcode <;> rw [hcode] <;> rfl
  · rw [verifyAuthenticator, macAuthenticator, hparsed]
    have hzeros : p.code ∈ [PacketType.accountingRequest, PacketType.disconnectRequest,
        PacketType.coaRequest] := hkind.code_mem hcode
    rw [if_pos hzeros, if_pos hzeros]

theorem exists_puts (h : RequestPut E p sent raw) (hkind : IsRequest p.cls p.code) :
    ∃ field, Puts E p field raw := by
  refine puts_of_requestPut h fun hcls ↦ ?_
  rw [hcls] at hkind
  cases hkind

/-- What the sender makes of the authenticator is what the server asks for. -/
theorem verifiable (h : RequestPut E p sent raw) (hkind : IsRequest p.cls p.code)
    (hcode : wireCode raw = p.code)
    (hzero : p.code = PacketType.accessRequest → wireAuthenticator raw ≠ zeros16) :
    RequestRouter.Verifiable E p.secret raw := by
  rw [RequestRouter.Verifiable, hcode]
  split
  · next haccess => exact hzero haccess
  · intro hdigest
    have hcls : p.cls = .acct ∨ p.cls = .coa := by
      rcases hkind.cls_of_code with ⟨-, hcode | hcode⟩ | ⟨hcls, -⟩
      · rw [hcode] at hdigest
        exact absurd hdigest (by decide)
      · rw [hcode] at hdigest
        exact absurd hdigest (by decide)
      · exact hcls
    obtain ⟨⟨body, hwire, -⟩, -⟩ := h.digest hcls
    rw [hwire.authenticator_eq, hwire.body_eq]

/-- **Requests are accepted end to end.** -/
theorem requestAccepted_of_sendable (h : Sendable E D p) (hkind : IsRequest p.cls p.code)
    (hwhole : p.WholeAuthenticator) (hdict : r.dictionary = some D) (hnames : NamesEapMessage D)
    (heap : p.code ≠ PacketType.accessRequest → p.FreeOf 79) : RequestAccepted E r p := by
  intro w raw s hrun hlength hzero w'
  obtain ⟨p', hsent⟩ := exists_requestSent h hkind hrun
  have hkind' : IsRequest p'.cls p'.code := by
    rw [hsent.completes.cls_eq, hsent.completes.code_eq]
    exact hkind
  obtain ⟨field, hputs⟩ := exists_puts hsent.put hkind'
  obtain ⟨body, hwire, hout⟩ := hputs
  have hframed : Framed raw := hwire.framed hlength
  have hcode : wireCode raw = p'.code := hwire.wireCode_eq
  have hid : s.pkt.id = some (wireId raw) := by
    have hsame : s.pkt.id = p'.id := by
      rcases hkind'.cls_of_code with ⟨hcls, -⟩ | ⟨hcls, -⟩
      · obtain ⟨a, -, -, attrs, heq⟩ := hsent.put.random hcls.symm
        rw [heq]
      · obtain ⟨-, attrs, heq⟩ := hsent.put.digest hcls
        rw [heq]
    rw [hsame, hwire.id_eq]
  obtain ⟨l, hl⟩ : ∃ l, raw.drop 20 = Avp.join l := by
    rw [hwire.body_eq]
    rw [Outgoing] at hout
    split at hout
    · obtain ⟨m, -⟩ := hout
      exact ⟨_, m.body_eq⟩
    · obtain ⟨l, hl, -⟩ := hout
      exact ⟨l, hl⟩
  obtain ⟨st, hst, -⟩ := exists_decoded r.dictionary hframed hl
  obtain ⟨w'', hparse⟩ : ∃ w'', (r.parse E raw p.secret).run w' =
      .ok (r.parsed raw p.secret st none) w'' := RequestRouter.exists_run_parse E hst w'
  have hsecret : p'.secret = p.secret := hsent.completes.secret_eq
  refine ⟨_, w'', hparse, hcode.trans hsent.completes.code_eq, hid.symm, ?_, ?_⟩
  · refine RequestRouter.verifyRequest_eq_ok hst ?_
    rw [← hsecret]
    refine verifiable hsent.put hkind' hcode fun haccess ↦ hzero ?_
    rw [← hsent.completes.code_eq, haccess]
  · by_cases hflag : p'.messageAuthenticator = some true
    · obtain ⟨authenticator, hauthenticator, hcovered⟩ :=
        covered_of_puts hflag ⟨body, hwire, hout⟩
      have hauth : (r.parsed raw p'.secret st none).verifyAuthenticator none none =
          p'.macAuthenticator := verifyAuthenticator_eq hsent.put hkind'
        (hsent.completes.wholeAuthenticator hwhole) hcode
      rw [hsecret] at hcovered hauth
      exact RequestRouter.exists_run_policy_of_covered h.declares hdict
        (digits_of_puts hflag ⟨body, hwire, hout⟩) hst
        (hauth.trans hauthenticator) hcovered w''
    · -- without a digest nothing is checked but that none was called for
      have hnone : wireCode raw ∉ [PacketType.accessRequest, PacketType.statusServer] := by
        rw [hcode, hsent.completes.code_eq]
        intro hmem
        exact hflag (hsent.flagged (by simpa using hmem))
      rw [Outgoing, if_neg hflag, ← hwire.body_eq] at hout
      have hother : p.code ≠ PacketType.accessRequest := by
        intro haccess
        exact hflag (hsent.flagged (.inl haccess))
      exact RequestRouter.exists_run_policy_of_typeFree h.declares hdict hnames hst hnone hout
        ((hsent.free 79 (heap hother)).resolve_left hflag) w''

end

/-- What `flaggedRequest` goes out as is accepted. -/
theorem requestAccepted_of_sendable_flaggedRequest :
    RequestAccepted sumEnv
      { hosts := ∅, dictionary := some Dictionary.messageAuthenticatorOnly } flaggedRequest := by
  have hsendable : Sendable sumEnv Dictionary.messageAuthenticatorOnly flaggedRequest :=
    sendable_of_entries_eq_nil Dictionary.declares_messageAuthenticatorOnly rfl rfl
      (hexFree_ofByte _ _) rfl rfl
  have hwhole : flaggedRequest.WholeAuthenticator := by
    intro a ha
    cases ha
    rfl
  have hnames : NamesEapMessage Dictionary.messageAuthenticatorOnly := by
    intro key hkey
    cases hkey
  exact requestAccepted_of_sendable hsendable .access hwhole rfl hnames fun h ↦ absurd rfl h

/-- Digests that repeat the length of what is digested. -/
def lengthEnv : Env := Env.ofByte (fun _ ↦ 5) fun _ msg ↦ UInt8.ofNat msg.length

/-- An Access-Request whose authenticator has one byte. -/
def shortRequest : Packet :=
  { flaggedRequest with authenticator := some [1], messageAuthenticator := none }

/-- An Access-Request with a vendor value under an extended attribute of type 80. -/
def strayRequest : Packet :=
  { flaggedRequest with
    attrs := OrderedDict.set ∅ (.tup [80, 1, 9, 1]) (.vals [.bytes [5]])
    messageAuthenticator := none }

/-- The checks of a server, one after the other. -/
def checked (E : Env) (r : RequestRouter) (secret raw : Bytes) : Method World Unit := do
  let q ← r.parse E raw secret
  let ((), _) ← q.run (r.validateMessageAuthenticatorPolicy E)

theorem exists_run_checked {E : Env} {r : RequestRouter} {secret raw : Bytes} {code : ℕ}
    {id : Option ℕ} (h : r.Accepts E secret code id raw) (w : World) :
    ∃ w', (checked E r secret raw).run w = .ok () w' := by
  obtain ⟨q, w', hparse, -, -, -, s, hpolicy⟩ := h w
  refine ⟨s.world, ?_⟩
  rw [checked, run_bind_of_ok hparse]
  rw [run_bind_of_ok (run_run_of_ok hpolicy)]
  rfl

/-- Did the run return? -/
def returned {σ α : Type} : EStateM.Result Exn σ α → Bool
  | .ok _ _ => true
  | .error _ _ => false

/-- A request is not accepted if what is sent of it fails the checks. -/
theorem not_requestAccepted_of_checked {E : Env} {r : RequestRouter} {p : Packet} (raw : Bytes)
    (w w' : World) (hsent : bytesOf ((sendRequest E).run ⟨p, w⟩) = some raw)
    (hlength : raw.length ≤ 8192) (hzero : wireAuthenticator raw ≠ zeros16)
    (hchecked : returned ((checked E r p.secret raw).run w') = false) :
    ¬ RequestAccepted E r p := by
  intro h
  obtain ⟨s, hrun⟩ := exists_of_bytesOf hsent
  obtain ⟨w'', hok⟩ := exists_run_checked (h w raw s hrun hlength fun _ ↦ hzero) w'
  rw [hok] at hchecked
  cases hchecked

/-- The digest of `shortRequest` is taken of one byte of authenticator, where sixteen are sent; that
of `strayRequest` is preceded by another attribute of its type. -/
theorem not_requestAccepted_shortRequest :
    (Sendable lengthEnv Dictionary.messageAuthenticatorOnly shortRequest ∧
      ¬ RequestAccepted lengthEnv
        { hosts := ∅, dictionary := some Dictionary.messageAuthenticatorOnly } shortRequest) ∧
      ¬ RequestAccepted lengthEnv
        { hosts := ∅, dictionary := some Dictionary.messageAuthenticatorOnly } strayRequest := by
  refine ⟨⟨?_, ?_⟩, ?_⟩
  · exact sendable_of_entries_eq_nil Dictionary.declares_messageAuthenticatorOnly rfl rfl
      (hexFree_ofByte _ _) rfl rfl
  · exact not_requestAccepted_of_checked
      ([1, 7, 0, 38, 1] ++ List.replicate 15 0 ++ [80, 18] ++ List.replicate 16 23)
      { rng := ⟨fun _ ↦ 0⟩ } { rng := ⟨fun _ ↦ 0⟩ }
      (by decide +kernel) (by decide) (by decide) (by decide +kernel)
  · exact not_requestAccepted_of_checked
      ([1, 7, 0, 47] ++ List.replicate 16 1 ++ [80, 9, 1, 0, 0, 0, 9, 1, 5, 80, 18] ++
        List.replicate 16 47) { rng := ⟨fun _ ↦ 0⟩ } { rng := ⟨fun _ ↦ 0⟩ }
      (by decide +kernel) (by decide) (by decide) (by decide +kernel)

end Packet

end Pyrad2
