import Pyrad2.DedupRuns
import Pyrad2.Packet.Frame
import Pyrad2.Packet.MessageAuthenticator
import Pyrad2.ServerAsync

/-!
# Which datagrams have an effect

A datagram has an effect if a handler is called or something is sent. What a datagram with an effect
has to be is stated here on its bytes: from a known host, decodable, of a code that the listener
serves, and authenticated with the secret of the host in the way its code demands.

Both servers keep to this but for one code. The synchronous accounting listener lets an
Accounting-Response through, for which the request verifier checks nothing.
-/

namespace Pyrad2

open EStateM ServerState

/-! ### Effects -/

namespace ServerState

/-- No handler was called and nothing was sent. -/
structure Silent (s s' : ServerState) : Prop where
  sent : s'.sent = s.sent
  handled : s'.handled = s.handled

instance : IsPreorder ServerState Silent where
  refl := fun _ ↦ ⟨rfl, rfl⟩
  trans := fun _ _ _ h h' ↦ ⟨h'.sent.trans h.sent, h'.handled.trans h.handled⟩

variable {α β : Type} {m : ServerMethod α} {f : α → ServerMethod β} {s : ServerState}

/-- The method calls a handler or sends something. -/
def Fires (m : ServerMethod α) (s : ServerState) : Prop := ¬ Silent s (after m s)

theorem not_fires_of_respects (hm : Respects Silent m) : ¬ Fires m s := fun h ↦ h (hm s)

theorem not_fires_throw (e : Exn) : ¬ Fires (throw e : ServerMethod α) s :=
  not_fires_of_respects (respects_throw e)

/-- What comes before the effect has returned. -/
theorem Fires.exists_of_bind (hm : Respects Silent m) (h : Fires (m >>= f) s) :
    ∃ a s', m.run s = .ok a s' ∧ Fires (f a) s' := by
  have hs := hm s
  rcases hrun : m.run s with ⟨a, s'⟩ | ⟨e, s'⟩
  · refine ⟨a, s', rfl, fun hsilent ↦ h ?_⟩
    rw [after_of_ok hrun] at hs
    rw [after_bind_of_ok hrun]
    exact trans_of Silent hs hsilent
  · rw [after_of_error hrun] at hs
    exact absurd (by rwa [after_of_error (run_bind_of_error hrun)]) h

theorem not_fires_throw_bind (e : Exn) : ¬ Fires (throw e >>= f) s :=
  not_fires_of_respects (respects_throw_bind e f)

theorem Fires.exists_of_liftM_bind {x : Except Exn α} (h : Fires (liftM x >>= f) s) :
    ∃ a, x = .ok a ∧ Fires (f a) s := by
  rcases x with e | a
  · exact absurd h (not_fires_throw e)
  · exact ⟨a, rfl, h⟩

theorem respects_silent_onWorld (m : Method World α) : Respects Silent (onWorld m) :=
  respects_onPart m fun _ _ ↦ ⟨rfl, rfl⟩

theorem run_onWorld_eq_ok {m : Method World α} {a : α} {s' : ServerState}
    (h : (onWorld m).run s = .ok a s') :
    ∃ w, m.run s.world = .ok a w ∧ s' = { s with world := w } := by
  rw [onWorld, run_onPart] at h
  rcases hm : m.run s.world with ⟨b, w⟩ | ⟨e, w⟩
  · rw [hm] at h
    cases h
    exact ⟨w, rfl, rfl⟩
  · rw [hm] at h
    cases h

theorem Fires.exists_of_onWorld_bind {m : Method World α} (h : Fires (onWorld m >>= f) s) :
    ∃ a w, m.run s.world = .ok a w ∧ Fires (f a) { s with world := w } := by
  obtain ⟨a, s', hrun, hfires⟩ := h.exists_of_bind (respects_silent_onWorld m)
  obtain ⟨w, hw, rfl⟩ := run_onWorld_eq_ok hrun
  exact ⟨a, w, hw, hfires⟩

end ServerState

/-! ### Listeners -/

/-- A listener of either server. A synchronous server has sockets only for what is enabled. -/
inductive Listener where
  | sync (srv : Server) (kind : ServerType) (enabled : srv.enabled kind = true)
  | async (proto : DatagramProtocolServer)

namespace Listener

/-- The kind of the listener. -/
def kind : Listener → ServerType
  | sync _ kind _ => kind
  | async proto => proto.serverType

def router : Listener → RequestRouter
  | sync srv _ _ => srv.router
  | async proto => proto.server.router

/-- The hosts the listener serves. -/
def hosts : Listener → OrderedDict String RemoteHost
  | sync srv _ _ => srv.router.hosts
  | async proto => proto.hosts

/-- The secret of a source: that of its host, or of the entry for all hosts. -/
def secretOf (L : Listener) (addr : Address) : Option Bytes :=
  ((L.hosts.get? addr.1).or (L.hosts.get? "0.0.0.0")).map RemoteHost.secret

/-- What the listener reads of a datagram. -/
def read : Listener → Bytes → Bytes
  | sync _ _ _, data => data.take maxPacketSize
  | async _, data => data

/-- What the listener does with a datagram. -/
def receive (E : Env) : Listener → Bytes → Address → ServerMethod Unit
  | sync srv kind _, data, addr => srv.processInput E kind data addr
  | async proto, data, addr => proto.datagramReceived E data addr

/-- The flags of both constructors by default. -/
def HasDefaultFlags (L : Listener) : Prop :=
  L.router.enablePktVerify = true ∧ L.router.requireMessageAuthenticator = true

end Listener

/-! ### Authentic requests -/

namespace Packet

/-- Exactly one Message-Authenticator, and it is the digest of the packet, if the dictionary means
that attribute by the name. -/
def HasValidMac (E : Env) (D : Option Dictionary) (secret raw : Bytes) : Prop :=
  ∃ m : MacSplit (raw.drop 20), ∀ D' ∈ D, D'.DeclaresMessageAuthenticator →
    m.mac.value = E.hmacMd5 secret (raw.take 4 ++ wireAuthenticator raw ++ m.zeroed)

/-- The request is authenticated as its code demands. -/
structure Authentic (E : Env) (D : Option Dictionary) (secret raw : Bytes) : Prop where
  access : wireCode raw = PacketType.accessRequest →
    wireAuthenticator raw ≠ zeros16 ∧ HasValidMac E D secret raw
  digest : wireCode raw ∈ [PacketType.accountingRequest, PacketType.coaRequest,
      PacketType.disconnectRequest] →
    E.md5 (raw.take 4 ++ zeros16 ++ raw.drop 20 ++ secret) = wireAuthenticator raw
  status : wireCode raw = PacketType.statusServer → HasValidMac E D secret raw

end Packet

open Packet

/-- The request codes a listener serves. -/
def ServerType.requestCodes : ServerType → List ℕ
  | auth => [PacketType.accessRequest, PacketType.statusServer]
  | acct => [PacketType.accountingRequest, PacketType.statusServer]
  | coa => [PacketType.coaRequest, PacketType.disconnectRequest]

/-- The datagram is a request the listener may act on. -/
structure Listener.Admissible (E : Env) (L : Listener) (data : Bytes) (addr : Address) : Prop where
  decodes : ∃ st, Decoded L.router.dictionary (L.read data) st
  code_mem : wireCode (L.read data) ∈ L.kind.requestCodes
  authentic : ∃ secret, L.secretOf addr = some secret ∧
    Authentic E L.router.dictionary secret (L.read data)

/-! ### Parsed requests -/

namespace RequestRouter

variable {E : Env} {r : RequestRouter} {raw secret : Bytes} {st : DecodeState}
  {source : Option Address}

/-- What parsing accepted bytes gives. -/
def parsed (r : RequestRouter) (raw secret : Bytes) (st : DecodeState) (source : Option Address) :
    Packet :=
  received { cls := classFor (wireCode raw), secret, dict := r.dictionary, source } raw st

theorem ensures_parse (E : Env) (r : RequestRouter) (raw secret : Bytes) (w : World) :
    Ensures (r.parse E raw secret) w
      (fun p _ ↦ ∃ st, Decoded r.dictionary raw st ∧ p = r.parsed raw secret st none)
      fun e _ ↦ e.isDropped = true := by
  rw [parse]
  split
  · exact rfl
  next hne =>
  rcases raw with - | ⟨b, raw⟩
  · exact absurd rfl hne
  rw [parsePacket]
  refine (ensures_construct E rfl rfl (b :: raw) w).imp (fun p _ hp ↦ ?_) fun e _ he ↦ ?_
  · obtain ⟨st, hst, rfl⟩ := hp
    exact ⟨st, hst, by rw [parsed, wireCode_cons]⟩
  · exact Exn.isDropped_of_isPacketError he.1

theorem ne_nil_of_decoded {D : Option Dictionary} (h : Decoded D raw st) : raw ≠ [] := by
  intro hnil
  have hheader := h.framed.header
  rw [hnil] at hheader
  exact absurd hheader (by decide)

/-- An Access-Request that was verified has an authenticator that is not zero. -/
theorem wireAuthenticator_ne_of_verifyRequest (hst : Decoded r.dictionary raw st)
    (hverify : r.enablePktVerify = true)
    (h : r.verifyRequest E (r.parsed raw secret st source) = .ok ())
    (hcode : wireCode raw = PacketType.accessRequest) : wireAuthenticator raw ≠ zeros16 := by
  intro hzero
  obtain ⟨b, rest, rfl⟩ := List.exists_cons_of_ne_nil (ne_nil_of_decoded hst)
  rw [wireCode_cons] at hcode
  have hfalse : (r.parsed (b :: rest) secret st source).verifyAuthRequest = .ok false := by
    rw [verifyAuthRequest]
    simp [parsed, received, hcode, hzero]
  have hrejected : r.verifyRequest E (r.parsed (b :: rest) secret st source) =
      .error verificationFailed := by
    have hclass : (r.parsed (b :: rest) secret st source).cls = .auth := by
      simp [parsed, received, wireCode_cons, hcode, classFor]
    have hcode' : (r.parsed (b :: rest) secret st source).code = PacketType.accessRequest := by
      simp [parsed, received, wireCode_cons, hcode]
    rw [verifyRequest, hverify, hcode', hclass, hfalse]
    rfl
  rw [hrejected] at h
  cases h

/-- The authenticator of a verified Accounting-, CoA- or Disconnect-Request is the digest. -/
theorem md5_eq_of_verifyRequest (hst : Decoded r.dictionary raw st)
    (hverify : r.enablePktVerify = true)
    (h : r.verifyRequest E (r.parsed raw secret st source) = .ok ())
    (hcode : wireCode raw ∈ [PacketType.accountingRequest, PacketType.coaRequest,
      PacketType.disconnectRequest]) :
    E.md5 (raw.take 4 ++ zeros16 ++ raw.drop 20 ++ secret) = wireAuthenticator raw := by
  by_contra hne
  obtain ⟨b, rest, rfl⟩ := List.exists_cons_of_ne_nil (ne_nil_of_decoded hst)
  have hfalse : verifyPacket E (r.parsed (b :: rest) secret st source) = .ok false := by
    rw [verifyPacket]
    simpa [parsed, received] using hne
  have hrejected : r.verifyRequest E (r.parsed (b :: rest) secret st source) =
      .error verificationFailed := by
    have hcode' : (r.parsed (b :: rest) secret st source).code = wireCode (b :: rest) := rfl
    have hne1 : wireCode (b :: rest) ≠ PacketType.accessRequest := by
      intro h1
      rw [h1] at hcode
      exact absurd hcode (by decide)
    rw [verifyRequest, hverify, hcode', if_neg hne1, if_pos hcode, hfalse]
    rfl
  rw [hrejected] at h
  cases h

/-- A matching Message-Authenticator of an Access-Request or Status-Server is a valid one. -/
theorem hasValidMac_of_macMatches (hst : Decoded r.dictionary raw st)
    (hcode : wireCode raw = PacketType.accessRequest ∨ wireCode raw = PacketType.statusServer)
    (h : MacMatches E (r.parsed raw secret st source) raw none none none) :
    HasValidMac E r.dictionary secret raw := by
  obtain ⟨m, item, prev, header, authenticator, hitem, hprev, hheader, hauth, hmatch⟩ := h
  refine ⟨m, fun D hD hdeclares ↦ ?_⟩
  have hD' : r.dictionary = some D := hD
  have hheader' : header = raw.take 4 := by
    have hlength : 20 + m.zeroed.length = raw.length := by
      have hframe := hst.framed.header
      rw [m.length_zeroed, List.length_drop]
      omega
    have hpack := packHeader_wire hst.framed
    rw [← hlength] at hpack
    exact (Except.ok.inj (hpack.symm.trans hheader)).symm
  have hauth' : authenticator = wireAuthenticator raw := by
    have hown : (r.parsed raw secret st source).verifyAuthenticator none none =
        .ok (wireAuthenticator raw) := by
      rw [verifyAuthenticator]
      rcases hcode with hcode | hcode
      · simp [parsed, received, hcode, concatOperand]
      · simp [parsed, received, hcode, concatOperand]
    exact (Except.ok.inj (hown.symm.trans hauth)).symm
  have hvalue : (r.parsed raw secret st source).getItem E "Message-Authenticator" =
      .ok (.vals [.bytes m.mac.value]) :=
    getItem_received_mac hdeclares E hD' (hD' ▸ hst) m
  have hprev' : prev = m.mac.value := by
    rw [hvalue] at hitem
    cases hitem
    cases hprev
    rfl
  rw [← hprev', hmatch, hheader', hauth']
  rfl

/-! ### Passing the checks -/

theorem respects_silent_validatePolicy (E : Env) (r : RequestRouter) (p : Packet) :
    Respects Silent (r.validatePolicy E p) :=
  (respects_silent_onWorld _).bind fun _ ↦ respects_pure _

/-- What comes after the policy check has an effect only if the check passed. -/
theorem macMatches_of_fires (hst : Decoded r.dictionary raw st) {f : Packet → ServerMethod Unit}
    {s : ServerState} (h : Fires (r.validatePolicy E (r.parsed raw secret st source) >>= f) s) :
    MacMatches E (r.parsed raw secret st source) raw none none none ∨
      wireCode raw ≠ PacketType.statusServer ∧
        ¬ (r.requireMessageAuthenticator = true ∧ wireCode raw = PacketType.accessRequest) := by
  obtain ⟨p, s', hrun, -⟩ := h.exists_of_bind (respects_silent_validatePolicy E r _)
  rw [validatePolicy] at hrun
  obtain ⟨⟨u, p'⟩, s₁, hworld, -⟩ := run_bind_eq_ok_iff.1 hrun
  obtain ⟨w, hw, -⟩ := run_onWorld_eq_ok hworld
  have hpolicy : Ensures ((r.parsed raw secret st source).run
      (r.validateMessageAuthenticatorPolicy E)) s.world
      (fun _ _ ↦ MacMatches E (r.parsed raw secret st source) raw none none none ∨
        wireCode raw ≠ PacketType.statusServer ∧
          ¬ (r.requireMessageAuthenticator = true ∧ wireCode raw = PacketType.accessRequest))
      fun _ _ ↦ True :=
    ensures_run.2 (ensures_validateMessageAuthenticatorPolicy rfl (ne_nil_of_decoded hst) rfl _ _)
  exact hpolicy.of_run_eq_ok hw

/-- **A request that is verified and passes the policy is authentic.** -/
theorem authentic_of_fires (hst : Decoded r.dictionary raw st)
    (hverify : r.enablePktVerify = true) (hrequire : r.requireMessageAuthenticator = true)
    {f : Packet → ServerMethod Unit} {s : ServerState}
    (h : Fires (do
      r.verifyRequest E (r.parsed raw secret st source)
      let p ← r.validatePolicy E (r.parsed raw secret st source)
      f p) s) :
    Authentic E r.dictionary secret raw := by
  obtain ⟨⟨⟩, hrequest, hpolicy⟩ := h.exists_of_liftM_bind
  have hmatch := macMatches_of_fires hst hpolicy
  refine ⟨fun hcode ↦ ⟨wireAuthenticator_ne_of_verifyRequest hst hverify hrequest hcode, ?_⟩,
    md5_eq_of_verifyRequest hst hverify hrequest, fun hcode ↦ ?_⟩
  · have hmac := hmatch.resolve_right fun h ↦ h.2 ⟨hrequire, hcode⟩
    exact hasValidMac_of_macMatches hst (.inl hcode) hmac
  · have hmac := hmatch.resolve_right fun h ↦ h.1 hcode
    exact hasValidMac_of_macMatches hst (.inr hcode) hmac

/-- A Status-Server that passes the policy is authentic. -/
theorem authentic_of_fires_status (hst : Decoded r.dictionary raw st)
    (hcode : wireCode raw = PacketType.statusServer) {p : Packet}
    (hp : p = r.parsed raw secret st source) {f : Packet → ServerMethod Unit} {s : ServerState}
    (h : Fires (r.validatePolicy E p >>= f) s) : Authentic E r.dictionary secret raw := by
  rw [hp] at h
  have hmac := (macMatches_of_fires hst h).resolve_right fun h ↦ h.1 hcode
  refine ⟨fun h1 ↦ ?_, fun hmem ↦ ?_, fun _ ↦ hasValidMac_of_macMatches hst (.inr hcode) hmac⟩
  · rw [hcode] at h1
    exact absurd h1 (by decide)
  · rw [hcode] at hmem
    exact absurd hmem (by decide)

end RequestRouter

/-! ### The synchronous server -/

namespace Server

variable {E : Env} {srv : Server} {raw secret data : Bytes} {st : DecodeState} {addr : Address}
  {s : ServerState}

theorem respects_silent_grabPacket (E : Env) (srv : Server) (data : Bytes) (addr : Address) :
    Respects Silent (srv.grabPacket E data addr) :=
  (respects_liftM _).bind fun _ ↦ (respects_silent_onWorld _).bind fun _ ↦ respects_pure _

theorem ensures_grabPacket (E : Env) (srv : Server) (data : Bytes) (addr : Address)
    (s : ServerState) :
    Ensures (srv.grabPacket E data addr) s
      (fun p _ ↦ ∃ secret st, srv.router.lookupSecret addr.1 = .ok secret ∧
        Decoded srv.router.dictionary (data.take maxPacketSize) st ∧
        p = srv.router.parsed (data.take maxPacketSize) secret st (some addr))
      fun e _ ↦ e.isDropped = true := by
  rw [grabPacket]
  refine ensures_bind.2 (ensures_liftM (fun secret hsecret ↦ ?_) fun e he ↦ ?_)
  · refine ensures_bind.2 (ensures_onPart.2
      ((srv.router.ensures_parse E _ secret s.world).imp (fun p _ hp ↦ ?_) fun _ _ h ↦ h))
    obtain ⟨st, hst, rfl⟩ := hp
    exact ⟨secret, st, hsecret, hst, rfl⟩
  · rw [RequestRouter.lookupSecret] at he
    split at he
    · cases he
    · cases he
      rfl

theorem addSecret_parsed (hsecret : srv.router.lookupSecret addr.1 = .ok secret) :
    srv.addSecret (srv.router.parsed raw secret st (some addr)) =
      .ok (srv.router.parsed raw secret st (some addr)) := by
  have hsource : (srv.router.parsed raw secret st (some addr)).source = some addr := rfl
  rw [addSecret, hsource]
  dsimp only
  rw [hsecret]
  rfl

/-- What a socket of the kind does with a parsed packet. -/
def handle (E : Env) (srv : Server) : ServerType → Packet → ServerMethod Unit
  | .auth => srv.handleAuth E
  | .acct => srv.handleAcct E
  | .coa => srv.handleCoa E

theorem processInput_of_enabled (E : Env) {kind : ServerType} (h : srv.enabled kind = true) :
    srv.processInput E kind data addr = srv.grabPacket E data addr >>= srv.handle E kind := by
  have hkind : srv.enabled .auth = srv.authEnabled ∧ srv.enabled .acct = srv.acctEnabled ∧
      srv.enabled .coa = srv.coaEnabled := ⟨rfl, rfl, rfl⟩
  rw [processInput]
  cases kind with
  | auth =>
    rw [if_pos ⟨hkind.1 ▸ h, rfl⟩]
    rfl
  | acct =>
    rw [if_neg (by simp), if_pos ⟨hkind.2.1 ▸ h, rfl⟩]
    rfl
  | coa =>
    rw [if_neg (by simp), if_neg (by simp), if_pos (hkind.2.2 ▸ h)]
    rfl

/-- A Status-Server is answered by itself; any other code goes on to the rest. -/
theorem authentic_or_of_fires_handleStatusPacket (hst : Decoded srv.router.dictionary raw st)
    {code : ℕ} {m : ServerMethod Unit}
    (h : Fires (do
      if ← srv.handleStatusPacket E (srv.router.parsed raw secret st (some addr)) code then return
      m) s) :
    wireCode raw = PacketType.statusServer ∧ Authentic E srv.router.dictionary secret raw ∨
      wireCode raw ≠ PacketType.statusServer ∧ Fires m s := by
  by_cases hcode : wireCode raw = PacketType.statusServer
  · refine .inl ⟨hcode, ?_⟩
    have hstatus : srv.handleStatusPacket E (srv.router.parsed raw secret st (some addr)) code =
        (do
          let p ← srv.router.validatePolicy E (srv.router.parsed raw secret st (some addr))
          srv.sendStatusResponse E p code
          return true) := by
      rw [handleStatusPacket]
      exact if_neg (not_not.2 hcode)
    rw [hstatus, bind_assoc] at h
    exact RequestRouter.authentic_of_fires_status hst hcode rfl h
  · refine .inr ⟨hcode, ?_⟩
    have hstatus : srv.handleStatusPacket E (srv.router.parsed raw secret st (some addr)) code =
        pure false := by
      rw [handleStatusPacket]
      exact if_pos hcode
    rw [hstatus, pure_bind] at h
    exact h

/-- A datagram that is not an Accounting-Response on the accounting port has an effect only if it is
a request of its port that is authentic. -/
theorem exists_authentic_of_fires (hverify : srv.router.enablePktVerify = true)
    (hrequire : srv.router.requireMessageAuthenticator = true) {kind : ServerType}
    (henabled : srv.enabled kind = true)
    (hresponse : ¬ (kind = .acct ∧
      wireCode (data.take maxPacketSize) = PacketType.accountingResponse))
    (h : Fires (srv.processInput E kind data addr) s) :
    ∃ secret, srv.router.lookupSecret addr.1 = .ok secret ∧
      (∃ st, Decoded srv.router.dictionary (data.take maxPacketSize) st) ∧
      wireCode (data.take maxPacketSize) ∈ kind.requestCodes ∧
      Authentic E srv.router.dictionary secret (data.take maxPacketSize) := by
  have hgrabbed {f : Packet → ServerMethod Unit}
      (hf : Fires (srv.grabPacket E data addr >>= f) s) :
      ∃ secret st s', srv.router.lookupSecret addr.1 = .ok secret ∧
        Decoded srv.router.dictionary (data.take maxPacketSize) st ∧
        Fires (f (srv.router.parsed (data.take maxPacketSize) secret st (some addr))) s' := by
    obtain ⟨p, s', hrun, hfires⟩ := hf.exists_of_bind (respects_silent_grabPacket E srv data addr)
    obtain ⟨secret, st, hsecret, hst, rfl⟩ := (ensures_grabPacket E srv data addr s).of_run_eq_ok hrun
    exact ⟨secret, st, s', hsecret, hst, hfires⟩
  -- from here on the packet is the parsed one; setting its secret again changes nothing
  have hsecured {secret : Bytes} {st : DecodeState} {s' : ServerState}
      (hsecret : srv.router.lookupSecret addr.1 = .ok secret) {f : Packet → ServerMethod Unit}
      (hf : Fires (liftM (srv.addSecret
        (srv.router.parsed (data.take maxPacketSize) secret st (some addr))) >>= f) s') :
      Fires (f (srv.router.parsed (data.take maxPacketSize) secret st (some addr))) s' := by
    rw [addSecret_parsed hsecret] at hf
    exact hf
  have hdispatched {secret : Bytes} {st : DecodeState} {s' : ServerState} {handler : Handler}
      (hst : Decoded srv.router.dictionary (data.take maxPacketSize) st)
      (hf : Fires (srv.verifyAndDispatch E
        (srv.router.parsed (data.take maxPacketSize) secret st (some addr)) handler) s') :
      Authentic E srv.router.dictionary secret (data.take maxPacketSize) :=
    RequestRouter.authentic_of_fires hst hverify hrequire hf
  rw [processInput_of_enabled E henabled] at h
  obtain ⟨secret, st, s', hsecret, hst, h⟩ := hgrabbed h
  refine ⟨secret, hsecret, ⟨st, hst⟩, ?_⟩
  cases kind with
  | auth =>
    rw [handle, handleAuth] at h
    obtain ⟨hcode, hauth⟩ | ⟨-, h⟩ :=
      authentic_or_of_fires_handleStatusPacket hst (hsecured hsecret h)
    · exact ⟨by rw [hcode]; decide, hauth⟩
    · split at h
      · exact absurd h (not_fires_throw_bind _)
      next hcode =>
      have hcode' : wireCode (data.take maxPacketSize) = PacketType.accessRequest :=
        not_not.1 hcode
      exact ⟨by rw [hcode']; decide, hdispatched hst h⟩
  | acct =>
    rw [handle, handleAcct] at h
    obtain ⟨hcode, hauth⟩ | ⟨-, h⟩ :=
      authentic_or_of_fires_handleStatusPacket hst (hsecured hsecret h)
    · exact ⟨by rw [hcode]; decide, hauth⟩
    · split at h
      · exact absurd h (not_fires_throw_bind _)
      next hcode =>
      have hmem : wireCode (data.take maxPacketSize) ∈
          [PacketType.accountingRequest, PacketType.accountingResponse] := not_not.1 hcode
      have hcode' : wireCode (data.take maxPacketSize) = PacketType.accountingRequest := by
        have hor := List.mem_pair.1 hmem
        exact hor.resolve_right fun h ↦ hresponse ⟨rfl, h⟩
      exact ⟨by rw [hcode']; decide, hdispatched hst h⟩
  | coa =>
    rw [handle, handleCoa] at h
    have h := hsecured hsecret h
    split at h
    · next hcode =>
      have hcode' : wireCode (data.take maxPacketSize) = PacketType.coaRequest := hcode
      exact ⟨by rw [hcode']; decide, hdispatched hst h⟩
    split at h
    · next hcode =>
      have hcode' : wireCode (data.take maxPacketSize) = PacketType.disconnectRequest := hcode
      exact ⟨by rw [hcode']; decide, hdispatched hst h⟩
    · exact absurd h (not_fires_throw _)

/-! ### Accounting-Responses -/

/-- On the accounting port nothing stands between the parsing of an Accounting-Response and its
dispatch but the policy check. -/
theorem handle_acct_of_response (hsecret : srv.router.lookupSecret addr.1 = .ok secret)
    (hcode : wireCode raw = PacketType.accountingResponse) :
    srv.handle E .acct (srv.router.parsed raw secret st (some addr)) = (do
      let p ← srv.router.validatePolicy E (srv.router.parsed raw secret st (some addr))
      srv.dedupDispatch E p srv.handleAcctPacket) := by
  have hcode' : (srv.router.parsed raw secret st (some addr)).code =
      PacketType.accountingResponse := hcode
  have hstatus : srv.handleStatusPacket E (srv.router.parsed raw secret st (some addr))
      PacketType.accountingResponse = pure false := by
    rw [handleStatusPacket, if_pos (by rw [hcode']; decide)]
  have hverify : srv.router.verifyRequest E (srv.router.parsed raw secret st (some addr)) =
      .ok () := by
    rw [RequestRouter.verifyRequest, hcode']
    split <;> rfl
  rw [handle, handleAcct, addSecret_parsed hsecret]
  change (srv.handleStatusPacket E _ _ >>= _) = _
  rw [hstatus, pure_bind, if_neg (by decide), if_neg (by rw [hcode']; decide), verifyAndDispatch,
    hverify]
  rfl

theorem exists_run_of_fires (henabled : srv.enabled .acct = true)
    (hcode : wireCode (data.take maxPacketSize) = PacketType.accountingResponse)
    (h : Fires (srv.processInput E .acct data addr) s) :
    ∃ p s', (srv.grabPacket E data addr >>= srv.router.validatePolicy E).run s = .ok p s' := by
  rw [processInput_of_enabled E henabled] at h
  obtain ⟨p, s', hrun, h⟩ := h.exists_of_bind (respects_silent_grabPacket E srv data addr)
  obtain ⟨secret, st, hsecret, -, rfl⟩ := (ensures_grabPacket E srv data addr s).of_run_eq_ok hrun
  rw [handle_acct_of_response hsecret hcode] at h
  obtain ⟨p', s'', hrun', -⟩ :=
    h.exists_of_bind (RequestRouter.respects_silent_validatePolicy E srv.router _)
  exact ⟨p', s'', by rw [run_bind_of_ok hrun, hrun']⟩

theorem code_of_validatePolicy {r : RequestRouter} {p p' : Packet} {s' : ServerState}
    (h : (r.validatePolicy E p).run s = .ok p' s') : p'.code = p.code := by
  rw [RequestRouter.validatePolicy] at h
  obtain ⟨⟨u, p₁⟩, s₁, hworld, hreturn⟩ := run_bind_eq_ok_iff.1 h
  obtain ⟨w, hw, -⟩ := run_onWorld_eq_ok hworld
  have hcode : Ensures (p.run (r.validateMessageAuthenticatorPolicy E)) s.world
      (fun q _ ↦ q.2.code = p.code) fun _ _ ↦ True := by
    have hrecodes := recodes_validateMessageAuthenticatorPolicy E r.requireMessageAuthenticator
      r.requireEapMessageAuthenticator ⟨p, s.world⟩
    refine ensures_run.2 ((ensures_iff_after.2 hrecodes).imp (fun _ s' hs' ↦ ?_)
      fun _ _ _ ↦ trivial)
    obtain ⟨attrs, authenticator, heq, -⟩ := hs'
    rw [heq]
  cases hreturn
  exact hcode.of_run_eq_ok hw

/-- The handler is called for an Accounting-Response that passes the policy. -/
theorem fires_of_run (henabled : srv.enabled .acct = true)
    (hcode : wireCode (data.take maxPacketSize) = PacketType.accountingResponse) {p : Packet}
    {s' : ServerState}
    (h : (srv.grabPacket E data addr >>= srv.router.validatePolicy E).run s = .ok p s') :
    Fires (srv.processInput E .acct data addr) s := by
  obtain ⟨p₁, s₁, hgrab, hpolicy⟩ := run_bind_eq_ok_iff.1 h
  obtain ⟨secret, st, hsecret, -, rfl⟩ := (ensures_grabPacket E srv data addr s).of_run_eq_ok hgrab
  -- no request with this code has a key
  have hkey : srv.router.dedupKeyFor p none = none := by
    have hp : p.code = PacketType.accountingResponse := (code_of_validatePolicy hpolicy).trans hcode
    rw [RequestRouter.dedupKeyFor]
    split
    · rw [keyFor, hp]
      rfl
    · rfl
  have hcalled : ∃ time, (after (srv.dedupDispatch E p srv.handleAcctPacket) s').handled =
      s'.handled ++ [⟨none, time⟩] := by
    have hhandled := Dispatch.handled_after (E := E) (r := srv.router) (t := .sync) (s := s')
      (d := ⟨p, none, srv.handleAcctPacket⟩) fun k hk ↦ by
        rw [Dispatch.key, hkey] at hk
        cases hk
    rw [Dispatch.key, hkey] at hhandled
    exact hhandled
  obtain ⟨time, htime⟩ := hcalled
  have hsilent : s'.handled = s.handled := by
    have hrespects := ((respects_silent_grabPacket E srv data addr).bind fun p ↦
      RequestRouter.respects_silent_validatePolicy E srv.router p) s
    rw [after_of_ok h] at hrespects
    exact hrespects.handled
  rw [processInput_of_enabled E henabled]
  intro hsame
  rw [after_bind_of_ok hgrab, handle_acct_of_response hsecret hcode, after_bind_of_ok hpolicy] at hsame
  have heq := hsame.handled
  rw [htime, hsilent] at heq
  exact absurd heq (by simp)

end Server

/-! ### The asynchronous server -/

namespace DatagramProtocolServer

variable {E : Env} {proto : DatagramProtocolServer} {data : Bytes} {addr : Address}
  {s : ServerState}

theorem mem_requestCodes_of_gateCode {code : ℕ} {kind : ServerType}
    (h : RequestRouter.gateCode code kind = .ok ()) : code ∈ kind.requestCodes := by
  cases kind with
  | auth =>
    rw [RequestRouter.gateCode] at h
    split at h
    · cases h
    next hmem => exact not_not.1 hmem
  | acct =>
    rw [RequestRouter.gateCode] at h
    split at h
    · cases h
    next hmem => exact not_not.1 hmem
  | coa =>
    rw [RequestRouter.gateCode] at h
    split at h
    · cases h
    split at h
    · cases h
    next hmem =>
      have hor := List.mem_pair.1 (not_not.1 hmem)
      exact List.mem_pair.2 hor.symm

/-- A datagram has an effect only if it is a request of its port that is authentic. -/
theorem exists_authentic_of_fires (hverify : proto.server.router.enablePktVerify = true)
    (hrequire : proto.server.router.requireMessageAuthenticator = true)
    (h : Fires (proto.datagramReceived E data addr) s) :
    ∃ host, proto.remoteHost addr.1 = some host ∧
      (∃ st, Decoded proto.server.router.dictionary data st) ∧
      wireCode data ∈ proto.serverType.requestCodes ∧
      Authentic E proto.server.router.dictionary host.secret data := by
  rw [datagramReceived] at h
  rcases hhost : proto.remoteHost addr.1 with - | host
  · rw [hhost] at h
    exact absurd h (not_fires_of_respects (respects_pure ()))
  rw [hhost, Fires, Method.after_catchException_pure] at h
  refine ⟨host, rfl, ?_⟩
  have h : Fires (proto.handleDatagram E data host.secret addr) s := h
  rcases data with - | ⟨code, rest⟩
  · exact absurd h (not_fires_throw _)
  rw [handleDatagram] at h
  obtain ⟨-, -, h⟩ := h.exists_of_liftM_bind
  obtain ⟨⟨⟩, hgate, h⟩ := h.exists_of_liftM_bind
  have hmem : wireCode (code :: rest) ∈ proto.serverType.requestCodes := by
    rw [wireCode_cons]
    exact mem_requestCodes_of_gateCode hgate
  split at h
  · next hcode =>
    rw [handleStatusServer] at h
    obtain ⟨p, w, hrun, h⟩ := h.exists_of_onWorld_bind
    obtain ⟨st, hst, rfl⟩ := (ensures_construct E rfl rfl (code :: rest) s.world).of_run_eq_ok hrun
    have hcode' : wireCode (code :: rest) = PacketType.statusServer := by
      rw [wireCode_cons, hcode]
    have hparsed : received
        { cls := .status, code := PacketType.statusServer, secret := host.secret,
          dict := proto.server.router.dictionary } (code :: rest) st =
        proto.server.router.parsed (code :: rest) host.secret st none := by
      -- the class is the one `parse_packet` picks for the code
      rw [RequestRouter.parsed, hcode']
      rfl
    exact ⟨⟨st, hst⟩, hmem, RequestRouter.authentic_of_fires_status hst hcode' hparsed h⟩
  · obtain ⟨p, w, hrun, h⟩ := h.exists_of_onWorld_bind
    obtain ⟨st, hst, rfl⟩ :=
      (proto.server.router.ensures_parse E (code :: rest) host.secret s.world).of_run_eq_ok hrun
    exact ⟨⟨st, hst⟩, hmem, RequestRouter.authentic_of_fires hst hverify hrequire h⟩

end DatagramProtocolServer

/-! ### Both servers -/

namespace Listener

/-- The datagram is an Accounting-Response that the synchronous accounting listener lets through:
its source is known, it decodes, and it passes the Message-Authenticator policy. -/
def AdmitsResponse (E : Env) : Listener → Bytes → Address → ServerState → Prop
  | sync srv kind _, data, addr, s =>
    kind = .acct ∧ wireCode (data.take maxPacketSize) = PacketType.accountingResponse ∧
      ∃ p s', (srv.grabPacket E data addr >>= srv.router.validatePolicy E).run s = .ok p s'
  | async _, _, _, _ => False

variable {E : Env} {L : Listener} {data : Bytes} {addr : Address} {s : ServerState}

theorem admissible_of_fires (hflags : L.HasDefaultFlags) (hfires : Fires (L.receive E data addr) s)
    (hresponse : ¬ L.AdmitsResponse E data addr s) : L.Admissible E data addr := by
  cases L with
  | sync srv kind enabled =>
    by_cases hcode : kind = .acct ∧
        wireCode (data.take maxPacketSize) = PacketType.accountingResponse
    · obtain ⟨rfl, hcode⟩ := hcode
      exact absurd ⟨rfl, hcode, Server.exists_run_of_fires enabled hcode hfires⟩ hresponse
    · obtain ⟨secret, hsecret, hst, hmem, hauth⟩ :=
        Server.exists_authentic_of_fires hflags.1 hflags.2 enabled hcode hfires
      refine ⟨hst, hmem, secret, ?_, hauth⟩
      rw [RequestRouter.lookupSecret] at hsecret
      rw [secretOf, hosts]
      split at hsecret
      · next host hhost =>
        cases hsecret
        rw [hhost]
        rfl
      · cases hsecret
  | async proto =>
    obtain ⟨host, hhost, hst, hcode, hauth⟩ :=
      DatagramProtocolServer.exists_authentic_of_fires hflags.1 hflags.2 hfires
    refine ⟨hst, hcode, host.secret, ?_, hauth⟩
    have hremote : Option.map RemoteHost.secret (proto.remoteHost addr.1) = some host.secret := by
      rw [hhost]
      rfl
    exact hremote

/-- An Accounting-Response that is let through reaches the handler. -/
theorem fires_of_admitsResponse (h : L.AdmitsResponse E data addr s) :
    Fires (L.receive E data addr) s := by
  cases L with
  | sync srv kind enabled =>
    obtain ⟨rfl, hcode, p, s', hrun⟩ := h
    exact Server.fires_of_run enabled hcode hrun
  | async proto => exact h.elim

/-- No listener serves Accounting-Responses. -/
theorem not_admissible_of_admitsResponse (h : L.AdmitsResponse E data addr s) :
    ¬ L.Admissible E data addr := by
  intro hadmissible
  cases L with
  | sync srv kind enabled =>
    obtain ⟨rfl, hcode, -⟩ := h
    have hmem : PacketType.accountingResponse ∈ ServerType.acct.requestCodes :=
      hcode ▸ hadmissible.code_mem
    exact absurd hmem (by decide)
  | async proto => exact h

/-- **Effects need an authentic request**, unless an Accounting-Response is let through. -/
theorem fires_imp_admissible_iff (E : Env) (data : Bytes) (addr : Address) (s : ServerState)
    (hflags : L.HasDefaultFlags) :
    (Fires (L.receive E data addr) s → L.Admissible E data addr) ↔
      ¬ L.AdmitsResponse E data addr s := by
  constructor
  · intro h hresponse
    exact not_admissible_of_admitsResponse hresponse (h (fires_of_admitsResponse hresponse))
  · intro hresponse hfires
    exact admissible_of_fires hflags hfires hresponse

/-- A server that knows one host. -/
def oneHost : Server where
  router := { hosts := OrderedDict.set ∅ "192.0.2.1" ⟨[115]⟩, dictionary := none }

/-- Its accounting listener. -/
def accountingListener : Listener := .sync oneHost .acct rfl

/-- A packet without attributes whose authenticator is all ones. -/
def bareDatagram (code : UInt8) : Bytes := [code, 1, 0, 20] ++ List.replicate 16 1

/-- A server before its first datagram. -/
def idleState : ServerState := .init .default .still { rng := ⟨fun _ ↦ 0⟩ }

/-- An Accounting-Request whose digest is right is handled. -/
example : (after (accountingListener.receive (Env.ofByte (fun _ ↦ 1) fun _ _ ↦ 1) (bareDatagram 4)
    ("192.0.2.1", 40000)) idleState).handled.length = 1 := by
  decide +kernel

theorem fires_imp_admissible_iff_accountingListener :
    (Fires (accountingListener.receive (Env.ofByte (fun _ ↦ 2) fun _ _ ↦ 1) (bareDatagram 5)
        ("192.0.2.1", 40000)) idleState →
      accountingListener.Admissible (Env.ofByte (fun _ ↦ 2) fun _ _ ↦ 1) (bareDatagram 5)
        ("192.0.2.1", 40000)) ↔
      ¬ accountingListener.AdmitsResponse (Env.ofByte (fun _ ↦ 2) fun _ _ ↦ 1) (bareDatagram 5)
        ("192.0.2.1", 40000) idleState :=
  fires_imp_admissible_iff _ _ _ _ ⟨rfl, rfl⟩

/-- An Accounting-Response, whose authenticator is not the digest of anything, reaches the
accounting handler. -/
theorem not_fires_imp_admissible_accountingListener :
    ¬ (Fires (accountingListener.receive (Env.ofByte (fun _ ↦ 2) fun _ _ ↦ 1) (bareDatagram 5)
        ("192.0.2.1", 40000)) idleState →
      accountingListener.Admissible (Env.ofByte (fun _ ↦ 2) fun _ _ ↦ 1) (bareDatagram 5)
        ("192.0.2.1", 40000)) := by
  intro h
  have hfires : Fires (accountingListener.receive (Env.ofByte (fun _ ↦ 2) fun _ _ ↦ 1)
      (bareDatagram 5) ("192.0.2.1", 40000)) idleState := by
    intro hsilent
    have hlength := congrArg List.length hsilent.handled
    exact absurd hlength (by decide +kernel)
  exact absurd (h hfires).code_mem (by decide +kernel)

end Listener

end Pyrad2
