import Pyrad2.Acceptance
import Pyrad2.Packet.Alike

/-!
# Decisions of the servers

What a server decides on a datagram: to drop it, to answer a Status-Server, to send a cached reply
again, or to call a handler with a packet.

Either server is split into what it does up to the decision and what it does with it, and what a
listener accepts is stated on the bytes: the codes it serves, and the checks of the router, which do
not see where a packet comes from.
-/

namespace Pyrad2

open EStateM Packet ServerState

/-! ### The shared checks -/

namespace RequestRouter

variable {E : Env} {r : RequestRouter} {p q : Packet} {s s' : ServerState}

/-- `verify_request` and the policy. -/
def check (E : Env) (r : RequestRouter) (pkt : Packet) : ServerMethod Packet := do
  r.verifyRequest E pkt
  r.validatePolicy E pkt

theorem run_validatePolicy (E : Env) (r : RequestRouter) (p : Packet) (s : ServerState) :
    (r.validatePolicy E p).run s =
      match (r.validateMessageAuthenticatorPolicy E).run ⟨p, s.world⟩ with
      | .ok _ t => .ok t.pkt { s with world := t.world }
      | .error e t => .error e { s with world := t.world } := by
  rw [validatePolicy, run_bind, onWorld, run_onPart, run_run]
  rcases (r.validateMessageAuthenticatorPolicy E).run ⟨p, s.world⟩ with ⟨a, t⟩ | ⟨e, t⟩ <;> rfl

/-- The policy keeps the source, the code and the identifier. -/
theorem frame_of_validatePolicy (h : (r.validatePolicy E p).run s = .ok q s') :
    ∃ attrs authenticator, q = { p with attrs, authenticator } ∧
      ∀ a, p.authenticator = some a → authenticator = some a := by
  have hrecodes : Recodes ⟨p, s.world⟩ (after (r.validateMessageAuthenticatorPolicy E) ⟨p, s.world⟩) :=
    recodes_validateMessageAuthenticatorPolicy E _ _ _
  rw [run_validatePolicy] at h
  rcases hrun : (r.validateMessageAuthenticatorPolicy E).run ⟨p, s.world⟩ with ⟨a, t⟩ | ⟨e, t⟩
  · rw [hrun] at h
    cases h
    rw [after_of_ok hrun] at hrecodes
    exact hrecodes
  · rw [hrun] at h
    cases h

/-- **The policy does not see where a packet comes from.** -/
theorem run_validatePolicy_source (E : Env) (r : RequestRouter) (p : Packet)
    (source : Option Address) (s : ServerState) :
    (r.validatePolicy E { p with source }).run s = match (r.validatePolicy E p).run s with
      | .ok q s' => .ok { q with source } s'
      | .error e s' => .error e s' := by
  have hblind : Blind ∅ p.code (r.validateMessageAuthenticatorPolicy E) :=
    blind_validateMessageAuthenticatorPolicy E _ _
  have hstate : StateAlike ∅ p.code ⟨p, s.world⟩ ⟨{ p with source }, s.world⟩ :=
    ⟨alike_source p source, rfl⟩
  rcases hblind.run _ _ hstate with ⟨a, t, b, t', ht, ht', -, halike⟩ | ⟨e, t, t', ht, ht', halike⟩
  · have hp : (r.validatePolicy E p).run s = .ok t.pkt { s with world := t.world } := by
      rw [run_validatePolicy, ht]
    have hq : (r.validatePolicy E { p with source }).run s =
        .ok t'.pkt { s with world := t'.world } := by
      rw [run_validatePolicy, ht']
    obtain ⟨attrs, authenticator, heq, -⟩ := frame_of_validatePolicy hq
    have hsource : t'.pkt.source = source := by rw [heq]
    have hpkt : t'.pkt = { t.pkt with source } := by
      rw [halike.pkt.fields, halike.pkt.attrs_eq, hsource]
    rw [hp, hq, hpkt, halike.world]
  · rw [run_validatePolicy, run_validatePolicy, ht, ht']
    dsimp only
    rw [halike.world]

theorem verifyRequest_source (E : Env) (r : RequestRouter) (p : Packet) (source : Option Address) :
    r.verifyRequest E { p with source } = r.verifyRequest E p := rfl

/-- **The checks do not see where a packet comes from.** -/
theorem run_check_source (E : Env) (r : RequestRouter) (p : Packet) (source : Option Address)
    (s : ServerState) :
    (r.check E { p with source }).run s = match (r.check E p).run s with
      | .ok q s' => .ok { q with source } s'
      | .error e s' => .error e s' := by
  rw [check, check, verifyRequest_source]
  rcases r.verifyRequest E p with e | u
  · rfl
  · exact run_validatePolicy_source E r p source s

/-- Only requests with an authenticator to verify are verified. -/
theorem verifyRequest_of_code (h : p.code ∉ [PacketType.accessRequest, PacketType.accountingRequest,
    PacketType.coaRequest, PacketType.disconnectRequest]) : r.verifyRequest E p = .ok () := by
  have hne : p.code ≠ PacketType.accessRequest := fun h1 ↦ h (by simp [h1])
  have hnot : p.code ∉ [PacketType.accountingRequest, PacketType.coaRequest,
      PacketType.disconnectRequest] := fun hmem ↦ h (List.mem_cons_of_mem _ hmem)
  rw [verifyRequest, if_neg hne, if_neg hnot]
  split <;> rfl

theorem check_of_statusServer (E : Env) (r : RequestRouter)
    (hcode : p.code = PacketType.statusServer) : r.check E p = r.validatePolicy E p := by
  rw [check, verifyRequest_of_code (by rw [hcode]; decide)]
  rfl

theorem frame_of_check (h : (r.check E p).run s = .ok q s') :
    ∃ attrs authenticator, q = { p with attrs, authenticator } ∧
      ∀ a, p.authenticator = some a → authenticator = some a := by
  obtain ⟨u, s₁, hverify, hpolicy⟩ := run_bind_eq_ok_iff.1 h
  exact frame_of_validatePolicy hpolicy

end RequestRouter

/-! ### Verdicts -/

/-- The handlers of a server. -/
inductive HandlerName where
  | auth
  | acct
  | coa
  | disconnect
  deriving DecidableEq, Repr

/-- What a listener is to do with a packet that passed its checks. -/
inductive Verdict where
  /-- Answer a Status-Server with a reply of this code. -/
  | status (pkt : Packet) (code : ℕ)
  /-- Hand the packet to the response cache, and from there to the handler. -/
  | dispatch (name : HandlerName) (pkt : Packet)

namespace Server

variable (E : Env) (srv : Server)

def handler : HandlerName → Handler
  | .auth => srv.handleAuthPacket
  | .acct => srv.handleAcctPacket
  | .coa => srv.handleCoaPacket
  | .disconnect => srv.handleDisconnectPacket

/-- What `_handle_auth_packet`, `_handle_acct_packet` and `_handle_coa_packet` do before they answer a
Status-Server or dispatch. -/
def judge : ServerType → Packet → ServerMethod Verdict
  | .auth, pkt => do
    let pkt ← srv.addSecret pkt
    if pkt.code = PacketType.statusServer then
      return .status (← srv.router.validatePolicy E pkt) PacketType.accessAccept
    if pkt.code ≠ PacketType.accessRequest then
      throw (.serverPacketError "Received non-authentication packet on authentication port")
    return .dispatch .auth (← srv.router.check E pkt)
  | .acct, pkt => do
    let pkt ← srv.addSecret pkt
    if pkt.code = PacketType.statusServer then
      return .status (← srv.router.validatePolicy E pkt) PacketType.accountingResponse
    if pkt.code ∉ [PacketType.accountingRequest, PacketType.accountingResponse] then
      throw (.serverPacketError "Received non-accounting packet on accounting port")
    return .dispatch .acct (← srv.router.check E pkt)
  | .coa, pkt => do
    let pkt ← srv.addSecret pkt
    if pkt.code = PacketType.coaRequest then
      return .dispatch .coa (← srv.router.check E pkt)
    else if pkt.code = PacketType.disconnectRequest then
      return .dispatch .disconnect (← srv.router.check E pkt)
    else throw (.serverPacketError "Received non-coa packet on coa port")

/-- What comes after. -/
def enact : Verdict → ServerMethod Unit
  | .status pkt code => srv.sendStatusResponse E pkt code
  | .dispatch name pkt => srv.dedupDispatch E pkt (srv.handler name)

theorem handleStatusPacket_then (pkt : Packet) (code : ℕ) (m : ServerMethod Unit) :
    (do
      if ← srv.handleStatusPacket E pkt code then return
      m) =
      if pkt.code = PacketType.statusServer then do
        srv.sendStatusResponse E (← srv.router.validatePolicy E pkt) code
      else m := by
  rw [handleStatusPacket]
  by_cases hcode : pkt.code = PacketType.statusServer
  · rw [if_neg (not_not.2 hcode), if_pos hcode]
    simp only [bind_assoc, pure_bind, if_true, bind_pure_unit]
  · rw [if_pos hcode, if_neg hcode, pure_bind]
    rfl

theorem verifyAndDispatch_eq (pkt : Packet) (name : HandlerName) :
    srv.verifyAndDispatch E pkt (srv.handler name) =
      srv.router.check E pkt >>= fun pkt ↦ srv.enact E (.dispatch name pkt) := by
  rw [verifyAndDispatch, RequestRouter.check, bind_assoc]
  rfl

/-- **The handling of a packet** is the checks and what comes after. -/
theorem handle_eq (kind : ServerType) (pkt : Packet) :
    srv.handle E kind pkt = srv.judge E kind pkt >>= srv.enact E := by
  cases kind with
  | auth =>
    rw [handle, handleAuth, judge, bind_assoc]
    refine congrArg _ (funext fun p ↦ (srv.handleStatusPacket_then E p _ _).trans ?_)
    split
    · rw [bind_assoc]
      rfl
    split
    · rfl
    · rw [bind_assoc]
      exact srv.verifyAndDispatch_eq E p .auth
  | acct =>
    rw [handle, handleAcct, judge, bind_assoc]
    refine congrArg _ (funext fun p ↦ (srv.handleStatusPacket_then E p _ _).trans ?_)
    split
    · rw [bind_assoc]
      rfl
    split
    · rfl
    · rw [bind_assoc]
      exact srv.verifyAndDispatch_eq E p .acct
  | coa =>
    rw [handle, handleCoa, judge, bind_assoc]
    refine congrArg _ (funext fun p ↦ ?_)
    split
    · rw [bind_assoc]
      exact srv.verifyAndDispatch_eq E p .coa
    split
    · rw [bind_assoc]
      exact srv.verifyAndDispatch_eq E p .disconnect
    · rfl

end Server

namespace ServerAsync

variable (srv : ServerAsync)

def handler : HandlerName → AsyncHandler
  | .auth => srv.handleAuthPacket
  | .acct => srv.handleAcctPacket
  | .coa => srv.handleCoaPacket
  | .disconnect => srv.handleDisconnectPacket

/-- What `_select_handler` selects. -/
def selectName (serverType : ServerType) (req : Packet) : Except Exn HandlerName :=
  match serverType with
  | .acct => .ok .acct
  | .auth => .ok .auth
  | .coa =>
    if req.code = PacketType.coaRequest then .ok .coa
    else if req.code = PacketType.disconnectRequest then .ok .disconnect
    else .error (.serverPacketError "Unexpected CoA request type")

theorem selectHandler_eq (serverType : ServerType) (req : Packet) :
    srv.selectHandler serverType req = (selectName serverType req).map srv.handler := by
  cases serverType with
  | auth => rfl
  | acct => rfl
  | coa =>
    rw [selectHandler, selectName]
    split
    · rfl
    split <;> rfl

end ServerAsync

namespace DatagramProtocolServer

variable (E : Env) (proto : DatagramProtocolServer)

/-- What `datagram_received` does before it answers a Status-Server or dispatches. -/
def judge (data secret : Bytes) : ServerMethod Verdict := do
  let router := proto.server.router
  match data with
  | [] => throw (.serverPacketError "Packet too short to contain a code byte")
  | code :: _ =>
    RequestRouter.rejectResponseCodes code.toNat
    RequestRouter.gateCode code.toNat proto.serverType
    if code.toNat = PacketType.statusServer then
      let req ← onWorld (Packet.construct E
        { cls := .status, code := PacketType.statusServer, secret, dict := router.dictionary }
        (some data) [])
      return .status (← router.validatePolicy E req)
        (if proto.serverType = .acct then PacketType.accountingResponse
          else PacketType.accessAccept)
    else
      let req ← onWorld (router.parse E data secret)
      let req ← router.check E req
      return .dispatch (← ServerAsync.selectName proto.serverType req) req

/-- What comes after. -/
def enact (addr : Address) : Verdict → ServerMethod Unit
  | .status pkt code => do
    let reply ← Transport.createReplyPacket E proto.server.router .async pkt (some code) []
    proto.sendResponse E reply addr
  | .dispatch name pkt => proto.server.dedupDispatch E pkt addr (proto.server.handler name)

theorem after_requestHandler (req : Packet) (addr : Address) (s : ServerState) :
    after (proto.server.requestHandler E proto.serverType req addr) s =
      after (liftM (ServerAsync.selectName proto.serverType req) >>= fun name ↦
        proto.enact E addr (.dispatch name req)) s := by
  rw [ServerAsync.requestHandler, ServerAsync.selectHandler_eq]
  refine (Method.after_catchException_pure _ () s).trans ?_
  rcases ServerAsync.selectName proto.serverType req with e | name <;> rfl

/-- **The handling of a datagram** leaves what the checks and what comes after them leave. -/
theorem after_handleDatagram (data secret : Bytes) (addr : Address) (s : ServerState) :
    after (proto.handleDatagram E data secret addr) s =
      after (proto.judge E data secret >>= proto.enact E addr) s := by
  rcases data with - | ⟨code, rest⟩
  · rfl
  rw [handleDatagram, judge]
  rcases RequestRouter.rejectResponseCodes code.toNat with e | u
  · rfl
  rcases RequestRouter.gateCode code.toNat proto.serverType with e | u
  · rfl
  by_cases hcode : code.toNat = PacketType.statusServer
  · rw [if_pos hcode, if_pos hcode]
    simp only [bind_assoc, pure_bind]
    rfl
  · rw [if_neg hcode, if_neg hcode]
    simp only [RequestRouter.check, bind_assoc, pure_bind]
    -- the code byte, the parsing, and the checks
    refine after_bind_congr fun _ _ _ ↦ after_bind_congr fun _ _ _ ↦ ?_
    refine after_bind_congr fun req _ _ ↦ ?_
    refine after_bind_congr fun _ _ _ ↦ after_bind_congr fun req s' _ ↦ ?_
    exact proto.after_requestHandler E req addr s'

end DatagramProtocolServer

/-! ### Decisions -/

/-- What a server decides on a datagram. A packet has the source of the datagram, which the
asynchronous server keeps beside it. -/
inductive Decision where
  | drop
  /-- A Status-Server is answered with a reply of this code. -/
  | status (pkt : Packet) (code : ℕ)
  /-- The cached reply is sent again. -/
  | replay (raw : Bytes)
  | call (name : HandlerName) (pkt : Packet)

def Decision.isDrop : Decision → Bool
  | drop => true
  | _ => false

namespace Listener

variable (E : Env) (L : Listener)

/-- The verdict on a datagram. -/
def judge : Listener → Bytes → Address → ServerMethod Verdict
  | sync srv kind _, data, addr => srv.grabPacket E data addr >>= srv.judge E kind
  | async proto, data, addr =>
    match proto.remoteHost addr.1 with
    | none => throw (.serverPacketError "Received packet from unknown host")
    | some host => proto.judge E data host.secret

/-- What is done about it. -/
def enact : Listener → Address → Verdict → ServerMethod Unit
  | sync srv _ _, _ => srv.enact E
  | async proto, addr => proto.enact E addr

/-- **What a listener does with a datagram** is to judge it and to act on the verdict. -/
theorem after_receive (data : Bytes) (addr : Address) (s : ServerState) :
    after (L.receive E data addr) s = after (L.judge E data addr >>= L.enact E addr) s := by
  cases L with
  | sync srv kind enabled =>
    have hhandle : srv.handle E kind = fun pkt ↦ srv.judge E kind pkt >>= srv.enact E :=
      funext fun pkt ↦ srv.handle_eq E kind pkt
    rw [receive, Server.processInput_of_enabled E enabled, hhandle, ← bind_assoc]
    rfl
  | async proto =>
    rw [receive, DatagramProtocolServer.datagramReceived, judge]
    rcases proto.remoteHost addr.1 with - | host
    · rfl
    · refine (Method.after_catchException_pure _ () s).trans ?_
      exact proto.after_handleDatagram E data host.secret addr s

/-- The dispatch of a packet that passed the checks. -/
def dispatchOf : Listener → Address → HandlerName → Packet → Dispatch
  | sync srv _ _, _, name, pkt => { pkt, handler := srv.handler name }
  | async proto, addr, name, pkt =>
    { pkt, addr := some addr, handler := fun req ↦ proto.server.handler name req addr }

def transport : Listener → Transport
  | sync _ _ _ => .sync
  | async _ => .async

theorem enact_dispatch (addr : Address) (name : HandlerName) (pkt : Packet) :
    L.enact E addr (.dispatch name pkt) =
      (L.dispatchOf addr name pkt).method E L.router L.transport := by
  cases L <;> rfl

/-- What is decided on a packet that passed the checks and has this key in the response cache. -/
def lookUp (addr : Address) (s : ServerState) (name : HandlerName) (pkt : Packet) :
    Option DedupKey → Decision
  | none => .call name { pkt with source := some addr }
  | some key => match (s.dedup.lookup key).1 with
    | .inFlight => .drop
    | .reply raw => .replay raw
    | .none => .call name { pkt with source := some addr, dedupKey := some key }

/-- What is decided on a packet that passed the checks. -/
def decide (addr : Address) (s : ServerState) : Verdict → Decision
  | .status pkt code => .status { pkt with source := some addr } code
  | .dispatch name pkt => lookUp addr s name pkt ((L.dispatchOf addr name pkt).key L.router)

/-- **The decision on a datagram.** -/
def decision (data : Bytes) (addr : Address) (s : ServerState) : Decision :=
  match (L.judge E data addr).run s with
  | .ok v s' => L.decide addr s' v
  | .error _ _ => .drop

end Listener

/-! ### The verdict on what passes the checks -/

/-- The verdict on a packet with a code that the listener serves. -/
def ServerType.verdict (kind : ServerType) (code : ℕ) (pkt : Packet) : Verdict :=
  if code = PacketType.statusServer then
    .status pkt (if kind = .acct then PacketType.accountingResponse else PacketType.accessAccept)
  else .dispatch (match kind with
    | .auth => .auth
    | .acct => .acct
    | .coa => if code = PacketType.coaRequest then .coa else .disconnect) pkt

namespace Server

variable {E : Env} {srv : Server} {kind : ServerType} {p : Packet}

/-- What a synchronous listener serves. -/
def Serves (kind : ServerType) (code : ℕ) : Prop :=
  code ∈ kind.requestCodes ∨ kind = .acct ∧ code = PacketType.accountingResponse

/-- **Codes that are served** go through the checks. -/
theorem judge_of_serves (hsecret : srv.addSecret p = .ok p) (h : Serves kind p.code) :
    srv.judge E kind p = srv.router.check E p >>= fun q ↦ pure (kind.verdict p.code q) := by
  cases kind with
  | auth =>
    rw [judge, hsecret]
    change (if p.code = _ then _ else _) = _
    rcases List.mem_pair.1 (h.resolve_right fun h ↦ by cases h.1) with hcode | hcode
    · rw [if_neg (by rw [hcode]; decide), if_neg (not_not.2 hcode), hcode]
      rfl
    · rw [if_pos hcode, RequestRouter.check_of_statusServer E _ hcode, hcode]
      rfl
  | acct =>
    rw [judge, hsecret]
    change (if p.code = _ then _ else _) = _
    rcases h with h | ⟨-, hcode⟩
    · rcases List.mem_pair.1 h with hcode | hcode
      · rw [if_neg (by rw [hcode]; decide), if_neg (by rw [hcode]; decide), hcode]
        rfl
      · rw [if_pos hcode, RequestRouter.check_of_statusServer E _ hcode, hcode]
        rfl
    · rw [if_neg (by rw [hcode]; decide), if_neg (by rw [hcode]; decide), hcode]
      rfl
  | coa =>
    rw [judge, hsecret]
    change (if p.code = _ then _ else _) = _
    rcases List.mem_pair.1 (h.resolve_right fun h ↦ by cases h.1) with hcode | hcode
    · rw [if_pos hcode, hcode]
      rfl
    · rw [if_neg (by rw [hcode]; decide), if_pos hcode, hcode]
      rfl

/-- All others raise. -/
theorem exists_judge_eq_throw (hsecret : srv.addSecret p = .ok p) (h : ¬ Serves kind p.code) :
    ∃ msg, srv.judge E kind p = throw (.serverPacketError msg) := by
  have hmem : p.code ∉ kind.requestCodes := fun hmem ↦ h (.inl hmem)
  cases kind with
  | auth =>
    refine ⟨"Received non-authentication packet on authentication port", ?_⟩
    rw [judge, hsecret]
    change (if p.code = _ then _ else _) = _
    rw [if_neg fun hcode ↦ hmem (by rw [hcode]; decide),
      if_pos fun hcode ↦ hmem (by rw [hcode]; decide)]
    rfl
  | acct =>
    have hresponse : p.code ≠ PacketType.accountingResponse := fun hcode ↦ h (.inr ⟨rfl, hcode⟩)
    refine ⟨"Received non-accounting packet on accounting port", ?_⟩
    rw [judge, hsecret]
    change (if p.code = _ then _ else _) = _
    have hnot : p.code ∉ [PacketType.accountingRequest, PacketType.accountingResponse] := fun hcode ↦
      (List.mem_pair.1 hcode).elim (fun hcode ↦ hmem (by rw [hcode]; decide)) hresponse
    rw [if_neg fun hcode ↦ hmem (by rw [hcode]; decide), if_pos hnot]
    rfl
  | coa =>
    refine ⟨"Received non-coa packet on coa port", ?_⟩
    rw [judge, hsecret]
    change (if p.code = _ then _ else _) = _
    rw [if_neg fun hcode ↦ hmem (by rw [hcode]; decide),
      if_neg fun hcode ↦ hmem (by rw [hcode]; decide)]

end Server

/-! ### Packets that pass -/

namespace RequestRouter

variable {E : Env} {r : RequestRouter} {raw secret : Bytes} {p q : Packet} {s s' : ServerState}

/-- What the servers hold when a packet has been parsed. -/
def afterParse (s : ServerState) : ServerState := { s with world := s.world.createId.2 }

theorem run_onWorld_construct_eq_ok_iff {fields : Packet} (hid : fields.id = none)
    (hversion : fields.radiusVersion = .v1_0) (hma : fields.messageAuthenticator = none) :
    (onWorld (construct E fields (some raw) [])).run s = .ok p s' ↔
      (∃ st, Decoded fields.dict raw st ∧ p = received fields raw st) ∧ s' = afterParse s := by
  constructor
  · intro h
    obtain ⟨w, hw, rfl⟩ := run_onWorld_eq_ok h
    obtain ⟨hst, rfl⟩ := (run_construct_eq_ok_iff E hid hversion hma).1 hw
    exact ⟨hst, rfl⟩
  · rintro ⟨hst, rfl⟩
    have hrun := (run_construct_eq_ok_iff E hid hversion hma (w := s.world)).2 ⟨hst, rfl⟩
    rw [onWorld, run_onPart, hrun]
    rfl

theorem run_onWorld_parse_eq_ok_iff : (onWorld (r.parse E raw secret)).run s = .ok p s' ↔
    (∃ st, Decoded r.dictionary raw st ∧ p = r.parsed raw secret st none) ∧ s' = afterParse s := by
  rcases raw with - | ⟨code, rest⟩
  · refine iff_of_false (fun h ↦ ?_) fun h ↦ ?_
    · obtain ⟨w, hw, -⟩ := run_onWorld_eq_ok h
      cases hw
    · obtain ⟨⟨st, hst, -⟩, -⟩ := h
      exact ne_nil_of_decoded hst rfl
  · rw [parse, if_neg (by simp), parsePacket, run_onWorld_construct_eq_ok_iff rfl rfl rfl]
    simp only [parsed, wireCode_cons]

/-- With its source or without, a packet leaves the checks the same. -/
theorem run_check_parsed_eq_ok_iff {st : DecodeState} (source : Option Address) :
    (r.check E (r.parsed raw secret st source)).run s = .ok p s' ↔
      ∃ q, (r.check E (r.parsed raw secret st none)).run s = .ok q s' ∧ p = { q with source } := by
  have hsource : (r.check E (r.parsed raw secret st source)).run s = _ :=
    run_check_source E r (r.parsed raw secret st none) source s
  rw [hsource]
  rcases (r.check E (r.parsed raw secret st none)).run s with ⟨q, s₁⟩ | ⟨e, s₁⟩
  · constructor
    · intro h
      cases h
      exact ⟨q, rfl, rfl⟩
    · rintro ⟨q', h, rfl⟩
      cases h
      rfl
  · refine iff_of_false (fun h ↦ by cases h) fun h ↦ ?_
    obtain ⟨q, h, -⟩ := h
    cases h

/-- The bytes are a packet that passes the checks and leaves them as `q`. -/
def Passes (E : Env) (r : RequestRouter) (raw secret : Bytes) (s : ServerState) (q : Packet)
    (s' : ServerState) : Prop :=
  ∃ st, Decoded r.dictionary raw st ∧
    (r.check E (r.parsed raw secret st none)).run (afterParse s) = .ok q s'

theorem Passes.code_eq (h : r.Passes E raw secret s q s') : q.code = wireCode raw := by
  obtain ⟨st, -, hrun⟩ := h
  obtain ⟨attrs, authenticator, rfl, -⟩ := frame_of_check hrun
  rfl

/-- The checks leave the response cache alone. -/
theorem Passes.dedup_eq (h : r.Passes E raw secret s q s') : s'.dedup = s.dedup := by
  obtain ⟨st, -, hrun⟩ := h
  obtain ⟨u, s₁, hverify, hpolicy⟩ := run_bind_eq_ok_iff.1 hrun
  rcases hrequest : r.verifyRequest E (r.parsed raw secret st none) with e | u'
  · rw [hrequest] at hverify
    cases hverify
  · rw [hrequest] at hverify
    cases hverify
    rw [run_validatePolicy] at hpolicy
    split at hpolicy
    · cases hpolicy
      rfl
    · cases hpolicy

end RequestRouter

namespace Server

variable {E : Env} {srv : Server} {kind : ServerType} {data : Bytes} {addr : Address}
  {s s' : ServerState} {v : Verdict}

theorem run_grabPacket_eq_ok_iff {p : Packet} : (srv.grabPacket E data addr).run s = .ok p s' ↔
    ∃ secret st, srv.router.lookupSecret addr.1 = .ok secret ∧
      Decoded srv.router.dictionary (data.take maxPacketSize) st ∧
      p = srv.router.parsed (data.take maxPacketSize) secret st (some addr) ∧
      s' = RequestRouter.afterParse s := by
  rw [grabPacket]
  rcases hsecret : srv.router.lookupSecret addr.1 with e | secret
  · refine iff_of_false (fun h ↦ by cases h) fun h ↦ ?_
    obtain ⟨secret, st, h, -⟩ := h
    cases h
  change (onWorld _ >>= _).run s = _ ↔ _
  rw [run_bind_eq_ok_iff]
  constructor
  · rintro ⟨p, s₁, hparse, hreturn⟩
    obtain ⟨⟨st, hst, rfl⟩, rfl⟩ := RequestRouter.run_onWorld_parse_eq_ok_iff.1 hparse
    cases hreturn
    exact ⟨secret, st, rfl, hst, rfl, rfl⟩
  · rintro ⟨secret', st, heq, hst, rfl, rfl⟩
    cases heq
    exact ⟨_, _, RequestRouter.run_onWorld_parse_eq_ok_iff.2 ⟨⟨st, hst, rfl⟩, rfl⟩, rfl⟩

/-- **What a synchronous listener accepts.** -/
theorem run_judge_eq_ok_iff :
    (srv.grabPacket E data addr >>= srv.judge E kind).run s = .ok v s' ↔
      ∃ secret q, srv.router.lookupSecret addr.1 = .ok secret ∧
        Serves kind (wireCode (data.take maxPacketSize)) ∧
        srv.router.Passes E (data.take maxPacketSize) secret s q s' ∧
        v = kind.verdict (wireCode (data.take maxPacketSize)) { q with source := some addr } := by
  rw [run_bind_eq_ok_iff]
  constructor
  · rintro ⟨p, s₁, hgrab, hjudge⟩
    obtain ⟨secret, st, hsecret, hst, rfl, rfl⟩ := run_grabPacket_eq_ok_iff.1 hgrab
    by_cases hserves : Serves kind (wireCode (data.take maxPacketSize))
    · rw [judge_of_serves (addSecret_parsed hsecret) hserves] at hjudge
      obtain ⟨q, s₂, hcheck, hverdict⟩ := run_bind_eq_ok_iff.1 hjudge
      obtain ⟨q', hrun, rfl⟩ := (RequestRouter.run_check_parsed_eq_ok_iff (some addr)).1 hcheck
      cases hverdict
      exact ⟨secret, q', hsecret, hserves, ⟨st, hst, hrun⟩, rfl⟩
    · obtain ⟨msg, hthrow⟩ := exists_judge_eq_throw (E := E) (addSecret_parsed hsecret) hserves
      rw [hthrow] at hjudge
      cases hjudge
  · rintro ⟨secret, q, hsecret, hserves, ⟨st, hst, hrun⟩, rfl⟩
    refine ⟨_, _, run_grabPacket_eq_ok_iff.2 ⟨secret, st, hsecret, hst, rfl, rfl⟩, ?_⟩
    have hq := (RequestRouter.run_check_parsed_eq_ok_iff (some addr)).2 ⟨q, hrun, rfl⟩
    rw [judge_of_serves (addSecret_parsed hsecret) hserves, run_bind_of_ok hq]
    rfl

end Server

namespace DatagramProtocolServer

variable {E : Env} {proto : DatagramProtocolServer} {data secret : Bytes} {s s' : ServerState}
  {v : Verdict}

/-- The codes a listener serves are those that pass its gate. -/
theorem gate_of_mem {kind : ServerType} {code : ℕ} (h : code ∈ kind.requestCodes) :
    RequestRouter.rejectResponseCodes code = .ok () ∧ RequestRouter.gateCode code kind = .ok () := by
  cases kind <;> rcases List.mem_pair.1 h with rfl | rfl <;> exact ⟨rfl, rfl⟩

theorem selectName_of_mem {kind : ServerType} {q : Packet} (h : q.code ∈ kind.requestCodes)
    (hcode : q.code ≠ PacketType.statusServer) :
    ∃ name, ServerAsync.selectName kind q = .ok name ∧ kind.verdict q.code q = .dispatch name q := by
  unfold ServerType.verdict
  rw [if_neg hcode]
  cases kind with
  | auth => exact ⟨_, rfl, rfl⟩
  | acct => exact ⟨_, rfl, rfl⟩
  | coa =>
    rw [ServerAsync.selectName]
    by_cases hcoa : q.code = PacketType.coaRequest
    · rw [if_pos hcoa]
      exact ⟨_, rfl, by rw [if_pos hcoa]⟩
    · have hdisconnect := (List.mem_pair.1 h).resolve_left hcoa
      rw [if_neg hcoa, if_pos hdisconnect]
      exact ⟨_, rfl, by rw [if_neg hcoa]⟩

/-- **What an asynchronous listener accepts.** -/
theorem run_judge_eq_ok_iff : (proto.judge E data secret).run s = .ok v s' ↔
    ∃ q, wireCode data ∈ proto.serverType.requestCodes ∧
      proto.server.router.Passes E data secret s q s' ∧
      v = proto.serverType.verdict (wireCode data) q := by
  rcases data with - | ⟨code, rest⟩
  · refine iff_of_false (fun h ↦ by cases h) fun h ↦ ?_
    obtain ⟨q, -, ⟨st, hst, -⟩, -⟩ := h
    exact RequestRouter.ne_nil_of_decoded hst rfl
  have hwire : wireCode (code :: rest) = code.toNat := wireCode_cons code rest
  by_cases hmem : wireCode (code :: rest) ∈ proto.serverType.requestCodes
  · obtain ⟨hreject, hgate⟩ := gate_of_mem hmem
    rw [hwire] at hreject hgate
    rw [judge, hreject, hgate]
    change (if code.toNat = _ then _ else _ : ServerMethod Verdict).run s = _ ↔ _
    by_cases hcode : code.toNat = PacketType.statusServer
    · have hcode' : wireCode (code :: rest) = PacketType.statusServer := hwire.trans hcode
      -- the class is the one that parsing picks for the code
      have hparsed (st : DecodeState) : received
          { cls := .status, code := PacketType.statusServer, secret,
            dict := proto.server.router.dictionary } (code :: rest) st =
          proto.server.router.parsed (code :: rest) secret st none := by
        rw [RequestRouter.parsed, hcode']
        rfl
      have hcheck (st : DecodeState) := RequestRouter.check_of_statusServer E proto.server.router
        (p := proto.server.router.parsed (code :: rest) secret st none) hcode'
      rw [if_pos hcode, run_bind_eq_ok_iff, hcode']
      constructor
      · rintro ⟨p, s₁, hconstruct, h⟩
        obtain ⟨⟨st, hst, rfl⟩, rfl⟩ :=
          (RequestRouter.run_onWorld_construct_eq_ok_iff rfl rfl rfl).1 hconstruct
        obtain ⟨q, s₂, hpolicy, hreturn⟩ := run_bind_eq_ok_iff.1 h
        rw [hparsed, ← hcheck] at hpolicy
        cases hreturn
        exact ⟨q, hcode' ▸ hmem, ⟨st, hst, hpolicy⟩, rfl⟩
      · rintro ⟨q, -, ⟨st, hst, hrun⟩, rfl⟩
        refine ⟨_, _, (RequestRouter.run_onWorld_construct_eq_ok_iff rfl rfl rfl).2
          ⟨⟨st, hst, rfl⟩, rfl⟩, ?_⟩
        rw [hcheck] at hrun
        rw [hparsed, run_bind_of_ok hrun]
        rfl
    · have hne : wireCode (code :: rest) ≠ PacketType.statusServer := hwire ▸ hcode
      rw [if_neg hcode, run_bind_eq_ok_iff]
      constructor
      · rintro ⟨p, s₁, hparse, h⟩
        obtain ⟨⟨st, hst, rfl⟩, rfl⟩ := RequestRouter.run_onWorld_parse_eq_ok_iff.1 hparse
        obtain ⟨q, s₂, hcheck, hselect⟩ := run_bind_eq_ok_iff.1 h
        have hpasses : proto.server.router.Passes E (code :: rest) secret s q s₂ := ⟨st, hst, hcheck⟩
        obtain ⟨name, hname, hverdict⟩ :=
          selectName_of_mem (hpasses.code_eq ▸ hmem) (hpasses.code_eq ▸ hne)
        rw [hname] at hselect
        cases hselect
        exact ⟨q, hmem, hpasses, by rw [← hverdict, hpasses.code_eq]⟩
      · rintro ⟨q, -, hpasses, rfl⟩
        obtain ⟨name, hname, hverdict⟩ :=
          selectName_of_mem (hpasses.code_eq ▸ hmem) (hpasses.code_eq ▸ hne)
        rw [hpasses.code_eq] at hverdict
        obtain ⟨st, hst, hrun⟩ := hpasses
        refine ⟨_, _, RequestRouter.run_onWorld_parse_eq_ok_iff.2 ⟨⟨st, hst, rfl⟩, rfl⟩, ?_⟩
        rw [run_bind_of_ok hrun, hname, hverdict]
        rfl
  · refine iff_of_false (fun h ↦ hmem ?_) fun h ↦ ?_
    · rw [judge] at h
      obtain ⟨u, s₁, -, h⟩ := run_bind_eq_ok_iff.1 h
      obtain ⟨u, s₂, hgate, -⟩ := run_bind_eq_ok_iff.1 h
      rw [hwire]
      rcases hok : RequestRouter.gateCode code.toNat proto.serverType with e | u
      · rw [hok] at hgate
        cases hgate
      · exact mem_requestCodes_of_gateCode hok
    · obtain ⟨q, hmem', -⟩ := h
      exact hmem hmem'

end DatagramProtocolServer

namespace Listener

variable {E : Env} {L : Listener} {data : Bytes} {addr : Address} {s s' : ServerState}

/-- What it comes to that a listener decides so. -/
def Performs (E : Env) (L : Listener) (addr : Address) (s s' : ServerState) : Decision → Prop
  | .drop => Silent s s'
  | .status pkt code => ∃ q s₁, Silent s s₁ ∧ pkt = { q with source := some addr } ∧
      s' = after (L.enact E addr (.status q code)) s₁
  | .replay raw => ∃ key, s'.sent = s.sent ++ [⟨raw, addr, key⟩] ∧ s'.handled = s.handled
  | .call name pkt => ∃ q key time s₁, pkt = { q with source := some addr } ∧ s₁.sent = s.sent ∧
      s₁.handled = s.handled ++ [⟨key, time⟩] ∧
      s' = L.router.dropInFlight key
        (after (((L.dispatchOf addr name q).handler q).run E L.router L.transport) s₁)

theorem respects_silent_check (E : Env) (r : RequestRouter) (p : Packet) :
    Respects Silent (r.check E p) :=
  (respects_liftM _).bind fun _ ↦ RequestRouter.respects_silent_validatePolicy E r p

theorem respects_silent_judge (E : Env) (L : Listener) (data : Bytes) (addr : Address) :
    Respects Silent (L.judge E data addr) := by
  have hpolicy (r : RequestRouter) (p : Packet) := RequestRouter.respects_silent_validatePolicy E r p
  have hcheck (r : RequestRouter) (p : Packet) := respects_silent_check E r p
  cases L with
  | sync srv kind enabled =>
    refine (Server.respects_silent_grabPacket E srv data addr).bind fun p ↦ ?_
    cases kind with
    | auth =>
      refine (respects_liftM _).bind fun p ↦ ?_
      split
      · exact (hpolicy _ p).bind fun _ ↦ respects_pure _
      split
      · exact respects_throw_bind _ _
      · exact (hcheck _ p).bind fun _ ↦ respects_pure _
    | acct =>
      refine (respects_liftM _).bind fun p ↦ ?_
      split
      · exact (hpolicy _ p).bind fun _ ↦ respects_pure _
      split
      · exact respects_throw_bind _ _
      · exact (hcheck _ p).bind fun _ ↦ respects_pure _
    | coa =>
      refine (respects_liftM _).bind fun p ↦ ?_
      split
      · exact (hcheck _ p).bind fun _ ↦ respects_pure _
      split
      · exact (hcheck _ p).bind fun _ ↦ respects_pure _
      · exact respects_throw _
  | async proto =>
    rw [judge]
    split
    · exact respects_throw _
    rcases data with - | ⟨code, rest⟩
    · exact respects_throw _
    refine (respects_liftM _).bind fun _ ↦ (respects_liftM _).bind fun _ ↦ ?_
    split
    · exact (respects_silent_onWorld _).bind fun p ↦ (hpolicy _ p).bind fun _ ↦ respects_pure _
    · exact (respects_silent_onWorld _).bind fun p ↦ (hcheck _ p).bind fun _ ↦
        (respects_liftM _).bind fun _ ↦ respects_pure _

/-- A cached reply goes to where the datagram came from. -/
theorem dest_of_run {name : HandlerName} {pkt : Packet}
    (h : (L.judge E data addr).run s = .ok (.dispatch name pkt) s') :
    (L.dispatchOf addr name pkt).dest = some addr := by
  cases L with
  | sync srv kind enabled =>
    obtain ⟨secret, q, -, -, -, hverdict⟩ := Server.run_judge_eq_ok_iff.1 h
    unfold ServerType.verdict at hverdict
    split at hverdict
    · cases hverdict
    · cases hverdict
      rfl
  | async proto => rfl

/-- **A listener does what it decides.** -/
theorem performs_decision (E : Env) (L : Listener) (data : Bytes) (addr : Address) (s : ServerState) :
    L.Performs E addr s (after (L.receive E data addr) s) (L.decision E data addr s) := by
  have hsilent := respects_silent_judge E L data addr s
  rw [after_receive, decision]
  rcases hrun : (L.judge E data addr).run s with ⟨v, s₁⟩ | ⟨e, s₁⟩
  · rw [after_of_ok hrun] at hsilent
    rw [after_bind_of_ok hrun]
    rcases v with ⟨pkt, code⟩ | ⟨name, pkt⟩
    · exact ⟨pkt, s₁, hsilent, rfl, rfl⟩
    have hdest := dest_of_run hrun
    rw [enact_dispatch]
    dsimp only
    rcases after_dispatch_cases E L.router L.transport (L.dispatchOf addr name pkt) s₁ with
      ⟨k, raw, a, hkey, hlookup, ha, hafter⟩ | ⟨k, hkey, hlookup, hafter⟩ | ⟨hcalls, hafter⟩
    · rw [hafter, decide, hkey, lookUp, hlookup]
      cases hdest.symm.trans ha
      exact ⟨some k, by rw [← hsilent.sent], hsilent.handled⟩
    · rw [hafter, decide, hkey, lookUp, hlookup]
      exact ⟨hsilent.sent, hsilent.handled⟩
    · have hentered (key : Option DedupKey) (d : DedupState) :
          (enter { s₁ with dedup := d } key).sent = s.sent ∧
            (enter { s₁ with dedup := d } key).handled = s.handled ++ [⟨key, d.clock.now⟩] := by
        rw [← hsilent.sent, ← hsilent.handled]
        exact ⟨rfl, rfl⟩
      rw [hafter, decide]
      rcases hkey : (L.dispatchOf addr name pkt).key L.router with - | k
      · obtain ⟨hsent, hhandled⟩ := hentered none s₁.dedup
        refine ⟨pkt, none, _, enter s₁ none, rfl, hsent, hhandled, ?_⟩
        rw [Dispatch.call, Dispatch.entry, hkey]
        cases L <;> rfl
      · rw [lookUp, hcalls k hkey]
        obtain ⟨hsent, hhandled⟩ := hentered (some k) ((s₁.dedup.lookup k).2.markInFlight k)
        refine ⟨{ pkt with dedupKey := some k }, some k, _, _, rfl, hsent, hhandled, ?_⟩
        rw [Dispatch.call, Dispatch.entry, hkey]
        cases L <;> rfl
  · rw [after_of_error hrun] at hsilent
    rw [after_of_error (run_bind_of_error hrun)]
    exact hsilent

end Listener

end Pyrad2
