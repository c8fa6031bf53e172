import Pyrad2.Dedup

/-!
# The request router

What the two UDP servers share: finding the secret of a source, parsing, the checks a request has to
pass, the Message-Authenticator policy for replies, and the dispatch of a request through the
response cache.

The methods of a server work on one state: the process, the response cache, what was handed to
`sendto`, and which handlers were called. The code reads the last two nowhere.
-/

namespace Pyrad2

/-- `RemoteHost`, of which a server reads only the secret. -/
structure RemoteHost where
  secret : Bytes

/-- `RequestRouter` -/
structure RequestRouter where
  hosts : OrderedDict String RemoteHost
  dictionary : Option Dictionary
  enablePktVerify : Bool := true
  requireMessageAuthenticator : Bool := true
  requireEapMessageAuthenticator : Bool := true
  /-- Is there a `dedup_cache`? -/
  hasDedupCache : Bool := true

/-- A datagram handed to `sendto`, and the key of the request it answers. -/
structure Sent where
  raw : Bytes
  dest : Address
  key : Option DedupKey
  deriving DecidableEq

/-- A call of a handler: for which key, and when. -/
structure HandlerCall where
  key : Option DedupKey
  enteredAt : Time

/-- What the methods of a server work on. -/
structure ServerState where
  world : World
  dedup : DedupState
  sent : List Sent := []
  handled : List HandlerCall := []

/-- A method of a server. -/
abbrev ServerMethod (α : Type) := Method ServerState α

namespace ServerState

/-- A handler is about to be called; the time is read for the record alone. -/
def enter (s : ServerState) (key : Option DedupKey) : ServerState :=
  { s with
    dedup := { s.dedup with clock := s.dedup.clock.tick }
    handled := s.handled ++ [⟨key, s.dedup.clock.now⟩] }

/-- Run a method of the process. -/
def onWorld {α : Type} (m : Method World α) : ServerMethod α :=
  EStateM.onPart ServerState.world (fun world s ↦ { s with world }) m

/-- `sendto(raw, dest)` -/
def sendTo (raw : Bytes) (dest : Option Address) (key : Option DedupKey) : ServerMethod Unit :=
  match dest with
  | some dest => modify fun s ↦ { s with sent := s.sent ++ [⟨raw, dest, key⟩] }
  | none => throw (.typeError "sendto(): AF_INET address must be tuple, not NoneType")

end ServerState

open ServerState

/-- `DispatchAction` -/
inductive DispatchAction where
  | process
  | drop
  | resent
  deriving DecidableEq, Repr

namespace RequestRouter

variable (E : Env) (r : RequestRouter)

/-! ### Finding the secret and parsing -/

/-- `lookup_secret(addr)` -/
def lookupSecret (addr : String) : Except Exn Bytes :=
  match (r.hosts.get? addr).or (r.hosts.get? "0.0.0.0") with
  | some host => .ok host.secret
  | none => .error (.serverPacketError "Received packet from unknown host")

/-- `parse(data, secret)` -/
def parse (data secret : Bytes) : Method World Packet :=
  if data = [] then throw (.serverPacketError "Empty packet")
  else Packet.parsePacket E data secret r.dictionary .v1_0

/-! ### Checking a request -/

/-- `_RESPONSE_CODES` -/
def responseCodes : List ℕ :=
  [PacketType.accessAccept, PacketType.accessReject, PacketType.accountingResponse,
    PacketType.coaACK, PacketType.coaNAK, PacketType.disconnectACK, PacketType.disconnectNAK]

/-- `reject_response_codes(code)` -/
def rejectResponseCodes (code : ℕ) : Except Exn Unit :=
  if code ∈ responseCodes then
    .error (.serverPacketError ("Invalid response packet " ++ toString code))
  else .ok ()

/-- `gate_code(code, server_type)` -/
def gateCode (code : ℕ) : ServerType → Except Exn Unit
  | .auth =>
    if code ∉ [PacketType.accessRequest, PacketType.statusServer] then
      .error (.serverPacketError "Received non-auth packet on auth port")
    else .ok ()
  | .acct =>
    if code ∉ [PacketType.accountingRequest, PacketType.statusServer] then
      .error (.serverPacketError "Received non-accounting packet on accounting port")
    else .ok ()
  | .coa =>
    if code = PacketType.statusServer then
      .error (.serverPacketError "Received status packet on coa port")
    else if code ∉ [PacketType.disconnectRequest, PacketType.coaRequest] then
      .error (.serverPacketError "Received non-coa packet on coa port")
    else .ok ()

/-- The error of `verify_request`. -/
def verificationFailed : Exn := .packetError "Packet verification failed"

/-- `verify_request(pkt)` -/
def verifyRequest (pkt : Packet) : Except Exn Unit := do
  if !r.enablePktVerify then return
  if pkt.code = PacketType.accessRequest then
    if pkt.cls ≠ .auth then throw verificationFailed
    unless ← pkt.verifyAuthRequest do throw verificationFailed
  else if pkt.code ∈ [PacketType.accountingRequest, PacketType.coaRequest,
      PacketType.disconnectRequest] then
    unless ← Packet.verifyPacket E pkt do throw verificationFailed

/-- `validate_message_authenticator_policy(pkt)`, a method of the packet. -/
def validateMessageAuthenticatorPolicy : PacketMethod Unit :=
  Packet.validateMessageAuthenticatorPolicy E r.requireMessageAuthenticator
    r.requireEapMessageAuthenticator

/-! ### Replies -/

/-- `prepare_reply(request, reply)`, a method of the reply. -/
def prepareReply (request : Packet) : PacketMethod Unit :=
  Packet.prepareReplyMessageAuthenticator E request r.requireMessageAuthenticator
    r.requireEapMessageAuthenticator

/-- `force_reply_ma(reply)`, a method of the reply. -/
def forceReplyMa : PacketMethod Unit := do
  let reply := (← get).pkt
  let forceMaForAccess := r.requireMessageAuthenticator &&
    reply.code ∈ [PacketType.accessAccept, PacketType.accessReject, PacketType.accessChallenge]
  if forceMaForAccess || (r.requireEapMessageAuthenticator && reply.hasEapMessage) then
    Packet.ensureMessageAuthenticator E

/-- `attach_dedup_key(request, reply)` -/
def attachDedupKey (request reply : Packet) : Packet :=
  match request.dedupKey with
  | some key => { reply with dedupKey := some key }
  | none => reply

/-- `record_reply(reply, raw)` -/
def recordReply (reply : Packet) (raw : Bytes) : ServerMethod Unit :=
  match reply.dedupKey with
  | some key =>
    modify fun s ↦
      if r.hasDedupCache then { s with dedup := s.dedup.recordReply key raw } else s
  | none => return

/-- `create_reply_packet(pkt, **attributes)` of either server; the synchronous one copies the source
of the request, the other sets none. -/
def createReplyPacket (source : Option Address) (pkt : Packet) (code : Option ℕ)
    (attributes : Packet.KwAttributes) : ServerMethod Packet := do
  let reply ← onWorld (Packet.createReply E pkt code none attributes)
  let reply := { reply with source }
  let ((), reply) ← onWorld (reply.run (r.prepareReply E pkt))
  return attachDedupKey pkt reply

/-- `send_reply_packet` and `send_response`, which differ in where they send to. -/
def sendReplyPacket (dest : Option Address) (reply : Packet) : ServerMethod Unit := do
  let ((), reply) ← onWorld (reply.run (r.forceReplyMa E))
  let (raw, reply) ← onWorld (reply.run (Packet.replyPacket E))
  sendTo raw dest reply.dedupKey
  r.recordReply reply raw

/-! ### Duplicate detection -/

/-- `dedup_key_for(pkt, source)` -/
def dedupKeyFor (pkt : Packet) (source : Option Address) : Option DedupKey :=
  if r.hasDedupCache then keyFor pkt source else none

/-- `consult_cache(cache, key, resend)` -/
def consultCache (key : Option DedupKey) (resend : Bytes → ServerMethod Unit) :
    ServerMethod DispatchAction := do
  match r.hasDedupCache, key with
  | true, some key => do
    let (entry, dedup) := (← get).dedup.lookup key
    modify fun s ↦ { s with dedup }
    match entry with
    | .inFlight => return .drop
    | .reply raw => do
      resend raw
      return .resent
    | .none => do
      modify fun s ↦ { s with dedup := s.dedup.markInFlight key }
      return .process
  | _, _ => return .process

/-- `dedup_drop_in_flight(key)` -/
def dropInFlight (key : Option DedupKey) (s : ServerState) : ServerState :=
  match r.hasDedupCache, key with
  | true, some key => { s with dedup := s.dedup.dropInFlight key }
  | _, _ => s

/-- `_dedup_dispatch` of either server; the asynchronous one is handed the address, the synchronous
one finds it in the packet. -/
def dedupDispatch (addr : Option Address) (pkt : Packet) (handler : Packet → ServerMethod Unit) :
    ServerMethod Unit := do
  let key := r.dedupKeyFor pkt addr
  match ← r.consultCache key fun raw ↦ sendTo raw (addr.or pkt.source) key with
  | .drop => return
  | .resent => return
  | .process => do
    let pkt := if key.isSome then { pkt with dedupKey := key } else pkt
    modify fun s ↦ s.enter key
    EStateM.cleanup (handler pkt) (r.dropInFlight key)

end RequestRouter

end Pyrad2
