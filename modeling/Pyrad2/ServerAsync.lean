import Pyrad2.Server

/-!
# The asynchronous server

From `datagram_received` to the call of a handler. The checks are those of the synchronous server,
but they run on the code byte before the datagram is parsed, and any exception on the way is logged
and swallowed.
-/

namespace Pyrad2

open ServerState

/-- A handler of the asynchronous server: it is handed the address to reply to. -/
abbrev AsyncHandler := Packet → Address → HandlerProgram

/-- `ERROR_CAUSE_ATTRIBUTE` -/
abbrev errorCauseAttribute : Int := 101

/-- `ErrorCause.UnsupportedExtension` -/
abbrev unsupportedExtension : ℕ := 406

/-- The default CoA and Disconnect handlers: a NAK with an Error-Cause. -/
def nakHandler (code : ℕ) : AsyncHandler := fun pkt addr ↦
  .createReply pkt none [] fun
    | .error e => .raise e
    | .ok reply =>
      .edit { reply with code }
        (Packet.store (.int errorCauseAttribute)
          (.vals [.bytes (Bytes.ofNatBE 4 unsupportedExtension)])) fun
      | .error e => .raise e
      | .ok reply => .sendReply reply addr fun
        | .error e => .raise e
        | .ok () => .done

/-- `ServerAsync` -/
structure ServerAsync where
  router : RequestRouter
  handleAuthPacket : AsyncHandler
  handleAcctPacket : AsyncHandler
  handleCoaPacket : AsyncHandler := nakHandler PacketType.coaNAK
  handleDisconnectPacket : AsyncHandler := nakHandler PacketType.disconnectNAK

/-- `DatagramProtocolServer`: a listener with hosts of its own. -/
structure DatagramProtocolServer where
  server : ServerAsync
  serverType : ServerType
  hosts : OrderedDict String RemoteHost

namespace ServerAsync

variable (E : Env) (srv : ServerAsync)

/-- `create_status_response(pkt, server_type)` -/
def createStatusResponse (pkt : Packet) (serverType : ServerType) : ServerMethod Packet :=
  let code := if serverType = .acct then PacketType.accountingResponse else PacketType.accessAccept
  Transport.createReplyPacket E srv.router .async pkt (some code) []

/-- `_select_handler(protocol, req)` -/
def selectHandler (serverType : ServerType) (req : Packet) : Except Exn AsyncHandler :=
  match serverType with
  | .acct => .ok srv.handleAcctPacket
  | .auth => .ok srv.handleAuthPacket
  | .coa =>
    if req.code = PacketType.coaRequest then .ok srv.handleCoaPacket
    else if req.code = PacketType.disconnectRequest then .ok srv.handleDisconnectPacket
    else .error (.serverPacketError "Unexpected CoA request type")

/-- `_dedup_dispatch(protocol, req, addr, handler)` -/
def dedupDispatch (req : Packet) (addr : Address) (handler : AsyncHandler) : ServerMethod Unit :=
  srv.router.dedupDispatch (some addr) req fun req ↦ (handler req addr).run E srv.router .async

/-- `_request_handler(protocol, req, addr)` -/
def requestHandler (serverType : ServerType) (req : Packet) (addr : Address) : ServerMethod Unit :=
  Method.catchException
    (do srv.dedupDispatch E req addr (← srv.selectHandler serverType req)) (return)

end ServerAsync

namespace DatagramProtocolServer

variable (E : Env) (proto : DatagramProtocolServer)

/-- `send_response(reply, addr)` -/
def sendResponse (reply : Packet) (addr : Address) : ServerMethod Unit :=
  Transport.sendReply E proto.server.router .async reply addr

/-- `_handle_status_server(data, secret, addr)` -/
def handleStatusServer (data secret : Bytes) (addr : Address) : ServerMethod Unit := do
  let router := proto.server.router
  let req ← onWorld (Packet.construct E
    { cls := .status, code := PacketType.statusServer, secret, dict := router.dictionary }
    (some data) [])
  let req ← router.validatePolicy E req
  let reply ← proto.server.createStatusResponse E req proto.serverType
  proto.sendResponse E reply addr

/-- The `try` block of `datagram_received`. -/
def handleDatagram (data secret : Bytes) (addr : Address) : ServerMethod Unit := do
  let router := proto.server.router
  match data with
  | [] => throw (.serverPacketError "Packet too short to contain a code byte")
  | code :: _ =>
    RequestRouter.rejectResponseCodes code.toNat
    RequestRouter.gateCode code.toNat proto.serverType
    if code.toNat = PacketType.statusServer then
      proto.handleStatusServer E data secret addr
    else
      let req ← onWorld (router.parse E data secret)
      router.verifyRequest E req
      let req ← router.validatePolicy E req
      proto.server.requestHandler E proto.serverType req addr

/-- `self.hosts.get(addr[0]) or self.hosts.get("0.0.0.0")` -/
def remoteHost (addr : String) : Option RemoteHost :=
  (proto.hosts.get? addr).or (proto.hosts.get? "0.0.0.0")

/-- `datagram_received(data, addr)` -/
def datagramReceived (data : Bytes) (addr : Address) : ServerMethod Unit :=
  match proto.remoteHost addr.1 with
  | none => return
  | some host => Method.catchException (proto.handleDatagram E data host.secret addr) (return)

end DatagramProtocolServer

end Pyrad2
