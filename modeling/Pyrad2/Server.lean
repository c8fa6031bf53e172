import Pyrad2.Handler

/-!
# The synchronous server

From a datagram on one of its sockets to the call of a handler, and the main loop around that.

Every socket belongs to one kind of listener. A datagram is read, parsed with the secret of its
source, checked as its code demands, and dispatched; `PacketError` and `ServerPacketError` anywhere
on the way drop it.
-/

namespace Pyrad2

open ServerState

/-- `Server` -/
structure Server where
  router : RequestRouter
  authEnabled : Bool := true
  acctEnabled : Bool := true
  coaEnabled : Bool := false
  handleAuthPacket : Handler := fun _ ↦ .done
  handleAcctPacket : Handler := fun _ ↦ .done
  handleCoaPacket : Handler := fun _ ↦ .done
  handleDisconnectPacket : Handler := fun _ ↦ .done

/-- `MAX_PACKET_SIZE` -/
abbrev maxPacketSize : ℕ := 8192

namespace RequestRouter

/-- Apply `validate_message_authenticator_policy` to a packet of a server. -/
def validatePolicy (E : Env) (r : RequestRouter) (pkt : Packet) : ServerMethod Packet := do
  let ((), pkt) ← onWorld (pkt.run (r.validateMessageAuthenticatorPolicy E))
  return pkt

end RequestRouter

namespace Server

variable (E : Env) (srv : Server)

/-- Are sockets bound for the kind of listener? -/
def enabled : ServerType → Bool
  | .auth => srv.authEnabled
  | .acct => srv.acctEnabled
  | .coa => srv.coaEnabled

/-- `create_reply_packet(pkt, **attributes)` -/
def createReplyPacket (pkt : Packet) (code : Option ℕ) (attributes : Packet.KwAttributes) :
    ServerMethod Packet :=
  Transport.createReplyPacket E srv.router .sync pkt code attributes

/-- `send_reply_packet(fd, pkt)` -/
def sendReplyPacket (pkt : Packet) : ServerMethod Unit :=
  srv.router.sendReplyPacket E pkt.source pkt

/-- `_send_status_response(pkt, code)`; every packet of a socket has an `fd`. -/
def sendStatusResponse (pkt : Packet) (code : ℕ) : ServerMethod Unit := do
  let reply ← srv.createReplyPacket E pkt (some code) []
  srv.sendReplyPacket E reply

/-- `_handle_status_packet(pkt, code)` -/
def handleStatusPacket (pkt : Packet) (code : ℕ) : ServerMethod Bool := do
  if pkt.code ≠ PacketType.statusServer then return false
  let pkt ← srv.router.validatePolicy E pkt
  srv.sendStatusResponse E pkt code
  return true

/-- `_dedup_dispatch(pkt, handler)` -/
def dedupDispatch (pkt : Packet) (handler : Handler) : ServerMethod Unit :=
  srv.router.dedupDispatch none pkt fun pkt ↦ (handler pkt).run E srv.router .sync

/-- `_add_secret(pkt)` -/
def addSecret (pkt : Packet) : Except Exn Packet :=
  match pkt.source with
  | some source => do return { pkt with secret := ← srv.router.lookupSecret source.1 }
  | none => .error (.typeError "'NoneType' object is not subscriptable")

/-- `_verify_request_authenticator`, the policy check and the dispatch, in this order. -/
def verifyAndDispatch (pkt : Packet) (handler : Handler) : ServerMethod Unit := do
  srv.router.verifyRequest E pkt
  let pkt ← srv.router.validatePolicy E pkt
  srv.dedupDispatch E pkt handler

/-- `_handle_auth_packet(pkt)` -/
def handleAuth (pkt : Packet) : ServerMethod Unit := do
  let pkt ← srv.addSecret pkt
  if ← srv.handleStatusPacket E pkt PacketType.accessAccept then return
  if pkt.code ≠ PacketType.accessRequest then
    throw (.serverPacketError "Received non-authentication packet on authentication port")
  srv.verifyAndDispatch E pkt srv.handleAuthPacket

/-- `_handle_acct_packet(pkt)` -/
def handleAcct (pkt : Packet) : ServerMethod Unit := do
  let pkt ← srv.addSecret pkt
  if ← srv.handleStatusPacket E pkt PacketType.accountingResponse then return
  if pkt.code ∉ [PacketType.accountingRequest, PacketType.accountingResponse] then
    throw (.serverPacketError "Received non-accounting packet on accounting port")
  srv.verifyAndDispatch E pkt srv.handleAcctPacket

/-- `_handle_coa_packet(pkt)` -/
def handleCoa (pkt : Packet) : ServerMethod Unit := do
  let pkt ← srv.addSecret pkt
  if pkt.code = PacketType.coaRequest then srv.verifyAndDispatch E pkt srv.handleCoaPacket
  else if pkt.code = PacketType.disconnectRequest then
    srv.verifyAndDispatch E pkt srv.handleDisconnectPacket
  else throw (.serverPacketError "Received non-coa packet on coa port")

/-- `_grab_packet(fd)`, when `recvfrom` returns the first bytes of `data`. -/
def grabPacket (data : Bytes) (source : Address) : ServerMethod Packet := do
  let secret ← srv.router.lookupSecret source.1
  let pkt ← onWorld (srv.router.parse E (data.take maxPacketSize) secret)
  return { pkt with source := some source }

/-- `_process_input(fd)`, for a socket of the given kind on which the datagram `data` waits. -/
def processInput (kind : ServerType) (data : Bytes) (source : Address) : ServerMethod Unit :=
  if srv.authEnabled ∧ kind = .auth then do srv.handleAuth E (← srv.grabPacket E data source)
  else if srv.acctEnabled ∧ kind = .acct then do
    srv.handleAcct E (← srv.grabPacket E data source)
  else if srv.coaEnabled then do srv.handleCoa E (← srv.grabPacket E data source)
  else throw (.serverPacketError "Received packet for unknown handler")

end Server

end Pyrad2
