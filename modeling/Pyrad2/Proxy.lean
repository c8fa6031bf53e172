import Pyrad2.Decision

/-!
# The main loop, and the proxy

The loop reads one datagram after the other and drops those whose processing raises `PacketError` or
`ServerPacketError`; any other exception ends it. A proxy is a server with one more socket, on which
the replies of other servers arrive. They are parsed and looked at, and nothing is done with them.
-/

namespace Pyrad2

open EStateM Packet ServerState

/-- A datagram that waits on a socket. -/
structure Datagram (Socket : Type) where
  socket : Socket
  data : Bytes
  source : Address

/-- The two `except` clauses of the main loop. -/
def dropping (m : ServerMethod Unit) : ServerMethod Unit :=
  tryCatch m fun e ↦ if e.isDropped then return else throw e

/-- `run()`, on the datagrams in the order in which they are read. -/
def Server.run (E : Env) (srv : Server) (l : List (Datagram ServerType)) : ServerMethod Unit :=
  l.forM fun d ↦ dropping (srv.processInput E d.socket d.data d.source)

/-- `Proxy` -/
structure Proxy extends Server

/-- The sockets of a proxy: those of its listeners, and `_proxyfd`. -/
inductive ProxySocket where
  | listener (kind : ServerType)
  | proxy
  deriving DecidableEq

namespace Proxy

variable (E : Env) (proxy : Proxy)

/-- `_handle_proxy_packet(pkt)` -/
def handleProxyPacket (pkt : Packet) : Except Exn Packet :=
  match pkt.source with
  | none => .error (.typeError "'NoneType' object is not subscriptable")
  | some source =>
    match proxy.router.hosts.get? source.1 with
    | none => .error (.serverPacketError "Received packet from unknown host")
    | some host =>
      if pkt.code ∉ [PacketType.accessAccept, PacketType.accessReject,
          PacketType.accountingResponse] then
        .error (.serverPacketError "Received non-response on proxy socket")
      else .ok { pkt with secret := host.secret }

/-- `_process_input(fd)` -/
def processInput : ProxySocket → Bytes → Address → ServerMethod Unit
  | .proxy, data, source => do
    let pkt ← proxy.grabPacket E data source
    let _ ← proxy.handleProxyPacket pkt
  | .listener kind, data, source => proxy.toServer.processInput E kind data source

/-- `run()` of a proxy. -/
def run (l : List (Datagram ProxySocket)) : ServerMethod Unit :=
  l.forM fun d ↦ dropping (proxy.processInput E d.socket d.data d.source)

end Proxy

end Pyrad2
