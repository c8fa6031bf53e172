import Pyrad2.Foundations.Framing
import Pyrad2.Radsec.Certificates
import Pyrad2.Radsec.Stream
import Pyrad2.ServerAsync

/-!
# The RadSec server

From the bytes of a connection to the replies that are written to it.

A connection is served by one task: it reads a packet off the stream, answers it, writes the reply,
and goes on with the next packet until the peer ends the stream or something goes wrong. What is
written is therefore a list of replies, and what is read is a stream that has to be cut into packets
before any of them can be answered. That the one comes from the other packet by packet is the
subject of this file.
-/

namespace Pyrad2

open EStateM

/-! ### Packets in a stream -/

/-- How `read_radius_packet` delimits packets. -/
def radiusFraming : Framing UInt8 where
  header := 4
  size := Packet.wireLength
  least := 20
  least_pos := by decide
  header_le := by decide
  size_take := RadSecClient.wireLength_take

namespace Packet

/-- `verify_status_request()` -/
def verifyStatusRequest (E : Env) : PacketMethod Bool := do
  if (← get).pkt.radiusVersion = .v1_1 then return true
  Method.catchException (verifyMessageAuthenticator E none none none) (return false)

/-- A method of the process that makes something of a packet. -/
def making {α : Type} (m : Packet → Method World α) : PacketMethod α := do
  let p := (← get).pkt
  onPart PacketState.world (fun world s ↦ { s with world }) (m p)

end Packet

/-! ### The server -/

/-- `RadSecServer` -/
structure RadSecServer where
  hosts : OrderedDict String RemoteHost := ∅
  dictionary : Option Dictionary := none
  verifyPacket : Bool := false
  maxPacketsPerConnection : Option ℤ := none
  requireMessageAuthenticator : Bool := false
  requireEapMessageAuthenticator : Bool := true
  enableCoa : Bool := true
  enableDisconnect : Bool := true
  /-- The fingerprints, as `normalize_cert_fingerprint` returns them. -/
  allowedClientFingerprints : List String := []
  radiusVersions : List RadiusVersion := [.v1_0]

/-- Who has connected: the address, the certificate if there is one, and the protocol that was
agreed on. -/
structure Peer where
  host : String
  certificate : Option Bytes := none
  selectedAlpn : Option String := none

/-- The methods that a subclass defines or overrides, as they act on the packet they are called
with. What other tasks do to the process while one of them waits is part of what it does. -/
structure RadSecHandlers where
  handleAccessRequest : PacketMethod Packet
  handleAccounting : PacketMethod Packet
  handleCoa : PacketMethod Packet
  handleDisconnect : PacketMethod Packet

/-- What may go wrong with a connection while the server waits for it. -/
inductive Outage where
  | timeout
  | os
  | cancelled
  deriving DecidableEq, Repr

/-- The exception an outage is noticed by. -/
def Outage.toIoError : Outage → IoError
  | timeout => .timeout
  | os => .os
  | cancelled => .cancelled

/-- What happens from one packet of a connection to the next: what other tasks do to the process
meanwhile, what the handlers do, and what goes wrong with the connection. -/
structure Turn where
  meanwhile : World → World := id
  handlers : RadSecHandlers
  fault : Option (Stage × Outage) := none

/-- A connection as its task sees it: the bytes that come before the end of the stream, the process,
what was written, and whether the writer is closed. -/
structure ServedStream where
  unread : Bytes
  world : World
  written : List Bytes := []
  closed : Bool := false

abbrev StreamMethod (α : Type) := EStateM Failure ServedStream α

/-- Why `_handle_client` returns. -/
inductive Closing where
  | fingerprintNotAllowed
  | noCommonVersion
  | closedByPeer
  | timedOut
  | invalidPacket
  | unknownHost
  | packetLimit
  deriving DecidableEq, Repr

namespace RadSecServer

variable (E : Env) (srv : RadSecServer)

/-! ### Answering a packet -/

/-- `_verify_packet(packet)`, a method of the packet. -/
def verifyPacketOf : PacketMethod Bool := do
  let packet := (← get).pkt
  match packet.cls with
  | .auth => packet.verifyAuthRequest
  | .acct => Packet.verifyPacket E packet
  | .coa => Packet.verifyPacket E packet
  | .status => Packet.verifyStatusRequest E
  | .packet => Packet.verifyPacket E packet

/-- `_validate_message_authenticator_policy(packet)`, a method of the packet. -/
def validateMessageAuthenticatorPolicy : PacketMethod Unit :=
  Packet.validateMessageAuthenticatorPolicy E srv.requireMessageAuthenticator
    srv.requireEapMessageAuthenticator

/-- `_prepare_reply_packet(request, reply)`, a method of the reply. -/
def prepareReplyPacket (request : Packet) : PacketMethod Unit :=
  Packet.prepareReplyMessageAuthenticator E request srv.requireMessageAuthenticator
    srv.requireEapMessageAuthenticator

/-- `_add_error_cause(reply, cause)` -/
def addErrorCause (reply : Packet) (cause : ℕ) : Packet :=
  { reply with
    attrs := reply.attrs.set (.int errorCauseAttribute) (.vals [.bytes (Bytes.ofNatBE 4 cause)]) }

/-- `_create_unsupported_coa_reply(packet, code)` -/
def createUnsupportedCoaReply (packet : Packet) (code : ℕ) : Method World Packet := do
  let reply ← Packet.createReply E packet none none []
  return addErrorCause { reply with code } unsupportedExtension

/-- `handle_coa` and `handle_disconnect`, unless they are overridden. -/
def unsupported (code : ℕ) : PacketMethod Packet :=
  Packet.making fun packet ↦ createUnsupportedCoaReply E packet code

/-- The checks of `packet_received`, methods of the packet. -/
def check : PacketMethod Unit := do
  if srv.verifyPacket then
    unless ← verifyPacketOf E do throw (.packetError "Packet verification failed")
  srv.validateMessageAuthenticatorPolicy E

/-- The branches of `packet_received`, methods of the packet. -/
def dispatch (h : RadSecHandlers) : PacketMethod Packet := do
  let code := (← get).pkt.code
  if code = PacketType.statusServer then
    Packet.making fun packet ↦ Packet.createReply E packet (some PacketType.accessAccept) none []
  else if code = PacketType.accessRequest then h.handleAccessRequest
  else if code ∈ [PacketType.accountingRequest, PacketType.accountingResponse] then
    h.handleAccounting
  else if code = PacketType.coaRequest then
    if srv.enableCoa then h.handleCoa else unsupported E PacketType.coaNAK
  else if code = PacketType.disconnectRequest then
    if srv.enableDisconnect then h.handleDisconnect else unsupported E PacketType.disconnectNAK
  else throw (.serverPacketError ("Unsupported packet code: " ++ toString code))

/-- The host that a packet of this address is taken from; if there is none, `UnknownHost` is
raised. -/
def remoteHost (host : String) : Option RemoteHost :=
  (srv.hosts.get? host).or (srv.hosts.get? "0.0.0.0")

/-- `packet_received(data, host, radius_version)` for a host that is known. -/
def packetReceived (remote : RemoteHost) (version : RadiusVersion) (h : RadSecHandlers)
    (data : Bytes) : Method World Packet := do
  let packet ← Packet.parsePacket E data remote.secret srv.dictionary version
  let ((), packet) ← packet.run (srv.check E)
  let (reply, packet) ← packet.run (srv.dispatch E h)
  let ((), reply) ← reply.run (srv.prepareReplyPacket E packet)
  return reply

/-- The bytes of the reply to a packet. -/
def answer (remote : RemoteHost) (version : RadiusVersion) (h : RadSecHandlers) (data : Bytes) :
    Method World Bytes := do
  let reply ← srv.packetReceived E remote version h data
  let (raw, _) ← reply.run (Packet.replyPacket E)
  return raw

/-! ### Serving a connection -/

/-- Run a method of the process. -/
def onWorld {α : Type} (m : Method World α) : StreamMethod α := fun s ↦
  match m.run s.world with
  | .ok a world => .ok a { s with world }
  | .error e world => .error (.raised e) { s with world }

/-- What goes wrong at this stage, if it is reached. -/
def mayFail (t : Turn) (stage : Stage) : StreamMethod Unit :=
  match t.fault with
  | some (at', outage) => if at' = stage then throw (.io outage.toIoError) else pure ()
  | none => pure ()

/-- `readexactly(n)`: when the stream ends before, what there was is lost. -/
def readexactly (t : Turn) (stage : Stage) (n : ℕ) : StreamMethod Bytes := do
  mayFail t stage
  let s ← get
  if s.unread.length < n then
    set { s with unread := [] }
    throw (.io .incompleteRead)
  set { s with unread := s.unread.drop n }
  return s.unread.take n

/-- `read_radius_packet(reader)` -/
def readRadiusPacket (t : Turn) : StreamMethod Bytes := do
  let header ← readexactly t .header 4
  if Packet.wireLength header < 20 then
    throw (.raised (.valueError "Invalid RADIUS packet length"))
  let body ← readexactly t .body (Packet.wireLength header - 4)
  return header ++ body

/-- `_read_packet(reader)`, with the exceptions for which `_handle_client` returns. -/
def readPacket (t : Turn) : StreamMethod (Except Closing Bytes) :=
  tryCatch (do return .ok (← readRadiusPacket t)) fun
    | .io .incompleteRead => return .error .closedByPeer
    | .io .timeout => return .error .timedOut
    | .raised (.valueError _) => return .error .invalidPacket
    | f => throw f

/-- `writer.write(raw)` and `writer.drain()` -/
def write (t : Turn) (raw : Bytes) : StreamMethod Unit := do
  modify fun s ↦ { s with written := s.written ++ [raw] }
  mayFail t .drain

/-- The loop of `_handle_client`, after `processed` packets. -/
def serve (host : String) (version : RadiusVersion) (turn : ℕ → Turn) : ℕ → ℕ → StreamMethod Closing
  | 0, _ => throw (.raised .divergence)
  | fuel + 1, processed => do
    modify fun s ↦ { s with world := (turn processed).meanwhile s.world }
    match ← readPacket (turn processed) with
    | .error closing => return closing
    | .ok data =>
      match srv.remoteHost host with
      | none => return .unknownHost
      | some remote => do
        let raw ← onWorld (srv.answer E remote version (turn processed).handlers data)
        write (turn processed) raw
        if srv.maxPacketsPerConnection.any (· ≤ (processed : ℤ) + 1) then return .packetLimit
        serve host version turn fuel (processed + 1)

/-- `_verify_client_fingerprint(cert)` -/
def verifyClientFingerprint (sha256 : Bytes → Bytes) : Option Bytes → Bool
  | none => srv.allowedClientFingerprints.isEmpty
  | some cert => srv.allowedClientFingerprints.isEmpty ||
      Tools.certFingerprintMatches sha256 cert srv.allowedClientFingerprints

/-- The version to speak with a peer, unless `_handle_client` closes the connection at once. -/
def greet (sha256 : Bytes → Bytes) (peer : Peer) : Except Closing RadiusVersion :=
  if !srv.verifyClientFingerprint sha256 peer.certificate then .error .fingerprintNotAllowed
  else match negotiate srv.radiusVersions peer.selectedAlpn with
    | .error _ => .error .noCommonVersion
    | .ok version => .ok version

/-- `_handle_client(reader, writer)`, but for the closing of the writer. Each time the loop goes round
it takes twenty bytes at least. -/
def converse (sha256 : Bytes → Bytes) (peer : Peer) (turn : ℕ → Turn) : StreamMethod Closing := do
  match srv.greet sha256 peer with
  | .error closing => return closing
  | .ok version => srv.serve E peer.host version turn ((← get).unread.length + 1) 0

/-- `_handle_client(reader, writer)` -/
def handleClient (sha256 : Bytes → Bytes) (peer : Peer) (turn : ℕ → Turn) : StreamMethod Closing :=
  cleanup (srv.converse E sha256 peer turn) fun s ↦ { s with closed := true }

end RadSecServer

end Pyrad2
