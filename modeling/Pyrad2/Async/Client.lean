import Pyrad2.Async.Protocol
import Pyrad2.Eap.Base

/-!
# The asynchronous client

`ClientAsync`: three transports on one event loop, and the EAP conversations on the first of them.

A conversation is a chain of callbacks. Each round has a future of its own, to which the callback
`_on_reply` is attached; when that future is done the event loop runs the callback at some later
time, and it completes the future that the caller holds or starts the next round. A conversation
that waits on a future which is done is one whose callback is scheduled.
-/

namespace Pyrad2

open DatagramProtocolClient

/-- A call of `_send_auth_packet` that has returned. -/
structure Conversation (M : Type) where
  packet : ℕ
  /-- The future that was returned to the caller. -/
  outer : ℕ
  /-- The future `_on_reply` is attached to, if it has not run for it yet. -/
  waiting : Option ℕ
  method : Option M

/-- `ClientAsync`, and the event loop around it. -/
structure ClientAsync (M : Type) where
  loop : EventLoop
  /-- `protocol_auth`, `protocol_acct` and `protocol_coa` -/
  protocols : ServerType → Option DatagramProtocolClient
  enforceMa : Bool := true
  /-- The conversations so far, in the order of their first rounds. -/
  conversations : List (Conversation M) := []

/-- A method of the client. -/
abbrev ClientMethod (M α : Type) := Method (ClientAsync M) α

namespace ClientAsync

variable {M : Type}

/-- The client after a call of one of its transports. -/
def putTransport (server : ServerType) (t : TransportState) (s : ClientAsync M) : ClientAsync M :=
  { s with loop := t.loop, protocols := Function.update s.protocols server (some t.proto) }

/-- Call a method of a transport; `missing` is raised where it has not been initialized. -/
def onTransport {α : Type} (missing : String) (server : ServerType) (m : TransportMethod α) :
    ClientMethod M α := fun s ↦
  match s.protocols server with
  | none => .error (.exception missing) s
  | some proto =>
    match m.run ⟨s.loop, proto⟩ with
    | .ok a t => .ok a (s.putTransport server t)
    | .error e t => .error e (s.putTransport server t)

/-- Run something of the event loop. -/
def onLoop {α : Type} (m : Method EventLoop α) : ClientMethod M α :=
  EStateM.onPart ClientAsync.loop (fun loop s ↦ { s with loop }) m

/-- Call a hook of a method object on a packet object; what it leaves of the method object is
returned. -/
def onMethod (packet : ℕ) (method : M) (m : Method (EapState M) Unit) : ClientMethod M M := fun s ↦
  match m.run (method, ⟨s.loop.packets packet, s.loop.world⟩) with
  | .ok () (method', ps) => .ok method' { s with loop := { s.loop with
      packets := Function.update s.loop.packets packet ps.pkt, world := ps.world } }
  | .error e (_, ps) => .error e { s with loop := { s.loop with
      packets := Function.update s.loop.packets packet ps.pkt, world := ps.world } }

/-- `_prepare_outgoing_packet(pkt)` -/
def prepareOutgoingPacket (E : Env) (packet : ℕ) : ClientMethod M Unit := do
  onLoop (EventLoop.onPacket packet
    (Packet.prepareRequestMessageAuthenticator E (← get).enforceMa))

/-- `_allocate_packet_id(server_type)` -/
def allocatePacketId (server : ServerType) : ClientMethod M ℕ :=
  onTransport "Transport not initialized" server createId

/-! ### Requests without a conversation -/

/-- A future, a packet that is prepared, and `send_packet` of the transport. -/
def sendOn (E : Env) (missing : String) (server : ServerType) (now : Time) (packet : ℕ) :
    ClientMethod M ℕ := do
  let ans ← onLoop EventLoop.createFuture
  prepareOutgoingPacket E packet
  onTransport missing server (DatagramProtocolClient.sendPacket E now packet ans)
  return ans

/-- `send_status_packet(pkt, port=port)`; the transport is looked up first. -/
def sendStatusPacket (E : Env) (port : ServerType) (now : Time) (packet : ℕ) :
    ClientMethod M ℕ := do
  let missing ← match port with
    | .auth => pure "Auth transport not initialized"
    | .acct => pure "Accounting transport not initialized"
    | .coa => throw (.valueError "Status-Server port must be 'auth' or 'acct'")
  if ((← get).protocols port).isNone then throw (.exception missing)
  sendOn E missing port now packet

/-! ### Conversations -/

variable (E : Env) (methods : EapMethods M)

/-- `_send_round()`: the future of the round, to which the caller attaches `_on_reply`. -/
def sendRound (now : Time) (packet : ℕ) : ClientMethod M ℕ := do
  let fut ← onLoop EventLoop.createFuture
  onTransport "Transport not initialized" .auth
    (DatagramProtocolClient.sendPacket E now packet fut)
  return fut

/-- `_send_auth_packet(pkt)` -/
def sendAuthPacket (now : Time) (packet : ℕ) : ClientMethod M ℕ := do
  let method ← match methods.getMethod ((← get).loop.packets packet).authType with
    | some method => do pure (some (← onMethod packet method methods.start))
    | none => pure none
  let outer ← onLoop EventLoop.createFuture
  prepareOutgoingPacket E packet
  let fut ← sendRound E now packet
  modify fun s ↦ { s with
    conversations := s.conversations ++ [{ packet, outer, waiting := some fut, method }] }
  return outer

/-- `send_packet(pkt)` -/
def sendPacket (now : Time) (packet : ℕ) : ClientMethod M ℕ := do
  let s ← get
  match (s.loop.packets packet).cls with
  | .status => sendStatusPacket E .auth now packet
  | .auth =>
    if (s.protocols .auth).isNone then throw (.exception "Transport not initialized")
    sendAuthPacket E methods now packet
  | .acct => sendOn E "Transport not initialized" .acct now packet
  | .coa => sendOn E "Transport not initialized" .coa now packet
  | .packet => do
    let _ ← onLoop EventLoop.createFuture
    prepareOutgoingPacket E packet
    throw (.exception "Unsupported packet")

/-- The conversation that is number `i`, changed. -/
def setConversation (i : ℕ) (c : Conversation M) (s : ClientAsync M) : ClientAsync M :=
  { s with conversations := s.conversations.set i c }

/-- `pkt.id = …` and `pkt.authenticator = pkt.create_authenticator()` -/
def renewPacket (id : ℕ) : PacketMethod Unit := do
  modify fun s ↦ { s with pkt := { s.pkt with id := some id } }
  let authenticator ← Packet.createAuthenticator
  modify fun s ↦ { s with pkt := { s.pkt with authenticator := some authenticator } }

/-- The end of `_on_reply` after an answered challenge, up to the callback. -/
def startRound (now : Time) (packet : ℕ) : ClientMethod M ℕ := do
  let id ← allocatePacketId .auth
  onLoop (EventLoop.onPacket packet (renewPacket id))
  prepareOutgoingPacket E packet
  sendRound E now packet

/-- The next round of a conversation. -/
def nextRound (now : Time) (i : ℕ) (c : Conversation M) : ClientMethod M Unit := do
  let fut ← startRound E now c.packet
  modify (setConversation i { c with waiting := some fut })

/-- `outer.set_result(reply)`, or `outer.set_exception(exc)`. -/
def completeOuter (outer : ℕ) (outcome : FutureState) : ClientMethod M Unit :=
  onLoop (EStateM.modifyM fun l ↦ l.complete outer outcome)

/-- `_on_reply(fut)` for a reply. -/
def onResult (now : Time) (i : ℕ) (c : Conversation M) (reply : Packet) : ClientMethod M Unit :=
  match c.method with
  | some method =>
    if reply.code = PacketType.accessChallenge then do
      match ← Method.attempt (onMethod c.packet method (methods.respond reply)) with
      | .error e => completeOuter c.outer (.exception e)
      | .ok method => nextRound E now i { c with method := some method }
    else completeOuter c.outer (.result reply)
  | none => completeOuter c.outer (.result reply)

/-- The event loop runs `_on_reply` of the conversation that is number `i`, if its future is done.
What it raises is logged and goes nowhere. -/
def onReply (now : Time) (i : ℕ) : ClientMethod M Unit := do
  let s ← get
  match s.conversations[i]? with
  | none => pure ()
  | some c =>
    match c.waiting with
    | none => pure ()
    | some fut =>
      if (s.loop.futures fut).isPending then return
      let c := { c with waiting := none }
      modify (setConversation i c)
      if !(s.loop.futures c.outer).isPending then return
      match s.loop.futures fut with
      | .pending => pure ()
      | .cancelled => modify fun s ↦ { s with loop := s.loop.cancel c.outer }
      | .exception e => completeOuter c.outer (.exception e)
      | .result reply => onResult E methods now i c reply

end ClientAsync

/-! ### Steps -/

/-- A step of the client: a call by its user, a callback, or something on the network. -/
inductive ClientEvent where
  /-- `send_packet(pkt)` -/
  | sendPacket (now : Time) (packet : ℕ)
  /-- `send_status_packet(pkt, port=port)` -/
  | sendStatusPacket (port : ServerType) (now : Time) (packet : ℕ)
  /-- A packet is created, with an identifier from a transport. -/
  | allocatePacketId (server : ServerType)
  /-- A packet object is built or changed by its owner. -/
  | assign (packet : ℕ) (p : Packet)
  | datagramReceived (server : ServerType) (data : Bytes)
  /-- A pass of the timer of a transport. -/
  | timeout (server : ServerType) (now : Time) (noise : Option ℕ → ℚ)
  /-- The callback of a conversation. -/
  | onReply (now : Time) (i : ℕ)

namespace ClientEvent

variable {M : Type} (E : Env) (methods : EapMethods M)

/-- What is done in a step. -/
def method : ClientEvent → ClientMethod M Unit
  | sendPacket now packet => do let _ ← ClientAsync.sendPacket E methods now packet
  | sendStatusPacket port now packet => do
    let _ ← ClientAsync.sendStatusPacket E port now packet
  | allocatePacketId server => do let _ ← ClientAsync.allocatePacketId server
  | assign packet p => modify fun s ↦
      { s with loop := { s.loop with packets := Function.update s.loop.packets packet p } }
  | datagramReceived server data =>
    ClientAsync.onTransport "" server (DatagramProtocolClient.datagramReceived E data)
  | timeout server now noise =>
    ClientAsync.onTransport "" server (timeoutHandler E now noise)
  | onReply now i => ClientAsync.onReply E methods now i

/-- The state after a step, also when an exception is raised. -/
def next (e : ClientEvent) (s : ClientAsync M) : ClientAsync M :=
  EStateM.after (e.method E methods) s

end ClientEvent

/-- A client whose transports were just initialized. -/
def ClientAsync.init {M : Type} (protocols : ServerType → Option DatagramProtocolClient)
    (enforceMa : Bool) (packets : ℕ → Packet) (world : World) : ClientAsync M where
  loop := { packets, world }
  protocols
  enforceMa

end Pyrad2
