import Pyrad2.Async.EventLoop
import Pyrad2.Retry

/-!
# The asynchronous transport

`DatagramProtocolClient`: a socket to one server, the requests pending on it, and the timer that
sends them again.

Every method runs to its end before the event loop does anything else, and so does one pass of the
timer between two sleeps; these are the steps of a transport. In a pass the clock is read once, and
`random.uniform` is drawn once for each request, whatever it returns; so which waits have elapsed in
which pass is left open. The timer is a task of its own: what a pass raises ends it.
-/

namespace Pyrad2

/-- An entry of `pending_requests`. -/
structure PendingRequest where
  packet : ℕ
  retries : ℕ := 0
  future : ℕ
  sendDate : Time

/-- The task that runs `__timeout_handler__`. -/
inductive TimerTask where
  | running
  /-- Cancelled by `close_transport`. -/
  | closed
  /-- Ended by an exception. -/
  | died (e : Exn)
  deriving DecidableEq, Repr

/-- `DatagramProtocolClient`, from `connection_made` on. -/
structure DatagramProtocolClient where
  retryPolicy : RetryPolicy
  /-- `client.dict` -/
  dict : Option Dictionary := none
  /-- `client.enforce_ma` -/
  enforceMa : Bool := true
  pendingRequests : OrderedDict (Option ℕ) PendingRequest := ∅
  packetId : ℕ
  /-- Is `transport` there? -/
  transport : Bool := true
  /-- `timeout_future` -/
  timeoutFuture : TimerTask := .running

/-- A transport and the event loop around it. -/
structure TransportState where
  loop : EventLoop
  proto : DatagramProtocolClient

/-- A method of a transport. -/
abbrev TransportMethod (α : Type) := Method TransportState α

namespace TransportState

/-- The requests that are pending. -/
def pending (s : TransportState) : OrderedDict (Option ℕ) PendingRequest := s.proto.pendingRequests

def setPending (s : TransportState) (m : OrderedDict (Option ℕ) PendingRequest) : TransportState :=
  { s with proto := { s.proto with pendingRequests := m } }

def withLoop (s : TransportState) (loop : EventLoop) : TransportState := { s with loop }

def withWorld (s : TransportState) (world : World) : TransportState :=
  s.withLoop { s.loop with world }

section

variable (s : TransportState) (m : OrderedDict (Option ℕ) PendingRequest) (loop : EventLoop)

@[simp] theorem pending_setPending : (s.setPending m).pending = m := rfl

@[simp] theorem loop_setPending : (s.setPending m).loop = s.loop := rfl

@[simp] theorem pending_withLoop : (s.withLoop loop).pending = s.pending := rfl

@[simp] theorem loop_withLoop : (s.withLoop loop).loop = loop := rfl

@[simp] theorem proto_withLoop : (s.withLoop loop).proto = s.proto := rfl

@[simp] theorem world_withWorld (w : World) : (s.withWorld w).loop.world = w := rfl

@[simp] theorem pending_withWorld (w : World) : (s.withWorld w).pending = s.pending := rfl

@[simp] theorem withWorld_withWorld (w w' : World) :
    (s.withWorld w).withWorld w' = s.withWorld w' := rfl

@[simp] theorem retryPolicy_setPending :
    (s.setPending m).proto.retryPolicy = s.proto.retryPolicy := rfl

end

end TransportState

namespace DatagramProtocolClient

/-- Run something of the event loop. -/
def onLoop {α : Type} (m : Method EventLoop α) : TransportMethod α :=
  EStateM.onPart TransportState.loop (fun loop s ↦ s.withLoop loop) m

/-- `self.transport.sendto(req["packet"].request_packet())`; the missing method of a closed
transport is noticed before the packet is serialized. -/
def transmit (E : Env) (future packet : ℕ) : TransportMethod Unit := fun s ↦
  if s.proto.transport then
    match (EventLoop.requestPacket E packet).run s.loop with
    | .ok raw loop => .ok () (s.withLoop (loop.record (.sent future raw)))
    | .error e loop => .error e (s.withLoop (loop.record (.failed future e)))
  else .error .attributeError (s.withLoop (s.loop.record (.failed future .attributeError)))

/-- `future.set_result(reply)`, or `future.set_exception(exc)`. -/
def complete (future : ℕ) (outcome : FutureState) : TransportMethod Unit :=
  onLoop (EStateM.modifyM fun l ↦ l.complete future outcome)

/-- `create_id()` -/
def createId : TransportMethod ℕ := fun s ↦
  match ((List.range' 1 256).map fun offset ↦ (s.proto.packetId + offset) % 256).find?
      fun candidate ↦ !s.pending.contains (some candidate) with
  | some candidate => .ok candidate { s with proto := { s.proto with packetId := candidate } }
  | none => .error (.identifierExhausted
      "All 256 RADIUS Identifier slots are in flight on this transport") s

/-- The error of `send_packet` for an identifier that is taken; its text cannot be made without
one. -/
def alreadyInFlight : Option ℕ → Exn
  | some id => .identifierExhausted ("Packet with id " ++ toString id ++ " already in flight")
  | none => .typeError "%d format: a real number is required, not NoneType"

/-- `send_packet(packet, future)`; `now` is what `datetime.now()` returns. -/
def sendPacket (E : Env) (now : Time) (packet future : ℕ) : TransportMethod Unit := do
  let s ← get
  let id := (s.loop.packets packet).id
  if s.pending.contains id then throw (alreadyInFlight id)
  set (s.setPending (s.pending.set id { packet, future, sendDate := now }))
  transmit E future packet

/-! ### The timer -/

/-- What a pass of the timer did about a request. -/
inductive Service where
  /-- Nothing, its wait has not elapsed. -/
  | waiting (remaining : Time)
  | resent
  | failed

/-- `# Send again packet` -/
def resend (E : Env) (now : Time) (id : Option ℕ) (req : PendingRequest) : TransportMethod Unit := do
  modify fun s ↦ s.setPending
    (s.pending.set id { req with sendDate := now, retries := req.retries + 1 })
  transmit E req.future req.packet

/-- One request in the loop of `__timeout_handler__`. -/
def serviceRequest (E : Env) (now : Time) (noise : ℚ) (id : Option ℕ) (req : PendingRequest) :
    TransportMethod Service := do
  let policy := (← get).proto.retryPolicy
  let elapsed := now - req.sendDate
  let currentWait ← policy.waitFor req.retries noise
  if elapsed < currentWait then return .waiting (currentWait - elapsed)
  if policy.retries ≤ req.retries then
    complete req.future (.exception (.timeoutError "Timeout on Reply"))
    return .failed
  resend E now id req
  return .resent

/-- The loop of `__timeout_handler__` over the requests still to come: the keys to delete and the
time of the next wake-up. -/
def serviceRequests (E : Env) (now : Time) (noise : Option ℕ → ℚ) :
    List (Option ℕ × PendingRequest) → List (Option ℕ) → Time →
      TransportMethod (List (Option ℕ) × Time)
  | [], req2delete, nextWakeUp => return (req2delete, nextWakeUp)
  | (id, req) :: rest, req2delete, nextWakeUp => do
    match ← serviceRequest E now (noise id) id req with
    | .waiting remaining => serviceRequests E now noise rest req2delete (min nextWakeUp remaining)
    | .resent => serviceRequests E now noise rest req2delete nextWakeUp
    | .failed => serviceRequests E now noise rest (req2delete ++ [id]) nextWakeUp

/-- `__timeout_handler__` from one sleep to the next; it returns how long to sleep. -/
def timeoutPass (E : Env) (now : Time) (noise : Option ℕ → ℚ) : TransportMethod Time := do
  let s ← get
  let (req2delete, nextWakeUp) ←
    serviceRequests E now noise s.pending.entries [] s.proto.retryPolicy.timeout
  -- each of these keys was in the map when its request was serviced
  modify fun s ↦ s.setPending (req2delete.foldl OrderedDict.erase s.pending)
  return max 0 nextWakeUp

/-- The next pass of the timer task, if that still runs. -/
def timeoutHandler (E : Env) (now : Time) (noise : Option ℕ → ℚ) : TransportMethod Unit := fun s ↦
  if s.proto.timeoutFuture = .running then
    match (timeoutPass E now noise).run s with
    | .ok _ s' => .ok () s'
    | .error e s' => .ok () { s' with proto := { s'.proto with timeoutFuture := .died e } }
  else .ok () s

/-! ### Replies -/

/-- `Packet(packet=data, dict=self.client.dict)` -/
def decodeReply (E : Env) (dict : Option Dictionary) (data : Bytes) : TransportMethod Packet :=
  onLoop (EventLoop.inWorld
    (Packet.construct E { cls := .packet, secret := Tools.utf8 "radsec", dict } (some data) []))

/-- `packet.verify_reply(reply, data, enforce_ma)`, with the reply it leaves behind. -/
def verifyReply (E : Env) (packet reply : Packet) (data : Bytes) (enforceMa : Bool) :
    TransportMethod (Bool × Packet) :=
  onLoop (EventLoop.inWorld (reply.run (Packet.verifyReply E packet (some data) enforceMa)))

/-- A reply whose identifier is that of a pending request. -/
def matchReply (E : Env) (data : Bytes) (reply : Packet) (req : PendingRequest) :
    TransportMethod Unit := do
  let s ← get
  let packet := s.loop.packets req.packet
  let reply := { reply with dict := packet.dict, secret := packet.secret }
  let (valid, reply) ← verifyReply E packet reply data s.proto.enforceMa
  if valid then
    complete req.future (.result reply)
    modify fun s ↦ s.setPending (s.pending.erase reply.id)

/-- `datagram_received(data, addr)` -/
def datagramReceived (E : Env) (data : Bytes) : TransportMethod Unit :=
  Method.catchException
    (do
      let reply ← decodeReply E (← get).proto.dict data
      match (← get).pending.get? reply.id with
      | some req => if reply.code ≠ 0 then matchReply E data reply req
      | none => pure ())
    (pure ())

/-- `close_transport()`; waiting for a timer that died raises what it died of. -/
def closeTransport : TransportMethod Unit := fun s ↦
  match s.proto.timeoutFuture with
  | .died e => .error e { s with proto := { s.proto with transport := false } }
  | _ => .ok ()
      { s with proto := { s.proto with transport := false, timeoutFuture := .closed } }

end DatagramProtocolClient

/-! ### Steps -/

/-- A step of a transport, of the code that uses it, or of the event loop. -/
inductive TransportEvent where
  | createId
  /-- `send_packet` with a future that was created for the call. -/
  | sendPacket (now : Time) (packet : ℕ)
  | datagramReceived (data : Bytes)
  /-- A pass of the timer. -/
  | timeout (now : Time) (noise : Option ℕ → ℚ)
  /-- The owner of a packet object builds or changes it. -/
  | assign (packet : ℕ) (p : Packet)
  /-- The owner of a future cancels it. -/
  | cancel (future : ℕ)
  | closeTransport

namespace TransportEvent

open DatagramProtocolClient

/-- What is done in a step. -/
def method (E : Env) : TransportEvent → TransportMethod Unit
  | createId => do let _ ← DatagramProtocolClient.createId
  | sendPacket now packet => do
    let future ← onLoop EventLoop.createFuture
    DatagramProtocolClient.sendPacket E now packet future
  | datagramReceived data => DatagramProtocolClient.datagramReceived E data
  | timeout now noise => timeoutHandler E now noise
  | assign packet p => modify fun s ↦
      s.withLoop { s.loop with packets := Function.update s.loop.packets packet p }
  | cancel future => modify fun s ↦ s.withLoop (s.loop.cancel future)
  | closeTransport => DatagramProtocolClient.closeTransport

/-- The state after a step, also when an exception is raised to the caller. -/
def next (E : Env) (e : TransportEvent) (s : TransportState) : TransportState :=
  EStateM.after (e.method E) s

end TransportEvent

/-- A transport that was just created. -/
def TransportState.init (policy : RetryPolicy) (dict : Option Dictionary) (enforceMa : Bool)
    (packetId : ℕ) (packets : ℕ → Packet) (world : World) : TransportState where
  loop := { packets, world }
  proto := { retryPolicy := policy, dict, enforceMa, packetId }

end Pyrad2
