import Pyrad2.Eap.Base
import Pyrad2.Retry

/-!
# The synchronous client

`Client`: one packet at a time, sent again until a reply comes or the attempts are used up, and the
EAP conversations on top of it.

A call waits for the network itself, so what it receives is part of its input: for each attempt the
datagrams that come until its wait is over, whenever that is. Nothing else is read of the clock.
-/

namespace Pyrad2

/-- What one attempt meets: the draw of `random.uniform` in `wait_for`, what `sendto` raises if it
raises, the datagrams that `recv` returns until the wait is over, and what waiting or receiving
raises after them if it raises. -/
structure SendAttempt where
  noise : ℚ := 0
  sendRaises : Option Exn := none
  received : List Bytes := []
  receiveRaises : Option Exn := none

/-- `Client` -/
structure Client where
  authport : ℕ := 1812
  acctport : ℕ := 1813
  coaport : ℕ := 3799
  retryPolicy : RetryPolicy := {}
  enforceMa : Bool := true

/-- A call of a client: the packet object and the process, what has been put on the network so far,
port and datagram, and the attempts to come. -/
structure CallState where
  pkt : Packet
  world : World
  sent : List (ℕ × Bytes) := []
  attempts : ℕ → SendAttempt

/-- A method of a client. -/
abbrev ClientCall (α : Type) := Method CallState α

/-! ### Access by name -/

namespace Packet

/-- `list(view)` -/
def ItemView.toList : ItemView → List PyVal
  | .vals vs => vs
  | .map m => m.map fun e ↦ .str e.1

/-- `value + n` -/
def addInt (n : Int) : PyVal → Except Exn PyVal
  | .int i => .ok (.int (i + n))
  | .str _ => .error (.typeError "can only concatenate str (not \"int\") to str")
  | .bytes _ => .error (.typeError "can't concat int to bytes")
  | .none => .error (.typeError "unsupported operand type(s) for +: 'NoneType' and 'int'")

/-- `int(t)` -/
def truncate (t : Time) : Int := if 0 ≤ t then t.floor else t.ceil

/-- The change of `Acct-Delay-Time` before an accounting request is sent again. -/
def bumpAcctDelayTime (E : Env) (previousWait : Time) : PacketMethod Unit := do
  let p := (← get).pkt
  if ← p.contains "Acct-Delay-Time" then
    let value ← addInt (truncate previousWait) (← p.getFirst E "Acct-Delay-Time")
    setItem E "Acct-Delay-Time" [value]
  else setItem E "Acct-Delay-Time" [.int (truncate previousWait)]

/-- `original_acct_delay`, where `had_acct_delay`. -/
def originalAcctDelay (E : Env) (p : Packet) : Except Exn (Option (List PyVal)) := do
  if ← p.contains "Acct-Delay-Time" then
    return some (← p.getItem E "Acct-Delay-Time").toList
  else return none

/-- The `finally` clause of `_send_packet`. -/
def restoreAcctDelay (E : Env) : Option (List PyVal) → PacketMethod Unit
  | some values => setItem E "Acct-Delay-Time" values
  | none => do
    if ← (← get).pkt.contains "Acct-Delay-Time" then delItem "Acct-Delay-Time"

end Packet

namespace Client

/-- Run a method of the packet of the call. -/
def onPacket {α : Type} (m : PacketMethod α) : ClientCall α :=
  EStateM.onPart (fun s ↦ ⟨s.pkt, s.world⟩) (fun t s ↦ { s with pkt := t.pkt, world := t.world }) m

/-- Run something that only touches the process. -/
def inWorld {α : Type} (m : Method World α) : ClientCall α :=
  EStateM.onPart CallState.world (fun world s ↦ { s with world }) m

/-- What the next attempt meets. -/
def nextAttempt : ClientCall SendAttempt := fun s ↦
  .ok (s.attempts 0) { s with attempts := fun n ↦ s.attempts (n + 1) }

/-- `self._socket.sendto(raw, (self.server, port))` -/
def sendto (port : ℕ) (raises : Option Exn) (raw : Bytes) : ClientCall Unit :=
  match raises with
  | some e => throw e
  | none => modify fun s ↦ { s with sent := s.sent ++ [(port, raw)] }

variable (c : Client) (E : Env)

/-- `_prepare_outgoing_packet(pkt)` -/
def prepareOutgoingPacket : ClientCall Unit :=
  onPacket (Packet.prepareRequestMessageAuthenticator E c.enforceMa)

/-- The reply that `rawreply` is to the packet of the call, if it is one. -/
def replyFrom (rawreply : Bytes) : ClientCall (Option Packet) := do
  let pkt := (← get).pkt
  tryCatch
    (do
      let reply ← inWorld (pkt.createReply E none (some rawreply) [])
      let (valid, reply) ← inWorld (reply.run (Packet.verifyReply E pkt (some rawreply) c.enforceMa))
      if valid then return some { reply with requestAuthenticator := pkt.authenticator }
      else return none)
    fun e ↦ if e.isPacketError then return none else throw e

/-- The datagrams of one attempt, in the order in which they are received, up to a reply. -/
def receive (raises : Option Exn) : List Bytes → ClientCall (Option Packet)
  | [] =>
    match raises with
    | some e => throw e
    | none => return none
  | rawreply :: rest => do
    -- `recv(4096)`; an empty datagram is not looked at
    if rawreply = [] then receive raises rest
    else match ← replyFrom c E (rawreply.take 4096) with
      | some reply => return some reply
      | none => receive raises rest

/-- The loop that waits for a reply. Without a wait, nothing is received. -/
def awaitReply (wait : Time) (met : SendAttempt) : ClientCall (Option Packet) :=
  if 0 < wait then receive c E met.receiveRaises met.received else return none

/-- The attempts of `_send_packet` from number `attempt` on, of which `left` are left. -/
def sendAttempts (port : ℕ) (isAcct : Bool) : ℕ → ℕ → Time → ClientCall Packet
  | 0, _, _ => throw .timeout
  | left + 1, attempt, previousWait => do
    if isAcct && attempt ≠ 0 then onPacket (Packet.bumpAcctDelayTime E previousWait)
    let met ← nextAttempt
    let wait ← c.retryPolicy.waitFor attempt met.noise
    prepareOutgoingPacket c E
    sendto port met.sendRaises (← onPacket (Packet.requestPacket E))
    match ← awaitReply c E wait met with
    | some reply => return reply
    | none => sendAttempts port isAcct left (attempt + 1) wait

/-- What an attempt does after the change of `Acct-Delay-Time`, and the `rest` of the attempts. -/
def attemptThen (port attempt : ℕ) (rest : Time → ClientCall Packet) : ClientCall Packet := do
  let met ← nextAttempt
  let wait ← c.retryPolicy.waitFor attempt met.noise
  prepareOutgoingPacket c E
  sendto port met.sendRaises (← onPacket (Packet.requestPacket E))
  match ← awaitReply c E wait met with
  | some reply => return reply
  | none => rest wait

theorem sendAttempts_succ (port : ℕ) (isAcct : Bool) (left attempt : ℕ) (previousWait : Time) :
    sendAttempts c E port isAcct (left + 1) attempt previousWait =
      if isAcct && attempt ≠ 0 then (do
        onPacket (Packet.bumpAcctDelayTime E previousWait)
        attemptThen c E port attempt (sendAttempts c E port isAcct left (attempt + 1)))
      else attemptThen c E port attempt (sendAttempts c E port isAcct left (attempt + 1)) := by
  rw [sendAttempts]
  split <;> rfl

/-- `_send_packet(pkt, port)` -/
def sendPacketTo (port : ℕ) : ClientCall Packet := do
  let pkt := (← get).pkt
  let attempts := c.retryPolicy.retries.toNat
  let timeout := c.retryPolicy.timeout
  if pkt.code = PacketType.accountingRequest then do
    let original ← pkt.originalAcctDelay E
    Method.tryFinally (sendAttempts c E port true attempts 0 timeout)
      (onPacket (Packet.restoreAcctDelay E original))
  else sendAttempts c E port false attempts 0 timeout

/-- `send_status_packet(pkt, port=port)` -/
def sendStatusPacket (port : String) : ClientCall Packet :=
  if port = "auth" then sendPacketTo c E c.authport
  else if port = "acct" then sendPacketTo c E c.acctport
  else throw (.valueError "Status-Server port must be 'auth' or 'acct'")

/-! ### Conversations -/

variable {M : Type} (methods : EapMethods M)

/-- Call a hook of a method object on the packet of the call; what it leaves of the method object
is returned. -/
def onMethod (method : M) (m : Method (EapState M) Unit) : ClientCall M := fun s ↦
  match m.run (method, ⟨s.pkt, s.world⟩) with
  | .ok () (method, ps) => .ok method { s with pkt := ps.pkt, world := ps.world }
  | .error e (_, ps) => .error e { s with pkt := ps.pkt, world := ps.world }

/-- The loop of `_send_auth_packet` from a reply on. A conversation has as many rounds as the server
makes it have; here it has `rounds` at most. -/
def challengeLoop : ℕ → M → Packet → ClientCall Packet
  | rounds, method, reply => do
    if reply.code = PacketType.accessChallenge then
      match rounds with
      | 0 => throw .divergence
      | rounds + 1 => do
        let method ← onMethod method (methods.respond reply)
        let reply ← sendPacketTo c E c.authport
        challengeLoop rounds method reply
    else return reply

/-- `_send_auth_packet(pkt)` -/
def sendAuthPacket (rounds : ℕ) : ClientCall Packet := do
  match methods.getMethod (← get).pkt.authType with
  | none => sendPacketTo c E c.authport
  | some method => do
    let method ← onMethod method methods.start
    let reply ← sendPacketTo c E c.authport
    challengeLoop c E methods rounds method reply

/-- `send_packet(pkt)` -/
def sendPacket (rounds : ℕ) : ClientCall Packet := do
  match (← get).pkt.cls with
  | .status => sendStatusPacket c E "auth"
  | .auth => sendAuthPacket c E methods rounds
  | .coa => sendPacketTo c E c.coaport
  | _ => sendPacketTo c E c.acctport

end Client

end Pyrad2
