import Pyrad2.Radsec.Tokens

/-!
# The stream of a RadSec connection

Whose response does a call of `RadSecClient` read?

With `reuse_connection` on, the requests of one call after the other are written to one connection,
and responses are read from it in order. Nothing but the order says which response belongs to which
request, so every response must have been read to its end before the next request is written, or the
connection must have been given up. `_send_packet` gives it up when a call fails with one of the
errors that it lists. What it does not list leaves the connection open, with the rest of the
response still to come.
-/

namespace Pyrad2

open EStateM

/-! ### What the network does -/

/-- What an operation on a connection may raise, by class, or that the caller has cancelled it. -/
inductive IoError where
  | incompleteRead
  | timeout
  | connection
  | eof
  | os
  | cancelled
  deriving DecidableEq, Repr

/-- An exception that leaves `_send_packet_once`. -/
inductive Failure where
  | io (e : IoError)
  | raised (e : Exn)
  deriving DecidableEq, Repr

namespace Failure

/-- `retryable_errors` -/
def isRetryable : Failure → Bool
  | io .cancelled => false
  | io _ => true
  | raised _ => false

/-- Is this a `PacketError`? -/
def isPacketError : Failure → Bool
  | io _ => false
  | raised e => e.isPacketError

end Failure

/-- A TLS handshake: the protocol agreed on, whether the certificate is on the allowlist, and the
random start of a Token counter. -/
structure Handshake where
  selectedAlpn : Option String := none
  fingerprintAllowed : Bool := true
  token : BitVec 32 := 0

/-- Where a call waits for the network once its request is written. -/
inductive Stage where
  | drain
  | header
  | body
  deriving DecidableEq, Repr

/-- What happens in one attempt of a call. The response is what the server sends to the request,
whenever that arrives. -/
structure Attempt where
  closing : Bool := false
  closeFails : Option IoError := none
  handshake : Except IoError Handshake := .ok {}
  response : Bytes
  fault : Option (Stage × IoError) := none
  lastCloseFails : Option IoError := none
  cancelledInBackoff : Bool := false

/-- What goes wrong at this stage, if it is reached. -/
def Attempt.faultAt (a : Attempt) (stage : Stage) : Option IoError :=
  match a.fault with
  | some (at', e) => if at' = stage then some e else none
  | none => none

/-! ### The client -/

/-- `_VERSION_BY_ALPN` -/
def versionByAlpn : List (String × RadiusVersion) := [("radius/1.0", .v1_0), ("radius/1.1", .v1_1)]

/-- `negotiate(configured, selected_alpn)`, or the text of a `NoCommonRadiusVersion`. -/
def negotiate (configured : List RadiusVersion) (selectedAlpn : Option String) :
    Except String RadiusVersion :=
  match selectedAlpn with
  | some alpn =>
    match versionByAlpn.lookup alpn with
    | some chosen =>
      if chosen ∈ configured then .ok chosen
      else .error ("peer selected unsupported ALPN '" ++ alpn ++ "'")
    | none => .error ("peer selected unsupported ALPN '" ++ alpn ++ "'")
  | none =>
    if .v1_0 ∈ configured then .ok .v1_0
    else .error "peer did not offer ALPN; local endpoint requires RADIUS/1.1"

/-- An open connection: what was negotiated, and what the server has sent or will send to the
requests written so far and has not been read. -/
structure Link where
  negotiated : Negotiated
  unread : Bytes := []

/-- A `RadSecClient` during a call: its connection, the packet being sent and the process around it,
and `last_error`. What was unread at each write is for the record; the code does not know it. -/
structure RadSecState where
  connection : Option Link := none
  packet : PacketState
  lastError : Option Failure := none
  leftovers : List Bytes := []

abbrev RadSecMethod (α : Type) := EStateM Failure RadSecState α

namespace RadSecClient

/-- An operation on the network fails, or does not. -/
def mayFail : Option IoError → RadSecMethod Unit
  | some e => throw (.io e)
  | none => pure ()

/-- `close()`: the connection is forgotten before its writer is closed. -/
def close (fails : Option IoError) : RadSecMethod Unit := do
  modify fun s ↦ { s with connection := none }
  mayFail fails

/-- `_open_connection()` -/
def openConnection (versions : List RadiusVersion) (handshake : Except IoError Handshake) :
    Except Failure Link :=
  match handshake with
  | .error e => .error (.io e)
  | .ok h =>
    match negotiate versions h.selectedAlpn with
    | .error msg => .error (.raised (.packetError
        ("No common RADIUS protocol version with RadSec server: " ++ msg)))
    | .ok version =>
      if h.fingerprintAllowed then
        .ok { negotiated := ⟨version, if version = .v1_1 then some ⟨h.token⟩ else none⟩ }
      else .error (.raised (.packetError "Server certificate fingerprint is not allowed"))

/-- `_ensure_connection()` -/
def ensureConnection (versions : List RadiusVersion) (a : Attempt) : RadSecMethod Link := do
  match (← get).connection, a.closing with
  | some link, false => return link
  | _, _ =>
    close a.closeFails
    let link ← openConnection versions a.handshake
    modify fun s ↦ { s with connection := some link }
    return link

/-- `_write_packet(writer, packet)`: the packet is stamped, prepared and serialized, and what it is
serialized to is written. -/
def writePacket (E : Env) (link : Link) (a : Attempt) : RadSecMethod Unit := do
  let s ← get
  let record := Packet.send E link.negotiated s.packet
  let negotiated := (link.negotiated.stamp s.packet.pkt).2
  match record.result with
  | .error e p => do
    set { s with packet := p, connection := some { link with negotiated } }
    throw (.raised e)
  | .ok _ p => do
    set { s with
      packet := p
      connection := some { negotiated, unread := link.unread ++ a.response }
      leftovers := s.leftovers ++ [link.unread] }
    mayFail (a.faultAt .drain)

/-- `readexactly(n)` within the timeout: fewer bytes stay where they are. -/
def readexactly (n : ℕ) (fault : Option IoError) : RadSecMethod Bytes := do
  mayFail fault
  let s ← get
  let link ← (match s.connection with
    | some link => .ok link
    | none => .error (.io .incompleteRead) : Except Failure Link)
  if link.unread.length < n then throw (.io .timeout)
  set { s with connection := some { link with unread := link.unread.drop n } }
  return link.unread.take n

/-- `read_radius_packet(reader)` -/
def readRadiusPacket (a : Attempt) : RadSecMethod Bytes := do
  let header ← readexactly 4 (a.faultAt .header)
  if Packet.wireLength header < 20 then
    throw (.raised (.valueError "Invalid RADIUS packet length"))
  let body ← readexactly (Packet.wireLength header - 4) (a.faultAt .body)
  return header ++ body

/-- What becomes of a response. -/
def acceptReceived (E : Env) (response : Bytes) : RadSecMethod Packet := fun s ↦
  match (acceptResponse E s.packet.pkt response).run s.packet.world with
  | .ok reply world => .ok reply { s with packet := { s.packet with world } }
  | .error e world => .error (.raised e) { s with packet := { s.packet with world } }

/-- `_send_packet_once(packet)` -/
def sendPacketOnce (E : Env) (versions : List RadiusVersion) (a : Attempt) :
    RadSecMethod Packet := do
  let link ← ensureConnection versions a
  writePacket E link a
  let response ← readRadiusPacket a
  acceptReceived E response

/-- The loop of `_send_packet`, over what happens in each attempt. -/
def attemptLoop (E : Env) (versions : List RadiusVersion) :
    List Attempt → RadSecMethod (Option Packet)
  | [] => return none
  | a :: rest =>
    tryCatch (do return some (← sendPacketOnce E versions a)) fun f ↦ do
      if f.isPacketError then
        modify fun s ↦ { s with lastError := some f }
        close a.lastCloseFails
        return none
      else if f.isRetryable then
        modify fun s ↦ { s with lastError := some f }
        close a.lastCloseFails
        if !rest.isEmpty && a.cancelledInBackoff then throw (.io .cancelled)
        attemptLoop E versions rest
      else throw f

/-- `_send_packet(packet)` -/
def sendPacket (E : Env) (versions : List RadiusVersion) (retries : ℤ) (attempt : ℕ → Attempt) :
    RadSecMethod (Option Packet) := do
  modify fun s ↦ { s with lastError := none }
  attemptLoop E versions ((List.range (max 1 retries).toNat).map attempt)

end RadSecClient

/-! ### One call after the other -/

/-- A call: the packet, as its owner or an EAP method has left it, and what happens. -/
structure Call where
  packet : PacketState
  retries : ℤ := 3
  attempt : ℕ → Attempt

namespace RadSecState

/-- A call returns or raises. -/
def afterCall (E : Env) (versions : List RadiusVersion) (s : RadSecState) (c : Call) : RadSecState :=
  after (RadSecClient.sendPacket E versions c.retries c.attempt) { s with packet := c.packet }

def run (E : Env) (versions : List RadiusVersion) (s : RadSecState) (calls : List Call) :
    RadSecState :=
  calls.foldl (afterCall E versions) s

/-- Nothing was unread when a request was written. -/
def Aligned (s : RadSecState) : Prop := ∀ unread ∈ s.leftovers, unread = []

/-- Nothing is unread. -/
def Drained (s : RadSecState) : Prop := ∀ link, s.connection = some link → link.unread = []

/-- An attempt, from this state, that no caller cancels while the response is awaited. A length field
below `20` comes with nothing after it, and if there is more than the length field says, what it
delimits is refused as a packet. -/
structure Fits (E : Env) (versions : List RadiusVersion) (a : Attempt) (s : RadSecState) : Prop where
  uncancelled : ∀ stage, a.fault ≠ some (stage, .cancelled)
  short : a.faultAt .drain = none → a.faultAt .header = none → 4 < a.response.length →
    20 ≤ Packet.wireLength a.response
  long : a.fault = none → 20 ≤ Packet.wireLength a.response →
    Packet.wireLength a.response < a.response.length → ∀ s',
      (RadSecClient.ensureConnection versions a >>= fun link ↦
        RadSecClient.writePacket E link a).run s = .ok () s' →
      ∃ msg world, (RadSecClient.acceptResponse E s'.packet.pkt
        (a.response.take (Packet.wireLength a.response))).run s'.packet.world =
          .error (.packetError msg) world

/-- Every attempt that a call makes is such. -/
def FittingAttempts (E : Env) (versions : List RadiusVersion) : List Attempt → RadSecState → Prop
  | [], _ => True
  | a :: rest, s => Fits E versions a s ∧ ∀ f s',
      (RadSecClient.sendPacketOnce E versions a).run s = .error f s' → f.isRetryable = true →
        FittingAttempts E versions rest { s' with connection := none, lastError := some f }

/-- Every attempt of every call is such. -/
def FittingCalls (E : Env) (versions : List RadiusVersion) : List Call → RadSecState → Prop
  | [], _ => True
  | c :: calls, s =>
    FittingAttempts E versions ((List.range (max 1 c.retries).toNat).map c.attempt)
      { s with packet := c.packet, lastError := none } ∧
      FittingCalls E versions calls (s.afterCall E versions c)

end RadSecState

namespace RadSecClient

open RadSecState

/-! ### What one attempt leaves -/

/-- The loop closes the connection after this exception. -/
def Closes (f : Failure) : Prop := f.isPacketError = true ∨ f.isRetryable = true

theorem closes_io {e : IoError} (h : e ≠ .cancelled) : Closes (.io e) := by
  refine .inr ?_
  rcases e with _ | _ | _ | _ | _ | _
  all_goals first | rfl | exact absurd rfl h

/-- An attempt has failed: nothing is unread, or the connection will be closed. -/
def Settled (f : Failure) (s : RadSecState) : Prop := s.Aligned ∧ (s.Drained ∨ Closes f)

section

variable {E : Env} {versions : List RadiusVersion} {a : Attempt} {s : RadSecState}

theorem ensures_mayFail {fails : Option IoError} {Q : Unit → RadSecState → Prop}
    {R : Failure → RadSecState → Prop} (hQ : fails = none → Q () s)
    (hR : ∀ e, fails = some e → R (.io e) s) : Ensures (mayFail fails) s Q R := by
  rcases fails with _ | e
  · exact hQ rfl
  · exact hR e rfl

theorem ensures_close (fails : Option IoError) (s : RadSecState) :
    Ensures (close fails) s (fun _ s' ↦ s' = { s with connection := none })
      fun _ s' ↦ s' = { s with connection := none } := by
  rw [close]
  exact ensures_bind.2 (ensures_modify.2 (ensures_mayFail (fun _ ↦ rfl) fun _ _ ↦ rfl))

theorem drained_of_none (h : s.connection = none) : s.Drained := by
  intro link hlink
  rw [h] at hlink
  cases hlink

theorem unread_of_openConnection {handshake : Except IoError Handshake} {link : Link}
    (h : openConnection versions handshake = .ok link) : link.unread = [] := by
  rcases handshake with e | hs
  · cases h
  · rw [openConnection] at h
    split at h
    · cases h
    · split at h
      · cases h
        rfl
      · cases h

/-- The connection to write to has nothing unread. -/
theorem ensures_ensureConnection (haligned : s.Aligned) (hdrained : s.Drained) :
    Ensures (ensureConnection versions a) s
      (fun link s' ↦ s'.Aligned ∧ s'.connection = some link ∧ link.unread = [])
      fun _ s' ↦ s'.Aligned ∧ s'.Drained := by
  rw [ensureConnection]
  refine ensures_bind.2 (ensures_get.2 ?_)
  split
  · next link hlink _ => exact ensures_pure.2 ⟨haligned, hlink, hdrained link hlink⟩
  · refine ensures_bind.2 ((ensures_close a.closeFails s).imp ?_ ?_)
    · rintro _ _ rfl
      refine ensures_bind.2 (ensures_liftM (fun link hlink ↦ ?_) fun _ _ ↦ ?_)
      · exact ensures_bind.2 (ensures_modify.2 (ensures_pure.2
          ⟨haligned, rfl, unread_of_openConnection hlink⟩))
      · exact ⟨haligned, drained_of_none rfl⟩
    · rintro _ _ rfl
      exact ⟨haligned, drained_of_none rfl⟩

/-- After the write the response is unread, and nothing else. -/
theorem ensures_writePacket {link : Link} (haligned : s.Aligned) (hunread : link.unread = []) :
    Ensures (writePacket E link a) s
      (fun _ s' ↦ s'.Aligned ∧ (∃ link', s'.connection = some link' ∧ link'.unread = a.response) ∧
        a.faultAt .drain = none)
      fun f s' ↦ s'.Aligned ∧ (s'.Drained ∨ ∃ e, a.faultAt .drain = some e ∧ f = .io e) := by
  rw [writePacket]
  refine ensures_bind.2 (ensures_get.2 ?_)
  dsimp only
  split
  · next e p _ =>
    refine ensures_bind.2 (ensures_set.2 (ensures_throw.2 ⟨haligned, .inl ?_⟩))
    rintro _ ⟨⟩
    exact hunread
  · next raw p _ =>
    have haligned' : ∀ unread ∈ s.leftovers ++ [link.unread], unread = [] := by
      intro unread hmem
      rcases List.mem_append.1 hmem with hmem | hmem
      · exact haligned unread hmem
      · rw [List.mem_singleton.1 hmem, hunread]
    refine ensures_bind.2 (ensures_set.2 (ensures_mayFail (fun hnone ↦ ?_) fun e he ↦ ?_))
    · exact ⟨haligned', ⟨_, rfl, by rw [hunread, List.nil_append]⟩, hnone⟩
    · exact ⟨haligned', .inr ⟨e, he, rfl⟩⟩

/-- Reading takes the bytes that are asked for, or none. -/
theorem ensures_readexactly {n : ℕ} {fault : Option IoError} {link : Link}
    (hlink : s.connection = some link) :
    Ensures (readexactly n fault) s
      (fun b s' ↦ fault = none ∧ n ≤ link.unread.length ∧ b = link.unread.take n ∧
        s' = { s with connection := some { link with unread := link.unread.drop n } })
      fun f s' ↦ s' = s ∧ (f = .io .timeout ∨ ∃ e, fault = some e ∧ f = .io e) := by
  rw [readexactly]
  refine ensures_bind.2 (ensures_mayFail (fun hnone ↦ ?_) fun e he ↦ ⟨rfl, .inr ⟨e, he, rfl⟩⟩)
  refine ensures_bind.2 (ensures_get.2 ?_)
  rw [hlink]
  refine ensures_bind.2 (ensures_pure.2 ?_)
  split
  · exact ensures_throw.2 ⟨rfl, .inl rfl⟩
  · next hlength =>
    refine ensures_bind.2 (ensures_set.2 (ensures_pure.2 ?_))
    exact ⟨hnone, not_lt.1 hlength, rfl, rfl⟩

theorem wireLength_take (b : Bytes) : Packet.wireLength (b.take 4) = Packet.wireLength b := by
  rw [Packet.wireLength, Packet.wireLength, List.drop_take, List.take_take, Nat.min_self]

theorem closes_of_fault {stage : Stage} {e : IoError}
    (hfit : ∀ stage, a.fault ≠ some (stage, .cancelled)) (he : a.faultAt stage = some e) :
    Closes (.io e) := by
  refine closes_io fun hcancelled ↦ ?_
  rw [hcancelled, Attempt.faultAt] at he
  split at he
  · next at' e' hfault =>
    split at he
    · cases he
      exact hfit at' hfault
    · cases he
  · cases he

/-- **A read** that fails ends the connection, or has come to the end of the response. One that
does not fail has taken as many bytes as the length field says. -/
theorem ensures_readRadiusPacket {link : Link} (haligned : s.Aligned)
    (hlink : s.connection = some link)
    (hfit : ∀ stage, a.fault ≠ some (stage, .cancelled))
    (hshort : a.faultAt .header = none → 4 < link.unread.length →
      20 ≤ Packet.wireLength link.unread) :
    Ensures (readRadiusPacket a) s
      (fun raw s' ↦ a.faultAt .header = none ∧ a.faultAt .body = none ∧
        20 ≤ Packet.wireLength link.unread ∧
        raw = link.unread.take (Packet.wireLength link.unread) ∧
        s' = { s with connection := some { link with
          unread := link.unread.drop (Packet.wireLength link.unread) } })
      Settled := by
  rw [readRadiusPacket]
  refine ensures_bind.2 ((ensures_readexactly hlink).imp ?_ ?_)
  · rintro _ _ ⟨hheader, hfour, rfl, rfl⟩
    rw [wireLength_take]
    split
    · next hlength =>
      refine ensures_throw.2 ⟨haligned, .inl ?_⟩
      rintro _ ⟨⟩
      -- a length below 20 is announced by the last four bytes
      have hend : link.unread.length ≤ 4 := by
        by_contra hlong
        exact absurd (hshort hheader (not_le.1 hlong)) (not_le.2 hlength)
      exact List.drop_eq_nil_of_le hend
    · next hlength =>
      refine ensures_bind.2 ((ensures_readexactly rfl).imp ?_ ?_)
      · rintro _ _ ⟨hbody, hrest, rfl, rfl⟩
        have htwenty : 20 ≤ Packet.wireLength link.unread := not_lt.1 hlength
        have hsum : 4 + (Packet.wireLength link.unread - 4) = Packet.wireLength link.unread := by
          omega
        refine ensures_pure.2 ⟨hheader, hbody, htwenty, ?_, ?_⟩
        · rw [← hsum, List.take_add, hsum]
        · dsimp only
          rw [List.drop_drop, hsum]
      · rintro _ _ ⟨rfl, rfl | ⟨e, he, rfl⟩⟩
        · exact ⟨haligned, .inr (closes_io (by decide))⟩
        · exact ⟨haligned, .inr (closes_of_fault hfit he)⟩
  · rintro _ _ ⟨rfl, rfl | ⟨e, he, rfl⟩⟩
    · exact ⟨haligned, .inr (closes_io (by decide))⟩
    · exact ⟨haligned, .inr (closes_of_fault hfit he)⟩

/-- The connection is there and the request is written, or the attempt is over. -/
theorem ensures_written (haligned : s.Aligned) (hdrained : s.Drained)
    (hfit : ∀ stage, a.fault ≠ some (stage, .cancelled)) :
    Ensures (ensureConnection versions a >>= fun link ↦ writePacket E link a) s
      (fun _ s' ↦ s'.Aligned ∧ (∃ link', s'.connection = some link' ∧ link'.unread = a.response) ∧
        a.faultAt .drain = none) Settled := by
  refine ensures_bind.2 ((ensures_ensureConnection haligned hdrained).imp ?_ ?_)
  · rintro link s' ⟨haligned', -, hunread⟩
    refine (ensures_writePacket haligned' hunread).imp (fun _ _ h ↦ h) ?_
    rintro f s'' ⟨haligned'', hdrained'' | ⟨e, he, rfl⟩⟩
    · exact ⟨haligned'', .inl hdrained''⟩
    · exact ⟨haligned'', .inr (closes_of_fault hfit he)⟩
  · rintro f s' ⟨haligned', hdrained'⟩
    exact ⟨haligned', .inl hdrained'⟩

theorem faultAt_eq_none (h : ∀ stage, a.faultAt stage = none) : a.fault = none := by
  rcases hfault : a.fault with _ | ⟨stage, e⟩
  · rfl
  · have hstage := h stage
    rw [Attempt.faultAt, hfault] at hstage
    simp at hstage

/-- Accepting a response does not touch the connection. -/
theorem ensures_acceptReceived (response : Bytes) :
    Ensures (acceptReceived E response) s
      (fun reply s' ↦ s'.connection = s.connection ∧ s'.leftovers = s.leftovers ∧
        ∃ world, (acceptResponse E s.packet.pkt response).run s.packet.world = .ok reply world)
      fun f s' ↦ s'.connection = s.connection ∧ s'.leftovers = s.leftovers ∧
        ∃ e world, (acceptResponse E s.packet.pkt response).run s.packet.world = .error e world ∧
          f = .raised e := by
  rcases haccept : (acceptResponse E s.packet.pkt response).run s.packet.world with
    ⟨reply, world⟩ | ⟨e, world⟩
  · have hrun : (acceptReceived E response).run s =
        .ok reply { s with packet := { s.packet with world } } := by
      show acceptReceived E response s = _
      rw [acceptReceived, haccept]
    exact .of_ok hrun ⟨rfl, rfl, world, rfl⟩
  · have hrun : (acceptReceived E response).run s =
        .error (.raised e) { s with packet := { s.packet with world } } := by
      show acceptReceived E response s = _
      rw [acceptReceived, haccept]
    exact .of_error hrun ⟨rfl, rfl, e, world, rfl, rfl⟩

/-- **One attempt**: if it returns, nothing is unread. -/
theorem ensures_sendPacketOnce (haligned : s.Aligned) (hdrained : s.Drained)
    (hfit : Fits E versions a s) :
    Ensures (sendPacketOnce E versions a) s (fun _ s' ↦ s'.Aligned ∧ s'.Drained) Settled := by
  have hsplit : sendPacketOnce E versions a =
      (ensureConnection versions a >>= fun link ↦ writePacket E link a) >>= fun _ ↦
        readRadiusPacket a >>= acceptReceived E := by
    rw [sendPacketOnce, bind_assoc]
  have hwritten : Ensures (ensureConnection versions a >>= fun link ↦ writePacket E link a) s _ _ :=
    ensures_written haligned hdrained hfit.uncancelled
  rw [hsplit]
  rcases hrun : (ensureConnection versions a >>= fun link ↦ writePacket E link a).run s with
    ⟨⟨⟩, s'⟩ | ⟨f, s'⟩
  · obtain ⟨haligned', ⟨link, hlink, hunread⟩, hdrain⟩ := hwritten.of_run_eq_ok hrun
    rw [Ensures, run_bind_of_ok hrun, ← Ensures]
    refine ensures_bind.2 ((ensures_readRadiusPacket haligned' hlink hfit.uncancelled ?_).imp ?_ ?_)
    · rw [hunread]
      exact hfit.short hdrain
    · rintro raw _ ⟨hheader, hbody, htwenty, rfl, rfl⟩
      rw [hunread] at htwenty ⊢
      have hfault : a.fault = none := by
        refine faultAt_eq_none fun stage ↦ ?_
        rcases stage with _ | _ | _
        exacts [hdrain, hheader, hbody]
      rcases lt_or_ge (Packet.wireLength a.response) a.response.length with hlong | hend
      · -- there is more to come, but what was read is refused
        obtain ⟨msg, world, hrefused⟩ := hfit.long hfault htwenty hlong s' hrun
        refine (ensures_acceptReceived _).imp ?_ ?_
        · rintro reply s'' ⟨-, -, world', haccept⟩
          cases haccept.symm.trans hrefused
        · rintro f s'' ⟨-, hleftovers, e, world', haccept, rfl⟩
          cases haccept.symm.trans hrefused
          refine ⟨?_, .inr (.inl rfl)⟩
          rw [Aligned, hleftovers]
          exact haligned'
      · have hdrained' : a.response.drop (Packet.wireLength a.response) = [] :=
          List.drop_eq_nil_of_le hend
        have hkeep {s'' : RadSecState} (hleftovers : s''.leftovers = s'.leftovers)
            (hconnection : s''.connection = some { link with
              unread := a.response.drop (Packet.wireLength a.response) }) :
            s''.Aligned ∧ s''.Drained := by
          refine ⟨fun unread hmem ↦ haligned' unread (hleftovers ▸ hmem), fun link' hlink' ↦ ?_⟩
          cases hconnection.symm.trans hlink'
          exact hdrained'
        refine (ensures_acceptReceived _).imp ?_ ?_
        · rintro reply s'' ⟨hconnection, hleftovers, -⟩
          exact hkeep hleftovers hconnection
        · rintro f s'' ⟨hconnection, hleftovers, -⟩
          exact ⟨(hkeep hleftovers hconnection).1, .inl (hkeep hleftovers hconnection).2⟩
    · exact fun _ _ h ↦ h
  · rw [Ensures, run_bind_of_error hrun]
    exact hwritten.of_run_eq_error hrun

/-! ### What a call leaves -/

/-- After a call nothing is unread. -/
theorem ensures_attemptLoop {attempts : List Attempt} (haligned : s.Aligned) (hdrained : s.Drained)
    (hfit : FittingAttempts E versions attempts s) :
    Ensures (attemptLoop E versions attempts) s (fun _ s' ↦ s'.Aligned ∧ s'.Drained)
      fun _ s' ↦ s'.Aligned ∧ s'.Drained := by
  induction attempts generalizing s with
  | nil => exact ⟨haligned, hdrained⟩
  | cons a rest ih =>
    obtain ⟨hfit, hnext⟩ := hfit
    have honce := ensures_sendPacketOnce haligned hdrained hfit
    rw [attemptLoop]
    refine ensures_tryCatch.2 (ensures_bind.2 ?_)
    rw [Ensures]
    rcases hrun : (sendPacketOnce E versions a).run s with ⟨reply, s'⟩ | ⟨f, s'⟩
    · exact honce.of_run_eq_ok hrun
    · obtain ⟨haligned', hclosed⟩ := honce.of_run_eq_error hrun
      let closed : RadSecState := { s' with connection := none, lastError := some f }
      have hclosing : closed.Aligned ∧ closed.Drained := ⟨haligned', drained_of_none rfl⟩
      show Ensures (if f.isPacketError = true then _ else _) s' _ _
      split
      · refine ensures_bind.2 (ensures_modify.2 (ensures_bind.2 ((ensures_close _ _).imp ?_ ?_)))
        · rintro _ _ rfl
          exact hclosing
        · rintro _ _ rfl
          exact hclosing
      · next hpacket =>
        split
        · next hretryable =>
          refine ensures_bind.2 (ensures_modify.2 (ensures_bind.2 ((ensures_close _ _).imp ?_ ?_)))
          · rintro _ _ rfl
            have hrest : Ensures (attemptLoop E versions rest) closed
                (fun _ s' ↦ s'.Aligned ∧ s'.Drained) fun _ s' ↦ s'.Aligned ∧ s'.Drained :=
              ih hclosing.1 hclosing.2 (hnext f s' hrun hretryable)
            split
            · exact hclosing
            · exact hrest
          · rintro _ _ rfl
            exact hclosing
        · next hretryable =>
          exact ⟨haligned', hclosed.resolve_right fun h ↦ h.elim hpacket hretryable⟩

end

end RadSecClient

namespace RadSecState

open RadSecClient

variable {E : Env} {versions : List RadiusVersion} {s : RadSecState}

/-- **One call** keeps the stream aligned and leaves nothing unread. -/
theorem aligned_afterCall {c : Call} (haligned : s.Aligned) (hdrained : s.Drained)
    (hfit : FittingAttempts E versions ((List.range (max 1 c.retries).toNat).map c.attempt)
      { s with packet := c.packet, lastError := none }) :
    (s.afterCall E versions c).Aligned ∧ (s.afterCall E versions c).Drained := by
  have hsend : Ensures (sendPacket E versions c.retries c.attempt) { s with packet := c.packet }
      (fun _ s' ↦ s'.Aligned ∧ s'.Drained) fun _ s' ↦ s'.Aligned ∧ s'.Drained := by
    rw [sendPacket]
    exact ensures_bind.2 (ensures_modify.2 (ensures_attemptLoop haligned hdrained hfit))
  exact (ensures_iff_after (P := fun s' : RadSecState ↦ s'.Aligned ∧ s'.Drained)).1 hsend

theorem aligned_run {calls : List Call} (haligned : s.Aligned) (hdrained : s.Drained)
    (hfit : FittingCalls E versions calls s) : (s.run E versions calls).Aligned := by
  induction calls generalizing s with
  | nil => exact haligned
  | cons c calls ih =>
    obtain ⟨haligned', hdrained'⟩ := aligned_afterCall haligned hdrained hfit.1
    exact ih haligned' hdrained' hfit.2

/-- **The stream stays aligned** over every sequence of calls whose attempts are all fitting. -/
theorem aligned_of_fittingCalls (E : Env) (versions : List RadiusVersion) (p : PacketState)
    {calls : List Call} (hfit : FittingCalls E versions calls { packet := p }) :
    (run E versions { packet := p } calls).Aligned :=
  aligned_run (fun _ hmem ↦ (List.not_mem_nil hmem).elim) (drained_of_none rfl) hfit

/-- Digests of zeros. -/
def zeroEnv : Env := Env.ofByte (fun _ ↦ 0) fun _ _ ↦ 0

/-- An Access-Accept to `plainRequest`, if digests are zeros. -/
def plainResponse : Bytes := [2, 7, 0, 20] ++ List.replicate 16 0

/-- A call that reads the whole response. -/
def answeredCall : Call :=
  { packet := ⟨Packet.plainRequest, { rng := ⟨fun _ ↦ 0⟩ }⟩
    attempt := fun _ ↦ { response := plainResponse } }

/-- A call that is cancelled while it waits for the response. -/
def cancelledCall : Call :=
  { answeredCall with
    attempt := fun _ ↦ { response := plainResponse, fault := some (.header, .cancelled) } }

theorem aligned_of_fittingCalls_answeredCall :
    (run zeroEnv [.v1_0] { packet := answeredCall.packet } [answeredCall, answeredCall]).Aligned := by
  have hfits (s : RadSecState) : Fits zeroEnv [.v1_0] { response := plainResponse } s := by
    refine ⟨fun _ hcancelled ↦ ?_, fun _ _ _ ↦ ?_, fun _ _ hlong ↦ ?_⟩
    · cases hcancelled
    · decide
    · exact absurd hlong (by decide)
  have hattempts (n : ℕ) (s : RadSecState) :
      FittingAttempts zeroEnv [.v1_0] (List.replicate n { response := plainResponse }) s := by
    induction n generalizing s with
    | zero => trivial
    | succ n ih => exact ⟨hfits s, fun _ _ _ _ ↦ ih _⟩
  exact aligned_of_fittingCalls zeroEnv [.v1_0] answeredCall.packet
    ⟨hattempts 3 _, hattempts 3 _, trivial⟩

/-- The response to a cancelled call is still unread when the next request is written. -/
theorem not_aligned_cancelledCall :
    ¬ (run zeroEnv [.v1_0] { packet := answeredCall.packet }
      [cancelledCall, answeredCall]).Aligned := by
  intro h
  have hleftovers : (run zeroEnv [.v1_0] { packet := answeredCall.packet }
      [cancelledCall, answeredCall]).leftovers = [[], plainResponse] := by
    decide +kernel
  have hnil := h plainResponse (hleftovers ▸ List.mem_cons_of_mem _ List.mem_cons_self)
  cases hnil

end RadSecState

end Pyrad2
