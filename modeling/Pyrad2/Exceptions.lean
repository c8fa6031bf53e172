import Mathlib.Data.Nat.Notation
import Pyrad2.Foundations.StateExcept

/-!
# Exceptions

The exceptions the library raises or lets through, one constructor for each class. Only two of
them, `PacketError` and `ServerPacketError`, are caught around the handling of a datagram, so which
class an expression raises is part of what the model records. Messages are kept where the library
writes one itself.
-/

namespace Pyrad2

/-- A raised exception, by class. -/
inductive Exn where
  /-- `PacketError`: the packet is invalid. -/
  | packetError (msg : String)
  /-- `ServerPacketError`: the server aborts processing of a packet. -/
  | serverPacketError (msg : String)
  /-- `ValueError`, and its subclass `binascii.Error`. -/
  | valueError (msg : String)
  /-- `struct.error`: a number does not fit its field. -/
  | structError
  | typeError (msg : String)
  | keyError
  | indexError
  | attributeError
  | assertionError
  /-- A bare `Exception`. -/
  | exception (msg : String)
  /-- `ParseError`: a line of a dictionary file is wrong. -/
  | parseError (msg file : String) (line : ℕ)
  /-- `IdentifierExhausted`: no identifier is free. -/
  | identifierExhausted (msg : String)
  /-- `Timeout`: a client received no reply. -/
  | timeout
  | timeoutError (msg : String)
  /-- `asyncio.InvalidStateError`: a future is completed already. -/
  | invalidStateError
  | overflowError
  /-- `OSError`: the system refuses an operation on a socket. -/
  | osError
  /-- Not an exception of the library: the computation never ends. -/
  | divergence
  deriving DecidableEq, Repr

namespace Exn

/-- Is this a `PacketError`? -/
def isPacketError : Exn → Bool
  | packetError _ => true
  | _ => false

/-- Is this one of the two exceptions the server loop drops a packet for? -/
def isDropped : Exn → Bool
  | packetError _ => true
  | serverPacketError _ => true
  | _ => false

theorem isDropped_of_isPacketError {e : Exn} (h : e.isPacketError = true) : e.isDropped = true := by
  cases e <;> first | rfl | cases h

end Exn

/-- A method of an object with state `σ`: it returns or raises, and in both cases leaves the object
in some state. -/
abbrev Method (σ α : Type) := EStateM Exn σ α

namespace Method

variable {σ α : Type}

/-- `try: … except Exception: …`, which does not end a computation that never ends. -/
def catchException (m handler : Method σ α) : Method σ α := fun s ↦
  match m.run s with
  | .ok a s' => .ok a s'
  | .error .divergence s' => .error .divergence s'
  | .error _ s' => handler.run s'

/-- The outcome of a call, for code that goes on after it; a call that never ends has none. -/
def attempt (m : Method σ α) : Method σ (Except Exn α) := fun s ↦
  match m.run s with
  | .ok a s' => .ok (.ok a) s'
  | .error .divergence s' => .error .divergence s'
  | .error e s' => .ok (.error e) s'

/-- `try: … finally: …`. A computation that never ends has no end to clean up at. -/
def tryFinally (m : Method σ α) (finalizer : Method σ Unit) : Method σ α := fun s ↦
  match m.run s with
  | .ok a s' => (do finalizer; return a : Method σ α).run s'
  | .error .divergence s' => .error .divergence s'
  | .error e s' => (do finalizer; throw e : Method σ α).run s'

theorem run_tryFinally_of_ok {m : Method σ α} {finalizer : Method σ Unit} {s s' : σ} {a : α}
    (h : m.run s = .ok a s') :
    (tryFinally m finalizer).run s = (do finalizer; return a : Method σ α).run s' := by
  change tryFinally m finalizer s = _
  rw [tryFinally, h]

theorem run_tryFinally_of_error {m : Method σ α} {finalizer : Method σ Unit} {s s' : σ} {e : Exn}
    (h : m.run s = .error e s') (he : e ≠ .divergence) :
    (tryFinally m finalizer).run s = (do finalizer; throw e : Method σ α).run s' := by
  change tryFinally m finalizer s = _
  rw [tryFinally, h]
  cases e <;> first | rfl | exact absurd rfl he

theorem run_tryFinally_of_divergence {m : Method σ α} {finalizer : Method σ Unit} {s s' : σ}
    (h : m.run s = .error .divergence s') :
    (tryFinally m finalizer).run s = .error .divergence s' := by
  change tryFinally m finalizer s = _
  rw [tryFinally, h]

/-- **A `finally` clause** comes after every result, except that of a computation that never ends. -/
theorem ensures_tryFinally {m : Method σ α} {finalizer : Method σ Unit} {s : σ}
    {Q : α → σ → Prop} {R : Exn → σ → Prop}
    (h : EStateM.Ensures m s (fun a s' ↦ EStateM.Ensures finalizer s' (fun _ ↦ Q a) R)
      fun e s' ↦ if e = .divergence then R e s'
        else EStateM.Ensures finalizer s' (fun _ ↦ R e) R) :
    EStateM.Ensures (tryFinally m finalizer) s Q R := by
  rcases hrun : m.run s with ⟨a, s'⟩ | ⟨e, s'⟩
  · have hclean : EStateM.Ensures (do finalizer; return a : Method σ α) s' Q R :=
      EStateM.ensures_bind.2 (h.of_run_eq_ok hrun)
    rwa [EStateM.Ensures, ← run_tryFinally_of_ok hrun] at hclean
  · have herror := h.of_run_eq_error hrun
    rcases eq_or_ne e .divergence with rfl | he
    · exact .of_error (run_tryFinally_of_divergence hrun) (by rwa [if_pos rfl] at herror)
    · rw [if_neg he] at herror
      have hclean : EStateM.Ensures (do finalizer; throw e : Method σ α) s' Q R :=
        EStateM.ensures_bind.2 herror
      rwa [EStateM.Ensures, ← run_tryFinally_of_error hrun he] at hclean

theorem run_attempt_of_ok {m : Method σ α} {s s' : σ} {a : α} (h : m.run s = .ok a s') :
    (attempt m).run s = .ok (.ok a) s' := by
  change attempt m s = _
  rw [attempt, h]

theorem run_attempt_of_error {m : Method σ α} {s s' : σ} {e : Exn} (h : m.run s = .error e s')
    (he : e ≠ .divergence) : (attempt m).run s = .ok (.error e) s' := by
  change attempt m s = _
  rw [attempt, h]
  cases e <;> first | rfl | exact absurd rfl he

theorem run_attempt_of_divergence {m : Method σ α} {s s' : σ}
    (h : m.run s = .error .divergence s') : (attempt m).run s = .error .divergence s' := by
  change attempt m s = _
  rw [attempt, h]

/-- Catching what a call raises changes nothing about the state it leaves. -/
theorem after_attempt (m : Method σ α) (s : σ) :
    EStateM.after (attempt m) s = EStateM.after m s := by
  rcases h : m.run s with ⟨a, s'⟩ | ⟨e, s'⟩
  · rw [EStateM.after_of_ok h, EStateM.after_of_ok (run_attempt_of_ok h)]
  · rw [EStateM.after_of_error h]
    rcases eq_or_ne e .divergence with rfl | he
    · exact EStateM.after_of_error (run_attempt_of_divergence h)
    · exact EStateM.after_of_ok (run_attempt_of_error h he)

theorem respects_attempt {R : σ → σ → Prop} {m : Method σ α} (hm : EStateM.Respects R m) :
    EStateM.Respects R (attempt m) := by
  intro s
  rw [after_attempt]
  exact hm s

theorem run_catchException_of_ok {m handler : Method σ α} {s s' : σ} {a : α}
    (h : m.run s = .ok a s') : (catchException m handler).run s = .ok a s' := by
  change catchException m handler s = _
  rw [catchException, h]

theorem run_catchException_of_error {m handler : Method σ α} {s s' : σ} {e : Exn}
    (h : m.run s = .error e s') (he : e ≠ .divergence) :
    (catchException m handler).run s = handler.run s' := by
  change catchException m handler s = _
  rw [catchException, h]
  cases e <;> first | rfl | exact absurd rfl he

theorem run_catchException_of_divergence {m handler : Method σ α} {s s' : σ}
    (h : m.run s = .error .divergence s') :
    (catchException m handler).run s = .error .divergence s' := by
  change catchException m handler s = _
  rw [catchException, h]

/-- What a guarded computation guarantees: its own result, or what the handler makes of the state
in which it raised. -/
theorem ensures_catchException {m handler : Method σ α} {s : σ} {Q : α → σ → Prop}
    {R : Exn → σ → Prop}
    (h : EStateM.Ensures m s Q fun e s' ↦ (e = .divergence → R e s') ∧
      (e ≠ .divergence → EStateM.Ensures handler s' Q R)) :
    EStateM.Ensures (catchException m handler) s Q R := by
  rw [EStateM.Ensures] at h
  rcases hm : m.run s with ⟨a, s'⟩ | ⟨e, s'⟩
  · rw [hm] at h
    exact .of_ok (run_catchException_of_ok hm) h
  · rw [hm] at h
    rcases eq_or_ne e .divergence with rfl | he
    · exact .of_error (run_catchException_of_divergence hm) (h.1 rfl)
    · rw [EStateM.Ensures, run_catchException_of_error hm he]
      exact h.2 he

/-- Swallowing what a call raises changes nothing about the state it leaves. -/
theorem after_catchException_pure (m : Method σ α) (a : α) (s : σ) :
    EStateM.after (catchException m (pure a)) s = EStateM.after m s := by
  rcases h : m.run s with ⟨b, s'⟩ | ⟨e, s'⟩
  · rw [EStateM.after_of_ok h, EStateM.after_of_ok (run_catchException_of_ok h)]
  · rw [EStateM.after_of_error h]
    rcases eq_or_ne e .divergence with rfl | he
    · exact EStateM.after_of_error (run_catchException_of_divergence h)
    · exact EStateM.after_of_ok (run_catchException_of_error h he)

theorem respects_catchException {R : σ → σ → Prop} [IsPreorder σ R] {m handler : Method σ α}
    (hm : EStateM.Respects R m) (hhandler : EStateM.Respects R handler) :
    EStateM.Respects R (catchException m handler) := by
  intro s
  have hs := hm s
  rcases h : m.run s with ⟨a, s'⟩ | ⟨e, s'⟩
  · rw [EStateM.after_of_ok h] at hs
    rwa [EStateM.after_of_ok (run_catchException_of_ok h)]
  · rw [EStateM.after_of_error h] at hs
    rcases eq_or_ne e .divergence with rfl | he
    · rwa [EStateM.after_of_error (run_catchException_of_divergence h)]
    · have hrun : (catchException m handler).run s = handler.run s' :=
        run_catchException_of_error h he
      rw [EStateM.after, hrun]
      exact trans_of R hs (hhandler s')

end Method

end Pyrad2
