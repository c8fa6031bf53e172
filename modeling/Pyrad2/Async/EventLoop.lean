import Pyrad2.Packet.Identifier

/-!
# Futures and packet objects

What the callbacks of one event loop share: the futures, the packet objects, and the process around
them. Packets are objects here, not values, because a pending request is serialized again for each
retransmission and the conversation it belongs to goes on with the same object.

The loop also keeps a record of what was transmitted and which futures were completed, in order; the
code does not read it.
-/

namespace Pyrad2

/-- The state of an `asyncio.Future`. -/
inductive FutureState where
  | pending
  | result (reply : Packet)
  | exception (e : Exn)
  | cancelled

/-- `not fut.done()` -/
def FutureState.isPending : FutureState → Bool
  | pending => true
  | _ => false

@[simp] theorem FutureState.isPending_pending : pending.isPending = true := rfl

@[simp] theorem FutureState.isPending_result (reply : Packet) :
    (result reply).isPending = false := rfl

@[simp] theorem FutureState.isPending_exception (e : Exn) : (exception e).isPending = false := rfl

/-- What happened on a transport, each time for the request with the given future. -/
inductive LoopRecord where
  /-- A datagram was put on the wire. -/
  | sent (future : ℕ) (raw : Bytes)
  /-- `request_packet()` or `sendto` raised. -/
  | failed (future : ℕ) (e : Exn)
  /-- The future was given a result or an exception. -/
  | completed (future : ℕ)

/-- Was a datagram of this request sent? -/
def LoopRecord.isSent (future : ℕ) : LoopRecord → Bool
  | sent f _ => f = future
  | _ => false

/-- Was this future completed? -/
def LoopRecord.isCompleted (future : ℕ) : LoopRecord → Bool
  | completed f => f = future
  | _ => false

/-- Did a transmission fail? -/
def LoopRecord.isFailed : LoopRecord → Bool
  | failed _ _ => true
  | _ => false

/-- What callbacks share. Futures and packets are numbered. -/
structure EventLoop where
  futures : ℕ → FutureState := fun _ ↦ .pending
  /-- How many futures were created. -/
  created : ℕ := 0
  packets : ℕ → Packet
  world : World
  trace : List LoopRecord := []

namespace EventLoop

variable (l : EventLoop)

/-- `loop.create_future()` -/
def createFuture : Method EventLoop ℕ := fun l ↦ .ok l.created { l with created := l.created + 1 }

def record (r : LoopRecord) : EventLoop := { l with trace := l.trace ++ [r] }

/-- The future, completed with an outcome. -/
def settle (future : ℕ) (outcome : FutureState) : EventLoop :=
  { l with
    futures := Function.update l.futures future outcome
    trace := l.trace ++ [.completed future] }

/-- `future.set_result(reply)`, or `future.set_exception(exc)`. -/
def complete (future : ℕ) (outcome : FutureState) : Except Exn EventLoop :=
  if (l.futures future).isPending then .ok (l.settle future outcome) else .error .invalidStateError

/-- `future.cancel()`, which does nothing to a future that is done. -/
def cancel (future : ℕ) : EventLoop :=
  if (l.futures future).isPending then
    { l with futures := Function.update l.futures future .cancelled }
  else l

/-- Call a method of a packet object. -/
def onPacket {α : Type} (packet : ℕ) (m : PacketMethod α) : Method EventLoop α :=
  EStateM.onPart (fun l ↦ ⟨l.packets packet, l.world⟩)
    (fun s l ↦ { l with packets := Function.update l.packets packet s.pkt, world := s.world }) m

/-- `packet.request_packet()` of a packet object. -/
def requestPacket (E : Env) (packet : ℕ) : Method EventLoop Bytes :=
  onPacket packet (Packet.requestPacket E)

/-- Run something that touches only the process. -/
def inWorld {α : Type} (m : Method World α) : Method EventLoop α :=
  EStateM.onPart (·.world) (fun world l ↦ { l with world }) m

/-- How many datagrams of the request were sent. -/
def sentCount (future : ℕ) : ℕ := l.trace.countP (LoopRecord.isSent future)

/-- How often the future was completed. -/
def completedCount (future : ℕ) : ℕ := l.trace.countP (LoopRecord.isCompleted future)

/-- Every `request_packet()` and every `sendto` returned. -/
def AllSent : Prop := ∀ r ∈ l.trace, r.isFailed = false

instance : Decidable l.AllSent := inferInstanceAs (Decidable (∀ r ∈ l.trace, r.isFailed = false))

/-- The loop after a packet object was serialized, with what is on record about it. -/
def transmitted (packet : ℕ) (p : Packet) (world : World) (r : LoopRecord) : EventLoop :=
  { l with packets := Function.update l.packets packet p, world, trace := l.trace ++ [r] }

/-! ### What the operations leave alone -/

section

variable {l} {future f : ℕ} {outcome : FutureState} {r : LoopRecord}

@[simp] theorem futures_settle_self : (l.settle future outcome).futures future = outcome :=
  Function.update_self ..

theorem futures_settle_ne (h : f ≠ future) :
    (l.settle future outcome).futures f = l.futures f :=
  Function.update_of_ne h ..

@[simp] theorem created_settle : (l.settle future outcome).created = l.created := rfl

@[simp] theorem packets_settle : (l.settle future outcome).packets = l.packets := rfl

@[simp] theorem sentCount_settle : (l.settle future outcome).sentCount f = l.sentCount f := by
  simp [sentCount, settle, LoopRecord.isSent]

theorem completedCount_settle :
    (l.settle future outcome).completedCount f =
      l.completedCount f + if f = future then 1 else 0 := by
  simp [completedCount, settle, LoopRecord.isCompleted, List.countP_singleton, eq_comm]

@[simp] theorem futures_record : (l.record r).futures = l.futures := rfl

@[simp] theorem packets_record : (l.record r).packets = l.packets := rfl

theorem AllSent.of_append {l' : EventLoop} (h : l'.AllSent) {new : List LoopRecord}
    (htrace : l'.trace = l.trace ++ new) : l.AllSent := fun r hr ↦
  h r (by rw [htrace]; exact List.mem_append_left _ hr)

end

section

variable {l} {packet f : ℕ} {p : Packet} {world : World} {r : LoopRecord}

@[simp] theorem futures_transmitted : (l.transmitted packet p world r).futures = l.futures := rfl

@[simp] theorem created_transmitted : (l.transmitted packet p world r).created = l.created := rfl

theorem packets_transmitted :
    (l.transmitted packet p world r).packets = Function.update l.packets packet p := rfl

/-- Serializing a packet object changes the identifier of none that keeps its own. -/
theorem id_transmitted (h : p.id = (l.packets packet).id) (q : ℕ) :
    ((l.transmitted packet p world r).packets q).id = (l.packets q).id := by
  rcases eq_or_ne q packet with rfl | hne
  · rw [packets_transmitted, Function.update_self, h]
  · rw [packets_transmitted, Function.update_of_ne hne]

theorem sentCount_transmitted {future : ℕ} {raw : Bytes} :
    (l.transmitted packet p world (.sent future raw)).sentCount f =
      l.sentCount f + if f = future then 1 else 0 := by
  simp [sentCount, transmitted, LoopRecord.isSent, List.countP_singleton, eq_comm]

@[simp] theorem completedCount_transmitted {future : ℕ} {raw : Bytes} :
    (l.transmitted packet p world (.sent future raw)).completedCount f = l.completedCount f := by
  simp [completedCount, transmitted, LoopRecord.isCompleted]

theorem not_allSent_transmitted_failed {future : ℕ} {e : Exn} :
    ¬ (l.transmitted packet p world (.failed future e)).AllSent := fun h ↦ by
  have hfailed := h (.failed future e) (by simp [transmitted])
  cases hfailed

end

/-- **Serializing a packet object** changes that object and the process, and keeps its identifier. -/
theorem run_requestPacket (E : Env) (packet : ℕ) (l : EventLoop) :
    ∃ p world, ((l.packets packet).id.isSome → p.id = (l.packets packet).id) ∧
      ((∃ raw, (Packet.requestPacket E).run ⟨l.packets packet, l.world⟩ = .ok raw ⟨p, world⟩ ∧
          (requestPacket E packet).run l =
            .ok raw { l with packets := Function.update l.packets packet p, world }) ∨
        ∃ e, (Packet.requestPacket E).run ⟨l.packets packet, l.world⟩ = .error e ⟨p, world⟩ ∧
          (requestPacket E packet).run l =
            .error e { l with packets := Function.update l.packets packet p, world }) := by
  have hkeeps := Packet.keepsId_requestPacket E ⟨l.packets packet, l.world⟩
  rw [requestPacket, onPacket, EStateM.run_onPart]
  rcases hrun : (Packet.requestPacket E).run ⟨l.packets packet, l.world⟩ with
    ⟨raw, p, world⟩ | ⟨e, p, world⟩
  · rw [EStateM.after_of_ok hrun] at hkeeps
    exact ⟨p, world, hkeeps, .inl ⟨raw, rfl, rfl⟩⟩
  · rw [EStateM.after_of_error hrun] at hkeeps
    exact ⟨p, world, hkeeps, .inr ⟨e, rfl, rfl⟩⟩

end EventLoop

end Pyrad2
