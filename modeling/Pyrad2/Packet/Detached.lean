import Pyrad2.Packet.Alike
import Pyrad2.Packet.Arrival

/-!
# Methods that leave the process alone

Checking a received packet neither draws random numbers nor counts identifiers: what comes of it
depends on the packet alone, and the process is as before. There is one way around that, a dictionary
that declares the Message-Authenticator as salt-encrypted.
-/

namespace Pyrad2

open EStateM

namespace Packet

/-- Nothing is left to obfuscate, and the Message-Authenticator is not salt-encrypted. -/
structure Calm (p : Packet) : Prop where
  pending : p.deferredObfuscated.entries = []
  unsalted : ∀ D, p.dict = some D → Unsalted D "Message-Authenticator"

/-- On calm packets the method leaves the process as it is, and comes to the same in every process. -/
structure Detached {α : Type} (m : PacketMethod α) : Prop where
  run : ∀ p, Calm p → (∃ a q, Calm q ∧ ∀ w, m.run ⟨p, w⟩ = .ok a ⟨q, w⟩) ∨
    ∃ e q, Calm q ∧ ∀ w, m.run ⟨p, w⟩ = .error e ⟨q, w⟩

section

variable {α β : Type} {m : PacketMethod α} {f : α → PacketMethod β}

/-- One after the other. -/
theorem Detached.bind (hm : Detached m) (hf : ∀ a, Detached (f a)) : Detached (m >>= f) := by
  refine ⟨fun p hp ↦ ?_⟩
  rcases hm.run p hp with ⟨a, q, hq, hrun⟩ | ⟨e, q, hq, hrun⟩
  · rcases (hf a).run q hq with ⟨b, r, hr, hrest⟩ | ⟨e, r, hr, hrest⟩
    · exact .inl ⟨b, r, hr, fun w ↦ by rw [run_bind_of_ok (hrun w), hrest]⟩
    · exact .inr ⟨e, r, hr, fun w ↦ by rw [run_bind_of_ok (hrun w), hrest]⟩
  · exact .inr ⟨e, q, hq, fun w ↦ run_bind_of_error (hrun w)⟩

end

/-! ### The checks -/

section

variable (E : Env)

end

end Packet

end Pyrad2
