import Pyrad2.Foundations.Lockstep

/-!
# Noise

A sequence of events with noise put in, and runs that the noise does not disturb.

Whatever relates two runs step by step relates a run to one that meets noise as well, as long as the
noise alone keeps the runs related.
-/

/-- The second list is the first one with noise put in. -/
inductive Noisy {α : Type*} (N : α → Prop) : List α → List α → Prop
  | nil : Noisy N [] []
  | cons (a : α) {l l' : List α} (h : Noisy N l l') : Noisy N (a :: l) (a :: l')
  | noise {a : α} (ha : N a) {l l' : List α} (h : Noisy N l l') : Noisy N l (a :: l')

section

variable {α σ τ : Type*} {N : α → Prop} {R : σ → τ → Prop} {l l' : List α}

/-- **A run through noise** stays related to the one without. -/
theorem Noisy.foldl {P : α → Prop} {f : σ → α → σ} {g : τ → α → τ} (h : Noisy N l l')
    (hstep : ∀ a s t, P a → R s t → R (f s a) (g t a)) (hnoise : ∀ a s t, N a → R s t → R s (g t a))
    (hl : ∀ a ∈ l, P a) {s : σ} {t : τ} (hst : R s t) : R (l.foldl f s) (l'.foldl g t) := by
  induction h generalizing s t with
  | nil => exact hst
  | cons a _ ih =>
    rw [List.forall_mem_cons] at hl
    exact ih hl.2 (hstep a s t hl.1 hst)
  | noise ha _ ih => exact ih hl (hnoise _ s t ha hst)

end

namespace EStateM

variable {α ε σ τ : Type} {N : α → Prop} {R : σ → τ → Prop} {l l' : List α}

end EStateM
