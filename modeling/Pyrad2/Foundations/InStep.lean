import Mathlib.Data.List.Forall2
import Pyrad2.Foundations.Lockstep

/-!
# Fallible computations in step

Two fallible computations are in step if both return, and what they return is related, or both raise
the same. For the relation of equal lengths this says that a fallible encoder sees no more of its
input than how long the parts of it are.

Computations with a state are in step as `Lockstep` has it; the rules of iteration for related values
are here.
-/

namespace Except

variable {ε α β γ δ ι κ : Type}

/-- Both return related values, or both raise the same. -/
inductive InStep (Q : α → β → Prop) : Except ε α → Except ε β → Prop
  | ok {a b} (h : Q a b) : InStep Q (.ok a) (.ok b)
  | error (e) : InStep Q (.error e) (.error e)

variable {Q : α → β → Prop} {R : γ → δ → Prop} {x : Except ε α} {y : Except ε β}

theorem InStep.refl {Q : α → α → Prop} (hQ : ∀ a, Q a a) (x : Except ε α) : InStep Q x x := by
  rcases x with e | a
  · exact .error e
  · exact .ok (hQ a)

theorem InStep.symm {Q : α → α → Prop} (hQ : ∀ a b, Q a b → Q b a) {y : Except ε α}
    (h : InStep Q x y) : InStep Q y x := by
  rcases h with h | e
  · exact .ok (hQ _ _ h)
  · exact .error e

theorem InStep.trans {Q : α → α → Prop} (hQ : ∀ a b c, Q a b → Q b c → Q a c)
    {y z : Except ε α} (h : InStep Q x y) (h' : InStep Q y z) : InStep Q x z := by
  rcases h with h | e
  · rcases h' with h' | -
    exact .ok (hQ _ _ _ h h')
  · exact h'

theorem InStep.mono {Q' : α → β → Prop} (h : InStep Q x y) (hQ : ∀ a b, Q a b → Q' a b) :
    InStep Q' x y := by
  rcases h with h | e
  · exact .ok (hQ _ _ h)
  · exact .error e

/-- Results that a function makes equal. -/
theorem inStep_of_map_eq {y : Except ε β} {f : α → γ} {g : β → γ} (h : x.map f = y.map g) :
    InStep (fun a b ↦ f a = g b) x y := by
  rcases x with e | a
  · rcases y with e' | b
    · cases h
      exact .error e
    · cases h
  · rcases y with e' | b
    · cases h
    · exact .ok (Except.ok.inj h)

theorem InStep.bind {f : α → Except ε γ} {g : β → Except ε δ} (h : InStep Q x y)
    (hf : ∀ a b, Q a b → InStep R (f a) (g b)) : InStep R (x >>= f) (y >>= g) := by
  rcases h with h | e
  · exact hf _ _ h
  · exact .error e

/-- The same first part. -/
theorem inStep_bind {f : α → Except ε γ} {g : α → Except ε δ} (x : Except ε α)
    (hf : ∀ a, InStep R (f a) (g a)) : InStep R (x >>= f) (x >>= g) := by
  rcases x with e | a
  · exact .error e
  · exact hf a

theorem inStep_mapM {f : ι → Except ε α} {g : κ → Except ε β} {l : List ι} {k : List κ}
    (h : List.Forall₂ (fun i j ↦ InStep Q (f i) (g j)) l k) :
    InStep (List.Forall₂ Q) (l.mapM f) (k.mapM g) := by
  induction h with
  | nil => exact .ok .nil
  | cons hij _ ih =>
    rw [List.mapM_cons, List.mapM_cons]
    exact hij.bind fun a b hab ↦ ih.bind fun as bs hall ↦ .ok (.cons hab hall)

/-- The elements of one list, and what a function makes of them. -/
theorem inStep_mapM_map {f : ι → Except ε α} {g : κ → Except ε β} (k : ι → κ) {l : List ι}
    (h : ∀ i ∈ l, InStep Q (f i) (g (k i))) :
    InStep (List.Forall₂ Q) (l.mapM f) ((l.map k).mapM g) :=
  inStep_mapM (List.forall₂_map_right_iff.2 (List.forall₂_same.2 h))

theorem InStep.succeeds_iff (h : InStep Q x y) : (∃ a, x = .ok a) ↔ ∃ b, y = .ok b := by
  rcases h with h | e
  · exact iff_of_true ⟨_, rfl⟩ ⟨_, rfl⟩
  · exact iff_of_false (fun ⟨_, h⟩ ↦ by cases h) fun ⟨_, h⟩ ↦ by cases h

theorem InStep.of_ok {a : α} (h : InStep Q x y) (hx : x = .ok a) : ∃ b, y = .ok b ∧ Q a b := by
  rcases h with h | e
  · cases hx
    exact ⟨_, rfl, h⟩
  · cases hx

/-- Lists that are made equal element by element. -/
theorem map_eq_map_iff_forall₂ {f : α → γ} {g : β → γ} {l : List α} {k : List β} :
    l.map f = k.map g ↔ List.Forall₂ (fun a b ↦ f a = g b) l k := by
  rw [← List.forall₂_eq_eq_eq, List.forall₂_map_left_iff, List.forall₂_map_right_iff]

/-! ### Lengths -/

/-- Both return lists of one length, or both raise the same. -/
abbrev SameLength (x : Except ε (List α)) (y : Except ε (List β)) : Prop :=
  InStep (fun a b ↦ a.length = b.length) x y

theorem SameLength.refl (x : Except ε (List α)) : SameLength x x :=
  InStep.refl (fun a ↦ (rfl : a.length = a.length)) x

theorem length_flatten_eq {l : List (List α)} {k : List (List β)}
    (h : List.Forall₂ (fun a b ↦ a.length = b.length) l k) :
    l.flatten.length = k.flatten.length := by
  induction h with
  | nil => rfl
  | cons hab _ ih => rw [List.flatten_cons, List.flatten_cons, List.length_append,
      List.length_append, hab, ih]

/-- The results for all elements, one after the other. -/
theorem sameLength_flatten {x : Except ε (List (List α))} {y : Except ε (List (List β))}
    (h : InStep (List.Forall₂ fun a b ↦ a.length = b.length) x y) :
    SameLength (do return (← x).flatten) (do return (← y).flatten) :=
  h.bind fun _ _ hall ↦ .ok (length_flatten_eq hall)

end Except

namespace EStateM

open Except

variable {ε σ τ α β ι κ : Type} {R : σ → τ → Prop} {Q : α → β → Prop}

theorem lockstep_liftM_of_inStep {x : Except ε α} {y : Except ε β} (h : InStep Q x y) :
    Lockstep R Q (liftM x : EStateM ε σ α) (liftM y : EStateM ε τ β) := by
  rcases h with h | e
  · exact lockstep_pure h
  · exact lockstep_throw e

theorem lockstep_mapM_of {f : ι → EStateM ε σ α} {g : κ → EStateM ε τ β} {l : List ι} {k : List κ}
    (h : List.Forall₂ (fun i j ↦ Lockstep R Q (f i) (g j)) l k) :
    Lockstep R (List.Forall₂ Q) (l.mapM f) (k.mapM g) := by
  induction h with
  | nil => exact lockstep_pure .nil
  | cons hij _ ih =>
    rw [List.mapM_cons, List.mapM_cons]
    exact hij.bind fun a b hab ↦ ih.bind fun as bs hall ↦ lockstep_pure (.cons hab hall)

/-- An accumulator that stays related. -/
theorem lockstep_foldlM_of {f : α → ι → EStateM ε σ α} {g : β → ι → EStateM ε τ β} {l : List ι}
    (h : ∀ a b, Q a b → ∀ i ∈ l, Lockstep R Q (f a i) (g b i)) {a : α} {b : β} (hab : Q a b) :
    Lockstep R Q (l.foldlM f a) (l.foldlM g b) := by
  induction l generalizing a b with
  | nil => exact lockstep_pure hab
  | cons i l ih =>
    rw [List.foldlM_cons, List.foldlM_cons]
    exact (h a b hab i List.mem_cons_self).bind fun a' b' hab' ↦
      ih (fun a b hab j hj ↦ h a b hab j (List.mem_cons_of_mem i hj)) hab'

end EStateM
