import Mathlib.Data.Set.Lattice
import Mathlib.Order.CompletePartialOrder
import Pyrad2.Foundations.StateExcept

/-!
# What a computation touches

A state seen as a family of cells, and computations that read and write some of the cells only.

Two computations that touch different cells can be run in either order: if one order returns, so
does the other one, and they leave the same in every cell.
-/

namespace EStateM

variable {ε σ α β ι : Type} {C : ι → Type} {cell : σ → (i : ι) → C i}

/-- What a run returns or raises. -/
def outcome (m : EStateM ε σ α) (s : σ) : Except ε α :=
  match m.run s with
  | .ok a _ => .ok a
  | .error e _ => .error e

theorem outcome_of_ok {m : EStateM ε σ α} {s s' : σ} {a : α} (h : m.run s = .ok a s') :
    outcome m s = .ok a := by
  rw [outcome, h]

theorem outcome_of_error {m : EStateM ε σ α} {s s' : σ} {e : ε} (h : m.run s = .error e s') :
    outcome m s = .error e := by
  rw [outcome, h]

theorem run_eq_error_of_outcome {m : EStateM ε σ α} {s : σ} {e : ε} (h : outcome m s = .error e) :
    m.run s = .error e (after m s) := by
  rw [outcome] at h
  rcases hrun : m.run s with ⟨b, s'⟩ | ⟨e', s'⟩
  · rw [hrun] at h
    cases h
  · rw [hrun] at h
    cases h
    rw [after_of_error hrun]

/-- The two states have the same in these cells. -/
def SameOn (cell : σ → (i : ι) → C i) (Z : Set ι) (s t : σ) : Prop := ∀ i ∈ Z, cell s i = cell t i

/-- A computation that reads and writes these cells only. -/
structure Within (cell : σ → (i : ι) → C i) (Z : Set ι) (m : EStateM ε σ α) : Prop where
  outcome_eq : ∀ s t, SameOn cell Z s t → outcome m s = outcome m t
  sameOn : ∀ s t, SameOn cell Z s t → SameOn cell Z (after m s) (after m t)
  frame : ∀ s, ∀ i ∉ Z, cell (after m s) i = cell s i

section

variable {Z Z' : Set ι} {m : EStateM ε σ α} {f : α → EStateM ε σ β}

theorem SameOn.mono {s t : σ} (h : SameOn cell Z s t) (hle : Z' ⊆ Z) : SameOn cell Z' s t :=
  fun i hi ↦ h i (hle hi)

theorem Within.mono (h : Within cell Z m) (hle : Z ⊆ Z') : Within cell Z' m where
  outcome_eq := fun s t hst ↦ h.outcome_eq s t (hst.mono hle)
  sameOn := by
    intro s t hst i hi
    by_cases hZ : i ∈ Z
    · exact h.sameOn s t (hst.mono hle) i hZ
    · rw [h.frame s i hZ, h.frame t i hZ]
      exact hst i hi
  frame := fun s i hi ↦ h.frame s i fun hZ ↦ hi (hle hZ)

theorem within_liftM (x : Except ε α) : Within cell Z (liftM x : EStateM ε σ α) := by
  rcases x with e | a
  · exact ⟨fun _ _ _ ↦ rfl, fun _ _ hst ↦ hst, fun _ _ _ ↦ rfl⟩
  · exact ⟨fun _ _ _ ↦ rfl, fun _ _ hst ↦ hst, fun _ _ _ ↦ rfl⟩

theorem within_pure (a : α) : Within cell Z (pure a : EStateM ε σ α) := within_liftM (.ok a)

theorem within_throw (e : ε) : Within cell Z (throw e : EStateM ε σ α) := within_liftM (.error e)

/-- A change of the state that computes what it writes in these cells from these cells. -/
theorem within_modify {g : σ → σ} (hsame : ∀ s t, SameOn cell Z s t → SameOn cell Z (g s) (g t))
    (hframe : ∀ s, ∀ i ∉ Z, cell (g s) i = cell s i) :
    Within cell Z (modify g : EStateM ε σ PUnit) :=
  ⟨fun _ _ _ ↦ rfl, hsame, hframe⟩

/-- A change of every cell by itself that leaves other cells alone. -/
theorem within_modify_cellwise {g : σ → σ} (F : (i : ι) → C i → C i)
    (hcell : ∀ s i, cell (g s) i = F i (cell s i)) (hother : ∀ i ∉ Z, ∀ x, F i x = x) :
    Within cell Z (modify g : EStateM ε σ PUnit) := by
  refine within_modify (fun s t hst i hi ↦ ?_) fun s i hi ↦ ?_
  · rw [hcell, hcell, hst i hi]
  · rw [hcell, hother i hi]

/-- A computed change of the state that goes by these cells. -/
theorem within_modifyM {g : σ → Except ε σ}
    (hsame : ∀ s t, SameOn cell Z s t → (∃ e, g s = .error e ∧ g t = .error e) ∨
      ∃ s' t', g s = .ok s' ∧ g t = .ok t' ∧ SameOn cell Z s' t')
    (hframe : ∀ s s', g s = .ok s' → ∀ i ∉ Z, cell s' i = cell s i) :
    Within cell Z (modifyM g) := by
  have hok {s s' : σ} (h : g s = .ok s') : (modifyM g).run s = .ok ⟨⟩ s' := by
    rw [run_modifyM, h]
  have herror {s : σ} {e : ε} (h : g s = .error e) : (modifyM g).run s = .error e s := by
    rw [run_modifyM, h]
  refine ⟨fun s t hst ↦ ?_, fun s t hst ↦ ?_, fun s i hi ↦ ?_⟩
  · rcases hsame s t hst with ⟨e, hs, ht⟩ | ⟨s', t', hs, ht, -⟩
    · rw [outcome_of_error (herror hs), outcome_of_error (herror ht)]
    · rw [outcome_of_ok (hok hs), outcome_of_ok (hok ht)]
  · rcases hsame s t hst with ⟨e, hs, ht⟩ | ⟨s', t', hs, ht, hst'⟩
    · rwa [after_of_error (herror hs), after_of_error (herror ht)]
    · rwa [after_of_ok (hok hs), after_of_ok (hok ht)]
  · rcases hs : g s with e | s'
    · rw [after_of_error (herror hs)]
    · rw [after_of_ok (hok hs)]
      exact hframe s s' hs i hi

/-- A computation on a part of the state that these cells determine, and that nothing else
holds. -/
theorem within_onPart {τ : Type} {part : σ → τ} {put : τ → σ → σ} (m : EStateM ε τ α)
    (hpart : ∀ s t, SameOn cell Z s t → part s = part t)
    (hput : ∀ x s t, SameOn cell Z s t → SameOn cell Z (put x s) (put x t))
    (hframe : ∀ x s, ∀ i ∉ Z, cell (put x s) i = cell s i) :
    Within cell Z (onPart part put m) := by
  refine ⟨fun s t hst ↦ ?_, fun s t hst ↦ ?_, fun s i hi ↦ ?_⟩
  · rw [outcome, outcome, run_onPart, run_onPart, hpart s t hst]
    rcases m.run (part t) with ⟨a, x⟩ | ⟨e, x⟩
    · rfl
    · rfl
  · rw [after_onPart, after_onPart, hpart s t hst]
    exact hput _ s t hst
  · rw [after_onPart]
    exact hframe _ s i hi

/-- **One after the other**, where the first one returns nothing but what `P` says. -/
theorem Within.bind_of {P : α → Prop} (hm : Within cell Z m)
    (hP : ∀ s a s', m.run s = .ok a s' → P a) (hf : ∀ a, P a → Within cell Z (f a)) :
    Within cell Z (m >>= f) := by
  have hbind (s : σ) : (∃ a, P a ∧ outcome m s = .ok a ∧
      outcome (m >>= f) s = outcome (f a) (after m s) ∧
      after (m >>= f) s = after (f a) (after m s)) ∨
      ∃ e, outcome m s = .error e ∧ outcome (m >>= f) s = .error e ∧
        after (m >>= f) s = after m s := by
    rcases hrun : m.run s with ⟨a, s'⟩ | ⟨e, s'⟩
    · refine .inl ⟨a, hP s a s' hrun, outcome_of_ok hrun, ?_, ?_⟩
      · rw [outcome, run_bind_of_ok hrun, after_of_ok hrun, outcome]
      · rw [after_bind_of_ok hrun, after_of_ok hrun]
    · refine .inr ⟨e, outcome_of_error hrun, outcome_of_error (run_bind_of_error hrun), ?_⟩
      rw [after_of_error (run_bind_of_error hrun), after_of_error hrun]
  -- from states with the same in these cells, both runs take the same way
  have hboth {s t : σ} (hst : SameOn cell Z s t) : (∃ a, P a ∧
      (outcome (m >>= f) s = outcome (f a) (after m s) ∧
        outcome (m >>= f) t = outcome (f a) (after m t)) ∧
      after (m >>= f) s = after (f a) (after m s) ∧ after (m >>= f) t = after (f a) (after m t)) ∨
      ∃ e, (outcome (m >>= f) s = .error e ∧ outcome (m >>= f) t = .error e) ∧
        after (m >>= f) s = after m s ∧ after (m >>= f) t = after m t := by
    have hout := hm.outcome_eq s t hst
    rcases hbind s with ⟨a, hPa, ha, hs⟩ | ⟨e, he, hs⟩
    · rcases hbind t with ⟨b, -, hb, ht⟩ | ⟨e, he, -⟩
      · rw [ha, hb] at hout
        cases hout
        exact .inl ⟨a, hPa, ⟨hs.1, ht.1⟩, hs.2, ht.2⟩
      · rw [ha, he] at hout
        cases hout
    · rcases hbind t with ⟨b, -, hb, -⟩ | ⟨e', he', ht⟩
      · rw [he, hb] at hout
        cases hout
      · rw [he, he'] at hout
        cases hout
        exact .inr ⟨e, ⟨hs.1, ht.1⟩, hs.2, ht.2⟩
  refine ⟨fun s t hst ↦ ?_, fun s t hst ↦ ?_, fun s i hi ↦ ?_⟩
  · rcases hboth hst with ⟨a, hPa, ⟨hs, ht⟩, -⟩ | ⟨e, ⟨hs, ht⟩, -⟩
    · rw [hs, ht]
      exact (hf a hPa).outcome_eq _ _ (hm.sameOn s t hst)
    · rw [hs, ht]
  · rcases hboth hst with ⟨a, hPa, -, hs, ht⟩ | ⟨e, -, hs, ht⟩
    · rw [hs, ht]
      exact (hf a hPa).sameOn _ _ (hm.sameOn s t hst)
    · rw [hs, ht]
      exact hm.sameOn s t hst
  · rcases hbind s with ⟨a, hPa, -, -, hs⟩ | ⟨e, -, -, hs⟩
    · rw [hs, (hf a hPa).frame _ i hi, hm.frame s i hi]
    · rw [hs, hm.frame s i hi]

theorem Within.bind (hm : Within cell Z m) (hf : ∀ a, Within cell Z (f a)) :
    Within cell Z (m >>= f) :=
  hm.bind_of (fun _ _ _ _ ↦ trivial) fun a _ ↦ hf a

/-- A computation that goes by what it finds in these cells. -/
theorem within_get_bind {f : σ → EStateM ε σ β}
    (hcongr : ∀ s t, SameOn cell Z s t → f s = f t) (hf : ∀ s, Within cell Z (f s)) :
    Within cell Z ((get : EStateM ε σ σ) >>= f) := by
  refine ⟨fun s t hst ↦ ?_, fun s t hst ↦ ?_, fun s i hi ↦ (hf s).frame s i hi⟩
  · have hout := (hf s).outcome_eq s t hst
    change outcome (f s) s = outcome (f t) t
    rw [← hcongr s t hst]
    exact hout
  · have hsame := (hf s).sameOn s t hst
    change SameOn cell Z (after (f s) s) (after (f t) t)
    rw [← hcongr s t hst]
    exact hsame

theorem within_forM {l : List α} {g : α → EStateM ε σ PUnit} (h : ∀ a ∈ l, Within cell Z (g a)) :
    Within cell Z (l.forM g) := by
  induction l with
  | nil => exact within_pure _
  | cons a l ih => exact (h a (by simp)).bind fun _ ↦ ih fun b hb ↦ h b (by simp [hb])

end

end EStateM
