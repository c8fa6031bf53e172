import Mathlib.Algebra.BigOperators.Group.List.Basic
import Mathlib.Algebra.GroupWithZero.Nat
import Pyrad2.Foundations.StateExcept

/-!
# Fallible computations of known length

When a computation of a list succeeds, and how long the list is.

An encoder fails where a number does not fit its field, and an outer length field depends on how
long the inner encoding is. `Sized x P n` keeps the two facts together: `x` succeeds exactly if `P`
holds, and then with `n` elements. Its rules follow the syntax of the computation, so that the
condition of an encoder is read off its definition.
-/

namespace Except

universe u

/-- The computation returns. -/
def Succeeds {ε α : Type u} (x : Except ε α) : Prop := ∃ a, x = .ok a

variable {ε α β : Type u} {x y : Except ε (List α)} {P Q : Prop} {n m : ℕ}

theorem not_succeeds_error (e : ε) : ¬ Succeeds (.error e : Except ε α) := by
  rintro ⟨a, h⟩
  cases h

theorem succeeds_ok (a : α) : Succeeds (.ok a : Except ε α) := ⟨a, rfl⟩

/-- Where it does not matter what the first part returns, both parts have to succeed. -/
theorem succeeds_bind_iff {x : Except ε α} {f : α → Except ε β} (h : ∀ a, Succeeds (f a) ↔ Q) :
    Succeeds (x >>= f) ↔ Succeeds x ∧ Q := by
  rcases x with e | a
  · exact iff_of_false (not_succeeds_error e) fun hQ ↦ not_succeeds_error e hQ.1
  · rw [bind_of_ok, h a]
    exact ⟨fun hQ ↦ ⟨succeeds_ok a, hQ⟩, And.right⟩

/-- Appending to the result, or flattening it, raises nothing. -/
theorem succeeds_bind_ok_iff {x : Except ε α} {f : α → β} :
    Succeeds (x >>= fun a ↦ .ok (f a)) ↔ Succeeds x := by
  rcases x with e | a
  · exact iff_of_false (not_succeeds_error e) (not_succeeds_error e)
  · exact iff_of_true (succeeds_ok _) (succeeds_ok a)

/-- The results for all elements, one after the other, are there if each one is. -/
theorem succeeds_flatten_mapM_iff {l : List β} {f : β → Except ε (List α)} :
    Succeeds (do return (← l.mapM f).flatten) ↔ ∀ b ∈ l, Succeeds (f b) :=
  succeeds_bind_ok_iff.trans exists_mapM_eq_ok_iff

/-- The computation succeeds exactly if `P`, and then with `n` elements. -/
structure Sized (x : Except ε (List α)) (P : Prop) (n : ℕ) : Prop where
  exists_ok : P → ∃ l, x = .ok l ∧ l.length = n
  of_ok : ∀ l, x = .ok l → P

namespace Sized

theorem succeeds_iff (h : Sized x P n) : Succeeds x ↔ P := by
  constructor
  · rintro ⟨l, hl⟩
    exact h.of_ok l hl
  · intro hP
    obtain ⟨l, hl, -⟩ := h.exists_ok hP
    exact ⟨l, hl⟩

theorem length_eq (h : Sized x P n) {l : List α} (hl : x = .ok l) : l.length = n := by
  obtain ⟨l', hl', hlength⟩ := h.exists_ok (h.of_ok l hl)
  rw [hl] at hl'
  cases hl'
  exact hlength

/-- The condition may be stated in another way, and the length where the condition holds. -/
theorem congr (h : Sized x P n) (hP : P ↔ Q) (hn : Q → n = m) : Sized x Q m where
  exists_ok hQ := by
    obtain ⟨l, hl, hlength⟩ := h.exists_ok (hP.2 hQ)
    exact ⟨l, hl, hlength.trans (hn hQ)⟩
  of_ok l hl := hP.1 (h.of_ok l hl)

/-- **Sequencing.** The second part need only be known for the lists the first one returns. -/
theorem bind {f : List α → Except ε (List β)} (h : Sized x P n)
    (hf : ∀ l, l.length = n → Sized (f l) Q m) : Sized (x >>= f) (P ∧ Q) m where
  exists_ok hPQ := by
    obtain ⟨l, hl, hlength⟩ := h.exists_ok hPQ.1
    rw [hl]
    exact (hf l hlength).exists_ok hPQ.2
  of_ok l hl := by
    obtain ⟨l', hl', hrest⟩ := bind_eq_ok_iff.1 hl
    exact ⟨h.of_ok l' hl', (hf l' (h.length_eq hl')).of_ok l hrest⟩

/-- A list put in front of a result. -/
theorem bind_append (h : Sized x P n) (h' : Sized y Q m) :
    Sized (do
      let l ← x
      let l' ← y
      return l ++ l') (P ∧ Q) (n + m) := by
  refine h.bind fun l hl ↦ ?_
  refine (h'.bind (Q := True) (m := n + m) fun l' hl' ↦ ⟨fun _ ↦ ⟨l ++ l', rfl, ?_⟩,
    fun _ _ ↦ trivial⟩).congr (by rw [and_true]) fun _ ↦ rfl
  rw [List.length_append, hl, hl']

end Sized

theorem sized_ok (l : List α) : Sized (.ok l : Except ε (List α)) True l.length :=
  ⟨fun _ ↦ ⟨l, rfl, rfl⟩, fun _ _ ↦ trivial⟩

theorem sized_error (e : ε) (n : ℕ) : Sized (.error e : Except ε (List α)) False n :=
  ⟨fun h ↦ h.elim, fun _ h ↦ by cases h⟩

/-- A check before the rest. -/
theorem sized_ite {c : Prop} [Decidable c] (h : Sized x P n) (e : ε) :
    Sized (if c then .error e else x) (¬ c ∧ P) n := by
  split
  · next hc => exact (sized_error e n).congr (by simp [hc]) fun _ ↦ rfl
  · next hc => exact h.congr (by simp [hc]) fun _ ↦ rfl

/-- **Iteration.** The results for all elements, one after the other. -/
theorem sized_mapM {l : List β} {f : β → Except ε (List α)} {P : β → Prop} {n : β → ℕ}
    (h : ∀ b ∈ l, Sized (f b) (P b) (n b)) :
    Sized (do return (← l.mapM f).flatten) (∀ b ∈ l, P b) (l.map n).sum := by
  induction l with
  | nil => exact ⟨fun _ ↦ ⟨[], rfl, rfl⟩, fun _ _ b hb ↦ (List.not_mem_nil hb).elim⟩
  | cons b l ih =>
    have hl := ih fun b' hb' ↦ h b' (List.mem_cons_of_mem b hb')
    have hcons : (do return (← (b :: l).mapM f).flatten) = (do
        let first ← f b
        let rest ← (do return (← l.mapM f).flatten)
        return first ++ rest) := by
      rw [List.mapM_cons]
      rcases f b with e | first
      · rfl
      · rcases l.mapM f with e | rest <;> rfl
    rw [hcons]
    exact ((h b List.mem_cons_self).bind_append hl).congr (by rw [List.forall_mem_cons]) fun _ ↦ rfl

/-- The lengths of the results. -/
theorem map_length_of_mapM {l : List β} {f : β → Except ε (List α)} {P : β → Prop} {n : β → ℕ}
    (h : ∀ b, Sized (f b) (P b) (n b)) {results : List (List α)} (hl : l.mapM f = .ok results) :
    results.map List.length = l.map n := by
  induction l generalizing results with
  | nil =>
    cases hl
    rfl
  | cons b l ih =>
    rw [List.mapM_cons] at hl
    obtain ⟨first, hfirst, hrest⟩ := bind_eq_ok_iff.1 hl
    obtain ⟨rest, hmapM, heq⟩ := bind_eq_ok_iff.1 hrest
    cases heq
    rw [List.map_cons, List.map_cons, ih hmapM, (h b).length_eq hfirst]

end Except
