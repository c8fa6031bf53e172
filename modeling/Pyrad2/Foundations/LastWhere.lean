import Mathlib.Data.List.Induction

/-!
# The last element that matches

A log that only grows is read from its end: what counts is the last entry that matches.
-/

namespace List

variable {α : Type*} {p : α → Bool} {l : List α} {a : α}

/-- The last element for which `p` holds. -/
def lastWhere (p : α → Bool) (l : List α) : Option α := (l.filter p).getLast?

@[simp] theorem lastWhere_nil (p : α → Bool) : lastWhere p [] = none := rfl

/-- A new entry comes before all older ones. -/
theorem lastWhere_append_singleton (p : α → Bool) (l : List α) (a : α) :
    lastWhere p (l ++ [a]) = if p a then some a else lastWhere p l := by
  rw [lastWhere, filter_append]
  by_cases ha : p a
  · rw [if_pos ha, filter_cons_of_pos ha, filter_nil, getLast?_concat]
  · rw [if_neg ha, filter_cons_of_neg ha, filter_nil, append_nil, lastWhere]

theorem lastWhere_map {β : Type*} (p : β → Bool) (f : α → β) (l : List α) :
    lastWhere p (l.map f) = (lastWhere (p ∘ f) l).map f := by
  rw [lastWhere, lastWhere, filter_map, getLast?_map]

theorem mem_of_lastWhere (h : lastWhere p l = some a) : a ∈ l ∧ p a = true :=
  mem_filter.1 (mem_of_getLast? h)

theorem exists_lastWhere (ha : a ∈ l) (hp : p a = true) : ∃ b, lastWhere p l = some b := by
  have hmem : a ∈ l.filter p := mem_filter.2 ⟨ha, hp⟩
  exact ⟨_, getLast?_eq_some_getLast (ne_nil_of_mem hmem)⟩

/-- Of two entries that match for each other, none comes after the other. -/
theorem lastWhere_unique {q : α → Bool} {b : α} (ha : lastWhere p l = some a)
    (hb : lastWhere q l = some b) (hpb : p b = true) (hqa : q a = true) : a = b := by
  induction l using List.reverseRecOn with
  | nil => cases ha
  | append_singleton l c ih =>
    rw [lastWhere_append_singleton] at ha hb
    by_cases hp : p c
    · rw [if_pos hp] at ha
      cases ha
      rw [if_pos hqa] at hb
      exact Option.some.inj hb
    · rw [if_neg hp] at ha
      by_cases hq : q c
      · rw [if_pos hq] at hb
        cases hb
        exact absurd hpb hp
      · rw [if_neg hq] at hb
        exact ih ha hb

end List
