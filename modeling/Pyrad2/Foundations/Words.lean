import Mathlib.Data.List.Basic

/-!
# Words

The words of a text are its longest stretches without a separator. They are described by how a text
is put together from them, and found by cutting it at every separator and leaving out what is empty.
-/

namespace List

variable {α : Type*}

/-- A text with these words, in their order, where `p` holds of the separators. -/
inductive HasWords (p : α → Bool) : List α → List (List α) → Prop
  | nil : HasWords p [] []
  | separator {a l ws} (ha : p a = true) (rest : HasWords p l ws) : HasWords p (a :: l) ws
  | last {w} (hne : w ≠ []) (hw : ∀ a ∈ w, p a = false) : HasWords p w [w]
  | word {w a l ws} (hne : w ≠ []) (hw : ∀ a ∈ w, p a = false) (ha : p a = true)
      (rest : HasWords p l ws) : HasWords p (w ++ a :: l) (w :: ws)

variable {p : α → Bool} {l w : List α} {ws : List (List α)}

/-- The words, by cutting. -/
def wordsBy [DecidableEq α] (p : α → Bool) (l : List α) : List (List α) :=
  (l.splitOnP p).filter (· ≠ [])

section

variable [DecidableEq α]

theorem wordsBy_cons_of_pos {a : α} (ha : p a = true) (l : List α) :
    wordsBy p (a :: l) = wordsBy p l := by
  rw [wordsBy, splitOnP_cons_eq_if_modifyHead, if_pos ha, filter_cons_of_neg (by simp), wordsBy]

theorem wordsBy_of_forall (hne : w ≠ []) (hw : ∀ a ∈ w, p a = false) : wordsBy p w = [w] := by
  rw [wordsBy, splitOnP_eq_singleton hw, filter_cons_of_pos (by simpa using hne), filter_nil]

theorem wordsBy_append_cons (hne : w ≠ []) (hw : ∀ a ∈ w, p a = false) {a : α} (ha : p a = true)
    (l : List α) : wordsBy p (w ++ a :: l) = w :: wordsBy p l := by
  rw [wordsBy, splitOnP_append_cons_of_forall_mem hw a ha, filter_cons_of_pos (by simpa using hne),
    wordsBy]

theorem HasWords.wordsBy_eq (h : HasWords p l ws) : wordsBy p l = ws := by
  induction h with
  | nil => rfl
  | separator ha _ ih => rw [wordsBy_cons_of_pos ha, ih]
  | last hne hw => exact wordsBy_of_forall hne hw
  | word hne hw ha _ ih => rw [wordsBy_append_cons hne hw ha, ih]

theorem ne_nil_of_mem_wordsBy (h : w ∈ wordsBy p l) : w ≠ [] := by
  simpa using (mem_filter.1 h).2

/-- Cutting finds the words of every text. -/
theorem hasWords_wordsBy (p : α → Bool) (l : List α) : HasWords p l (wordsBy p l) := by
  -- The induction is on what is left behind the first separator.
  induction hn : l.length using Nat.strongRecOn generalizing l with
  | ind n ih =>
    subst hn
    rcases hfind : l.find? p with - | a
    · have hl : ∀ a ∈ l, p a = false := fun a ha ↦ by simpa using find?_eq_none.1 hfind a ha
      rcases l with - | ⟨a, l⟩
      · exact .nil
      · rw [wordsBy_of_forall (cons_ne_nil a l) hl]
        exact .last (cons_ne_nil a l) hl
    · obtain ⟨ha, w, rest, rfl, hw⟩ := find?_eq_some_iff_append.1 hfind
      have hrest := ih rest.length (by simp only [length_append, length_cons]; omega) rest rfl
      rcases w with - | ⟨b, w⟩
      · rw [nil_append, wordsBy_cons_of_pos ha]
        exact .separator ha hrest
      · have hfree : ∀ c ∈ b :: w, p c = false := fun c hc ↦ by simpa using hw c hc
        rw [wordsBy_append_cons (cons_ne_nil b w) hfree ha]
        exact .word (cons_ne_nil b w) hfree ha hrest

/-- **The words of a text** are those that cutting finds, and no others. -/
theorem hasWords_iff : HasWords p l ws ↔ wordsBy p l = ws :=
  ⟨HasWords.wordsBy_eq, fun h ↦ h ▸ hasWords_wordsBy p l⟩

end

end List
