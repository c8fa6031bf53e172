import Pyrad2.Foundations.LastWhere
import Pyrad2.Foundations.OrderedDict

/-!
# Lists of assignments

What a list of assignments makes of a dictionary, one assignment after the other. For a key that is
assigned, the last assignment counts, whatever the dictionary had. So a dictionary that a list of
assignments was made to stays as it is when they are made again.
-/

universe u v

namespace Assoc

variable {K : Type u} {V : Type v} [DecidableEq K]

/-- Lists with the same keys in the same order are told apart by reading them. -/
theorem eq_of_get?_eq {l l' : List (K × V)} (hl : (keys l).Nodup) (hkeys : keys l = keys l')
    (h : ∀ k, get? k l = get? k l') : l = l' := by
  induction l generalizing l' with
  | nil => exact (List.map_eq_nil_iff.1 hkeys.symm).symm
  | cons e l ih =>
    obtain ⟨k, v⟩ := e
    rcases l' with - | ⟨⟨k', v'⟩, l'⟩
    · cases hkeys
    obtain ⟨rfl, hrest⟩ := List.cons.inj hkeys
    have hv := h k
    rw [get?_cons_self, get?_cons_self] at hv
    cases hv
    rw [keys_cons, List.nodup_cons] at hl
    refine congrArg _ (ih hl.2 hrest fun j ↦ ?_)
    by_cases hj : j = k
    · -- the key in front does not come back
      have hnot : k ∉ keys l' := by
        rw [keys, ← hrest]
        exact hl.1
      rw [hj, get?_eq_none_iff.2 hl.1, get?_eq_none_iff.2 hnot]
    · have hread := h j
      rwa [get?_cons_ne hj, get?_cons_ne hj] at hread

end Assoc

namespace OrderedDict

variable {K : Type u} {V : Type v} [DecidableEq K] {d : OrderedDict K V} {l : List (K × V)} {k : K}

theorem eq_of_get?_eq {d d' : OrderedDict K V} (hkeys : d.keys = d'.keys)
    (h : ∀ k, d.get? k = d'.get? k) : d = d' :=
  ext (Assoc.eq_of_get?_eq d.nodup hkeys h)

/-- All assignments of a list, one after the other. -/
def setAll (d : OrderedDict K V) (l : List (K × V)) : OrderedDict K V :=
  l.foldl (fun d e ↦ d.set e.1 e.2) d

@[simp] theorem setAll_nil : d.setAll [] = d := rfl

theorem setAll_append (l' : List (K × V)) : d.setAll (l ++ l') = (d.setAll l).setAll l' :=
  List.foldl_append

theorem setAll_append_singleton (e : K × V) :
    d.setAll (l ++ [e]) = (d.setAll l).set e.1 e.2 := by
  rw [setAll_append]
  rfl

/-- The last assignment to a key counts. -/
theorem get?_setAll :
    (d.setAll l).get? k = ((l.lastWhere (·.1 = k)).map Prod.snd).or (d.get? k) := by
  induction l using List.reverseRecOn with
  | nil => rfl
  | append_singleton l e ih =>
    rw [setAll_append_singleton, List.lastWhere_append_singleton, get?_set, ih]
    by_cases he : k = e.1
    · rw [if_pos he, if_pos (by simp [he])]
      rfl
    · rw [if_neg he, if_neg (by simpa using Ne.symm he)]

theorem keys_set_of_mem (h : k ∈ d.keys) (v : V) : (d.set k v).keys = d.keys :=
  Assoc.keys_set_of_mem h v

/-- Assignments to keys that are there keep their order. -/
theorem keys_setAll_of_mem (h : ∀ e ∈ l, e.1 ∈ d.keys) : (d.setAll l).keys = d.keys := by
  induction l generalizing d with
  | nil => rfl
  | cons e l ih =>
    have hkeys := keys_set_of_mem (h e List.mem_cons_self) e.2
    show ((d.set e.1 e.2).setAll l).keys = d.keys
    rw [ih fun e' he' ↦ hkeys ▸ h e' (List.mem_cons_of_mem _ he'), hkeys]

theorem mem_keys_setAll {e : K × V} (he : e ∈ l) : e.1 ∈ (d.setAll l).keys := by
  obtain ⟨b, hb⟩ := List.exists_lastWhere (p := fun b : K × V ↦ b.1 = e.1) he (by simp)
  rw [mem_keys_iff, get?_setAll, hb]
  exact ⟨b.2, rfl⟩

/-- **Assignments made again** change nothing. -/
theorem setAll_setAll : (d.setAll l).setAll l = d.setAll l := by
  refine eq_of_get?_eq (keys_setAll_of_mem fun e he ↦ mem_keys_setAll he) fun k ↦ ?_
  rw [get?_setAll, get?_setAll, ← Option.or_assoc, Option.or_self]

end OrderedDict
