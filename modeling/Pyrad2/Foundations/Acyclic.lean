import Mathlib.Logic.Relation
import Mathlib.Order.WellFoundedSet

/-!
# Steps between labelled things

Each step leads from a thing with one label to a thing with another. Where only finitely many labels
are left by steps, and none is come back to, no steps follow one another for ever.
-/

namespace Relation

variable {α β : Type*} (r : α → α → Prop) (label : α → β)

/-- Some step leads from a thing with the first label to one with the second. -/
def Labelled (b c : β) : Prop := ∃ x y, r x y ∧ label x = b ∧ label y = c

/-- No steps lead from a label back to it. -/
def AcyclicOn : Prop := ∀ b, ¬ TransGen (Labelled r label) b b

variable {r label}

/-- **Steps end where they never come back to a label.** -/
theorem acc_of_acyclicOn (hfinite : (label '' {x | ∃ y, r x y}).Finite)
    (hacyclic : AcyclicOn r label) (x : α) : Acc (fun y x ↦ r x y) x := by
  have hirrefl : Std.Irrefl fun b c ↦ TransGen (Labelled r label) c b := ⟨hacyclic⟩
  have htrans : IsTrans β fun b c ↦ TransGen (Labelled r label) c b :=
    ⟨fun _ _ _ hab hbc ↦ hbc.trans hab⟩
  have hstrict : IsStrictOrder β fun b c ↦ TransGen (Labelled r label) c b := {}
  have hwf := hfinite.wellFoundedOn (r := fun b c ↦ TransGen (Labelled r label) c b)
  -- A thing that no step leaves is at an end; the labels of the others are well-founded.
  have hlabelled (b : β) (hb : b ∈ label '' {x | ∃ y, r x y}) :
      ∀ x, label x = b → Acc (fun y x ↦ r x y) x := by
    apply hwf.induction hb
    rintro b - ih x rfl
    refine ⟨x, fun y hxy ↦ ?_⟩
    by_cases hy : ∃ z, r y z
    · exact ih (label y) ⟨y, hy, rfl⟩ (.single ⟨x, y, hxy, rfl, rfl⟩) y rfl
    · exact ⟨y, fun z hyz ↦ absurd ⟨z, hyz⟩ hy⟩
  by_cases hx : ∃ y, r x y
  · exact hlabelled (label x) ⟨x, hx, rfl⟩ x rfl
  · exact ⟨x, fun y hxy ↦ absurd ⟨y, hxy⟩ hx⟩

end Relation
