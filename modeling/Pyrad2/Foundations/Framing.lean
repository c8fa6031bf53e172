import Mathlib.Data.List.Basic
import Mathlib.Data.Nat.Notation

/-!
# Length-delimited frames

A stream of symbols cut into frames whose first symbols, the header, say how long they are.

Cutting takes as many whole frames as there are, and leaves a tail that does not begin with one:
because there is not enough of it, or because its header gives a length that no frame has. It is the
only way to read a stream as frames and such a tail, so a stream that was put together from frames
comes apart into these, wherever it is interrupted on the way.
-/

namespace Pyrad2

universe u

/-- How frames are delimited: from the first `header` symbols of a frame its length is read, the
header included. No frame is shorter than `least`. -/
structure Framing (α : Type u) where
  header : ℕ
  size : List α → ℕ
  least : ℕ
  least_pos : 0 < least
  header_le : header ≤ least
  size_take : ∀ l, size (l.take header) = size l

namespace Framing

variable {α : Type u} (F : Framing α)

/-- The length that the header gives is that of the list. -/
structure IsFrame (f : List α) : Prop where
  least_le : F.least ≤ F.size f
  size_eq : F.size f = f.length

/-- The list begins with a whole frame. -/
def Begins (l : List α) : Prop := F.least ≤ F.size l ∧ F.size l ≤ l.length

instance decidableBegins (l : List α) : Decidable (F.Begins l) := instDecidableAnd

/-- There is a header, and it gives a length that no frame has. -/
def Malformed (l : List α) : Prop := F.header ≤ l.length ∧ F.size l < F.least

/-- The frames that the list begins with, and the tail behind them. -/
def frames (l : List α) : List (List α) × List α :=
  if h : F.Begins l then
    have : l.length - F.size l < l.length :=
      have hpos := F.least_pos
      have hle := h.1
      have hlength := h.2
      by omega
    (l.take (F.size l) :: (frames (l.drop (F.size l))).1, (frames (l.drop (F.size l))).2)
  else ([], l)
  termination_by l.length
  decreasing_by all_goals rwa [List.length_drop]

variable {F} {f l tail : List α}

/-! ### One frame -/

theorem size_append (h : F.header ≤ f.length) (l : List α) : F.size (f ++ l) = F.size f := by
  rw [← F.size_take (f ++ l), List.take_append_of_le_length h, F.size_take]

theorem IsFrame.header_le_length (h : F.IsFrame f) : F.header ≤ f.length :=
  Nat.le_trans F.header_le (h.size_eq ▸ h.least_le)

theorem IsFrame.size_append (h : F.IsFrame f) (l : List α) : F.size (f ++ l) = f.length := by
  rw [Framing.size_append h.header_le_length, h.size_eq]

theorem IsFrame.begins (h : F.IsFrame f) (l : List α) : F.Begins (f ++ l) := by
  have hsize := h.size_append l
  refine ⟨?_, ?_⟩
  · rw [hsize, ← h.size_eq]
    exact h.least_le
  · rw [hsize, List.length_append]
    exact Nat.le_add_right ..

theorem Begins.isFrame_take (h : F.Begins l) : F.IsFrame (l.take (F.size l)) := by
  have hsize : F.size (l.take (F.size l)) = F.size l := by
    rw [← F.size_take (l.take _), List.take_take, Nat.min_eq_left (Nat.le_trans F.header_le h.1), F.size_take]
  refine ⟨?_, ?_⟩
  · rw [hsize]
    exact h.1
  · rw [hsize, List.length_take, Nat.min_eq_left h.2]

/-! ### Cutting -/

theorem frames_of_begins (h : F.Begins l) : F.frames l =
    (l.take (F.size l) :: (F.frames (l.drop (F.size l))).1, (F.frames (l.drop (F.size l))).2) := by
  rw [frames, dif_pos h]

theorem frames_of_not_begins (h : ¬ F.Begins l) : F.frames l = ([], l) := by
  rw [frames, dif_neg h]

/-- One frame more in front. -/
theorem IsFrame.frames_append (h : F.IsFrame f) (l : List α) :
    F.frames (f ++ l) = (f :: (F.frames l).1, (F.frames l).2) := by
  rw [frames_of_begins (h.begins l), h.size_append, List.take_left', List.drop_left'] <;> rfl

/-- Nothing is lost. -/
theorem flatten_frames (F : Framing α) (l : List α) :
    (F.frames l).1.flatten ++ (F.frames l).2 = l := by
  fun_induction F.frames l with
  | case1 l h hlt ih => rw [List.flatten_cons, List.append_assoc, ih, List.take_append_drop]
  | case2 l h => rfl

theorem isFrame_of_mem_frames (h : f ∈ (F.frames l).1) : F.IsFrame f := by
  revert h
  fun_induction F.frames l with
  | case1 l hbegins hlt ih =>
    intro h
    rcases List.mem_cons.1 h with rfl | h
    · exact hbegins.isFrame_take
    · exact ih h
  | case2 l hbegins => exact fun h ↦ (List.not_mem_nil h).elim

/-- **Putting together and cutting**: frames with anything behind them. -/
theorem frames_flatten_append {fs : List (List α)} (h : ∀ f ∈ fs, F.IsFrame f) (l : List α) :
    F.frames (fs.flatten ++ l) = (fs ++ (F.frames l).1, (F.frames l).2) := by
  induction fs with
  | nil => rfl
  | cons f fs ih =>
    rw [List.flatten_cons, List.append_assoc,
      (h f List.mem_cons_self).frames_append, ih fun g hg ↦ h g (List.mem_cons_of_mem _ hg)]
    rfl

theorem frames_nil (F : Framing α) : F.frames [] = ([], []) := by
  refine frames_of_not_begins fun h ↦ ?_
  have hpos := F.least_pos
  have hle := Nat.le_trans h.1 h.2
  rw [List.length_nil] at hle
  omega

theorem frames_flatten {fs : List (List α)} (h : ∀ f ∈ fs, F.IsFrame f) :
    F.frames fs.flatten = (fs, []) := by
  rw [← List.append_nil fs.flatten, frames_flatten_append h, frames_nil, List.append_nil]

/-- **The stream goes on**: what was cut off stays, and the tail is cut anew. -/
theorem frames_append (F : Framing α) (a b : List α) :
    F.frames (a ++ b) = ((F.frames a).1 ++ (F.frames ((F.frames a).2 ++ b)).1,
      (F.frames ((F.frames a).2 ++ b)).2) := by
  conv_lhs => rw [← F.flatten_frames a, List.append_assoc]
  exact frames_flatten_append (fun f hf ↦ isFrame_of_mem_frames hf) _

end Framing

end Pyrad2
