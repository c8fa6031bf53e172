import Mathlib.Logic.Function.Basic
import Pyrad2.Foundations.Footprint

/-!
# Interleavings

A family of sequences merged into one sequence that keeps the order within each of them.

A step that stays within the cells of its own sequence does not notice the steps of the others. So
however the sequences are merged, the cells of each one end up as if it had been run alone.

Where the state is a family of machines, one for each sequence, and every step moves the machine of
its own sequence, the merged run moves each machine as far as its own sequence does.
-/

variable {κ α : Type} [DecidableEq κ]

/-- The sequences `part k`, merged: the first element comes from one of them, the rest is merged
likewise. -/
inductive Interleaves : (κ → List α) → List α → Prop
  | nil : Interleaves (fun _ ↦ []) []
  | cons {part : κ → List α} {l : List α} (k : κ) (a : α) (h : Interleaves part l) :
    Interleaves (Function.update part k (a :: part k)) (a :: l)

namespace Interleaves

variable {part : κ → List α} {l : List α}

/-- One of the sequences may come first as a whole. -/
theorem append (h : Interleaves part l) (k : κ) (front : List α) :
    Interleaves (Function.update part k (front ++ part k)) (front ++ l) := by
  induction front with
  | nil => rwa [List.nil_append, Function.update_eq_self, List.nil_append]
  | cons a front ih =>
    have hcons := ih.cons k a
    rwa [Function.update_self, Function.update_idem] at hcons

/-- One sequence after the other is a way to merge them. -/
theorem flatMap {keys : List κ} (hkeys : keys.Nodup) (hpart : ∀ k ∉ keys, part k = []) :
    Interleaves part (keys.flatMap part) := by
  induction keys generalizing part with
  | nil =>
    have hnil : part = fun _ ↦ [] := funext fun k ↦ hpart k List.not_mem_nil
    rw [hnil]
    exact nil
  | cons k keys ih =>
    obtain ⟨hk, hnodup⟩ := List.nodup_cons.1 hkeys
    have hrest : Interleaves (Function.update part k []) (keys.flatMap part) := by
      have hsame : keys.flatMap (Function.update part k []) = keys.flatMap part :=
        List.flatMap_congr fun k' hk' ↦
          Function.update_of_ne (show k' ≠ k by rintro rfl; exact hk hk') _ _
      rw [← hsame]
      refine ih hnodup fun k' hk' ↦ ?_
      rw [Function.update_apply]
      split
      · rfl
      · next hne => exact hpart k' (by simp [hne, hk'])
    have happend := hrest.append k (part k)
    rwa [Function.update_self, List.append_nil, Function.update_idem, Function.update_eq_self]
      at happend

/-- Whatever is merged comes from one of the sequences. -/
theorem exists_mem (h : Interleaves part l) {a : α} (ha : a ∈ l) : ∃ k, a ∈ part k := by
  induction h with
  | nil => exact (List.not_mem_nil ha).elim
  | @cons part l k b _ ih =>
    rcases List.mem_cons.1 ha with rfl | ha
    · exact ⟨k, by simp⟩
    · obtain ⟨k', hk'⟩ := ih ha
      refine ⟨k', ?_⟩
      rw [Function.update_apply]
      split
      · next heq => exact List.mem_cons_of_mem b (heq ▸ hk')
      · exact hk'

end Interleaves

namespace EStateM

variable {ε σ ι : Type} {C : ι → Type} {cell : σ → (i : ι) → C i} {I : σ → Prop}

/-- A computation that returns from every state with the invariant, keeps the invariant, and from
such states reads and writes these cells only. -/
structure Confined (I : σ → Prop) (cell : σ → (i : ι) → C i) (Z : Set ι)
    (m : EStateM ε σ PUnit) : Prop where
  exists_run : ∀ s, I s → ∃ s', m.run s = .ok ⟨⟩ s' ∧ I s'
  sameOn : ∀ s t, I s → I t → SameOn cell Z s t → SameOn cell Z (after m s) (after m t)
  frame : ∀ s, I s → ∀ i ∉ Z, cell (after m s) i = cell s i

section

variable {Z Z' : Set ι} {m n : EStateM ε σ PUnit} {g : α → EStateM ε σ PUnit} {l : List α} {s : σ}

theorem Confined.run_eq (h : Confined I cell Z m) (hs : I s) : m.run s = .ok ⟨⟩ (after m s) := by
  obtain ⟨s', hrun, -⟩ := h.exists_run s hs
  rw [hrun, after_of_ok hrun]

theorem Confined.invariant (h : Confined I cell Z m) (hs : I s) : I (after m s) := by
  obtain ⟨s', hrun, hI⟩ := h.exists_run s hs
  rwa [after_of_ok hrun]

theorem Confined.after_bind (h : Confined I cell Z m) (hs : I s) :
    after (m >>= fun _ ↦ n) s = after n (after m s) :=
  after_bind_of_ok (h.run_eq hs)

theorem confined_pure : Confined I cell Z (pure ⟨⟩ : EStateM ε σ PUnit) :=
  ⟨fun s hs ↦ ⟨s, rfl, hs⟩, fun _ _ _ _ h ↦ h, fun _ _ _ _ ↦ rfl⟩

theorem Confined.bind (hm : Confined I cell Z m) (hn : Confined I cell Z n) :
    Confined I cell Z (m >>= fun _ ↦ n) where
  exists_run s hs := by
    obtain ⟨s', hrun, hs'⟩ := hm.exists_run s hs
    rw [run_bind_of_ok hrun]
    exact hn.exists_run s' hs'
  sameOn s t hs ht hst := by
    rw [hm.after_bind hs, hm.after_bind ht]
    exact hn.sameOn _ _ (hm.invariant hs) (hm.invariant ht) (hm.sameOn s t hs ht hst)
  frame s hs i hi := by
    rw [hm.after_bind hs, hn.frame _ (hm.invariant hs) i hi, hm.frame s hs i hi]

theorem confined_forM (h : ∀ a ∈ l, Confined I cell Z (g a)) : Confined I cell Z (l.forM g) := by
  induction l with
  | nil => exact confined_pure
  | cons a l ih => exact (h a (by simp)).bind (ih fun b hb ↦ h b (by simp [hb]))

/-- What stays within some cells does not notice what other cells hold. -/
theorem Confined.sameOn_of_frame (hm : Confined I cell Z m) (hn : Confined I cell Z' n)
    (hdisjoint : Disjoint Z Z') (hs : I s) :
    SameOn cell Z' (after n (after m s)) (after n s) :=
  hn.sameOn _ _ (hm.invariant hs) hs fun i hi ↦
    hm.frame s hs i fun hZ ↦ Set.disjoint_left.1 hdisjoint hZ hi

/-- **Merged sequences** do in the cells of each one what it does alone, and nothing elsewhere. -/
theorem run_forM_of_interleaves {part : κ → List α} {Z : κ → Set ι} (h : Interleaves part l)
    (hg : ∀ k, ∀ a ∈ part k, Confined I cell (Z k) (g a))
    (hdisjoint : ∀ k k', k ≠ k' → Disjoint (Z k) (Z k')) (hs : I s) :
    ((l.forM g).run s = .ok ⟨⟩ (after (l.forM g) s) ∧ I (after (l.forM g) s)) ∧
      (∀ k, SameOn cell (Z k) (after (l.forM g) s) (after ((part k).forM g) s)) ∧
        ∀ i, (∀ k, i ∉ Z k) → cell (after (l.forM g) s) i = cell s i := by
  induction h generalizing s with
  | nil => exact ⟨⟨rfl, hs⟩, fun _ _ _ ↦ rfl, fun _ _ ↦ rfl⟩
  | @cons part l k a _ ih =>
    have hpart (k' : κ) : ∀ b ∈ part k', b ∈ Function.update part k (a :: part k) k' := by
      intro b hb
      rw [Function.update_apply]
      split
      · next heq => exact List.mem_cons_of_mem a (heq ▸ hb)
      · exact hb
    have hrest (k' : κ) : ∀ b ∈ part k', Confined I cell (Z k') (g b) :=
      fun b hb ↦ hg k' b (hpart k' b hb)
    have ha : Confined I cell (Z k) (g a) := hg k a (by rw [Function.update_self]; simp)
    obtain ⟨⟨hrun, hI⟩, hown, hother⟩ := ih hrest (ha.invariant hs)
    have hafter : after ((a :: l).forM g) s = after (l.forM g) (after (g a) s) := ha.after_bind hs
    rw [hafter]
    refine ⟨⟨?_, hI⟩, fun k' ↦ ?_, fun i hi ↦ ?_⟩
    · show (g a >>= fun _ ↦ l.forM g).run s = _
      rw [run_bind_of_ok (ha.run_eq hs), hrun]
    · by_cases hk : k' = k
      · -- the step is the first one of this sequence
        subst hk
        have hfirst : after ((a :: part k').forM g) s = after ((part k').forM g) (after (g a) s) :=
          ha.after_bind hs
        rw [Function.update_self, hfirst]
        exact hown k'
      · rw [Function.update_of_ne hk]
        intro i hi
        rw [hown k' i hi]
        exact ha.sameOn_of_frame (confined_forM (hrest k')) (hdisjoint k k' (Ne.symm hk)) hs i hi
    · rw [hother i hi, ha.frame s hs i (hi k)]

end

/-! ### Families of machines -/

section

variable {τ : Type} {view : σ → κ → τ} {k : κ} {m n : EStateM ε σ PUnit} {t t' t'' : τ}

/-- A computation that moves the `k`-th machine from `t` to `t'`, leaves the others where they are
and keeps the invariant. -/
structure Moves (I : σ → Prop) (view : σ → κ → τ) (k : κ) (m : EStateM ε σ PUnit) (t t' : τ) :
    Prop where
  exists_run : ∀ s, I s → view s k = t →
    ∃ s', m.run s = .ok ⟨⟩ s' ∧ I s' ∧ view s' = Function.update (view s) k t'

theorem Moves.bind (hm : Moves I view k m t t') (hn : Moves I view k n t' t'') :
    Moves I view k (m >>= fun _ ↦ n) t t'' := by
  refine ⟨fun s hs hview ↦ ?_⟩
  obtain ⟨s', hrun, hs', hview'⟩ := hm.exists_run s hs hview
  obtain ⟨s'', hrun', hs'', hview''⟩ :=
    hn.exists_run s' hs' (by rw [hview', Function.update_self])
  refine ⟨s'', by rw [run_bind_of_ok hrun, hrun'], hs'', ?_⟩
  rw [hview'', hview', Function.update_idem]

theorem Moves.of_run_eq (h : Moves I view k m t t') (heq : ∀ s, view s k = t → n.run s = m.run s) :
    Moves I view k n t t' := by
  refine ⟨fun s hs hview ↦ ?_⟩
  rw [heq s hview]
  exact h.exists_run s hs hview

/-- A sequence of steps that move the same machine, each from where the one before it left it. -/
inductive MovesAll (I : σ → Prop) (view : σ → κ → τ) (g : α → EStateM ε σ PUnit) (k : κ) :
    List α → τ → τ → Prop
  | nil (t : τ) : MovesAll I view g k [] t t
  | cons {a : α} {l : List α} {t t' t'' : τ} (first : Moves I view k (g a) t t')
      (rest : MovesAll I view g k l t' t'') : MovesAll I view g k (a :: l) t t''

variable {g : α → EStateM ε σ PUnit} {l l' : List α}

theorem MovesAll.eq_of_nil (h : MovesAll I view g k [] t t') : t = t' := by
  cases h
  rfl

theorem MovesAll.exists_of_cons {a : α} (h : MovesAll I view g k (a :: l) t t'') :
    ∃ t', Moves I view k (g a) t t' ∧ MovesAll I view g k l t' t'' := by
  cases h with
  | cons first rest => exact ⟨_, first, rest⟩

theorem movesAll_singleton {a : α} (h : Moves I view k (g a) t t') :
    MovesAll I view g k [a] t t' := .cons h (.nil t')

theorem MovesAll.append (h : MovesAll I view g k l t t') (h' : MovesAll I view g k l' t' t'') :
    MovesAll I view g k (l ++ l') t t'' := by
  induction h with
  | nil t => exact h'
  | cons first _ ih => exact .cons first (ih h')

/-- **Merged sequences** move every machine as far as its own sequence does. -/
theorem exists_run_of_interleaves {part : κ → List α} (h : Interleaves part l) {f f' : κ → τ}
    (hpart : ∀ k, MovesAll I view g k (part k) (f k) (f' k)) {s : σ} (hs : I s) (hview : view s = f) :
    ∃ s', (l.forM g).run s = .ok ⟨⟩ s' ∧ I s' ∧ view s' = f' := by
  induction h generalizing f s with
  | nil =>
    exact ⟨s, rfl, hs, hview.trans (funext fun k ↦ (hpart k).eq_of_nil)⟩
  | @cons part l k a _ ih =>
    have hk := hpart k
    rw [Function.update_self] at hk
    obtain ⟨t', first, rest⟩ := hk.exists_of_cons
    obtain ⟨s', hrun, hs', hview'⟩ := first.exists_run s hs (congrFun hview k)
    -- the step leaves the other machines where they were
    have hrest (k' : κ) : MovesAll I view g k' (part k') (Function.update f k t' k') (f' k') := by
      by_cases hk' : k' = k
      · subst hk'
        rwa [Function.update_self]
      · have hother := hpart k'
        rwa [Function.update_of_ne hk'] at hother ⊢
    obtain ⟨s'', hrun', hs'', hview''⟩ := ih hrest hs' (by rw [hview', hview])
    refine ⟨s'', ?_, hs'', hview''⟩
    show (g a >>= fun _ ↦ l.forM g).run s = _
    rw [run_bind_of_ok hrun, hrun']

end

end EStateM
