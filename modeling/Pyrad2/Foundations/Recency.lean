import Mathlib.Data.Finset.Card
import Mathlib.Data.List.Induction
import Mathlib.Data.List.Nodup

/-!
# Recency order

The order in which a least-recently-used cache keeps its keys, seen from the sequence of uses alone:
`recency uses` lists every used key once, by its last use.

A cache that moves a key to the end whenever it is used, and removes keys at will, keeps a sublist
of that order. Whatever stands behind a key was used after that key's last use, so the key at the
front of a long list has been waiting through many uses of other keys.
-/

variable {K : Type*} [DecidableEq K]

/-- The used keys, by last use, least recent first. -/
def recency (uses : List K) : List K :=
  uses.foldl (fun l k ↦ l.filter (· ≠ k) ++ [k]) []

@[simp] theorem recency_nil : recency ([] : List K) = [] := rfl

theorem recency_append_singleton (uses : List K) (k : K) :
    recency (uses ++ [k]) = (recency uses).filter (· ≠ k) ++ [k] := by
  simp [recency]

theorem nodup_recency (uses : List K) : (recency uses).Nodup := by
  induction uses using List.reverseRecOn with
  | nil => exact List.nodup_nil
  | append_singleton uses k ih =>
    rw [recency_append_singleton]
    exact (ih.filter _).append (List.nodup_singleton k) (by simp)

/-- **What stands behind a key was used after it**: after the key's last use, every key behind it
was used. -/
theorem exists_split_of_recency_eq {uses pre post : List K} {k : K}
    (h : recency uses = pre ++ k :: post) :
    ∃ u₁ u₂, uses = u₁ ++ k :: u₂ ∧ k ∉ u₂ ∧ ∀ x ∈ post, x ∈ u₂ := by
  induction uses using List.reverseRecOn generalizing pre post with
  | nil => simp at h
  | append_singleton uses j ih =>
    rw [recency_append_singleton] at h
    rcases List.eq_nil_or_concat post with rfl | ⟨post, y, rfl⟩
    · -- the last key of the order is the one used last
      obtain ⟨-, hkj⟩ := List.append_inj' h rfl
      obtain rfl : j = k := by simpa using hkj
      exact ⟨uses, [], rfl, by simp, by simp⟩
    · have h' : (recency uses).filter (· ≠ j) ++ [j] = (pre ++ k :: post) ++ [y] := by
        rw [h]
        simp
      obtain ⟨hfilter, hjy⟩ := List.append_inj' h' rfl
      obtain rfl : j = y := by simpa using hjy
      obtain ⟨pre', rest, hsplit, -, hrest⟩ := List.filter_eq_append_iff.1 hfilter
      obtain ⟨skip, post', hrest', -, -, hpost⟩ := List.filter_eq_cons_iff.1 hrest
      have hR : recency uses = (pre' ++ skip) ++ k :: post' := by
        rw [hsplit, hrest']
        simp
      obtain ⟨u₁, u₂, rfl, hk, hmem⟩ := ih hR
      have hkj : k ≠ j := by
        have : k ∈ (recency (u₁ ++ k :: u₂)).filter (· ≠ j) := by
          rw [hfilter]
          simp
        simpa using (List.mem_filter.1 this).2
      refine ⟨u₁, u₂ ++ [j], by simp, by simp [hk, hkj], fun x hx ↦ ?_⟩
      rw [List.concat_eq_append] at hx
      rcases List.mem_append.1 hx with hx | hx
      · have hx' : x ∈ post' := by
          rw [← hpost] at hx
          exact (List.mem_filter.1 hx).1
        exact List.mem_append_left _ (hmem x hx')
      · exact List.mem_append_right _ hx

/-- Using a key keeps a sublist of the order a sublist of the order. -/
theorem sublist_recency_use {keys uses : List K} (h : keys.Sublist (recency uses)) (k : K) :
    (keys.filter (· ≠ k) ++ [k]).Sublist (recency (uses ++ [k])) := by
  rw [recency_append_singleton]
  exact (h.filter _).append (List.Sublist.refl _)

/-- **The front key has waited.** If `k` stands before `rest`, then since the last use of `k` at
least as many other keys were used as `rest` is long. -/
theorem exists_waiting_of_sublist {k : K} {rest uses : List K}
    (h : (k :: rest).Sublist (recency uses)) :
    ∃ u₁ u₂, uses = u₁ ++ k :: u₂ ∧ k ∉ u₂ ∧ rest.length ≤ u₂.toFinset.card := by
  obtain ⟨r₁, r₂, hr, hk, hrest⟩ := List.cons_sublist_iff.1 h
  obtain ⟨pre, mid, rfl⟩ := List.append_of_mem hk
  have hsplit : recency uses = pre ++ k :: (mid ++ r₂) := by
    rw [hr]
    simp
  obtain ⟨u₁, u₂, huses, hnot, hmem⟩ := exists_split_of_recency_eq hsplit
  refine ⟨u₁, u₂, huses, hnot, ?_⟩
  have hnodup : rest.Nodup := ((nodup_recency uses).sublist h).of_cons
  rw [← List.toFinset_card_of_nodup hnodup]
  refine Finset.card_le_card fun x hx ↦ ?_
  have hx' : x ∈ r₂ := hrest.subset (List.mem_toFinset.1 hx)
  exact List.mem_toFinset.2 (hmem x (List.mem_append_right _ hx'))
