import Mathlib.Data.List.Basic
import Mathlib.Data.List.Nodup

/-!
# Insertion-ordered dictionaries

Dictionaries that remember the order in which their keys were inserted, as association lists with
distinct keys. Assigning to a present key keeps its position; `moveToEnd` makes a key the newest.

The list-level operations live in `Assoc`, because a recursive type can nest a list of pairs but
not a bundled dictionary; `OrderedDict` carries the distinctness of its keys as a field, so every
operation re-establishes it once, here.
-/

universe u v

namespace Assoc

variable {K : Type u} {V : Type v} [DecidableEq K]

/-! ### Operations on association lists -/

/-- The value stored under `k`. -/
def get? (k : K) : List (K × V) → Option V
  | [] => none
  | (k', v) :: rest => if k = k' then some v else get? k rest

/-- Assign `v` to `k`: in place when `k` is present, at the end otherwise. -/
def set (k : K) (v : V) : List (K × V) → List (K × V)
  | [] => [(k, v)]
  | (k', v') :: rest => if k = k' then (k, v) :: rest else (k', v') :: set k v rest

/-- Remove `k`. -/
def erase (k : K) (l : List (K × V)) : List (K × V) :=
  l.filter fun e ↦ e.1 ≠ k

/-- The keys in insertion order. -/
abbrev keys (l : List (K × V)) : List K := l.map Prod.fst

/-! ### Reading after a write -/

omit [DecidableEq K] in
@[simp] theorem keys_nil : keys ([] : List (K × V)) = [] := rfl

omit [DecidableEq K] in
@[simp] theorem keys_cons (e : K × V) (l : List (K × V)) : keys (e :: l) = e.1 :: keys l := rfl

@[simp] theorem get?_nil (k : K) : get? k ([] : List (K × V)) = none := rfl

theorem get?_cons (k k' : K) (v : V) (l : List (K × V)) :
    get? k ((k', v) :: l) = if k = k' then some v else get? k l := rfl

@[simp] theorem get?_cons_self (k : K) (v : V) (l : List (K × V)) :
    get? k ((k, v) :: l) = some v := by
  simp [get?_cons]

theorem get?_cons_ne {k k' : K} (h : k ≠ k') (v : V) (l : List (K × V)) :
    get? k ((k', v) :: l) = get? k l := by
  simp [get?_cons, h]

@[simp] theorem get?_set_self (k : K) (v : V) (l : List (K × V)) :
    get? k (set k v l) = some v := by
  induction l with
  | nil => simp [set]
  | cons e l ih =>
    obtain ⟨k', v'⟩ := e
    by_cases h : k = k'
    · simp [set, h]
    · simp [set, h, get?_cons, ih]

theorem get?_set_ne {k k' : K} (h : k' ≠ k) (v : V) (l : List (K × V)) :
    get? k' (set k v l) = get? k' l := by
  induction l with
  | nil => simp [set, get?_cons, h]
  | cons e l ih =>
    obtain ⟨k₀, v₀⟩ := e
    by_cases hk : k = k₀
    · subst hk
      simp [set, get?_cons, h]
    · simp [set, hk, get?_cons, ih]

theorem get?_set (k k' : K) (v : V) (l : List (K × V)) :
    get? k' (set k v l) = if k' = k then some v else get? k' l := by
  split
  · next h => rw [h, get?_set_self]
  · next h => exact get?_set_ne h v l

theorem get?_eq_none_iff {k : K} {l : List (K × V)} : get? k l = none ↔ k ∉ keys l := by
  induction l with
  | nil => simp
  | cons e l ih =>
    obtain ⟨k', v⟩ := e
    by_cases h : k = k' <;> simp [get?_cons, h, ih]

theorem mem_keys_iff {k : K} {l : List (K × V)} : k ∈ keys l ↔ ∃ v, get? k l = some v := by
  rw [← not_iff_not, ← get?_eq_none_iff, Option.eq_none_iff_forall_ne_some]
  simp

theorem mem_of_get?_eq_some {k : K} {v : V} {l : List (K × V)} (h : get? k l = some v) :
    (k, v) ∈ l := by
  induction l with
  | nil => simp at h
  | cons e l ih =>
    obtain ⟨k', v'⟩ := e
    rw [get?_cons] at h
    split at h
    · next hk =>
      cases h
      simp [hk]
    · exact List.mem_cons_of_mem _ (ih h)

/-- Reading a dictionary whose values were replaced. -/
theorem get?_map {W : Type*} (f : K → V → W) (k : K) (l : List (K × V)) :
    get? k (l.map fun e ↦ (e.1, f e.1 e.2)) = (get? k l).map (f k) := by
  induction l with
  | nil => rfl
  | cons e l ih =>
    obtain ⟨k', v⟩ := e
    by_cases h : k = k'
    · simp [h]
    · simp [get?_cons, h, ih]

/-- Assigning in a dictionary whose values were replaced. -/
theorem set_map {W : Type*} (f : V → W) (k : K) (v : V) (l : List (K × V)) :
    set k (f v) (l.map fun e ↦ (e.1, f e.2)) = (set k v l).map fun e ↦ (e.1, f e.2) := by
  induction l with
  | nil => rfl
  | cons e l ih =>
    obtain ⟨k', v'⟩ := e
    by_cases h : k = k'
    · simp [set, h]
    · simp [set, h, ih]

theorem erase_cons (k : K) (e : K × V) (l : List (K × V)) :
    erase k (e :: l) = if e.1 = k then erase k l else e :: erase k l := by
  by_cases h : e.1 = k <;> simp [erase, h]

/-- With distinct keys, an entry is read back by its key. -/
theorem get?_eq_some_iff_mem {k : K} {v : V} {l : List (K × V)} (hl : (keys l).Nodup) :
    get? k l = some v ↔ (k, v) ∈ l := by
  refine ⟨mem_of_get?_eq_some, fun hmem ↦ ?_⟩
  induction l with
  | nil => simp at hmem
  | cons e l ih =>
    obtain ⟨k', v'⟩ := e
    rw [keys_cons, List.nodup_cons] at hl
    rcases List.mem_cons.1 hmem with heq | hin
    · cases heq
      exact get?_cons_self ..
    · have hne : k ≠ k' := by
        rintro rfl
        exact hl.1 (List.mem_map.2 ⟨_, hin, rfl⟩)
      rw [get?_cons_ne hne]
      exact ih hl.2 hin

/-- Two lists with distinct keys that read the same hold the same entries. -/
theorem perm_of_get? {l l' : List (K × V)} (hl : (keys l).Nodup) (hl' : (keys l').Nodup)
    (h : ∀ k, get? k l = get? k l') : l.Perm l' := by
  refine (List.perm_ext_iff_of_nodup hl.of_map hl'.of_map).2 fun e ↦ ?_
  rw [← get?_eq_some_iff_mem hl, ← get?_eq_some_iff_mem hl', h]

/-! ### Keys after a write -/

theorem set_of_not_mem {k : K} {l : List (K × V)} (h : k ∉ keys l) (v : V) :
    set k v l = l ++ [(k, v)] := by
  induction l with
  | nil => rfl
  | cons e l ih =>
    obtain ⟨k', v'⟩ := e
    simp only [keys_cons, List.mem_cons, not_or] at h
    simp [set, h.1, ih h.2]

theorem keys_set_of_mem {k : K} {l : List (K × V)} (h : k ∈ keys l) (v : V) :
    keys (set k v l) = keys l := by
  induction l with
  | nil => simp at h
  | cons e l ih =>
    obtain ⟨k', v'⟩ := e
    by_cases hk : k = k'
    · simp [set, hk]
    · have : k ∈ keys l := by simpa [hk] using h
      simp only [set, if_neg hk, keys_cons, ih this]

/-- A present key splits its list around the entry that assignment replaces. -/
theorem exists_split_of_mem {k : K} {l : List (K × V)} (h : k ∈ keys l) :
    ∃ pre v post, l = pre ++ (k, v) :: post ∧ k ∉ keys pre ∧
      ∀ w, set k w l = pre ++ (k, w) :: post := by
  induction l with
  | nil => simp at h
  | cons e l ih =>
    obtain ⟨k', v'⟩ := e
    by_cases hk : k = k'
    · subst hk
      exact ⟨[], v', l, rfl, by simp, fun w ↦ by simp [set]⟩
    · obtain ⟨pre, v, post, rfl, hpre, hset⟩ := ih (by simpa [hk] using h)
      refine ⟨(k', v') :: pre, v, post, rfl, by simp [hk, hpre], fun w ↦ ?_⟩
      simp [set, hk, hset]

@[simp] theorem set_set (k : K) (v v' : V) (l : List (K × V)) :
    set k v' (set k v l) = set k v' l := by
  induction l with
  | nil => simp [set]
  | cons e l ih =>
    obtain ⟨k', v''⟩ := e
    by_cases hk : k = k'
    · simp [set, hk]
    · simp [set, hk, ih]

/-- Assigning what is stored already changes nothing. -/
theorem set_of_get?_eq_some {k : K} {v : V} {l : List (K × V)} (h : get? k l = some v) :
    set k v l = l := by
  induction l with
  | nil => cases h
  | cons e l ih =>
    obtain ⟨k', v'⟩ := e
    rw [get?_cons] at h
    by_cases hk : k = k'
    · rw [if_pos hk] at h
      cases h
      simp [set, hk]
    · rw [if_neg hk] at h
      rw [set, if_neg hk, ih h]

/-- What stands under other keys in front does not matter. -/
theorem get?_append_of_not_mem {k : K} {l : List (K × V)} (h : k ∉ keys l) (l' : List (K × V)) :
    get? k (l ++ l') = get? k l' := by
  induction l with
  | nil => rfl
  | cons e l ih =>
    rw [keys_cons, List.mem_cons, not_or] at h
    rw [List.cons_append, get?_cons, if_neg h.1, ih h.2]

theorem set_append_of_not_mem {k : K} {l : List (K × V)} (h : k ∉ keys l) (v : V)
    (l' : List (K × V)) : set k v (l ++ l') = l ++ set k v l' := by
  induction l with
  | nil => rfl
  | cons e l ih =>
    obtain ⟨k', v'⟩ := e
    simp only [keys_cons, List.mem_cons, not_or] at h
    simp [set, h.1, ih h.2]

theorem mem_keys_set {k k' : K} {v : V} {l : List (K × V)} :
    k' ∈ keys (set k v l) ↔ k' = k ∨ k' ∈ keys l := by
  rw [mem_keys_iff, mem_keys_iff, get?_set]
  by_cases h : k' = k <;> simp [h]

theorem nodup_keys_set {l : List (K × V)} (hl : (keys l).Nodup) (k : K) (v : V) :
    (keys (set k v l)).Nodup := by
  by_cases h : k ∈ keys l
  · rwa [keys_set_of_mem h]
  · rw [set_of_not_mem h, keys, List.map_append]
    refine List.Nodup.append hl (List.nodup_singleton k) ?_
    simpa using h

theorem nodup_keys_erase {l : List (K × V)} (hl : (keys l).Nodup) (k : K) :
    (keys (erase k l)).Nodup :=
  hl.sublist (List.filter_sublist.map _)

theorem get?_erase (k k' : K) (l : List (K × V)) :
    get? k' (erase k l) = if k' = k then none else get? k' l := by
  induction l with
  | nil => simp [erase]
  | cons e l ih =>
    obtain ⟨k₀, v₀⟩ := e
    rw [erase_cons]
    by_cases h : k₀ = k
    · subst h
      by_cases hk : k' = k₀
      · subst hk
        simp [ih]
      · simp [ih, get?_cons, hk]
    · by_cases hk : k' = k
      · subst hk
        simp [h, get?_cons, ih, Ne.symm h]
      · simp [h, get?_cons, ih, hk]

/-- Erasing a key forgets every assignment to it. -/
theorem erase_set (k : K) (v : V) (l : List (K × V)) : erase k (set k v l) = erase k l := by
  induction l with
  | nil => simp [set, erase]
  | cons e l ih =>
    obtain ⟨k', v'⟩ := e
    by_cases h : k = k'
    · simp [set, erase_cons, h]
    · simp [set, erase_cons, h, ih]

/-- Erasing a key that is not there. -/
theorem erase_of_get?_eq_none {k : K} {l : List (K × V)} (h : get? k l = none) : erase k l = l := by
  have hnot := get?_eq_none_iff.1 h
  refine List.filter_eq_self.2 fun e he ↦ decide_eq_true fun hk ↦ hnot ?_
  exact hk ▸ List.mem_map_of_mem he

/-- Assigning to one key commutes with erasing another. -/
theorem erase_set_ne {k k' : K} (h : k' ≠ k) (v : V) (l : List (K × V)) :
    erase k' (set k v l) = set k v (erase k' l) := by
  induction l with
  | nil => simp [set, erase, Ne.symm h]
  | cons e l ih =>
    obtain ⟨k₀, v₀⟩ := e
    by_cases hk : k = k₀
    · subst hk
      simp [set, erase_cons, Ne.symm h]
    · simp only [set, if_neg hk, erase_cons, ih]
      split
      · rfl
      · simp [set, hk]

/-! ### Totals -/

/-- The sizes of the entries, added up. -/
def total (f : V → ℕ) : List (K × V) → ℕ
  | [] => 0
  | e :: l => f e.2 + total f l

section

variable {f : V → ℕ} {k : K} {v old : V} {l l' : List (K × V)}

omit [DecidableEq K] in
@[simp] theorem total_nil : total f ([] : List (K × V)) = 0 := rfl

omit [DecidableEq K] in
@[simp] theorem total_cons : total f ((k, v) :: l) = f v + total f l := rfl

theorem total_set_of_none (h : get? k l = none) : total f (set k v l) = total f l + f v := by
  induction l with
  | nil => exact (Nat.zero_add _).symm
  | cons e l ih =>
    obtain ⟨k', v'⟩ := e
    rw [get?_cons] at h
    split at h
    · cases h
    · next hk =>
      rw [set, if_neg hk, total_cons, total_cons, ih h]
      omega

theorem total_set_of_some (h : get? k l = some old) :
    total f (set k v l) + f old = total f l + f v := by
  induction l with
  | nil => cases h
  | cons e l ih =>
    obtain ⟨k', v'⟩ := e
    rw [get?_cons] at h
    split at h
    · next hk =>
      cases h
      rw [set, if_pos hk, total_cons, total_cons]
      omega
    · next hk =>
      have hrest := ih h
      rw [set, if_neg hk, total_cons, total_cons]
      omega

theorem total_erase_le : total f (erase k l) ≤ total f l := by
  induction l with
  | nil => exact Nat.le_refl _
  | cons e l ih =>
    obtain ⟨k', v'⟩ := e
    rw [erase_cons, total_cons]
    split
    · omega
    · rw [total_cons]
      omega

theorem total_erase_of_some (h : get? k l = some v) : total f (erase k l) + f v ≤ total f l := by
  induction l with
  | nil => cases h
  | cons e l ih =>
    obtain ⟨k', v'⟩ := e
    rw [get?_cons] at h
    rw [erase_cons, total_cons]
    split at h
    · next hk =>
      cases h
      have hle : total f (erase k l) ≤ total f l := total_erase_le
      rw [if_pos hk.symm]
      omega
    · next hk =>
      have hrest := ih h
      rw [if_neg (Ne.symm hk), total_cons]
      omega

/-- Entries that all stand in another list add up to no more than that list. -/
theorem total_le_of_get? (hl : (keys l).Nodup) (h : ∀ k v, get? k l = some v → get? k l' = some v) :
    total f l ≤ total f l' := by
  induction l generalizing l' with
  | nil => exact Nat.zero_le _
  | cons e l ih =>
    obtain ⟨k, v⟩ := e
    obtain ⟨hnot, hl⟩ := List.nodup_cons.1 hl
    have hrest : total f l ≤ total f (erase k l') := ih hl fun k' v' hk ↦ by
      have hne : k' ≠ k := fun heq ↦ hnot (heq ▸ mem_keys_iff.2 ⟨v', hk⟩)
      rw [get?_erase, if_neg hne]
      exact h k' v' (by rw [get?_cons_ne hne, hk])
    have herase : total f (erase k l') + f v ≤ total f l' :=
      total_erase_of_some (h k v (get?_cons_self ..))
    rw [total_cons]
    omega

end

end Assoc

/-- An insertion-ordered dictionary: an association list whose keys are distinct. -/
structure OrderedDict (K : Type u) (V : Type v) where
  /-- The entries, oldest first. -/
  entries : List (K × V)
  /-- No key occurs twice. -/
  nodup : (Assoc.keys entries).Nodup

namespace OrderedDict

variable {K : Type u} {V : Type v}

@[ext] theorem ext {d d' : OrderedDict K V} (h : d.entries = d'.entries) : d = d' := by
  cases d
  cases d'
  cases h
  rfl

/-- The empty dictionary. -/
def empty : OrderedDict K V := ⟨[], by simp⟩

instance instEmptyCollection : EmptyCollection (OrderedDict K V) := ⟨empty⟩

instance instInhabited : Inhabited (OrderedDict K V) := ⟨empty⟩

@[simp] theorem entries_empty : (∅ : OrderedDict K V).entries = [] := rfl

/-- The keys, oldest first. -/
def keys (d : OrderedDict K V) : List K := Assoc.keys d.entries

/-- The number of entries. -/
def size (d : OrderedDict K V) : ℕ := d.entries.length

/-- The oldest entries, as long as `p` holds of them, are dropped. -/
def dropWhile (p : K × V → Bool) (d : OrderedDict K V) : OrderedDict K V :=
  ⟨d.entries.dropWhile p, d.nodup.sublist ((List.dropWhile_sublist p).map _)⟩

/-- The `n` oldest entries are dropped. -/
def drop (n : ℕ) (d : OrderedDict K V) : OrderedDict K V :=
  ⟨d.entries.drop n, d.nodup.sublist ((List.drop_sublist n _).map _)⟩

/-- Replace every value by one computed from it and its key. -/
def mapValues {W : Type v} (f : K → V → W) (d : OrderedDict K V) : OrderedDict K W :=
  ⟨d.entries.map fun e ↦ (e.1, f e.1 e.2), by
    have h : Assoc.keys (d.entries.map fun e ↦ (e.1, f e.1 e.2)) = Assoc.keys d.entries := by
      simp [Assoc.keys, Function.comp_def]
    rw [h]
    exact d.nodup⟩

variable [DecidableEq K]

instance instDecidableEq [DecidableEq V] : DecidableEq (OrderedDict K V) := fun d d' ↦
  decidable_of_iff (d.entries = d'.entries) ⟨ext, fun h ↦ h ▸ rfl⟩

/-- The value stored under `k`. -/
def get? (d : OrderedDict K V) (k : K) : Option V := Assoc.get? k d.entries

/-- Is `k` a key? -/
def contains (d : OrderedDict K V) (k : K) : Bool := (d.get? k).isSome

/-- Assign `v` to `k`, in place when `k` is present. -/
def set (d : OrderedDict K V) (k : K) (v : V) : OrderedDict K V :=
  ⟨Assoc.set k v d.entries, Assoc.nodup_keys_set d.nodup k v⟩

/-- Remove `k`. -/
def erase (d : OrderedDict K V) (k : K) : OrderedDict K V :=
  ⟨Assoc.erase k d.entries, Assoc.nodup_keys_erase d.nodup k⟩

/-- Make `k` the newest key. -/
def moveToEnd (d : OrderedDict K V) (k : K) : OrderedDict K V :=
  match d.get? k with
  | some v => (d.erase k).set k v
  | none => d

/-! ### Reading after a write -/

@[simp] theorem get?_empty (k : K) : (∅ : OrderedDict K V).get? k = none := rfl

@[simp] theorem get?_set_self (d : OrderedDict K V) (k : K) (v : V) :
    (d.set k v).get? k = some v :=
  Assoc.get?_set_self ..

theorem get?_set (d : OrderedDict K V) (k k' : K) (v : V) :
    (d.set k v).get? k' = if k' = k then some v else d.get? k' :=
  Assoc.get?_set ..

theorem get?_set_ne (d : OrderedDict K V) {k k' : K} (h : k' ≠ k) (v : V) :
    (d.set k v).get? k' = d.get? k' :=
  Assoc.get?_set_ne h ..

theorem get?_erase (d : OrderedDict K V) (k k' : K) :
    (d.erase k).get? k' = if k' = k then none else d.get? k' :=
  Assoc.get?_erase ..

theorem get?_foldl_erase (ks : List K) (d : OrderedDict K V) (k : K) :
    (ks.foldl erase d).get? k = if k ∈ ks then none else d.get? k := by
  induction ks generalizing d with
  | nil => rw [List.foldl_nil, if_neg List.not_mem_nil]
  | cons k' ks ih =>
    rw [List.foldl_cons, ih, get?_erase]
    by_cases hks : k ∈ ks
    · rw [if_pos hks, if_pos (List.mem_cons_of_mem _ hks)]
    · rw [if_neg hks]
      simp only [List.mem_cons, hks, or_false]

@[simp] theorem get?_moveToEnd (d : OrderedDict K V) (k k' : K) :
    (d.moveToEnd k).get? k' = d.get? k' := by
  unfold moveToEnd
  split
  · next v hv =>
    rw [get?_set, get?_erase]
    split
    · next h => rw [h, hv]
    · rfl
  · rfl

@[simp] theorem get?_mapValues {W : Type v} (f : K → V → W) (d : OrderedDict K V) (k : K) :
    (d.mapValues f).get? k = (d.get? k).map (f k) :=
  Assoc.get?_map ..

theorem mem_keys_iff {d : OrderedDict K V} {k : K} : k ∈ d.keys ↔ ∃ v, d.get? k = some v :=
  Assoc.mem_keys_iff

theorem get?_eq_none_iff {d : OrderedDict K V} {k : K} : d.get? k = none ↔ k ∉ d.keys :=
  Assoc.get?_eq_none_iff

theorem get?_eq_some_iff {d : OrderedDict K V} {k : K} {v : V} :
    d.get? k = some v ↔ (k, v) ∈ d.entries :=
  Assoc.get?_eq_some_iff_mem d.nodup

/-! ### Entries after a write -/

@[simp] theorem set_set (d : OrderedDict K V) (k : K) (v v' : V) :
    (d.set k v).set k v' = d.set k v' :=
  ext (Assoc.set_set ..)

theorem set_of_get?_eq_some {d : OrderedDict K V} {k : K} {v : V} (h : d.get? k = some v) :
    d.set k v = d :=
  ext (Assoc.set_of_get?_eq_some h)

/-- Whatever is assigned to the key stands between the same entries: where the key was, or last. -/
theorem exists_split_entries (d : OrderedDict K V) (k : K) :
    ∃ pre post, (∀ v, (d.set k v).entries = pre ++ (k, v) :: post) ∧
      (∀ e ∈ pre ++ post, e.1 ≠ k) ∧
      (d.get? k = none ∧ post = [] ∧ d.entries = pre ∨
        ∃ v, d.get? k = some v ∧ d.entries = pre ++ (k, v) :: post) := by
  by_cases hk : k ∈ d.keys
  · obtain ⟨pre, v, post, hd, -, hset⟩ := Assoc.exists_split_of_mem hk
    have hnodup : (Assoc.keys (pre ++ (k, v) :: post)).Nodup := hd ▸ d.nodup
    rw [Assoc.keys, List.map_append, List.map_cons, List.nodup_middle, ← List.map_append,
      List.nodup_cons] at hnodup
    have hmem : (k, v) ∈ d.entries := by
      rw [hd]
      simp
    refine ⟨pre, post, hset, fun e he heq ↦ ?_, .inr ⟨v, get?_eq_some_iff.2 hmem, hd⟩⟩
    exact hnodup.1 (List.mem_map.2 ⟨e, he, heq⟩)
  · refine ⟨d.entries, [], fun v ↦ Assoc.set_of_not_mem hk v, fun e he heq ↦ ?_,
      .inl ⟨get?_eq_none_iff.2 hk, rfl, rfl⟩⟩
    rw [List.append_nil] at he
    exact hk (List.mem_map.2 ⟨e, he, heq⟩)

/-- The entries around were there before. -/
theorem exists_split_set (d : OrderedDict K V) (k : K) :
    ∃ pre post, (∀ v, (d.set k v).entries = pre ++ (k, v) :: post) ∧
      ∀ e ∈ pre ++ post, e ∈ d.entries ∧ e.1 ≠ k := by
  obtain ⟨pre, post, hset, hne, ⟨-, hpost, hd⟩ | ⟨v, -, hd⟩⟩ := d.exists_split_entries k
  · refine ⟨pre, post, hset, fun e he ↦ ⟨?_, hne e he⟩⟩
    rwa [hpost, List.append_nil, ← hd] at he
  · refine ⟨pre, post, hset, fun e he ↦ ⟨?_, hne e he⟩⟩
    rw [hd]
    rcases List.mem_append.1 he with hpre | hpost
    · exact List.mem_append_left _ hpre
    · exact List.mem_append_right _ (List.mem_cons_of_mem _ hpost)

theorem entries_set_of_not_mem {d : OrderedDict K V} {k : K} (h : k ∉ d.keys) (v : V) :
    (d.set k v).entries = d.entries ++ [(k, v)] :=
  Assoc.set_of_not_mem h v

/-- Refreshing a present key takes its entry out and puts it at the end. -/
theorem entries_moveToEnd {d : OrderedDict K V} {k : K} {v : V} (h : d.get? k = some v) :
    (d.moveToEnd k).entries = Assoc.erase k d.entries ++ [(k, v)] := by
  have hnot : k ∉ (d.erase k).keys := by
    rw [← get?_eq_none_iff, get?_erase, if_pos rfl]
  rw [moveToEnd, h]
  exact entries_set_of_not_mem hnot v

theorem erase_set (d : OrderedDict K V) (k : K) (v : V) : (d.set k v).erase k = d.erase k :=
  ext (Assoc.erase_set ..)

theorem erase_of_get?_eq_none {d : OrderedDict K V} {k : K} (h : d.get? k = none) : d.erase k = d :=
  ext (Assoc.erase_of_get?_eq_none h)

/-- Assigning to a key and making it the newest. -/
theorem entries_moveToEnd_set (d : OrderedDict K V) (k : K) (v : V) :
    ((d.set k v).moveToEnd k).entries = Assoc.erase k d.entries ++ [(k, v)] := by
  rw [entries_moveToEnd (get?_set_self d k v)]
  exact congrArg (· ++ [(k, v)]) (Assoc.erase_set k v d.entries)

theorem keys_erase (d : OrderedDict K V) (k : K) : (d.erase k).keys = d.keys.filter (· ≠ k) := by
  change ((d.entries.filter fun e ↦ decide (e.1 ≠ k)).map Prod.fst) = _
  exact (List.filter_map (f := Prod.fst) (p := fun x ↦ decide (x ≠ k))).symm

theorem keys_moveToEnd {d : OrderedDict K V} {k : K} (h : k ∈ d.keys) :
    (d.moveToEnd k).keys = d.keys.filter (· ≠ k) ++ [k] := by
  obtain ⟨v, hv⟩ := mem_keys_iff.1 h
  rw [keys, entries_moveToEnd hv, Assoc.keys, List.map_append, List.map_singleton]
  exact congrArg (· ++ [k]) (keys_erase d k)

theorem keys_moveToEnd_set (d : OrderedDict K V) (k : K) (v : V) :
    ((d.set k v).moveToEnd k).keys = d.keys.filter (· ≠ k) ++ [k] := by
  rw [keys, entries_moveToEnd_set, Assoc.keys, List.map_append, List.map_singleton]
  exact congrArg (· ++ [k]) (keys_erase d k)

theorem size_moveToEnd {d : OrderedDict K V} {k : K} (h : k ∈ d.keys) :
    (d.moveToEnd k).size = d.size := by
  have herase : d.keys.filter (· ≠ k) = d.keys.erase k := by
    rw [List.Nodup.erase_eq_filter (show d.keys.Nodup from d.nodup)]
    exact List.filter_congr fun x _ ↦ by rw [Bool.eq_iff_iff]; simp
  have hperm : (d.keys.filter (· ≠ k) ++ [k]).length = d.keys.length := by
    rw [herase, List.length_append, List.length_erase_of_mem h, List.length_singleton]
    have := List.length_pos_of_mem h
    omega
  have hsize (d : OrderedDict K V) : d.size = d.keys.length := (List.length_map _).symm
  rw [hsize, hsize, keys_moveToEnd h, hperm]

/-- A sublist of the entries holds nothing new. -/
theorem get?_of_sublist {d d' : OrderedDict K V} (h : d'.entries.Sublist d.entries) {k : K} {v : V}
    (hk : d'.get? k = some v) : d.get? k = some v :=
  get?_eq_some_iff.2 (h.subset (get?_eq_some_iff.1 hk))

theorem erase_set_ne (d : OrderedDict K V) {k k' : K} (h : k' ≠ k) (v : V) :
    (d.set k v).erase k' = (d.erase k').set k v :=
  ext (Assoc.erase_set_ne h ..)

/-! ### Related dictionaries -/

/-- The same keys in the same order, with related values. -/
def Related (r : K → V → V → Prop) (d d' : OrderedDict K V) : Prop :=
  List.Forall₂ (fun e e' ↦ e.1 = e'.1 ∧ r e.1 e.2 e'.2) d.entries d'.entries

variable {r : K → V → V → Prop} {d d' : OrderedDict K V}

omit [DecidableEq K] in
theorem related_refl (hr : ∀ k v, r k v v) (d : OrderedDict K V) : Related r d d :=
  List.forall₂_same.2 fun e _ ↦ ⟨rfl, hr e.1 e.2⟩

/-- Reading finds related values. -/
theorem Related.get? (h : Related r d d') (k : K) :
    d.get? k = none ∧ d'.get? k = none ∨
      ∃ v v', d.get? k = some v ∧ d'.get? k = some v' ∧ r k v v' := by
  have hlists {l l' : List (K × V)}
      (h : List.Forall₂ (fun e e' ↦ e.1 = e'.1 ∧ r e.1 e.2 e'.2) l l') :
      Assoc.get? k l = none ∧ Assoc.get? k l' = none ∨
        ∃ v v', Assoc.get? k l = some v ∧ Assoc.get? k l' = some v' ∧ r k v v' := by
    induction h with
    | nil => exact .inl ⟨rfl, rfl⟩
    | @cons e e' _ _ he _ ih =>
      obtain ⟨k₁, v⟩ := e
      obtain ⟨k₂, v'⟩ := e'
      obtain ⟨rfl, hv⟩ : k₁ = k₂ ∧ r k₁ v v' := he
      rw [Assoc.get?_cons, Assoc.get?_cons]
      by_cases hk : k = k₁
      · subst hk
        rw [if_pos rfl, if_pos rfl]
        exact .inr ⟨v, v', rfl, rfl, hv⟩
      · rw [if_neg hk, if_neg hk]
        exact ih
  exact hlists h

theorem Related.contains (h : Related r d d') (k : K) : d'.contains k = d.contains k := by
  rcases h.get? k with ⟨hd, hd'⟩ | ⟨v, v', hd, hd', -⟩
  · rw [OrderedDict.contains, OrderedDict.contains, hd, hd']
  · rw [OrderedDict.contains, OrderedDict.contains, hd, hd']
    rfl

/-- Writing related values. -/
theorem Related.set (h : Related r d d') {k : K} {v v' : V} (hv : r k v v') :
    Related r (d.set k v) (d'.set k v') := by
  have hlists {l l' : List (K × V)}
      (h : List.Forall₂ (fun e e' ↦ e.1 = e'.1 ∧ r e.1 e.2 e'.2) l l') :
      List.Forall₂ (fun e e' ↦ e.1 = e'.1 ∧ r e.1 e.2 e'.2) (Assoc.set k v l)
        (Assoc.set k v' l') := by
    induction h with
    | nil => exact .cons ⟨rfl, hv⟩ .nil
    | @cons e e' _ _ he htail ih =>
      obtain ⟨k₁, w⟩ := e
      obtain ⟨k₂, w'⟩ := e'
      obtain ⟨rfl, hw⟩ : k₁ = k₂ ∧ r k₁ w w' := he
      rw [Assoc.set, Assoc.set]
      by_cases hk : k = k₁
      · rw [if_pos hk, if_pos hk]
        exact .cons ⟨rfl, hv⟩ htail
      · rw [if_neg hk, if_neg hk]
        exact .cons ⟨rfl, hw⟩ ih
  exact hlists h

theorem Related.erase (h : Related r d d') (k : K) : Related r (d.erase k) (d'.erase k) := by
  have hlists {l l' : List (K × V)}
      (h : List.Forall₂ (fun e e' ↦ e.1 = e'.1 ∧ r e.1 e.2 e'.2) l l') :
      List.Forall₂ (fun e e' ↦ e.1 = e'.1 ∧ r e.1 e.2 e'.2) (Assoc.erase k l)
        (Assoc.erase k l') := by
    induction h with
    | nil => exact .nil
    | cons he _ ih =>
      rw [Assoc.erase_cons, Assoc.erase_cons, ← he.1]
      split
      · exact ih
      · exact .cons he ih
  exact hlists h

end OrderedDict
