import Mathlib.Data.List.TakeWhile
import Pyrad2.Dedup

/-!
# What the cache keeps

The contents of the response cache, read off the log.

The log alone says which reply is the live one for a key (the last one recorded, unless the cap
pushed it out since) and in which order keys were last used. `DedupState.Consistent` ties the cache
to it: every cached reply is the live one, every live one is cached or has expired, and the keys
stand in the order of their last use. Each method of the cache preserves it, and from the order
follows what the cap may push out.
-/

namespace Pyrad2

/-! ### Reading the log -/

/-- The key an event uses: recording and replaying a reply are uses of its key. -/
def CacheEvent.use? : CacheEvent → Option DedupKey
  | recorded key _ _ => some key
  | replayed key => some key
  | evicted _ => none

/-- The keys used, in order. -/
def uses (log : List CacheEvent) : List DedupKey := log.filterMap CacheEvent.use?

/-- How an event changes the live reply of a key. -/
def CacheEvent.update (key : DedupKey) (live : Option (Bytes × Time)) :
    CacheEvent → Option (Bytes × Time)
  | recorded key' raw expiresAt => if key' = key then some (raw, expiresAt) else live
  | replayed _ => live
  | evicted key' => if key' = key then none else live

/-- The reply most recently recorded for a key, with its expiry time, unless the cap has pushed it
out since. -/
def liveReply (key : DedupKey) (log : List CacheEvent) : Option (Bytes × Time) :=
  log.foldl (CacheEvent.update key) none

/-- Since the last use of `key`, at least `n` other keys were used. -/
def Waited (n : ℕ) (key : DedupKey) (log : List CacheEvent) : Prop :=
  ∃ before e since, log = before ++ e :: since ∧ e.use? = some key ∧ key ∉ uses since ∧
    n ≤ (uses since).toFinset.card

@[simp] theorem uses_append (log log' : List CacheEvent) :
    uses (log ++ log') = uses log ++ uses log' := by
  simp [uses]

theorem uses_map_evicted (keys : List DedupKey) : uses (keys.map .evicted) = [] := by
  simp [uses, List.filterMap_map, CacheEvent.use?]

theorem liveReply_append_singleton (key : DedupKey) (log : List CacheEvent) (e : CacheEvent) :
    liveReply key (log ++ [e]) = e.update key (liveReply key log) := by
  simp [liveReply]

theorem liveReply_append_evicted (key : DedupKey) (log : List CacheEvent) (keys : List DedupKey) :
    liveReply key (log ++ keys.map .evicted) =
      if key ∈ keys then none else liveReply key log := by
  induction keys using List.reverseRecOn with
  | nil => simp
  | append_singleton keys k ih =>
    rw [List.map_append, ← List.append_assoc, List.map_singleton, liveReply_append_singleton, ih]
    by_cases hk : k = key
    · simp [CacheEvent.update, hk]
    · simp [CacheEvent.update, hk, Ne.symm hk]

/-- A split of the uses comes from a split of the log. -/
theorem waited_of_uses_eq {n : ℕ} {key : DedupKey} {log : List CacheEvent} {u₁ u₂ : List DedupKey}
    (h : uses log = u₁ ++ key :: u₂) (hnot : key ∉ u₂) (hn : n ≤ u₂.toFinset.card) :
    Waited n key log := by
  obtain ⟨before, rest, rfl, -, hrest⟩ := List.filterMap_eq_append_iff.1 h
  obtain ⟨skip, e, since, rfl, -, he, hsince⟩ := List.filterMap_eq_cons_iff.1 hrest
  refine ⟨before ++ skip, e, since, by simp, he, ?_, ?_⟩
  · rwa [uses, hsince]
  · rwa [uses, hsince]

/-! ### The invariant -/

/-- Within the cap, and no key both cached and in flight. -/
structure CacheContents.Sound (maxEntries : ℕ) (c : CacheContents) : Prop where
  size_le : c.cached.size ≤ maxEntries
  disjoint : ∀ k ∈ c.inFlight, c.cached.get? k = none

namespace DedupState

/-- What is cached now. -/
def contents (s : DedupState) : CacheContents := ⟨s.cache.cached, s.cache.inFlight⟩

/-- The cache agrees with the log. -/
structure Consistent (s : DedupState) : Prop where
  sound : s.contents.Sound s.cache.maxEntries
  /-- The keys stand in the order of their last use. -/
  ordered : s.cache.cached.keys.Sublist (recency (uses s.log))
  /-- A cached reply is the live one. -/
  cached : ∀ k v, s.cache.cached.get? k = some v → liveReply k s.log = some v
  /-- A live reply is cached, or it has expired. -/
  kept : ∀ k v, liveReply k s.log = some v →
    s.cache.cached.get? k = some v ∨ v.2 ≤ s.clock.now
  /-- Whatever was pushed out had waited. -/
  waited : ∀ k l₁ l₂, s.log = l₁ ++ .evicted k :: l₂ → Waited s.cache.maxEntries k l₁
  /-- The contents were sound after every step. -/
  history : ∀ c ∈ s.history, c.Sound s.cache.maxEntries

/-- A fresh cache. -/
def init (cache : ResponseCache) (clock : Clock) : DedupState :=
  { cache := { cache with cached := ∅, inFlight := ∅ }, clock }

theorem consistent_init (cache : ResponseCache) (clock : Clock) : (init cache clock).Consistent where
  sound := ⟨Nat.zero_le _, fun _ _ ↦ rfl⟩
  ordered := List.nil_sublist _
  cached := fun k v h ↦ by cases h
  kept := fun k v h ↦ by cases h
  waited := fun k l₁ l₂ h ↦ by simp [init] at h
  history := fun c h ↦ by simp [init] at h

/-! ### Looking up -/

variable {s : DedupState}

/-- **What a lookup can do**: replay a reply, drop an expired one, or find none. -/
theorem lookup_cases (s : DedupState) (key : DedupKey) :
    (∃ raw expiresAt, s.cache.cached.get? key = some (raw, expiresAt) ∧
      s.clock.now < expiresAt ∧
      s.lookup key = (.reply raw,
        { s.commit { s.cache with cached := s.cache.cached.moveToEnd key } [.replayed key] with
          clock := s.clock.tick })) ∨
    (∃ raw expiresAt, s.cache.cached.get? key = some (raw, expiresAt) ∧
      expiresAt ≤ s.clock.now ∧
      s.lookup key = (s.cache.inFlightEntry key,
        { s.commit { s.cache with cached := s.cache.cached.erase key } [] with
          clock := s.clock.tick })) ∨
    (s.cache.cached.get? key = none ∧
      s.lookup key = (s.cache.inFlightEntry key,
        { s.commit s.cache [] with clock := s.clock.tick })) := by
  have hevents : (s.cache.inFlightEntry key).events key = [] := by
    rw [ResponseCache.inFlightEntry]
    split <;> rfl
  rcases hget : s.cache.cached.get? key with - | ⟨raw, expiresAt⟩
  · refine .inr (.inr ⟨rfl, ?_⟩)
    simp only [lookup, ResponseCache.lookup, hget, hevents]
  · rcases lt_or_ge s.clock.now expiresAt with hlt | hge
    · refine .inl ⟨raw, expiresAt, rfl, hlt, ?_⟩
      simp only [lookup, ResponseCache.lookup, hget, if_pos hlt, CacheEntry.events]
    · refine .inr (.inl ⟨raw, expiresAt, rfl, hge, ?_⟩)
      simp only [lookup, ResponseCache.lookup, hget, if_neg (not_lt.2 hge), hevents]

theorem inFlightEntry_ne_reply (c : ResponseCache) (key : DedupKey) (raw : Bytes) :
    c.inFlightEntry key ≠ .reply raw := by
  rw [ResponseCache.inFlightEntry]
  split <;> simp

/-- **A lookup returns the live reply** as long as that has not expired. -/
theorem Consistent.lookup_eq_reply_iff (hs : s.Consistent) {key : DedupKey} {raw : Bytes} :
    (s.lookup key).1 = .reply raw ↔
      ∃ expiresAt, liveReply key s.log = some (raw, expiresAt) ∧ s.clock.now < expiresAt := by
  have hexpired (hmiss : ∀ v, s.cache.cached.get? key = some v → v.2 ≤ s.clock.now) :
      ¬ ∃ expiresAt, liveReply key s.log = some (raw, expiresAt) ∧ s.clock.now < expiresAt := by
    rintro ⟨expiresAt, hlive, hlt⟩
    rcases hs.kept key _ hlive with hget | hle
    · exact absurd (hmiss _ hget) (not_le.2 hlt)
    · exact absurd hle (not_le.2 hlt)
  rcases lookup_cases s key with
    ⟨raw', expiresAt, hget, hlt, hlookup⟩ | ⟨raw', expiresAt, hget, hle, hlookup⟩ | ⟨hget, hlookup⟩
  · have hlive := hs.cached key _ hget
    rw [hlookup, hlive]
    constructor
    · rintro h
      cases h
      exact ⟨expiresAt, rfl, hlt⟩
    · rintro ⟨_, h, -⟩
      cases h
      rfl
  · rw [hlookup]
    refine iff_of_false (inFlightEntry_ne_reply _ _ _) (hexpired fun v hv ↦ ?_)
    rw [hget] at hv
    cases hv
    exact hle
  · rw [hlookup]
    refine iff_of_false (inFlightEntry_ne_reply _ _ _) (hexpired fun v hv ↦ ?_)
    rw [hget] at hv
    cases hv

/-- The reply recorded for a key that is neither expired nor evicted. -/
def unexpiredReply (s : DedupState) (key : DedupKey) : Option Bytes :=
  ((liveReply key s.log).filter fun v ↦ s.clock.now < v.2).map Prod.fst

theorem unexpiredReply_eq_some_iff {key : DedupKey} {raw : Bytes} :
    s.unexpiredReply key = some raw ↔
      ∃ expiresAt, liveReply key s.log = some (raw, expiresAt) ∧ s.clock.now < expiresAt := by
  simp [unexpiredReply, Option.filter_eq_some_iff]

theorem cache_lookup (s : DedupState) (key : DedupKey) :
    (s.lookup key).2.cache.inFlight = s.cache.inFlight ∧
      (s.lookup key).2.cache.maxEntries = s.cache.maxEntries ∧
      (s.lookup key).2.cache.ttl = s.cache.ttl := by
  rcases lookup_cases s key with
    ⟨raw, expiresAt, -, -, hlookup⟩ | ⟨raw, expiresAt, -, -, hlookup⟩ | ⟨-, hlookup⟩ <;>
  · rw [hlookup]
    exact ⟨rfl, rfl, rfl⟩

/-- A lookup that finds no reply leaves none in the cache. -/
theorem get?_lookup_eq_none {key : DedupKey} (h : (s.lookup key).1 = .none) :
    (s.lookup key).2.cache.cached.get? key = none := by
  rcases lookup_cases s key with
    ⟨raw, expiresAt, -, -, hlookup⟩ | ⟨raw, expiresAt, -, -, hlookup⟩ | ⟨hget, hlookup⟩
  · rw [hlookup] at h
    cases h
  · rw [hlookup]
    exact (OrderedDict.get?_erase ..).trans (if_pos rfl)
  · rw [hlookup]
    exact hget

/-! ### Steps that use no key -/

/-- A step that uses no key may drop expired replies and change what is in flight. -/
theorem Consistent.commit_nil (hs : s.Consistent) {c : ResponseCache} (clock : Clock)
    (hmax : c.maxEntries = s.cache.maxEntries)
    (hsub : c.cached.entries.Sublist s.cache.cached.entries)
    (hlost : ∀ k v, s.cache.cached.get? k = some v →
      c.cached.get? k = some v ∨ v.2 ≤ s.clock.now)
    (hdisjoint : ∀ k ∈ c.inFlight, c.cached.get? k = none) (hclock : s.clock.now ≤ clock.now) :
    ({ s.commit c [] with clock := clock } : DedupState).Consistent := by
  have hsound : CacheContents.Sound c.maxEntries ⟨c.cached, c.inFlight⟩ := by
    refine ⟨?_, hdisjoint⟩
    rw [hmax]
    exact hsub.length_le.trans hs.sound.size_le
  refine ⟨hsound, ?_, fun k v hv ↦ ?_, fun k v hv ↦ ?_, fun k l₁ l₂ hsplit ↦ ?_, fun c' hc' ↦ ?_⟩
  · simp only [commit, List.append_nil]
    exact (hsub.map Prod.fst).trans hs.ordered
  · simp only [commit, List.append_nil]
    exact hs.cached k v (OrderedDict.get?_of_sublist hsub hv)
  · simp only [commit, List.append_nil] at hv
    rcases hs.kept k v hv with hget | hle
    · rcases hlost k v hget with hget' | hle
      · exact .inl hget'
      · exact .inr (hle.trans hclock)
    · exact .inr (hle.trans hclock)
  · simp only [commit, List.append_nil] at hsplit
    rw [show (commit s c []).cache.maxEntries = s.cache.maxEntries from hmax]
    exact hs.waited k l₁ l₂ hsplit
  · rcases List.mem_append.1 hc' with hc' | hc'
    · rw [show (commit s c []).cache.maxEntries = s.cache.maxEntries from hmax]
      exact hs.history c' hc'
    · rw [List.mem_singleton.1 hc']
      exact hsound

/-- Time passes. -/
theorem Consistent.tick (hs : s.Consistent) :
    ({ s with clock := s.clock.tick } : DedupState).Consistent where
  sound := hs.sound
  ordered := hs.ordered
  cached := hs.cached
  kept := fun k v hv ↦ (hs.kept k v hv).imp_right fun h ↦ h.trans s.clock.now_le_now_tick
  waited := hs.waited
  history := hs.history

theorem Consistent.lookup (hs : s.Consistent) (key : DedupKey) : (s.lookup key).2.Consistent := by
  rcases lookup_cases s key with
    ⟨raw, expiresAt, hget, hlt, hlookup⟩ | ⟨raw, expiresAt, hget, hle, hlookup⟩ | ⟨hget, hlookup⟩
  · have hmem : key ∈ s.cache.cached.keys := OrderedDict.mem_keys_iff.2 ⟨_, hget⟩
    have hlive (k : DedupKey) : liveReply k (s.log ++ [.replayed key]) = liveReply k s.log :=
      liveReply_append_singleton k s.log _
    have hsound : CacheContents.Sound s.cache.maxEntries
        ⟨s.cache.cached.moveToEnd key, s.cache.inFlight⟩ := by
      refine ⟨(OrderedDict.size_moveToEnd hmem).trans_le hs.sound.size_le, fun k hk ↦ ?_⟩
      rw [OrderedDict.get?_moveToEnd]
      exact hs.sound.disjoint k hk
    rw [hlookup]
    refine ⟨hsound, ?_, fun k v hv ↦ ?_, fun k v hv ↦ ?_, fun k l₁ l₂ hsplit ↦ ?_, fun c hc ↦ ?_⟩
    · simp only [commit, uses_append, OrderedDict.keys_moveToEnd hmem]
      exact sublist_recency_use hs.ordered key
    · simp only [commit, OrderedDict.get?_moveToEnd] at hv
      exact (hlive k).trans (hs.cached k v hv)
    · simp only [commit, OrderedDict.get?_moveToEnd]
      rcases hs.kept k v ((hlive k).symm.trans hv) with hget | hle
      · exact .inl hget
      · exact .inr (hle.trans s.clock.now_le_now_tick)
    · rcases List.eq_nil_or_concat l₂ with rfl | ⟨l₂, e, rfl⟩
      · have := (List.append_inj' hsplit rfl).2
        simp at this
      · have hsplit' : s.log ++ [.replayed key] = (l₁ ++ .evicted k :: l₂) ++ [e] := by
          rw [show s.log ++ [.replayed key] = _ from hsplit]
          simp
        exact hs.waited k l₁ l₂ (List.append_inj' hsplit' rfl).1
    · rcases List.mem_append.1 hc with hc | hc
      · exact hs.history c hc
      · rw [List.mem_singleton.1 hc]
        exact hsound
  · rw [hlookup]
    refine hs.commit_nil s.clock.tick rfl List.filter_sublist (fun k v hv ↦ ?_)
      (fun k hk ↦ ?_) s.clock.now_le_now_tick
    · by_cases hk : k = key
      · subst hk
        rw [hget] at hv
        cases hv
        exact .inr hle
      · refine .inl ?_
        rw [OrderedDict.get?_erase, if_neg hk]
        exact hv
    · rw [OrderedDict.get?_erase]
      split
      · rfl
      · exact hs.sound.disjoint k hk
  · rw [hlookup]
    exact hs.commit_nil s.clock.tick rfl (List.Sublist.refl _) (fun _ _ ↦ .inl)
      hs.sound.disjoint s.clock.now_le_now_tick

theorem Consistent.markInFlight (hs : s.Consistent) {key : DedupKey}
    (hkey : s.cache.cached.get? key = none) : (s.markInFlight key).Consistent := by
  refine hs.commit_nil s.clock rfl (List.Sublist.refl _) (fun _ _ ↦ .inl)
    (fun k hk ↦ ?_) le_rfl
  rcases Finset.mem_insert.1 hk with rfl | hk
  · exact hkey
  · exact hs.sound.disjoint k hk

theorem Consistent.dropInFlight (hs : s.Consistent) (key : DedupKey) :
    (s.dropInFlight key).Consistent :=
  hs.commit_nil s.clock rfl (List.Sublist.refl _) (fun _ _ ↦ .inl)
    (fun k hk ↦ hs.sound.disjoint k (Finset.mem_of_mem_erase hk)) le_rfl

/-! ### Recording -/

theorem get?_insertReply (c : ResponseCache) (now : Time) (key k : DedupKey) (raw : Bytes) :
    (c.insertReply now key raw).cached.get? k =
      if k = key then some (raw, now + c.ttl) else c.cached.get? k := by
  rw [ResponseCache.insertReply, OrderedDict.get?_moveToEnd, OrderedDict.get?_set]

/-- The replies an eviction leaves are among those it found. -/
theorem evictLocked_sublist (c : ResponseCache) (now : Time) :
    (c.evictLocked now).cached.entries.Sublist c.cached.entries :=
  (List.drop_sublist _ _).trans (List.dropWhile_sublist _)

theorem size_evictLocked_le (c : ResponseCache) (now : Time) :
    (c.evictLocked now).cached.size ≤ c.maxEntries := by
  change ((c.live now).entries.drop (c.excess now)).length ≤ c.maxEntries
  rw [List.length_drop, ResponseCache.excess, OrderedDict.size]
  omega

/-- **What becomes of a reply in an eviction**: it stays, it has expired, or the cap pops it. -/
theorem evictLocked_cases (c : ResponseCache) (now : Time) {k : DedupKey} {v : Bytes × Time}
    (h : c.cached.get? k = some v) :
    (c.evictLocked now).cached.get? k = some v ∨ v.2 ≤ now ∨ k ∈ c.evictedKeys now := by
  have hmem : (k, v) ∈ c.cached.entries := OrderedDict.get?_eq_some_iff.1 h
  rw [← List.takeWhile_append_dropWhile (p := fun e ↦ decide (e.2.2 ≤ now))
    (l := c.cached.entries)] at hmem
  rcases List.mem_append.1 hmem with hexpired | hlive
  · exact .inr (.inl (by simpa using List.mem_takeWhile_imp hexpired))
  · have hlive' : (k, v) ∈ (c.live now).entries := hlive
    rw [← List.take_append_drop (c.excess now) (c.live now).entries] at hlive'
    rcases List.mem_append.1 hlive' with hpopped | hstays
    · refine .inr (.inr ?_)
      rw [ResponseCache.evictedKeys, OrderedDict.keys, Assoc.keys, ← List.map_take]
      exact List.mem_map.2 ⟨_, hpopped, rfl⟩
    · exact .inl (OrderedDict.get?_eq_some_iff.2 hstays)

/-- A key the cap pops is gone. -/
theorem not_mem_evictedKeys (c : ResponseCache) (now : Time) {k : DedupKey} {v : Bytes × Time}
    (h : (c.evictLocked now).cached.get? k = some v) : k ∉ c.evictedKeys now := by
  have hnodup : (c.live now).keys.Nodup := (c.live now).nodup
  rw [← List.take_append_drop (c.excess now) (c.live now).keys] at hnodup
  have hstays : k ∈ (c.live now).keys.drop (c.excess now) := by
    rw [OrderedDict.keys, Assoc.keys, ← List.map_drop]
    exact List.mem_map.2 ⟨_, OrderedDict.get?_eq_some_iff.1 h, rfl⟩
  exact fun hpopped ↦ List.disjoint_of_nodup_append hnodup hpopped hstays

/-- Behind a key that the cap pops stand at least as many as the cap allows. -/
theorem exists_behind_of_evictedKeys (c : ResponseCache) (now : Time) {k : DedupKey}
    {b₁ b₂ : List DedupKey} (h : c.evictedKeys now = b₁ ++ k :: b₂) :
    ∃ rest, (k :: rest).Sublist c.cached.keys ∧ c.maxEntries ≤ rest.length := by
  have hexcess : (c.evictedKeys now).length ≤ c.excess now := List.length_take_le ..
  have hpos : 0 < c.excess now := by
    rw [h] at hexcess
    simp at hexcess
    omega
  have hsplit : (c.live now).keys =
      b₁ ++ k :: (b₂ ++ (c.live now).keys.drop (c.excess now)) := by
    rw [← List.cons_append, ← List.append_assoc, ← h, ResponseCache.evictedKeys,
      List.take_append_drop]
  refine ⟨b₂ ++ (c.live now).keys.drop (c.excess now), ?_, ?_⟩
  · have hsub : (c.live now).keys.Sublist c.cached.keys :=
      (List.dropWhile_sublist _).map _
    have hbehind := List.sublist_append_right b₁ (k :: (b₂ ++ (c.live now).keys.drop (c.excess now)))
    rw [← hsplit] at hbehind
    exact hbehind.trans hsub
  · have hsize : (c.live now).keys.length = (c.live now).size := List.length_map _
    rw [List.length_append, List.length_drop, hsize]
    rw [ResponseCache.excess] at hpos ⊢
    omega

/-- Where an eviction event stands in a log that ends with a recording and its evictions. -/
theorem split_of_recorded_append {log l₁ l₂ : List CacheEvent} {key k : DedupKey} {raw : Bytes}
    {expiresAt : Time} {keys : List DedupKey}
    (h : log ++ .recorded key raw expiresAt :: keys.map .evicted = l₁ ++ .evicted k :: l₂) :
    (∃ t, log = l₁ ++ .evicted k :: t) ∨
      ∃ b₁ b₂, keys = b₁ ++ k :: b₂ ∧
        l₁ = log ++ .recorded key raw expiresAt :: b₁.map .evicted := by
  rcases List.append_eq_append_iff.1 h with ⟨t, rfl, ht⟩ | ⟨t, rfl, ht⟩
  · rcases t with - | ⟨e, t⟩
    · cases ht
    · obtain ⟨rfl, ht'⟩ := List.cons.inj ht
      obtain ⟨b₁, b₂, rfl, hb₁, hb₂⟩ := List.map_eq_append_iff.1 ht'
      rcases b₂ with - | ⟨j, b₂⟩
      · cases hb₂
      · obtain ⟨hj, -⟩ := List.cons.inj hb₂
        cases hj
        exact .inr ⟨b₁, b₂, rfl, by rw [hb₁]⟩
  · rcases t with - | ⟨e, t⟩
    · cases ht
    · obtain ⟨rfl, -⟩ := List.cons.inj ht
      exact .inl ⟨t, rfl⟩

theorem Consistent.recordReply (hs : s.Consistent) (key : DedupKey) (raw : Bytes) :
    (s.recordReply key raw).Consistent := by
  set c := s.cache.insertReply s.clock.now key raw with hc
  set later := s.clock.tick.now with hlater
  set event : CacheEvent := .recorded key raw (s.clock.now + s.cache.ttl) with hevent
  have hclock : later ≤ s.clock.tick.tick.now := s.clock.tick.now_le_now_tick
  have hnow : s.clock.now ≤ later := s.clock.now_le_now_tick
  have hlog : (s.recordReply key raw).log =
      (s.log ++ [event]) ++ (c.evictedKeys later).map .evicted := by
    simp [DedupState.recordReply, commit, hc, hlater, hevent]
  have hget (k : DedupKey) : c.cached.get? k =
      if k = key then some (raw, s.clock.now + s.cache.ttl) else s.cache.cached.get? k :=
    get?_insertReply ..
  have hlive (k : DedupKey) : liveReply k (s.log ++ [event]) =
      if k = key then some (raw, s.clock.now + s.cache.ttl) else liveReply k s.log := by
    rw [liveReply_append_singleton, hevent, CacheEvent.update]
    exact if_congr eq_comm rfl rfl
  have huses : uses (s.log ++ [event]) = uses s.log ++ [key] := uses_append ..
  have hkeys : c.cached.keys.Sublist (recency (uses (s.log ++ [event]))) := by
    rw [huses, hc, ResponseCache.insertReply, OrderedDict.keys_moveToEnd_set]
    exact sublist_recency_use hs.ordered key
  have hsub : (c.evictLocked later).cached.entries.Sublist c.cached.entries :=
    evictLocked_sublist c later
  have hsound : CacheContents.Sound s.cache.maxEntries
      ⟨(c.evictLocked later).cached, (c.evictLocked later).inFlight⟩ := by
    refine ⟨size_evictLocked_le c later, fun k hk ↦ ?_⟩
    obtain ⟨hne, hk⟩ := Finset.mem_erase.1 hk
    rcases hkept : (c.evictLocked later).cached.get? k with - | v
    · rfl
    · have hv := OrderedDict.get?_of_sublist hsub hkept
      have hnone : s.cache.cached.get? k = none := hs.sound.disjoint k hk
      rw [hget, if_neg hne, hnone] at hv
      cases hv
  refine ⟨hsound, ?_, fun k v hv ↦ ?_, fun k v hv ↦ ?_, fun k l₁ l₂ hsplit ↦ ?_, fun c' hc' ↦ ?_⟩
  · -- the order of use survives the eviction
    rw [hlog, uses_append (s.log ++ [event]), uses_map_evicted, List.append_nil]
    exact (hsub.map Prod.fst).trans hkeys
  · -- what is cached is the live reply
    have hk : k ∉ c.evictedKeys later := not_mem_evictedKeys c later hv
    have hv' := OrderedDict.get?_of_sublist hsub hv
    rw [hlog, liveReply_append_evicted, if_neg hk, hlive]
    rw [hget] at hv'
    split at hv'
    · rw [if_pos ‹_›, hv']
    · rw [if_neg ‹_›]
      exact hs.cached k v hv'
  · -- a live reply is cached still, unless its time is over
    have hk : k ∉ c.evictedKeys later := by
      intro hk
      rw [hlog, liveReply_append_evicted, if_pos hk] at hv
      cases hv
    rw [hlog, liveReply_append_evicted, if_neg hk, hlive] at hv
    have hinserted : c.cached.get? k = some v ∨ v.2 ≤ s.clock.now := by
      rw [hget]
      split at hv
      · rw [if_pos ‹_›]
        exact .inl hv
      · rw [if_neg ‹_›]
        exact hs.kept k v hv
    rcases hinserted with hinserted | hle
    · rcases evictLocked_cases c later hinserted with hstays | hle | hpopped
      · exact .inl hstays
      · exact .inr (hle.trans hclock)
      · exact absurd hpopped hk
    · exact .inr (hle.trans (hnow.trans hclock))
  · -- what is popped for want of room has waited behind enough others
    rw [hlog, List.append_assoc] at hsplit
    rcases split_of_recorded_append hsplit with ⟨t, ht⟩ | ⟨b₁, b₂, hpopped, rfl⟩
    · exact hs.waited k l₁ t ht
    · obtain ⟨rest, hrest, hle⟩ := exists_behind_of_evictedKeys c later hpopped
      obtain ⟨u₁, u₂, hu, hnot, hcard⟩ := exists_waiting_of_sublist (hrest.trans hkeys)
      have huses' : uses (s.log ++ event :: b₁.map .evicted) = u₁ ++ k :: u₂ := by
        rw [← hu, ← List.singleton_append, ← List.append_assoc, uses_append (s.log ++ [event]),
          uses_map_evicted, List.append_nil]
      exact waited_of_uses_eq huses' hnot (hle.trans hcard)
  · rcases List.mem_append.1 hc' with hc' | hc'
    · exact hs.history c' hc'
    · rw [List.mem_singleton.1 hc']
      exact hsound

end DedupState

end Pyrad2
