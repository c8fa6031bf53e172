import Mathlib.Tactic.Linarith
import Mathlib.Tactic.NormNum
import Pyrad2.DedupCache

/-!
# What an eviction pushes out

Unexpired replies that the cap pushes out, over runs of lookups and recordings.

An eviction drops expired replies from the front, up to the first one that has not expired, and then
pops replies until the cap is met. It spares unexpired replies as long as no expired one stands
behind them. Replies are recorded in the order in which they expire, so as long as nothing else moves
them this is the case; but a lookup moves a reply behind replies that expire later, and so does a
recording with a shorter time to live.
-/

namespace Pyrad2

namespace ResponseCache

variable (c : ResponseCache)

/-- `record_reply(key, raw, ttl)` up to the eviction, by the expiry time. -/
def insertUntil (expiresAt : Time) (key : DedupKey) (raw : Bytes) : ResponseCache :=
  { c with
    inFlight := c.inFlight.erase key
    cached := (c.cached.set key (raw, expiresAt)).moveToEnd key }

theorem insertUntil_ttl (now : Time) (key : DedupKey) (raw : Bytes) :
    c.insertUntil (now + c.ttl) key raw = c.insertReply now key raw := rfl

theorem entries_insertUntil (expiresAt : Time) (key : DedupKey) (raw : Bytes) :
    (c.insertUntil expiresAt key raw).cached.entries =
      (c.cached.erase key).entries ++ [(key, raw, expiresAt)] :=
  OrderedDict.entries_moveToEnd_set ..

/-- An eviction takes an unexpired reply only if there are more of them than the cap allows. -/
def SparesLive (now : Time) : Prop :=
  ∀ k v, c.cached.get? k = some v → now < v.2 → (c.evictLocked now).cached.get? k = none →
    c.maxEntries < (c.cached.entries.filter fun e ↦ now < e.2.2).length

/-- The reply the cap pops first is an unexpired one. -/
theorem exists_evicted_of_lt {now : Time} (h : c.maxEntries < (c.live now).size) :
    ∃ k v, c.cached.get? k = some v ∧ now < v.2 ∧ (c.evictLocked now).cached.get? k = none := by
  have hne : (c.live now).entries ≠ [] := by
    rw [← List.length_pos_iff]
    exact (Nat.zero_le _).trans_lt h
  obtain ⟨e, rest, hlive⟩ := List.exists_cons_of_ne_nil hne
  have hmem : e ∈ c.cached.entries :=
    (List.dropWhile_sublist _).subset (hlive ▸ List.mem_cons_self : e ∈ (c.live now).entries)
  have hunexpired : now < e.2.2 := by
    have hhead := List.head?_dropWhile_not (fun e : DedupKey × Bytes × Time ↦ decide (e.2.2 ≤ now))
      c.cached.entries
    have hfirst : (c.live now).entries.head? = some e := by rw [hlive, List.head?_cons]
    rw [show (List.dropWhile _ c.cached.entries).head? = some e from hfirst] at hhead
    simpa using hhead
  refine ⟨e.1, e.2, OrderedDict.get?_eq_some_iff.2 hmem, hunexpired, ?_⟩
  obtain ⟨n, hn⟩ : ∃ n, c.excess now = n + 1 :=
    Nat.exists_eq_succ_of_ne_zero (Nat.sub_pos_of_lt h).ne'
  have hnodup : (Assoc.keys (c.live now).entries).Nodup := (c.live now).nodup
  rw [hlive] at hnodup
  rw [OrderedDict.get?_eq_none_iff]
  show e.1 ∉ Assoc.keys ((c.live now).entries.drop (c.excess now))
  rw [hlive, hn, List.drop_succ_cons]
  exact fun h ↦ (List.nodup_cons.1 hnodup).1 (((List.drop_sublist n rest).map Prod.fst).subset h)

/-- **Unexpired replies are spared** exactly if dropping expired ones from the front gets down to the
cap, or the unexpired ones alone exceed it. -/
theorem sparesLive_iff (now : Time) :
    c.SparesLive now ↔ (c.live now).size ≤ c.maxEntries ∨
      c.maxEntries < (c.cached.entries.filter fun e ↦ now < e.2.2).length := by
  constructor
  · intro hspares
    rcases Nat.lt_or_ge c.maxEntries (c.live now).size with hlt | hle
    · obtain ⟨k, v, hget, hlive, hgone⟩ := c.exists_evicted_of_lt hlt
      exact .inr (hspares k v hget hlive hgone)
    · exact .inl hle
  · rintro (hle | hlt) k v hget hlive hgone
    · have hnone : c.evictedKeys now = [] := by
        rw [evictedKeys, excess, Nat.sub_eq_zero_of_le hle, List.take_zero]
      rcases DedupState.evictLocked_cases c now hget with hstays | hexpired | hpopped
      · rw [hgone] at hstays
        cases hstays
      · exact absurd hlive hexpired.not_gt
      · rw [hnone] at hpopped
        cases hpopped
    · exact hlt

end ResponseCache

/-! ### Runs -/

namespace DedupState

/-- `record_reply(key, raw, ttl)` -/
def recordReplyFor (s : DedupState) (key : DedupKey) (raw : Bytes) (ttl : Option Time) :
    DedupState :=
  let expiresAt := s.clock.now + ttl.getD s.cache.ttl
  let c := s.cache.insertUntil expiresAt key raw
  let later := s.clock.tick.now
  { s.commit (c.evictLocked later)
      (.recorded key raw expiresAt :: (c.evictedKeys later).map .evicted) with
    clock := s.clock.tick.tick }

theorem recordReplyFor_none (s : DedupState) (key : DedupKey) (raw : Bytes) :
    s.recordReplyFor key raw none = s.recordReply key raw := rfl

/-- The replies a recording finds, and the new one behind them. -/
def repliesWith (s : DedupState) (key : DedupKey) (raw : Bytes) (ttl : Option Time) :
    List (DedupKey × Bytes × Time) :=
  (s.cache.cached.erase key).entries ++ [(key, raw, s.clock.now + ttl.getD s.cache.ttl)]

end DedupState

/-- A call of a cache. -/
inductive CacheCall where
  | lookup (key : DedupKey)
  | recordReply (key : DedupKey) (raw : Bytes) (ttl : Option Time)

namespace CacheCall

/-- What a call does. -/
def run (s : DedupState) : CacheCall → DedupState
  | lookup key => (s.lookup key).2
  | recordReply key raw ttl => s.recordReplyFor key raw ttl

/-- The call pushes out no unexpired reply, unless more unexpired ones are there than the cap
allows. -/
def Spares (s : DedupState) : CacheCall → Prop
  | lookup _ => True
  | recordReply key raw ttl =>
    (s.cache.insertUntil (s.clock.now + ttl.getD s.cache.ttl) key raw).SparesLive s.clock.tick.now

/-- From the first unexpired reply on there are as many as the cap allows, or the unexpired ones
alone are more. -/
def Roomy (s : DedupState) : CacheCall → Prop
  | lookup _ => True
  | recordReply key raw ttl =>
    ((s.repliesWith key raw ttl).dropWhile fun e ↦ e.2.2 ≤ s.clock.tick.now).length ≤
        s.cache.maxEntries ∨
      s.cache.maxEntries <
        ((s.repliesWith key raw ttl).filter fun e ↦ s.clock.tick.now < e.2.2).length

/-- The call moves no reply out of the order in which they expire. -/
def Ordered (s : DedupState) : CacheCall → Prop
  | lookup key => ∀ raw, (s.lookup key).1 ≠ .reply raw
  | recordReply _ _ ttl => ttl = none

theorem spares_iff (s : DedupState) (call : CacheCall) : call.Spares s ↔ call.Roomy s := by
  rcases call with key | ⟨key, raw, ttl⟩
  · exact Iff.rfl
  · rw [Spares, ResponseCache.sparesLive_iff, Roomy, DedupState.repliesWith,
      ← ResponseCache.entries_insertUntil]
    rfl

end CacheCall

/-- Every call of a run, in the state in which it is made. -/
def Along (P : DedupState → CacheCall → Prop) : DedupState → List CacheCall → Prop
  | _, [] => True
  | s, call :: calls => P s call ∧ Along P (call.run s) calls

theorem along_iff {P Q : DedupState → CacheCall → Prop} (h : ∀ s call, P s call ↔ Q s call)
    (s : DedupState) (calls : List CacheCall) : Along P s calls ↔ Along Q s calls := by
  induction calls generalizing s with
  | nil => exact Iff.rfl
  | cons call calls ih => exact and_congr (h s call) (ih _)

/-! ### Replies in the order in which they expire -/

/-- In order of their expiry times, dropping from the front drops everything that has expired. -/
theorem dropWhile_eq_filter {l : List (DedupKey × Bytes × Time)}
    (h : l.Pairwise fun e e' ↦ e.2.2 ≤ e'.2.2) (now : Time) :
    (l.dropWhile fun e ↦ e.2.2 ≤ now) = l.filter fun e ↦ now < e.2.2 := by
  induction l with
  | nil => rfl
  | cons e l ih =>
    obtain ⟨hfirst, hrest⟩ := List.pairwise_cons.1 h
    by_cases he : e.2.2 ≤ now
    · rw [List.dropWhile_cons_of_pos (by simpa using he), ih hrest,
        List.filter_cons_of_neg (by simpa using he)]
    · have hall : ∀ e' ∈ l, now < e'.2.2 := fun e' he' ↦ (not_le.1 he).trans_le (hfirst e' he')
      rw [List.dropWhile_cons_of_neg (by simpa using he), List.filter_cons_of_pos (by simpa using he),
        List.filter_eq_self.2 fun e' he' ↦ by simpa using hall e' he']

namespace DedupState

/-- The replies stand in the order in which they expire, none later than a reply recorded now
would. -/
structure InOrder (s : DedupState) : Prop where
  sorted : s.cache.cached.entries.Pairwise fun e e' ↦ e.2.2 ≤ e'.2.2
  le_now_add : ∀ e ∈ s.cache.cached.entries, e.2.2 ≤ s.clock.now + s.cache.ttl

variable {s : DedupState}

/-- Fewer replies later are still in order. -/
theorem InOrder.of_sublist (h : s.InOrder) {c : ResponseCache} {clock : Clock}
    (hsub : c.cached.entries.Sublist s.cache.cached.entries) (httl : c.ttl = s.cache.ttl)
    (hclock : s.clock.now ≤ clock.now) (events : List CacheEvent) :
    InOrder { s.commit c events with clock := clock } where
  sorted := h.sorted.sublist hsub
  le_now_add := fun e he ↦ by
    have hold := h.le_now_add e (hsub.subset he)
    show e.2.2 ≤ clock.now + c.ttl
    rw [httl]
    linarith

/-- A reply with the time to live of the cache expires last. -/
theorem InOrder.repliesWith (h : s.InOrder) (key : DedupKey) (raw : Bytes) :
    (s.repliesWith key raw none).Pairwise fun e e' ↦ e.2.2 ≤ e'.2.2 := by
  have hsub : (s.cache.cached.erase key).entries.Sublist s.cache.cached.entries :=
    List.filter_sublist
  refine List.pairwise_append.2 ⟨h.sorted.sublist hsub, List.pairwise_singleton _ _,
    fun e he e' he' ↦ ?_⟩
  rw [List.mem_singleton.1 he']
  exact h.le_now_add e (hsub.subset he)

theorem InOrder.run (h : s.InOrder) {call : CacheCall} (hcall : call.Ordered s) :
    (call.run s).InOrder := by
  have hnow : s.clock.now ≤ s.clock.tick.now := s.clock.now_le_now_tick
  rcases call with key | ⟨key, raw, ttl⟩
  · rw [CacheCall.run]
    rcases lookup_cases s key with
      ⟨raw, expiresAt, -, -, hlookup⟩ | ⟨raw, expiresAt, -, -, hlookup⟩ | ⟨-, hlookup⟩
    · exact absurd (by rw [hlookup]) (hcall raw)
    · rw [hlookup]
      exact h.of_sublist (c := { s.cache with cached := s.cache.cached.erase key })
        List.filter_sublist rfl hnow []
    · rw [hlookup]
      exact h.of_sublist (List.Sublist.refl _) rfl hnow []
  · obtain rfl : ttl = none := hcall
    have hsub : (s.recordReplyFor key raw none).cache.cached.entries.Sublist
        (s.repliesWith key raw none) := by
      rw [DedupState.repliesWith, ← ResponseCache.entries_insertUntil]
      exact evictLocked_sublist _ _
    refine ⟨(h.repliesWith key raw).sublist hsub, fun e he ↦ ?_⟩
    have hlater : s.clock.now ≤ s.clock.tick.tick.now := hnow.trans s.clock.tick.now_le_now_tick
    show e.2.2 ≤ s.clock.tick.tick.now + s.cache.ttl
    rcases List.mem_append.1 (hsub.subset he) with hold | hnew
    · have hsub' : (s.cache.cached.erase key).entries.Sublist s.cache.cached.entries :=
        List.filter_sublist
      have := h.le_now_add e (hsub'.subset hold)
      linarith
    · rw [List.mem_singleton.1 hnew]
      show s.clock.now + s.cache.ttl ≤ _
      linarith

theorem InOrder.roomy (h : s.InOrder) {call : CacheCall} (hcall : call.Ordered s) :
    call.Roomy s := by
  rcases call with key | ⟨key, raw, ttl⟩
  · trivial
  · obtain rfl : ttl = none := hcall
    rw [CacheCall.Roomy, dropWhile_eq_filter (h.repliesWith key raw)]
    exact le_or_gt _ _

/-- As long as no call moves a reply out of order, every call finds room. -/
theorem InOrder.along (h : s.InOrder) {calls : List CacheCall}
    (hcalls : Along CacheCall.Ordered s calls) : Along CacheCall.Roomy s calls := by
  induction calls generalizing s with
  | nil => trivial
  | cons call calls ih => exact ⟨h.roomy hcalls.1, ih (h.run hcalls.1) hcalls.2⟩

theorem inOrder_init (cache : ResponseCache) (clock : Clock) : (init cache clock).InOrder where
  sorted := List.Pairwise.nil
  le_now_add := fun _ he ↦ (List.not_mem_nil he).elim

end DedupState

/-- **Eviction spares unexpired replies** in a run exactly if every call finds room. It does so in
every run in which no lookup finds a reply and no recording has a time to live of its own. -/
theorem spares_along_iff (cache : ResponseCache) (clock : Clock) (calls : List CacheCall) :
    (Along CacheCall.Spares (DedupState.init cache clock) calls ↔
      Along CacheCall.Roomy (DedupState.init cache clock) calls) ∧
    (Along CacheCall.Ordered (DedupState.init cache clock) calls →
      Along CacheCall.Spares (DedupState.init cache clock) calls) := by
  have hiff := along_iff CacheCall.spares_iff (DedupState.init cache clock) calls
  exact ⟨hiff, fun hordered ↦ hiff.2 ((DedupState.inOrder_init cache clock).along hordered)⟩

/-- A cache for two replies. -/
def smallCache : ResponseCache where
  ttl := 10
  maxEntries := 2
  ttl_pos := by decide
  maxEntries_pos := by decide

/-- A clock for two recordings, a lookup and a recording. -/
def smallClock : Clock where
  reading := fun n ↦ if n < 2 then 0 else if n < 4 then 5 else if n < 5 then 6 else 12
  monotone := by
    intro m n hmn
    dsimp only
    split_ifs <;> first | omega | norm_num

/-- The key of a request from some port. -/
def portKey (srcPort : ℕ) : DedupKey := { accessRequestKey with srcPort }

/-- Three replies, one after the other. -/
def recordingCalls : List CacheCall :=
  [.recordReply (portKey 1) [1] none, .recordReply (portKey 2) [2] none,
    .recordReply (portKey 3) [3] none]

theorem spares_recordingCalls :
    Along CacheCall.Spares (DedupState.init smallCache smallClock) recordingCalls :=
  (spares_along_iff smallCache smallClock recordingCalls).2 ⟨rfl, rfl, rfl, trivial⟩

/-- The first reply is looked up, expires, and stands behind the second when the third comes. -/
def overtakingCalls : List CacheCall :=
  [.recordReply (portKey 1) [1] none, .recordReply (portKey 2) [2] none, .lookup (portKey 1),
    .recordReply (portKey 3) [3] none]

theorem not_spares_overtakingCalls :
    ¬ Along CacheCall.Spares (DedupState.init smallCache smallClock) overtakingCalls := by
  rintro ⟨-, -, -, hspares, -⟩
  have hlive : (12 : Time) < 15 := by norm_num
  have hlt := hspares (portKey 2) ([2], 15) (by decide +kernel) hlive (by decide +kernel)
  revert hlt
  decide +kernel

end Pyrad2
