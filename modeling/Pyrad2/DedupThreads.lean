import Mathlib.Data.List.Infix
import Pyrad2.DedupRuns

/-!
# Threads that share a cache

Any number of threads that consult one response cache.

Every method of the cache is one step, but a consultation that finds nothing is two of them: the
lookup, and then the mark that keeps duplicates out. Steps of other threads may come in between.
`CacheThreads` has the threads that are between their two steps as part of its state, and a trace of
what consultations returned and which keys were given free.

A key is claimed by one thread at a time exactly as long as no other lookup of it finds nothing
while a thread is between its two steps.
-/

namespace Pyrad2

/-- What threads see of each other. -/
inductive ThreadEvent (I : Type) where
  /-- `consult_cache(key)` returned to a thread. -/
  | returned (thread : I) (key : DedupKey) (action : DispatchAction)
  /-- `drop_in_flight(key)` -/
  | released (key : DedupKey)
  /-- `record_reply(key, raw)` -/
  | recorded (key : DedupKey)
  deriving DecidableEq

namespace ThreadEvent

variable {I : Type}

/-- Does the event release or record the key? -/
def frees (k : DedupKey) : ThreadEvent I → Bool
  | returned _ _ _ => false
  | released key => key = k
  | recorded key => key = k

/-- Does the event hand the key to a thread for processing? -/
def claims (k : DedupKey) : ThreadEvent I → Bool
  | returned _ key action => key = k ∧ action = .process
  | _ => false

end ThreadEvent

/-- Between two events that release or record a key, at most one consultation returns `PROCESS`. -/
def AtMostOneClaim {I : Type} (trace : List (ThreadEvent I)) : Prop :=
  ∀ k seg, seg <:+: trace → (∀ e ∈ seg, e.frees k = false) →
    seg.countP (ThreadEvent.claims k) ≤ 1

/-- A cache, the threads at work on it, and what happened so far. -/
structure CacheThreads (I : Type) where
  cache : ResponseCache
  /-- The key a thread has looked up without finding anything, and not marked yet. -/
  missed : I → Option DedupKey := fun _ ↦ none
  trace : List (ThreadEvent I) := []

/-- A lock-protected step, with the clock readings it takes. -/
inductive CacheStep (I : Type) where
  /-- `consult_cache(key)` up to the lookup. -/
  | lookup (thread : I) (key : DedupKey) (now : Time)
  /-- The rest of a consultation that found nothing. -/
  | mark (thread : I)
  | record (key : DedupKey) (raw : Bytes) (now later : Time)
  | drop (key : DedupKey)

namespace CacheThreads

variable {I : Type} [DecidableEq I]

/-- One step, if the thread can take it. -/
def step (s : CacheThreads I) : CacheStep I → Option (CacheThreads I)
  | .lookup i key now =>
    if s.missed i ≠ none then none
    else
      match s.cache.lookup now key with
      | (.inFlight, cache) => some { s with cache, trace := s.trace ++ [.returned i key .drop] }
      | (.reply _, cache) => some { s with cache, trace := s.trace ++ [.returned i key .resent] }
      | (.none, cache) => some { s with cache, missed := Function.update s.missed i (some key) }
  | .mark i =>
    match s.missed i with
    | none => none
    | some key => some {
        cache := s.cache.markInFlight key
        missed := Function.update s.missed i none
        trace := s.trace ++ [.returned i key .process] }
  | .record key raw now later => some { s with
      cache := s.cache.recordReply now later key raw
      trace := s.trace ++ [.recorded key] }
  | .drop key => some { s with
      cache := s.cache.dropInFlight key
      trace := s.trace ++ [.released key] }

/-- A sequence of steps. -/
def run (s : CacheThreads I) (steps : List (CacheStep I)) : Option (CacheThreads I) :=
  steps.foldlM step s

/-- The step is not a lookup that finds nothing while a thread has yet to mark the same key. -/
def Undisturbed (s : CacheThreads I) : CacheStep I → Prop
  | .lookup _ key now => (s.cache.lookup now key).1 = .none → ∀ j, s.missed j ≠ some key
  | _ => True

/-- Along the run, no step is disturbed. -/
def UndisturbedRun : CacheThreads I → List (CacheStep I) → Prop
  | _, [] => True
  | s, a :: steps => s.Undisturbed a ∧ ∀ s', s.step a = some s' → UndisturbedRun s' steps

/-- A thread that is left alone does what `consultCache` does. -/
theorem exists_run_of_consultCache {r : RequestRouter} (hcache : r.hasDedupCache = true) (i : I)
    (k : DedupKey) (s : ServerState) :
    ∃ action s' steps t, (r.consultCache (some k) fun _ ↦ pure ()).run s = .ok action s' ∧
      run { cache := s.dedup.cache } steps = some t ∧ t.cache = s'.dedup.cache ∧
      t.trace = [.returned i k action] := by
  have hlookup : s.dedup.lookup k =
      ((s.dedup.cache.lookup s.dedup.clock.now k).1, (s.dedup.lookup k).2) := rfl
  have hcache' : (s.dedup.lookup k).2.cache = (s.dedup.cache.lookup s.dedup.clock.now k).2 := rfl
  have hconsult := run_consultCache_some hcache k (fun _ ↦ pure ()) s
  rw [hlookup] at hconsult
  rcases hfound : s.dedup.cache.lookup s.dedup.clock.now k with ⟨raw | - | -, cache⟩ <;>
    rw [hfound] at hconsult hcache'
  · refine ⟨_, _, [.lookup i k s.dedup.clock.now],
      { cache, trace := [.returned i k .resent] }, hconsult, ?_, hcache'.symm, rfl⟩
    simp [run, step, hfound]
  · refine ⟨_, _, [.lookup i k s.dedup.clock.now],
      { cache, trace := [.returned i k .drop] }, hconsult, ?_, hcache'.symm, rfl⟩
    simp [run, step, hfound]
  · refine ⟨_, _, [.lookup i k s.dedup.clock.now, .mark i],
      { cache := cache.markInFlight k, trace := [.returned i k .process] }, hconsult, ?_, ?_, rfl⟩
    · simp [run, step, hfound]
    · exact congrArg (ResponseCache.markInFlight · k) hcache'.symm

/-! ### Claims in a trace -/

omit [DecidableEq I]

/-- How often a key was claimed since it was last given free. -/
def openClaims (k : DedupKey) (trace : List (ThreadEvent I)) : ℕ :=
  trace.foldl (fun n e ↦ if e.frees k then 0 else if e.claims k then n + 1 else n) 0

theorem openClaims_append_singleton (k : DedupKey) (trace : List (ThreadEvent I))
    (e : ThreadEvent I) :
    openClaims k (trace ++ [e]) =
      if e.frees k then 0 else if e.claims k then openClaims k trace + 1 else openClaims k trace := by
  simp [openClaims]

/-- A stretch that does not free the key adds its claims. -/
theorem countP_claims_le_openClaims {k : DedupKey} (pre : List (ThreadEvent I))
    {seg : List (ThreadEvent I)} (h : ∀ e ∈ seg, e.frees k = false) :
    seg.countP (ThreadEvent.claims k) ≤ openClaims k (pre ++ seg) := by
  induction seg using List.reverseRecOn with
  | nil => exact Nat.zero_le _
  | append_singleton seg e ih =>
    have hseg : ∀ e ∈ seg, e.frees k = false := fun e he ↦ h e (List.mem_append_left _ he)
    have he : e.frees k = false := h e (by simp)
    have hle := ih hseg
    rw [← List.append_assoc, openClaims_append_singleton, he, List.countP_append,
      List.countP_singleton]
    rcases e.claims k
    · simpa using hle
    · simpa using hle

theorem atMostOneClaim_of_openClaims_le {trace : List (ThreadEvent I)}
    (h : ∀ k l, l <+: trace → openClaims k l ≤ 1) : AtMostOneClaim trace := by
  rintro k seg ⟨pre, post, rfl⟩ hseg
  exact (countP_claims_le_openClaims pre hseg).trans (h k _ (List.prefix_append _ _))

/-! ### The invariant -/

/-- Keys are claimed one thread at a time. -/
structure Exclusive (s : CacheThreads I) : Prop where
  /-- A key has at most one thread between its two steps. -/
  unique : ∀ i j k, s.missed i = some k → s.missed j = some k → i = j
  /-- Its key is not in flight. -/
  free : ∀ i k, s.missed i = some k → k ∉ s.cache.inFlight
  /-- A claimed key is in flight. -/
  held : ∀ k, openClaims k s.trace = 1 → k ∈ s.cache.inFlight
  atMostOne : ∀ k l, l <+: s.trace → openClaims k l ≤ 1

theorem exclusive_init (cache : ResponseCache) : Exclusive (I := I) { cache } where
  unique := fun i j k h ↦ by cases h
  free := fun i k h ↦ by cases h
  held := fun k h ↦ by cases h
  atMostOne := fun k l h ↦ by
    rw [List.prefix_nil.1 h]
    exact Nat.zero_le 1

theorem forall_prefix_append_singleton {P : List (ThreadEvent I) → Prop}
    {trace : List (ThreadEvent I)} {e : ThreadEvent I} (h : ∀ l, l <+: trace → P l)
    (he : P (trace ++ [e])) : ∀ l, l <+: trace ++ [e] → P l := by
  intro l hl
  rcases List.prefix_concat_iff.1 (by simpa using hl) with rfl | hl
  · exact he
  · exact h l hl

theorem inFlight_lookup (c : ResponseCache) (now : Time) (k : DedupKey) :
    (c.lookup now k).2.inFlight = c.inFlight := by
  rw [ResponseCache.lookup]
  split
  · split <;> rfl
  · rfl

/-- A lookup finds nothing only for a key that is not in flight. -/
theorem not_mem_inFlight_of_lookup {c : ResponseCache} {now : Time} {k : DedupKey}
    (h : (c.lookup now k).1 = .none) : k ∉ c.inFlight := by
  have hentry : c.inFlightEntry k = .none := by
    rw [ResponseCache.lookup] at h
    split at h
    · split at h
      · cases h
      · exact h
    · exact h
  intro hk
  rw [ResponseCache.inFlightEntry, if_pos hk] at hentry
  cases hentry

variable {s s' : CacheThreads I}

/-- A step after which every pending key is still free and every claimed one still held. -/
theorem Exclusive.of_step (h : s.Exclusive) {e : ThreadEvent I}
    (htrace : s'.trace = s.trace ++ [e])
    (hunique : ∀ i j k, s'.missed i = some k → s'.missed j = some k → i = j)
    (hfree : ∀ i k, s'.missed i = some k → k ∉ s'.cache.inFlight)
    (hheld : ∀ k, e.frees k = false → e.claims k = true ∨ k ∈ s.cache.inFlight →
      k ∈ s'.cache.inFlight)
    (hnew : ∀ k, e.claims k = true → k ∉ s.cache.inFlight) : s'.Exclusive := by
  -- a key that is claimed now was not held before, so it had no open claim
  have hzero (k : DedupKey) (hk : e.claims k = true) : openClaims k s.trace = 0 := by
    have hle := h.atMostOne k s.trace List.prefix_rfl
    have hne : openClaims k s.trace ≠ 1 := fun hone ↦ hnew k hk (h.held k hone)
    omega
  have hopen (k : DedupKey) : openClaims k (s.trace ++ [e]) ≤ 1 ∧
      (openClaims k (s.trace ++ [e]) = 1 → k ∈ s'.cache.inFlight) := by
    rw [openClaims_append_singleton]
    rcases hfrees : e.frees k
    · rcases hclaims : e.claims k
      · exact ⟨h.atMostOne k s.trace List.prefix_rfl,
          fun hone ↦ hheld k hfrees (.inr (h.held k hone))⟩
      · rw [hzero k hclaims]
        exact ⟨le_rfl, fun _ ↦ hheld k hfrees (.inl hclaims)⟩
    · exact ⟨Nat.zero_le 1, fun hone ↦ by cases hone⟩
  refine ⟨hunique, hfree, fun k hk ↦ ?_, fun k ↦ ?_⟩
  · rw [htrace] at hk
    exact (hopen k).2 hk
  · rw [htrace]
    exact forall_prefix_append_singleton (h.atMostOne k) (hopen k).1

variable [DecidableEq I]

/-- **What a step can do**: a consultation returns without a claim, or finds nothing, or claims the
key it missed; or a key is recorded or released. -/
theorem step_cases {a : CacheStep I} (h : s.step a = some s') :
    (∃ i key now action, a = .lookup i key now ∧ action ≠ .process ∧
      s' = { s with
        cache := (s.cache.lookup now key).2, trace := s.trace ++ [.returned i key action] }) ∨
    (∃ i key now, a = .lookup i key now ∧ (s.cache.lookup now key).1 = .none ∧
      s' = { s with
        cache := (s.cache.lookup now key).2
        missed := Function.update s.missed i (some key) }) ∨
    (∃ i key, a = .mark i ∧ s.missed i = some key ∧
      s' = {
        cache := s.cache.markInFlight key
        missed := Function.update s.missed i none
        trace := s.trace ++ [.returned i key .process] }) ∨
    (∃ key raw now later, a = .record key raw now later ∧
      s' = { s with
        cache := s.cache.recordReply now later key raw, trace := s.trace ++ [.recorded key] }) ∨
    (∃ key, a = .drop key ∧
      s' = { s with cache := s.cache.dropInFlight key, trace := s.trace ++ [.released key] }) := by
  rcases a with ⟨i, key, now⟩ | i | ⟨key, raw, now, later⟩ | key
  · rw [step] at h
    split at h
    · cases h
    · rcases hlookup : s.cache.lookup now key with ⟨raw | - | -, cache⟩ <;> rw [hlookup] at h <;>
        cases h
      · exact .inl ⟨i, key, now, .resent, rfl, by decide, by rw [hlookup]⟩
      · exact .inl ⟨i, key, now, .drop, rfl, by decide, by rw [hlookup]⟩
      · exact .inr (.inl ⟨i, key, now, rfl, by rw [hlookup], by rw [hlookup]⟩)
  · rw [step] at h
    rcases hmissed : s.missed i with - | key <;> rw [hmissed] at h <;> cases h
    exact .inr (.inr (.inl ⟨i, key, rfl, hmissed, rfl⟩))
  · cases h
    exact .inr (.inr (.inr (.inl ⟨key, raw, now, later, rfl, rfl⟩)))
  · cases h
    exact .inr (.inr (.inr (.inr ⟨key, rfl, rfl⟩)))

theorem eq_some_of_update_none {f : I → Option DedupKey} {i j : I} {k : DedupKey}
    (h : Function.update f i none j = some k) : j ≠ i ∧ f j = some k := by
  rcases eq_or_ne j i with rfl | hji
  · rw [Function.update_self] at h
    cases h
  · rw [Function.update_of_ne hji] at h
    exact ⟨hji, h⟩

theorem eq_some_of_update_some {f : I → Option DedupKey} {i j : I} {key k : DedupKey}
    (h : Function.update f i (some key) j = some k) : j = i ∧ k = key ∨ f j = some k := by
  rcases eq_or_ne j i with rfl | hji
  · rw [Function.update_self] at h
    cases h
    exact .inl ⟨rfl, rfl⟩
  · rw [Function.update_of_ne hji] at h
    exact .inr h

/-- **Step.** An undisturbed step keeps claims exclusive. -/
theorem Exclusive.step (h : s.Exclusive) {a : CacheStep I} (ha : s.Undisturbed a)
    (hstep : s.step a = some s') : s'.Exclusive := by
  rcases step_cases hstep with
    ⟨i, key, now, action, rfl, haction, rfl⟩ | ⟨i, key, now, rfl, hlookup, rfl⟩ |
      ⟨i, key, rfl, hmissed, rfl⟩ | ⟨key, raw, now, later, rfl, rfl⟩ | ⟨key, rfl, rfl⟩
  · refine h.of_step rfl h.unique (fun j k hj ↦ ?_) (fun k _ hk ↦ ?_) fun k hk ↦ ?_
    · rw [inFlight_lookup]
      exact h.free j k hj
    · rw [inFlight_lookup]
      exact hk.resolve_left (by simp [ThreadEvent.claims, haction])
    · simp [ThreadEvent.claims, haction] at hk
  · -- no other thread is between its two steps for the key
    have hothers := ha hlookup
    have hcases (j : I) (k : DedupKey) (hj : Function.update s.missed i (some key) j = some k) :
        j = i ∧ k = key ∨ s.missed j = some k := eq_some_of_update_some hj
    refine ⟨fun j j' k h₁ h₂ ↦ ?_, fun j k h₁ ↦ ?_, fun k hk ↦ ?_, h.atMostOne⟩
    · rcases hcases j k h₁ with ⟨rfl, rfl⟩ | hj <;> rcases hcases j' _ h₂ with ⟨rfl, hk⟩ | hj'
      · rfl
      · exact absurd hj' (hothers j')
      · subst hk
        exact absurd hj (hothers j)
      · exact h.unique j j' k hj hj'
    · rw [inFlight_lookup]
      rcases hcases j k h₁ with ⟨rfl, rfl⟩ | hj
      · exact not_mem_inFlight_of_lookup hlookup
      · exact h.free j k hj
    · rw [inFlight_lookup]
      exact h.held k hk
  · refine h.of_step rfl (fun j j' k hj hj' ↦ ?_) (fun j k hj ↦ ?_) (fun k _ hk ↦ ?_) fun k hk ↦ ?_
    · exact h.unique j j' k (eq_some_of_update_none hj).2 (eq_some_of_update_none hj').2
    · obtain ⟨hji, hpending⟩ : j ≠ i ∧ s.missed j = some k := eq_some_of_update_none hj
      have hne : k ≠ key := by
        rintro rfl
        exact hji (h.unique j i k hpending hmissed)
      exact fun hk ↦ h.free j k hpending (Finset.mem_of_mem_insert_of_ne hk hne)
    · refine Finset.mem_insert.2 (hk.imp_left fun hk ↦ ?_)
      simpa [ThreadEvent.claims, eq_comm] using hk
    · obtain rfl : key = k := by simpa [ThreadEvent.claims] using hk
      exact h.free i key hmissed
  · refine h.of_step rfl h.unique (fun j k hj hk ↦ ?_) (fun k hfrees hk ↦ ?_) fun k hk ↦ by cases hk
    · exact h.free j k hj (Finset.mem_of_mem_erase hk)
    · have hne : k ≠ key := by simpa [ThreadEvent.frees, eq_comm] using hfrees
      exact Finset.mem_erase.2 ⟨hne, hk.resolve_left (by simp [ThreadEvent.claims])⟩
  · refine h.of_step rfl h.unique (fun j k hj hk ↦ ?_) (fun k hfrees hk ↦ ?_) fun k hk ↦ by cases hk
    · exact h.free j k hj (Finset.mem_of_mem_erase hk)
    · have hne : k ≠ key := by simpa [ThreadEvent.frees, eq_comm] using hfrees
      exact Finset.mem_erase.2 ⟨hne, hk.resolve_left (by simp [ThreadEvent.claims])⟩

/-- **Run.** -/
theorem Exclusive.run (h : s.Exclusive) {steps : List (CacheStep I)} (hrun : s.run steps = some s')
    (hsteps : s.UndisturbedRun steps) : s'.Exclusive := by
  induction steps generalizing s with
  | nil =>
    cases hrun
    exact h
  | cons a steps ih =>
    obtain ⟨t, hstep, hrest⟩ := Option.bind_eq_some_iff.1 hrun
    exact ih (h.step hsteps.1 hstep) hrest (hsteps.2 t hstep)

/-- **A key is claimed by one thread at a time**, in every interleaving in which no lookup of it
finds nothing while another thread has yet to mark it. -/
theorem atMostOneClaim_run {cache : ResponseCache} {steps : List (CacheStep I)}
    (hrun : CacheThreads.run { cache } steps = some s') (hsteps : UndisturbedRun { cache } steps) :
    AtMostOneClaim s'.trace :=
  atMostOneClaim_of_openClaims_le ((exclusive_init cache).run hrun hsteps).atMostOne

theorem atMostOneClaim_run_two :
    AtMostOneClaim (I := Bool) [.returned false accessRequestKey .process,
      .returned true accessRequestKey .drop] := by
  have hrun : CacheThreads.run (I := Bool) { cache := .default }
      [.lookup false accessRequestKey 0, .mark false, .lookup true accessRequestKey 0] =
        some { cache := _, missed := _, trace := _ } := rfl
  refine atMostOneClaim_run hrun ⟨fun _ j ↦ ?_, ?_⟩
  · exact nofun
  · rintro _ ⟨⟩
    refine ⟨trivial, ?_⟩
    rintro _ ⟨⟩
    exact ⟨fun h ↦ absurd h (by decide), fun _ _ ↦ trivial⟩

/-- Two threads look a key up before either marks it, and both are told to process it. -/
theorem not_atMostOneClaim_run :
    ∃ s', CacheThreads.run (I := Bool) { cache := .default }
        [.lookup false accessRequestKey 0, .lookup true accessRequestKey 0, .mark false, .mark true]
        = some s' ∧ ¬ AtMostOneClaim s'.trace := by
  refine ⟨_, rfl, fun h ↦ ?_⟩
  have := h accessRequestKey _ List.infix_rfl (by decide)
  exact absurd this (by decide)

end CacheThreads

end Pyrad2
