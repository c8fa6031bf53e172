import Pyrad2.DedupRuns

/-!
# At most one handler run per request

When does the handler run at most once for a key within the lifetime of a cached reply?

It does as long as every handler that is called sends a reply to its request before it returns or
raises: from then on the reply recorded for the key covers the call until a full lifetime after it.
A handler that returns first, and leaves the reply to other code, or that raises, is not covered:
the dispatch takes the in-flight mark back in any case, and the next duplicate runs the handler
again.
-/

namespace Pyrad2

/-- Two calls of a handler for one key are at least `ttl` apart. -/
def AtMostOnce (ttl : Time) (calls : List HandlerCall) : Prop :=
  calls.Pairwise fun a b ↦ ∀ k, a.key = some k → b.key = some k →
    a.enteredAt + ttl ≤ b.enteredAt

/-- Along the run, every handler that is called for a key sends a reply to its request before it
returns or raises. -/
def HandlersReply (E : Env) (r : RequestRouter) (t : Transport) :
    List ServerEvent → ServerState → Prop
  | [], _ => True
  | e :: es, s =>
    (∀ d k, e = .dispatch d → d.key r = some k → d.Calls r s → d.Replies E r t s) ∧
      HandlersReply E r t es (EStateM.after (e.method E r t) s)

/-! ### Replies that cover a call -/

namespace DedupState

variable {d : DedupState} {key k : DedupKey} {time : Time}

/-- The cap has pushed nothing out. -/
def NoEviction (d : DedupState) : Prop := ∀ k, .evicted k ∉ d.log

/-- The live reply of a key lives until a full lifetime after a time in the past. -/
def Covers (d : DedupState) (key : DedupKey) (time : Time) : Prop :=
  time ≤ d.clock.now ∧ ∃ v, liveReply key d.log = some v ∧ time + d.cache.ttl ≤ v.2

theorem NoEviction.of_prefix {d' : DedupState} (h : d'.NoEviction) (hlog : d.log <+: d'.log) :
    d.NoEviction :=
  fun k hk ↦ h k (hlog.subset hk)

/-- Where no more keys are in use than the cap allows, it pushes nothing out. -/
theorem Consistent.noEviction (hd : d.Consistent)
    (hkeys : (uses d.log).toFinset.card ≤ d.cache.maxEntries) : d.NoEviction := by
  intro k hk
  obtain ⟨l₁, l₂, hlog⟩ := List.append_of_mem hk
  obtain ⟨before, e, since, rfl, he, hnot, hcard⟩ := hd.waited k l₁ l₂ hlog
  have huses : k ∈ uses d.log ∧ uses since ⊆ uses d.log := by
    have hbefore : uses d.log = uses before ++ (k :: uses since) ++ uses (.evicted k :: l₂) := by
      rw [hlog, uses_append, uses_append, show uses (e :: since) = k :: uses since from
        List.filterMap_cons_some he]
    rw [hbefore]
    exact ⟨by simp, fun x hx ↦ by simp [hx]⟩
  have hsub : insert k (uses since).toFinset ⊆ (uses d.log).toFinset := by
    refine Finset.insert_subset (List.mem_toFinset.2 huses.1) fun x hx ↦ ?_
    exact List.mem_toFinset.2 (huses.2 (List.mem_toFinset.1 hx))
  have hle := Finset.card_le_card hsub
  rw [Finset.card_insert_of_notMem (fun h ↦ hnot (List.mem_toFinset.1 h))] at hle
  omega

/-- The end of the live reply of a key can only move away. -/
theorem Covers.of_log_eq {d' : DedupState} (h : d.Covers key time) (hlog : d'.log = d.log)
    (httl : d'.cache.ttl = d.cache.ttl) (hclock : d.clock.now ≤ d'.clock.now) :
    d'.Covers key time := by
  obtain ⟨hle, v, hv, hend⟩ := h
  refine ⟨hle.trans hclock, v, ?_, ?_⟩
  · rwa [hlog]
  · rwa [httl]

theorem Covers.lookup (h : d.Covers key time) (k : DedupKey) :
    (d.lookup k).2.Covers key time := by
  obtain ⟨hle, v, hv, hend⟩ := h
  have hclock := hle.trans d.clock.now_le_now_tick
  rcases lookup_cases d k with
    ⟨raw, expiresAt, -, -, hlookup⟩ | ⟨raw, expiresAt, -, -, hlookup⟩ | ⟨-, hlookup⟩
  · rw [hlookup]
    exact ⟨hclock, v, (liveReply_append_singleton key d.log _).trans hv, hend⟩
  · rw [hlookup]
    exact ⟨hclock, v, by simpa [commit] using hv, hend⟩
  · rw [hlookup]
    exact ⟨hclock, v, by simpa [commit] using hv, hend⟩

theorem log_prefix_recordReply (d : DedupState) (k : DedupKey) (raw : Bytes) :
    d.log <+: (d.recordReply k raw).log :=
  List.prefix_append ..

/-- A recording that pushes nothing out makes the recorded reply the live one of its key. -/
theorem liveReply_recordReply {raw : Bytes} (h : (d.recordReply k raw).NoEviction) :
    liveReply key (d.recordReply k raw).log =
      if k = key then some (raw, d.clock.now + d.cache.ttl) else liveReply key d.log := by
  have hnil : (d.cache.insertReply d.clock.now k raw).evictedKeys d.clock.tick.now = [] := by
    refine List.eq_nil_iff_forall_not_mem.2 fun j hj ↦ h j ?_
    exact List.mem_append_right _ (List.mem_cons_of_mem _ (List.mem_map.2 ⟨j, hj, rfl⟩))
  have hlog : (d.recordReply k raw).log =
      d.log ++ [.recorded k raw (d.clock.now + d.cache.ttl)] := by
    rw [recordReply, hnil]
    rfl
  rw [hlog, liveReply_append_singleton]
  rfl

theorem Covers.recordReply {raw : Bytes} (h : d.Covers key time)
    (hno : (d.recordReply k raw).NoEviction) : (d.recordReply k raw).Covers key time := by
  obtain ⟨hle, v, hv, hend⟩ := h
  refine ⟨hle.trans (d.clock.now_le_now_tick.trans d.clock.tick.now_le_now_tick), ?_⟩
  rw [liveReply_recordReply hno]
  split
  · exact ⟨_, rfl, add_le_add_left hle d.cache.ttl⟩
  · exact ⟨v, hv, hend⟩

/-- A recorded reply covers every time before it. -/
theorem covers_recordReply {raw : Bytes} (hle : time ≤ d.clock.now)
    (hno : (d.recordReply k raw).NoEviction) : (d.recordReply k raw).Covers k time := by
  refine ⟨hle.trans (d.clock.now_le_now_tick.trans d.clock.tick.now_le_now_tick), ?_⟩
  rw [liveReply_recordReply hno, if_pos rfl]
  exact ⟨_, rfl, add_le_add_left hle d.cache.ttl⟩

/-- **A covered key is not called again** before the lifetime is over. -/
theorem Covers.le_now_of_lookup_eq_none (h : d.Covers key time) (hd : d.Consistent)
    (hlookup : (d.lookup key).1 = .none) : time + d.cache.ttl ≤ d.clock.now := by
  obtain ⟨-, v, hv, hend⟩ := h
  refine hend.trans (not_lt.1 fun hlt ↦ ?_)
  rw [hd.lookup_eq_reply_iff.2 ⟨v.2, hv, hlt⟩] at hlookup
  cases hlookup

/-! ### Recording what was sent -/

variable {r : RequestRouter} {new : List Sent}

theorem log_prefix_recordSent (r : RequestRouter) (new : List Sent) (d : DedupState) :
    d.log <+: (new.foldl r.recordSent d).log := by
  induction new generalizing d with
  | nil => exact List.prefix_rfl
  | cons m new ih =>
    refine List.IsPrefix.trans ?_ (ih _)
    rw [RequestRouter.recordSent]
    split
    · exact log_prefix_recordReply ..
    · exact List.prefix_rfl

theorem now_le_recordSent (r : RequestRouter) (d : DedupState) (m : Sent) :
    d.clock.now ≤ (r.recordSent d m).clock.now := by
  rw [RequestRouter.recordSent]
  split
  · exact d.clock.now_le_now_tick.trans d.clock.tick.now_le_now_tick
  · exact le_rfl

theorem Covers.recordSent (h : d.Covers key time) (hno : (new.foldl r.recordSent d).NoEviction) :
    (new.foldl r.recordSent d).Covers key time := by
  induction new generalizing d with
  | nil => exact h
  | cons m new ih =>
    have hno' : (r.recordSent d m).NoEviction := hno.of_prefix (log_prefix_recordSent r new _)
    refine ih ?_ hno
    rw [RequestRouter.recordSent] at hno' ⊢
    split
    · exact h.recordReply (by simpa only [*] using hno')
    · exact h

/-- A reply among those sent covers every time before them. -/
theorem covers_recordSent (hcache : r.hasDedupCache = true) (hle : time ≤ d.clock.now)
    (hno : (new.foldl r.recordSent d).NoEviction) {m : Sent} (hm : m ∈ new)
    (hkey : m.key = some key) : (new.foldl r.recordSent d).Covers key time := by
  induction new generalizing d with
  | nil => cases hm
  | cons m' new ih =>
    rcases List.mem_cons.1 hm with rfl | hm
    · have hrecord : r.recordSent d m = d.recordReply key m.raw := by
        rw [RequestRouter.recordSent, hcache, hkey]
      have hno' : (d.recordReply key m.raw).NoEviction := by
        rw [← hrecord]
        exact hno.of_prefix (log_prefix_recordSent r new _)
      rw [List.foldl_cons, hrecord] at hno ⊢
      exact (covers_recordReply hle hno').recordSent hno
    · exact ih (hle.trans (now_le_recordSent r d m')) hno hm

end DedupState

/-! ### Calls that are apart -/

section

variable {E : Env} {r : RequestRouter} {t : Transport} {cache : ResponseCache} {s : ServerState}

/-- Every call of a handler is covered, and calls for one key are apart. -/
structure Spaced (cache : ResponseCache) (s : ServerState) : Prop where
  steady : s.dedup.Steady cache ∅
  covers : ∀ c ∈ s.handled, ∀ k, c.key = some k → s.dedup.Covers k c.enteredAt
  apart : AtMostOnce cache.ttl s.handled

theorem DedupState.clock_lookup (d : DedupState) (k : DedupKey) :
    (d.lookup k).2.clock = d.clock.tick := rfl

/-- What entering the handler changes. -/
theorem Dispatch.entry_spec (r : RequestRouter) (d : Dispatch) (s : ServerState) :
    ∃ time, (d.entry r s).handled = s.handled ++ [⟨d.key r, time⟩] ∧ s.dedup.clock.now ≤ time ∧
      time ≤ (d.entry r s).dedup.clock.now ∧ (d.entry r s).sent = s.sent ∧
      s.dedup.log <+: (d.entry r s).dedup.log ∧
      ∀ k t, s.dedup.Covers k t → (d.entry r s).dedup.Covers k t := by
  rcases hkey : d.key r with - | k
  · rw [Dispatch.entry, hkey]
    exact ⟨s.dedup.clock.now, rfl, le_rfl, s.dedup.clock.now_le_now_tick, rfl, List.prefix_rfl,
      fun k t h ↦ h.of_log_eq rfl rfl s.dedup.clock.now_le_now_tick⟩
  · rw [Dispatch.entry, hkey]
    refine ⟨s.dedup.clock.tick.now, rfl, s.dedup.clock.now_le_now_tick,
      s.dedup.clock.tick.now_le_now_tick, rfl, ?_, fun k' t h ↦ ?_⟩
    · exact (List.prefix_append ..).trans (List.prefix_append ..)
    · exact (h.lookup k).of_log_eq (List.append_nil _) rfl s.dedup.clock.tick.now_le_now_tick

theorem AtMostOnce.append_singleton {ttl : Time} {calls : List HandlerCall} {c : HandlerCall}
    (h : AtMostOnce ttl calls)
    (hc : ∀ k, c.key = some k → ∀ a ∈ calls, a.key = some k → a.enteredAt + ttl ≤ c.enteredAt) :
    AtMostOnce ttl (calls ++ [c]) := by
  refine List.pairwise_append.2 ⟨h, List.pairwise_singleton _ _, fun a ha b hb k hka hkb ↦ ?_⟩
  obtain rfl := List.mem_singleton.1 hb
  exact hc k hkb a ha hka

/-- **Step.** Where the handler replies if it is called, calls stay covered and apart. -/
theorem Spaced.after (h : Spaced cache s) {e : ServerEvent}
    (hreply : ∀ d k, e = .dispatch d → d.key r = some k → d.Calls r s → d.Replies E r t s)
    (hno : (EStateM.after (e.method E r t) s).dedup.NoEviction) :
    Spaced cache (EStateM.after (e.method E r t) s) := by
  have hsteady : (EStateM.after (e.method E r t) s).dedup.Steady cache ∅ := steady_after h.steady e
  rcases e with d | ⟨reply, addr⟩
  · rcases after_dispatch_cases E r t d s with
      ⟨k, raw, a, -, -, -, hafter⟩ | ⟨k, -, -, hafter⟩ | ⟨hcalls, hafter⟩
    · refine ⟨hsteady, ?_, ?_⟩ <;> rw [ServerEvent.method, hafter]
      · exact fun c hc k' hk' ↦ (h.covers c hc k' hk').lookup k
      · exact h.apart
    · refine ⟨hsteady, ?_, ?_⟩ <;> rw [ServerEvent.method, hafter]
      · exact fun c hc k' hk' ↦ (h.covers c hc k' hk').lookup k
      · exact h.apart
    · obtain ⟨time, hhandled, hnow, htime, hsent, -, hentry⟩ := d.entry_spec r s
      obtain ⟨new, hnew⟩ := d.onlyReplies_call E r t (d.entry r s)
      obtain ⟨hframe, hlog, hclock, httl⟩ :=
        dropInFlight_frame r (d.key r) (EStateM.after (d.call E r t) (d.entry r s))
      rw [ServerEvent.method, hafter] at hno
      have hno' : (new.foldl r.recordSent (d.entry r s).dedup).NoEviction := by
        rw [← hnew.dedup]
        exact hno.of_prefix (by rw [hlog])
      have hcovers {k : DedupKey} {t' : Time}
          (hc : (new.foldl r.recordSent (d.entry r s).dedup).Covers k t') :
          (r.dropInFlight (d.key r) (EStateM.after (d.call E r t) (d.entry r s))).dedup.Covers
            k t' := by
        rw [← hnew.dedup] at hc
        exact hc.of_log_eq hlog httl (le_of_eq (by rw [hclock]))
      refine ⟨hsteady, ?_, ?_⟩ <;>
        rw [ServerEvent.method, hafter, hframe, hnew.handled, hhandled]
      · rintro c hc k hk
        rcases List.mem_append.1 hc with hc | hc
        · exact hcovers ((hentry k _ (h.covers c hc k hk)).recordSent hno')
        · obtain rfl := List.mem_singleton.1 hc
          -- the reply to this very call covers it
          obtain ⟨new', hnew', m, hm, hmkey⟩ := hreply d k rfl hk hcalls
          obtain rfl : new' = new := by
            have hsame := hnew'.symm.trans (hnew.sent.trans (congrArg (· ++ new) hsent))
            exact List.append_cancel_left hsame
          exact hcovers (DedupState.covers_recordSent (hasDedupCache_of_key hk) htime hno' hm
            (hmkey.trans hk))
      · refine h.apart.append_singleton fun k hk c hc hck ↦ ?_
        have hover := (h.covers c hc k hck).le_now_of_lookup_eq_none h.steady.consistent
          (hcalls k hk)
        rw [h.steady.ttl] at hover
        exact hover.trans hnow
  · have hsend : r.OnlyReplies (t.sendReply E r reply addr) := by
      cases t <;> exact r.onlyReplies_sendReplyPacket E _ reply
    obtain ⟨new, hnew⟩ := hsend s
    refine ⟨hsteady, ?_, ?_⟩ <;> rw [ServerEvent.method] at *
    · rw [hnew.handled]
      rw [hnew.dedup] at hno ⊢
      exact fun c hc k hk ↦ (h.covers c hc k hk).recordSent hno
    · rw [hnew.handled]
      exact h.apart

theorem log_prefix_after (E : Env) (r : RequestRouter) (t : Transport) (e : ServerEvent)
    (s : ServerState) : s.dedup.log <+: (EStateM.after (e.method E r t) s).dedup.log := by
  rcases e with d | ⟨reply, addr⟩
  · rcases after_dispatch_cases E r t d s with
      ⟨k, raw, a, -, -, -, hafter⟩ | ⟨k, -, -, hafter⟩ | ⟨-, hafter⟩
    · rw [ServerEvent.method, hafter]
      exact List.prefix_append ..
    · rw [ServerEvent.method, hafter]
      exact List.prefix_append ..
    · obtain ⟨-, -, -, -, -, hentry, -⟩ := d.entry_spec r s
      obtain ⟨new, hnew⟩ := d.onlyReplies_call E r t (d.entry r s)
      rw [ServerEvent.method, hafter, (dropInFlight_frame ..).2.1, hnew.dedup]
      exact hentry.trans (DedupState.log_prefix_recordSent r new _)
  · have hsend : r.OnlyReplies (t.sendReply E r reply addr) := by
      cases t <;> exact r.onlyReplies_sendReplyPacket E _ reply
    obtain ⟨new, hnew⟩ := hsend s
    rw [ServerEvent.method, hnew.dedup]
    exact DedupState.log_prefix_recordSent r new _

theorem log_prefix_serve (E : Env) (r : RequestRouter) (t : Transport) (es : List ServerEvent)
    (s : ServerState) : s.dedup.log <+: (serve E r t es s).dedup.log := by
  induction es generalizing s with
  | nil => exact List.prefix_rfl
  | cons e es ih => exact (log_prefix_after E r t e s).trans (ih _)

/-- **Run.** -/
theorem Spaced.serve (h : Spaced cache s) {es : List ServerEvent} (hreply : HandlersReply E r t es s)
    (hno : (serve E r t es s).dedup.NoEviction) : Spaced cache (serve E r t es s) := by
  induction es generalizing s with
  | nil => exact h
  | cons e es ih =>
    exact ih (h.after hreply.1 (hno.of_prefix (log_prefix_serve E r t es _))) hreply.2 hno

/-- **At most one handler run.** In a run in which every handler that is called replies before it
returns or raises, and in which no more keys are in use than the cap allows, two calls of the
handler for one key are at least a lifetime apart. -/
theorem atMostOnce_serve {clock : Clock} {world : World} {es : List ServerEvent}
    (hreply : HandlersReply E r t es (.init cache clock world))
    (hkeys : (uses (serve E r t es (.init cache clock world)).dedup.log).toFinset.card ≤
      cache.maxEntries) :
    AtMostOnce cache.ttl (serve E r t es (.init cache clock world)).handled := by
  have hinit : Spaced cache (.init cache clock world) :=
    ⟨DedupState.steady_init cache clock, fun c hc ↦ (List.not_mem_nil hc).elim, List.Pairwise.nil⟩
  have hsteady : (serve E r t es (.init cache clock world)).dedup.Steady cache ∅ :=
    steady_serve (DedupState.steady_init cache clock) es
  rw [← hsteady.maxEntries] at hkeys
  exact (hinit.serve hreply (hsteady.consistent.noEviction hkeys)).apart

end

/-- A handler that accepts. -/
def acceptingHandler : Handler := fun pkt ↦
  .createReply pkt none [] fun
    | .ok reply => .sendReply reply ("192.0.2.1", 40000) fun _ ↦ .done
    | .error e => .raise e

theorem atMostOnce_serve_accepting :
    AtMostOnce ResponseCache.default.ttl
      (serve (Env.ofByte (fun _ ↦ 1) fun _ _ ↦ 1)
        { hosts := ∅, dictionary := none, requireMessageAuthenticator := false } .sync
        [.dispatch { pkt := accessRequest, handler := acceptingHandler },
          .dispatch { pkt := accessRequest, handler := acceptingHandler }]
        (.init .default .still { rng := ⟨fun _ ↦ 0⟩ })).handled := by
  refine atMostOnce_serve ⟨?_, ?_, trivial⟩ (by decide +kernel)
  · rintro d k ⟨⟩ - -
    exact ⟨[⟨[2, 7, 0, 20] ++ List.replicate 16 1, ("192.0.2.1", 40000), some accessRequestKey⟩],
      by decide +kernel, _, List.mem_singleton.2 rfl, by decide +kernel⟩
  · rintro d k ⟨⟩ hkey hcalls
    obtain rfl : accessRequestKey = k := Option.some.inj (hkey.symm.trans (by decide +kernel)).symm
    exact absurd (hcalls _ hkey) (by decide +kernel)

/-- The handler for a request returns without having replied, and runs again for a duplicate that
arrives at the same time. -/
theorem not_atMostOnce_serve_silent :
    ¬ AtMostOnce ResponseCache.default.ttl
      (serve (Env.ofByte (fun _ ↦ 1) fun _ _ ↦ 1) { hosts := ∅, dictionary := none } .sync
        [.dispatch { pkt := accessRequest, handler := fun _ ↦ .done },
          .dispatch { pkt := accessRequest, handler := fun _ ↦ .done }]
        (.init .default .still { rng := ⟨fun _ ↦ 0⟩ })).handled := by
  intro h
  have hapart : (0 : Time) + 30 ≤ 0 :=
    List.rel_of_pairwise_cons h (List.mem_singleton.2 rfl) accessRequestKey rfl rfl
  exact absurd hapart (by decide +kernel)

end Pyrad2
