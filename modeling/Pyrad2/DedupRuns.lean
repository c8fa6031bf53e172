import Mathlib.Data.Finset.Option
import Pyrad2.DedupCache
import Pyrad2.Handler

/-!
# Serving requests one after another

Runs of a server: requests are dispatched in sequence, and replies may also be sent in between, by
code that a handler left behind. A handler that raises does not end a run.

Whatever the handlers do, the response cache stays consistent with its log and nothing is in flight
between two steps, so that a dispatch replays the live reply of its key or calls the handler. How
often a handler runs for one key depends on the handlers: a call that sends no reply leaves the key
unprotected, and the next duplicate runs the handler again.
-/

namespace Pyrad2

open ServerState

/-- A request to dispatch, and the handler it is for. -/
structure Dispatch where
  pkt : Packet
  /-- The address the asynchronous server is handed. -/
  addr : Option Address := none
  handler : Handler

namespace Dispatch

variable (E : Env) (r : RequestRouter) (t : Transport) (d : Dispatch)

/-- The key the request is dispatched under. -/
def key : Option DedupKey := r.dedupKeyFor d.pkt d.addr

/-- Where a replayed reply goes. -/
def dest : Option Address := d.addr.or d.pkt.source

/-- The call of the handler. -/
def call : ServerMethod Unit :=
  (d.handler (if (d.key r).isSome then { d.pkt with dedupKey := d.key r } else d.pkt)).run E r t

/-- `_dedup_dispatch` with this request. -/
def method : ServerMethod Unit :=
  r.dedupDispatch d.addr d.pkt fun pkt ↦ (d.handler pkt).run E r t

/-- From this state the handler is called. -/
def Calls (s : ServerState) : Prop := ∀ k, d.key r = some k → (s.dedup.lookup k).1 = .none

/-- The state in which the handler is entered. -/
def entry (s : ServerState) : ServerState :=
  match d.key r with
  | some k => { s with dedup := (s.dedup.lookup k).2.markInFlight k }.enter (some k)
  | none => s.enter none

/-- The handler, called from this state, sends a reply to the request it was called with before it
returns or raises. -/
def Replies (s : ServerState) : Prop :=
  ∃ new, (EStateM.after (d.call E r t) (d.entry r s)).sent = s.sent ++ new ∧
    ∃ m ∈ new, m.key = d.key r

end Dispatch

/-- A step of a server. -/
inductive ServerEvent where
  | dispatch (d : Dispatch)
  /-- Code left behind by a handler sends a reply. -/
  | late (reply : Packet) (addr : Address)

namespace ServerEvent

variable (E : Env) (r : RequestRouter) (t : Transport)

/-- What the server does in a step. -/
def method : ServerEvent → ServerMethod Unit
  | dispatch d => d.method E r t
  | late reply addr => t.sendReply E r reply addr

end ServerEvent

/-- The state after a sequence of steps. -/
def serve (E : Env) (r : RequestRouter) (t : Transport) (es : List ServerEvent) (s : ServerState) :
    ServerState :=
  es.foldl (fun s e ↦ EStateM.after (e.method E r t) s) s

/-- A server with a fresh response cache. -/
def ServerState.init (cache : ResponseCache) (clock : Clock) (world : World) : ServerState :=
  { world, dedup := DedupState.init cache clock }

/-! ### What a dispatch can do -/

section

variable {E : Env} {r : RequestRouter} {t : Transport} {d : Dispatch} {s : ServerState}

theorem hasDedupCache_of_key {k : DedupKey} (h : d.key r = some k) : r.hasDedupCache = true := by
  rw [Dispatch.key, RequestRouter.dedupKeyFor] at h
  split at h
  · assumption
  · cases h

/-- A request with a key came from somewhere. -/
theorem exists_dest_of_key {k : DedupKey} (h : d.key r = some k) : ∃ a, d.dest = some a := by
  rw [Dispatch.key, RequestRouter.dedupKeyFor, if_pos (hasDedupCache_of_key h), keyFor] at h
  rcases hdest : d.addr.or d.pkt.source with - | a
  · rw [hdest] at h
    simp at h
  · exact ⟨a, hdest⟩

theorem run_consultCache_none (r : RequestRouter) (resend : Bytes → ServerMethod Unit)
    (s : ServerState) : (r.consultCache none resend).run s = .ok .process s := by
  unfold RequestRouter.consultCache
  rcases r.hasDedupCache <;> rfl

theorem run_consultCache_some (hcache : r.hasDedupCache = true) (k : DedupKey)
    (resend : Bytes → ServerMethod Unit) (s : ServerState) :
    (r.consultCache (some k) resend).run s =
      match (s.dedup.lookup k).1 with
      | .inFlight => .ok .drop { s with dedup := (s.dedup.lookup k).2 }
      | .reply raw => (resend raw >>= fun _ ↦ pure .resent).run
          { s with dedup := (s.dedup.lookup k).2 }
      | .none => .ok .process { s with dedup := (s.dedup.lookup k).2.markInFlight k } := by
  unfold RequestRouter.consultCache
  simp only [hcache, EStateM.run_bind, EStateM.run_get, EStateM.run_modify]
  rcases (s.dedup.lookup k).1 <;> rfl

@[simp] theorem dropInFlight_none (r : RequestRouter) (s : ServerState) :
    r.dropInFlight none s = s := by
  unfold RequestRouter.dropInFlight
  rcases r.hasDedupCache <;> rfl

theorem dropInFlight_some (hcache : r.hasDedupCache = true) (k : DedupKey) (s : ServerState) :
    r.dropInFlight (some k) s = { s with dedup := s.dedup.dropInFlight k } := by
  unfold RequestRouter.dropInFlight
  rw [hcache]

/-- Taking an in-flight mark back changes nothing else. -/
theorem dropInFlight_frame (r : RequestRouter) (key : Option DedupKey) (s : ServerState) :
    (r.dropInFlight key s).handled = s.handled ∧
      (r.dropInFlight key s).dedup.log = s.dedup.log ∧
      (r.dropInFlight key s).dedup.clock = s.dedup.clock ∧
      (r.dropInFlight key s).dedup.cache.ttl = s.dedup.cache.ttl := by
  unfold RequestRouter.dropInFlight
  split
  · exact ⟨rfl, List.append_nil _, rfl, rfl⟩
  · exact ⟨rfl, rfl, rfl, rfl⟩

theorem Dispatch.method_eq (E : Env) (r : RequestRouter) (t : Transport) (d : Dispatch) :
    d.method E r t =
      (r.consultCache (d.key r) fun raw ↦ sendTo raw d.dest (d.key r)) >>= fun
        | .drop => pure ()
        | .resent => pure ()
        | .process => (do
          modify fun s ↦ s.enter (d.key r)
          EStateM.cleanup (d.call E r t) (r.dropInFlight (d.key r))) := rfl

/-- **What a dispatch can do**: replay a reply, drop the request, or call the handler. -/
theorem after_dispatch_cases (E : Env) (r : RequestRouter) (t : Transport) (d : Dispatch)
    (s : ServerState) :
    (∃ k raw a, d.key r = some k ∧ (s.dedup.lookup k).1 = .reply raw ∧ d.dest = some a ∧
      EStateM.after (d.method E r t) s =
        { s with dedup := (s.dedup.lookup k).2, sent := s.sent ++ [⟨raw, a, some k⟩] }) ∨
    (∃ k, d.key r = some k ∧ (s.dedup.lookup k).1 = .inFlight ∧
      EStateM.after (d.method E r t) s = { s with dedup := (s.dedup.lookup k).2 }) ∨
    (d.Calls r s ∧ EStateM.after (d.method E r t) s =
      r.dropInFlight (d.key r) (EStateM.after (d.call E r t) (d.entry r s))) := by
  have hmethod := Dispatch.method_eq E r t d
  rcases hkey : d.key r with - | k
  · refine .inr (.inr ⟨fun k hk ↦ ?_, ?_⟩)
    · rw [hkey] at hk
      cases hk
    · rw [hmethod, hkey, EStateM.after_bind_of_ok (run_consultCache_none ..),
        EStateM.after_bind_of_ok (EStateM.run_modify ..), EStateM.after_cleanup, Dispatch.entry,
        hkey]
  · have hconsult := run_consultCache_some (hasDedupCache_of_key hkey) k
      (fun raw ↦ sendTo raw d.dest (some k)) s
    obtain ⟨a, ha⟩ := exists_dest_of_key hkey
    rw [ha] at hconsult
    rcases hlookup : (s.dedup.lookup k).1 with raw | - | -
    · refine .inl ⟨k, raw, a, rfl, hlookup, ha, ?_⟩
      rw [hlookup] at hconsult
      rw [hmethod, hkey, ha, EStateM.after_bind_of_ok hconsult]
      rfl
    · refine .inr (.inl ⟨k, rfl, hlookup, ?_⟩)
      rw [hlookup] at hconsult
      rw [hmethod, hkey, ha, EStateM.after_bind_of_ok hconsult]
      rfl
    · refine .inr (.inr ⟨fun k' hk' ↦ ?_, ?_⟩)
      · rw [hkey] at hk'
        cases hk'
        exact hlookup
      · rw [hlookup] at hconsult
        rw [hmethod, hkey, ha, EStateM.after_bind_of_ok hconsult,
          EStateM.after_bind_of_ok (EStateM.run_modify ..), EStateM.after_cleanup, Dispatch.entry,
          hkey]

end

/-! ### The cache between two steps -/

/-- A consistent cache with the parameters of `cache` and at most `keys` in flight. -/
structure DedupState.Steady (cache : ResponseCache) (keys : Finset DedupKey) (d : DedupState) :
    Prop where
  consistent : d.Consistent
  inFlight : d.cache.inFlight ⊆ keys
  maxEntries : d.cache.maxEntries = cache.maxEntries
  ttl : d.cache.ttl = cache.ttl

namespace DedupState

variable {cache : ResponseCache} {keys : Finset DedupKey} {d : DedupState}

theorem steady_init (cache : ResponseCache) (clock : Clock) :
    (init cache clock).Steady cache ∅ where
  consistent := consistent_init cache clock
  inFlight := subset_rfl
  maxEntries := rfl
  ttl := rfl

theorem Steady.lookup (h : d.Steady cache keys) (key : DedupKey) :
    (d.lookup key).2.Steady cache keys := by
  obtain ⟨hinFlight, hmax, httl⟩ := cache_lookup d key
  refine ⟨h.consistent.lookup key, ?_, hmax.trans h.maxEntries, httl.trans h.ttl⟩
  rw [hinFlight]
  exact h.inFlight

/-- With nothing in flight, a lookup finds a reply or nothing. -/
theorem Steady.lookup_ne_inFlight (h : d.Steady cache ∅) (key : DedupKey) :
    (d.lookup key).1 ≠ .inFlight := by
  have hentry : d.cache.inFlightEntry key = .none := by
    rw [ResponseCache.inFlightEntry, if_neg]
    exact fun hk ↦ Finset.notMem_empty key (h.inFlight hk)
  rcases lookup_cases d key with
    ⟨raw, expiresAt, -, -, hlookup⟩ | ⟨raw, expiresAt, -, -, hlookup⟩ | ⟨-, hlookup⟩
  · simp [hlookup]
  · simp [hlookup, hentry]
  · simp [hlookup, hentry]

/-- With nothing in flight, a lookup finds nothing exactly when there is no unexpired reply. -/
theorem Steady.lookup_eq_none_iff (h : d.Steady cache ∅) (key : DedupKey) :
    (d.lookup key).1 = .none ↔ d.unexpiredReply key = none := by
  rcases hlookup : (d.lookup key).1 with raw | - | -
  · have := unexpiredReply_eq_some_iff.2 (h.consistent.lookup_eq_reply_iff.1 hlookup)
    simp [this]
  · exact absurd hlookup (h.lookup_ne_inFlight key)
  · refine iff_of_true rfl (Option.eq_none_iff_forall_ne_some.2 fun raw hraw ↦ ?_)
    rw [h.consistent.lookup_eq_reply_iff.2 (unexpiredReply_eq_some_iff.1 hraw)] at hlookup
    cases hlookup

theorem Steady.markInFlight (h : d.Steady cache keys) {key : DedupKey}
    (hkey : d.cache.cached.get? key = none) :
    (d.markInFlight key).Steady cache (insert key keys) where
  consistent := h.consistent.markInFlight hkey
  inFlight := Finset.insert_subset_insert key h.inFlight
  maxEntries := h.maxEntries
  ttl := h.ttl

theorem Steady.tick (h : d.Steady cache keys) :
    ({ d with clock := d.clock.tick } : DedupState).Steady cache keys where
  consistent := h.consistent.tick
  inFlight := h.inFlight
  maxEntries := h.maxEntries
  ttl := h.ttl

theorem Steady.recordReply (h : d.Steady cache keys) (key : DedupKey) (raw : Bytes) :
    (d.recordReply key raw).Steady cache keys where
  consistent := h.consistent.recordReply key raw
  inFlight := (Finset.erase_subset key _).trans h.inFlight
  maxEntries := h.maxEntries
  ttl := h.ttl

theorem Steady.dropInFlight (h : d.Steady cache keys) (key : DedupKey) :
    (d.dropInFlight key).Steady cache (keys.erase key) where
  consistent := h.consistent.dropInFlight key
  inFlight := Finset.erase_subset_erase key h.inFlight
  maxEntries := h.maxEntries
  ttl := h.ttl

theorem Steady.recordSent (h : d.Steady cache keys) (r : RequestRouter) (new : List Sent) :
    (new.foldl r.recordSent d).Steady cache keys := by
  induction new generalizing d with
  | nil => exact h
  | cons m new ih =>
    refine ih ?_
    rw [RequestRouter.recordSent]
    split
    · exact h.recordReply _ _
    · exact h

end DedupState

section

variable {E : Env} {r : RequestRouter} {t : Transport} {cache : ResponseCache} {s : ServerState}

theorem Dispatch.onlyReplies_call (E : Env) (r : RequestRouter) (t : Transport) (d : Dispatch) :
    r.OnlyReplies (d.call E r t) :=
  HandlerProgram.onlyReplies E r t _

/-- What a handler is called on. -/
theorem Dispatch.steady_entry {d : Dispatch} (h : s.dedup.Steady cache ∅) (hcalls : d.Calls r s) :
    (d.entry r s).dedup.Steady cache (d.key r).toFinset := by
  rcases hkey : d.key r with - | k
  · rw [Dispatch.entry, hkey]
    exact h.tick
  · rw [Dispatch.entry, hkey]
    exact ((h.lookup k).markInFlight (DedupState.get?_lookup_eq_none (hcalls k hkey))).tick

/-- **Step.** Between two steps nothing is in flight. -/
theorem steady_after (h : s.dedup.Steady cache ∅) (e : ServerEvent) :
    (EStateM.after (e.method E r t) s).dedup.Steady cache ∅ := by
  rcases e with d | ⟨reply, addr⟩
  · rcases after_dispatch_cases E r t d s with
      ⟨k, raw, a, -, -, -, hafter⟩ | ⟨k, -, -, hafter⟩ | ⟨hcalls, hafter⟩
    · rw [ServerEvent.method, hafter]
      exact h.lookup k
    · rw [ServerEvent.method, hafter]
      exact h.lookup k
    · rw [ServerEvent.method, hafter]
      have hentry := Dispatch.steady_entry h hcalls
      obtain ⟨new, hnew⟩ := d.onlyReplies_call E r t (d.entry r s)
      have hcalled := hentry.recordSent r new
      rw [← hnew.dedup] at hcalled
      rcases hkey : d.key r with - | k
      · rw [hkey] at hcalled
        rw [dropInFlight_none]
        exact hcalled
      · rw [hkey] at hcalled
        have hdropped := hcalled.dropInFlight k
        rw [Option.toFinset_some, Finset.erase_singleton] at hdropped
        rw [dropInFlight_some (hasDedupCache_of_key hkey)]
        exact hdropped
  · have hsend : r.OnlyReplies (t.sendReply E r reply addr) := by
      cases t <;> exact r.onlyReplies_sendReplyPacket E _ reply
    obtain ⟨new, hnew⟩ := hsend s
    rw [ServerEvent.method, hnew.dedup]
    exact h.recordSent r new

/-- **Run.** -/
theorem steady_serve (h : s.dedup.Steady cache ∅) (es : List ServerEvent) :
    (serve E r t es s).dedup.Steady cache ∅ := by
  induction es generalizing s with
  | nil => exact h
  | cons e es ih => exact ih (steady_after h e)

/-! ### Duplicate detection in sequence -/

/-- A dispatch that calls the handler calls it once. -/
theorem Dispatch.handled_after {d : Dispatch} (h : d.Calls r s) :
    ∃ time, (EStateM.after (d.method E r t) s).handled = s.handled ++ [⟨d.key r, time⟩] := by
  rcases after_dispatch_cases E r t d s with
    ⟨k, raw, a, hkey, hlookup, -⟩ | ⟨k, hkey, hlookup, -⟩ | ⟨-, hafter⟩
  · rw [h k hkey] at hlookup
    cases hlookup
  · rw [h k hkey] at hlookup
    cases hlookup
  · obtain ⟨new, hnew⟩ := d.onlyReplies_call E r t (d.entry r s)
    rw [hafter, (dropInFlight_frame ..).1, hnew.handled]
    rcases hkey : d.key r with - | k
    · rw [Dispatch.entry, hkey]
      exact ⟨_, rfl⟩
    · rw [Dispatch.entry, hkey]
      exact ⟨_, rfl⟩

/-- **Duplicate detection in sequence.** After any run, whatever its handlers did: a request with an
unexpired reply is answered with that reply and nothing else, and for any other request the handler
is called exactly once. A reply leaves the cache before it expires only when the cap pushes it out,
after as many other keys were used as the cap allows; the cache was within the cap, with no key both
cached and in flight, after each of its steps; and nothing is left in flight. -/
theorem dispatch_after_serve (E : Env) (r : RequestRouter) (t : Transport) (cache : ResponseCache)
    (clock : Clock) (world : World) (es : List ServerEvent) (d : Dispatch) :
    let s := serve E r t es (.init cache clock world)
    let s' := EStateM.after (d.method E r t) s
    (∀ k raw, d.key r = some k → s.dedup.unexpiredReply k = some raw →
      ∃ a, d.dest = some a ∧ s'.sent = s.sent ++ [⟨raw, a, some k⟩] ∧ s'.handled = s.handled) ∧
    ((∀ k, d.key r = some k → s.dedup.unexpiredReply k = none) →
      ∃ time, s'.handled = s.handled ++ [⟨d.key r, time⟩]) ∧
    (∀ k v, liveReply k s'.dedup.log = some v →
      s'.dedup.cache.cached.get? k = some v ∨ v.2 ≤ s'.dedup.clock.now) ∧
    (∀ k l₁ l₂, s'.dedup.log = l₁ ++ .evicted k :: l₂ → Waited cache.maxEntries k l₁) ∧
    (∀ c ∈ s'.dedup.history, c.Sound cache.maxEntries) ∧ s'.dedup.cache.inFlight = ∅ := by
  intro s s'
  have hs : s.dedup.Steady cache ∅ := steady_serve (DedupState.steady_init cache clock) es
  have hs' : s'.dedup.Steady cache ∅ := steady_after hs (.dispatch d)
  refine ⟨fun k raw hkey hraw ↦ ?_, fun hnone ↦ ?_, hs'.consistent.kept, ?_, ?_, ?_⟩
  · have hreply := hs.consistent.lookup_eq_reply_iff.2
      (DedupState.unexpiredReply_eq_some_iff.1 hraw)
    rcases after_dispatch_cases E r t d s with
      ⟨k', raw', a, hkey', hreply', ha, hafter⟩ | ⟨k', hkey', hdropped, -⟩ | ⟨hcalls, -⟩
    · rw [hkey] at hkey'
      cases hkey'
      rw [hreply] at hreply'
      cases hreply'
      have hsent := congrArg ServerState.sent hafter
      have hhandled := congrArg ServerState.handled hafter
      exact ⟨a, ha, hsent, hhandled⟩
    · exact absurd hdropped (hs.lookup_ne_inFlight k')
    · rw [hcalls k hkey] at hreply
      cases hreply
  · exact Dispatch.handled_after fun k hkey ↦ (hs.lookup_eq_none_iff k).2 (hnone k hkey)
  · rw [← hs'.maxEntries]
    exact hs'.consistent.waited
  · rw [← hs'.maxEntries]
    exact hs'.consistent.history
  · exact Finset.subset_empty.1 hs'.inFlight

end

end Pyrad2
