import Mathlib.Logic.Relation
import Pyrad2.Async.Steps

/-!
# The life of the timer

When the task that sends pending requests again survives.

One pass goes through all pending requests, and an exception at one of them ends the task for all.
There are three: a wait that overflows, a final timeout for a future that is done already, and a
packet that cannot be serialized. The second needs no fault of the transport. The owner of a future
may cancel it, its request stays in the map, and when the last wait for it has elapsed the timer
dies.
-/

namespace Pyrad2

open EStateM DatagramProtocolClient

/-- `request_packet()` of the packet returns `n` times in a row, whatever is drawn. -/
def SerializesTimes (E : Env) : ℕ → Packet → Prop
  | 0, _ => True
  | n + 1, p => ∀ w, ∃ raw s, (Packet.requestPacket E).run ⟨p, w⟩ = .ok raw s ∧
      SerializesTimes E n s.pkt

/-- `request_packet()` of the packet returns, as often as it is called. -/
def Serializes (E : Env) (p : Packet) : Prop := ∀ n, SerializesTimes E n p

/-- A packet that serializes does, and goes on to. -/
theorem Serializes.exists_run {E : Env} {p : Packet} (h : Serializes E p) (w : World) :
    ∃ raw s, (Packet.requestPacket E).run ⟨p, w⟩ = .ok raw s ∧ Serializes E s.pkt := by
  obtain ⟨raw, s, hrun, -⟩ := h 1 w
  refine ⟨raw, s, hrun, fun n ↦ ?_⟩
  obtain ⟨raw', s', hrun', hagain⟩ := h (n + 1) w
  rw [hrun] at hrun'
  cases hrun'
  exact hagain

/-- The timer gets past the request: its wait can be computed, and if that has elapsed, the packet
serializes, or the last retry is over and the future is not done. -/
def Serviceable (E : Env) (s : TransportState) (now : Time) (noise : ℚ) (req : PendingRequest) :
    Prop :=
  ∃ wait, s.proto.retryPolicy.waitFor req.retries noise = .ok wait ∧
    (wait ≤ now - req.sendDate →
      if s.proto.retryPolicy.retries ≤ req.retries then
        (s.loop.futures req.future).isPending = true
      else Serializes E (s.loop.packets req.packet))

/-- The request was given up or sent again. -/
def RetriedOrFailed (s s' : TransportState) (now : Time) (key : Option ℕ) (req : PendingRequest) :
    Prop :=
  s'.pending.get? key = none ∧
      s'.loop.futures req.future = .exception (.timeoutError "Timeout on Reply") ∨
    s'.pending.get? key = some { req with sendDate := now, retries := req.retries + 1 } ∧
      s'.loop.sentCount req.future = s.loop.sentCount req.future + 1

/-- The pass retried or failed every request whose wait has elapsed and whose future is open. -/
def ServicesAll (s : TransportState) (now : Time) (noise : Option ℕ → ℚ) (s' : TransportState) :
    Prop :=
  ∀ key req wait, s.pending.get? key = some req →
    s.proto.retryPolicy.waitFor req.retries (noise key) = .ok wait → wait ≤ now - req.sendDate →
    (s.loop.futures req.future).isPending = true → RetriedOrFailed s s' now key req

/-! ### Requests that are serviced -/

/-- What servicing some requests leaves alone: other requests, and futures that are not theirs. -/
structure Leaves (E : Env) (entries : List (Option ℕ × PendingRequest)) (s s' : TransportState) :
    Prop where
  proto : s'.proto = { s.proto with pendingRequests := s'.pending }
  created : s'.loop.created = s.loop.created
  others : ∀ key, key ∉ entries.map Prod.fst → s'.pending.get? key = s.pending.get? key
  only : ∀ key req', s'.pending.get? key = some req' →
    ∃ req, s.pending.get? key = some req ∧ req.future = req'.future
  futures : ∀ f, f ∉ entries.map (fun e ↦ e.2.future) →
    s'.loop.futures f = s.loop.futures f ∧ s'.loop.sentCount f = s.loop.sentCount f
  packets : ∀ q, Serializes E (s.loop.packets q) → Serializes E (s'.loop.packets q)

namespace Leaves

variable {E : Env} {entries : List (Option ℕ × PendingRequest)} {s s' s'' : TransportState}

theorem refl (E : Env) (entries : List (Option ℕ × PendingRequest)) (s : TransportState) :
    Leaves E entries s s where
  proto := rfl
  created := rfl
  others := fun _ _ ↦ rfl
  only := fun _ req' hreq' ↦ ⟨req', hreq', rfl⟩
  futures := fun _ _ ↦ ⟨rfl, rfl⟩
  packets := fun _ h ↦ h

theorem trans {entry : Option ℕ × PendingRequest} (h : Leaves E [entry] s s')
    (h' : Leaves E entries s' s'') : Leaves E (entry :: entries) s s'' where
  proto := by rw [h'.proto, h.proto]
  created := h'.created.trans h.created
  others := fun key hkey ↦ by
    rw [List.map_cons, List.mem_cons, not_or] at hkey
    rw [h'.others key hkey.2, h.others key (by simpa using hkey.1)]
  only := fun key req'' hreq'' ↦ by
    obtain ⟨req', hreq', hfuture'⟩ := h'.only key req'' hreq''
    obtain ⟨req, hreq, hfuture⟩ := h.only key req' hreq'
    exact ⟨req, hreq, hfuture.trans hfuture'⟩
  futures := fun f hf ↦ by
    rw [List.map_cons, List.mem_cons, not_or] at hf
    obtain ⟨hfuture', hcount'⟩ := h'.futures f hf.2
    obtain ⟨hfuture, hcount⟩ := h.futures f (by simpa using hf.1)
    exact ⟨hfuture'.trans hfuture, hcount'.trans hcount⟩
  packets := fun q hq ↦ h'.packets q (h.packets q hq)

end Leaves

section

variable {E : Env} {now : Time} {s : TransportState} {key : Option ℕ} {req : PendingRequest}

/-- The request of an entry was given up, with its key among those to delete, or sent again. -/
def Attended (gone : List (Option ℕ)) (s s' : TransportState) (now : Time) (key : Option ℕ)
    (req : PendingRequest) : Prop :=
  key ∈ gone ∧ s'.loop.futures req.future = .exception (.timeoutError "Timeout on Reply") ∨
    key ∉ gone ∧
      s'.pending.get? key = some { req with sendDate := now, retries := req.retries + 1 } ∧
      s'.loop.sentCount req.future = s.loop.sentCount req.future + 1

/-- The entry was attended to, if its wait has elapsed and its future is open. -/
def AttendedIfDue (gone : List (Option ℕ)) (s s' : TransportState) (now : Time) (noise : ℚ)
    (key : Option ℕ) (req : PendingRequest) : Prop :=
  ∀ wait, s.proto.retryPolicy.waitFor req.retries noise = .ok wait → wait ≤ now - req.sendDate →
    (s.loop.futures req.future).isPending = true → Attended gone s s' now key req

/-- **Servicing one request** that can be serviced. -/
theorem exists_run_serviceRequest {noise : ℚ} (hopen : s.proto.transport = true)
    (hreq : s.pending.get? key = some req) (h : Serviceable E s now noise req) :
    ∃ r s', (serviceRequest E now noise key req).run s = .ok r s' ∧ Leaves E [(key, req)] s s' ∧
      ∀ gone, (r = .failed ↔ key ∈ gone) → AttendedIfDue gone s s' now noise key req := by
  obtain ⟨wait, hwait, hdue⟩ := h
  have hserviced := serviced_serviceRequest E now noise key req s
  generalize (serviceRequest E now noise key req).run s = result at hserviced
  rcases hserviced with ⟨e, hwait'⟩ | ⟨wait', hwait', hlt⟩ | ⟨wait', -, -, -, -⟩ |
    ⟨wait', hwait', hle, hretries, hdone⟩ | ⟨wait', hwait', hle, hlt, p, world, -, raw, hpacket⟩ |
    ⟨wait', hwait', hle, hlt, p, world, -, e, hpacket⟩
  · rw [hwait] at hwait'
    cases hwait'
  · refine ⟨_, s, rfl, .refl .., fun _ _ wait'' hwait'' hle ↦ ?_⟩
    rw [hwait'] at hwait''
    cases hwait''
    exact absurd hle (not_le.2 hlt)
  · refine ⟨_, _, rfl, ?_, fun gone hgone _ _ _ _ ↦ .inl ⟨hgone.1 rfl, ?_⟩⟩
    · exact {
        proto := rfl
        created := rfl
        others := fun _ _ ↦ rfl
        only := fun _ req' hreq' ↦ ⟨req', hreq', rfl⟩
        futures := fun f hf ↦ ⟨EventLoop.futures_settle_ne (by simpa using hf),
          EventLoop.sentCount_settle⟩
        packets := fun _ hq ↦ hq }
    · exact EventLoop.futures_settle_self
  · -- the last wait has elapsed, and the future is open
    rw [hwait] at hwait'
    cases hwait'
    have hpending := hdue hle
    rw [if_pos hretries, hdone] at hpending
    cases hpending
  all_goals
    rw [hwait] at hwait'
    cases hwait'
    have hserializes := hdue hle
    rw [if_neg (not_le.2 hlt)] at hserializes
    obtain ⟨raw', s', hrun, hagain⟩ := hserializes.exists_run s.loop.world
  · rw [hpacket] at hrun
    cases hrun
    refine ⟨_, _, rfl, ?_, fun gone hgone _ _ _ _ ↦ .inr ⟨?_, ?_, ?_⟩⟩
    · exact {
        proto := rfl
        created := rfl
        others := fun key' hkey ↦ OrderedDict.get?_set_ne _ (by simpa using hkey) _
        only := fun _ _ ↦ exists_of_get?_resent hreq
        futures := fun f hf ↦ ⟨rfl, by
          show (s.loop.transmitted _ _ _ _).sentCount f = _
          rw [EventLoop.sentCount_transmitted, if_neg (by simpa using hf)]
          rfl⟩
        packets := fun q hq ↦ by
          show Serializes E ((s.loop.transmitted _ _ _ _).packets q)
          rw [EventLoop.packets_transmitted]
          rcases eq_or_ne q req.packet with rfl | hne
          · rw [Function.update_self]
            exact hagain
          · rw [Function.update_of_ne hne]
            exact hq }
    · exact fun hkey ↦ by cases hgone.2 hkey
    · exact OrderedDict.get?_set_self ..
    · show (s.loop.transmitted _ _ _ _).sentCount req.future = _
      rw [EventLoop.sentCount_transmitted, if_pos rfl]
  · rw [hpacket hopen] at hrun
    cases hrun

/-- What is serviced later does not undo what was done for a request. -/
theorem AttendedIfDue.of_leaves {gone gone' : List (Option ℕ)} {s₁ s₂ : TransportState} {noise : ℚ}
    {entries : List (Option ℕ × PendingRequest)}
    (h : AttendedIfDue gone s s₁ now noise key req) (hleaves : Leaves E entries s₁ s₂)
    (hkey : key ∉ entries.map Prod.fst) (hfuture : req.future ∉ entries.map fun e ↦ e.2.future)
    (hgone : key ∈ gone ↔ key ∈ gone') : AttendedIfDue gone' s s₂ now noise key req := by
  intro wait hwait hle hpending
  obtain ⟨hfuture₂, hcount₂⟩ := hleaves.futures req.future hfuture
  rcases h wait hwait hle hpending with ⟨hmem, houtcome⟩ | ⟨hmem, hentry, hcount⟩
  · exact .inl ⟨hgone.1 hmem, hfuture₂.trans houtcome⟩
  · exact .inr ⟨fun h ↦ hmem (hgone.2 h), (hleaves.others key hkey).trans hentry,
      hcount₂.trans hcount⟩

/-- **The loop of a pass** over requests that can all be serviced, with different keys and
different futures. -/
theorem exists_run_serviceRequests {noise : Option ℕ → ℚ} (hopen : s.proto.transport = true)
    {entries : List (Option ℕ × PendingRequest)} {gone : List (Option ℕ)}
    (hentries : ∀ e ∈ entries, s.pending.get? e.1 = some e.2 ∧ e.1 ∉ gone ∧
      Serviceable E s now (noise e.1) e.2)
    (hkeys : (entries.map Prod.fst).Nodup) (hfutures : (entries.map fun e ↦ e.2.future).Nodup)
    (t : Time) :
    ∃ gone' t' s', (serviceRequests E now noise entries gone t).run s = .ok (gone', t') s' ∧
      Leaves E entries s s' ∧ (∀ k ∈ gone, k ∈ gone') ∧
      (∀ k ∈ gone', k ∈ gone ∨ k ∈ entries.map Prod.fst) ∧
      ∀ e ∈ entries, AttendedIfDue gone' s s' now (noise e.1) e.1 e.2 := by
  induction entries generalizing s gone t with
  | nil =>
    exact ⟨gone, t, s, rfl, .refl .., fun _ hk ↦ hk, fun _ hk ↦ .inl hk, fun e he ↦ by cases he⟩
  | cons entry rest ih =>
    obtain ⟨key, req⟩ := entry
    obtain ⟨hreq, hkey, hservice⟩ := hentries (key, req) List.mem_cons_self
    obtain ⟨hkeyRest, hkeysRest⟩ := List.nodup_cons.1 hkeys
    obtain ⟨hfutureRest, hfuturesRest⟩ := List.nodup_cons.1 hfutures
    obtain ⟨r, s₁, hrun, hleaves, hattended⟩ := exists_run_serviceRequest hopen hreq hservice
    -- the rest can still be serviced, from whatever list of keys the loop goes on with
    have hrest : ∀ e ∈ rest, s₁.pending.get? e.1 = some e.2 ∧ e.1 ≠ key ∧ e.1 ∉ gone ∧
        Serviceable E s₁ now (noise e.1) e.2 := by
      intro e he
      obtain ⟨hget, hnotMem, wait, hwait, hdue⟩ := hentries e (List.mem_cons_of_mem _ he)
      have hne : e.1 ≠ key := fun heq ↦ hkeyRest (List.mem_map.2 ⟨e, he, heq⟩)
      have hother : e.2.future ≠ req.future := fun heq ↦
        hfutureRest (List.mem_map.2 ⟨e, he, heq⟩)
      refine ⟨(hleaves.others e.1 (by simpa using hne)).trans hget, hne, hnotMem, wait, ?_, ?_⟩
      · rw [hleaves.proto]
        exact hwait
      · intro hle
        have hold := hdue hle
        rw [hleaves.proto, (hleaves.futures e.2.future (by simpa using hother)).1]
        split
        · next hretries => rwa [if_pos hretries] at hold
        · next hretries =>
          rw [if_neg hretries] at hold
          exact hleaves.packets _ hold
    have hopen₁ : s₁.proto.transport = true := by
      rw [hleaves.proto]
      exact hopen
    -- the outcomes differ in the keys that are gone and in the time until the next pass
    have hfinish (gone₁ : List (Option ℕ)) (t₁ : Time)
        (hstep : (serviceRequests E now noise ((key, req) :: rest) gone t).run s =
          (serviceRequests E now noise rest gone₁ t₁).run s₁)
        (hsub : ∀ k ∈ gone, k ∈ gone₁) (honly : ∀ k ∈ gone₁, k ∈ gone ∨ k = key)
        (hfailed : r = .failed ↔ key ∈ gone₁) :
        ∃ gone' t' s', (serviceRequests E now noise ((key, req) :: rest) gone t).run s =
            .ok (gone', t') s' ∧
          Leaves E ((key, req) :: rest) s s' ∧ (∀ k ∈ gone, k ∈ gone') ∧
          (∀ k ∈ gone', k ∈ gone ∨ k ∈ ((key, req) :: rest).map Prod.fst) ∧
          ∀ e ∈ (key, req) :: rest, AttendedIfDue gone' s s' now (noise e.1) e.1 e.2 := by
      have hentries₁ : ∀ e ∈ rest, s₁.pending.get? e.1 = some e.2 ∧ e.1 ∉ gone₁ ∧
          Serviceable E s₁ now (noise e.1) e.2 := by
        intro e he
        obtain ⟨hget, hne, hnotMem, hservice⟩ := hrest e he
        exact ⟨hget, fun hmem ↦ (honly e.1 hmem).elim hnotMem hne, hservice⟩
      obtain ⟨gone', t', s', hrun', hleaves', hsub', honly', hattended'⟩ :=
        ih hopen₁ hentries₁ hkeysRest hfuturesRest t₁
      refine ⟨gone', t', s', hstep.trans hrun', hleaves.trans hleaves',
        fun k hk ↦ hsub' k (hsub k hk), fun k hk ↦ ?_, fun e he ↦ ?_⟩
      · rcases honly' k hk with hk | hk
        · rcases honly k hk with hk | rfl
          · exact .inl hk
          · exact .inr List.mem_cons_self
        · exact .inr (List.mem_cons_of_mem _ hk)
      rcases List.mem_cons.1 he with rfl | he
      · refine (hattended gone₁ hfailed).of_leaves hleaves' hkeyRest hfutureRest
          ⟨fun hmem ↦ hsub' key hmem, fun hmem ↦ ?_⟩
        exact (honly' key hmem).elim id fun hmem ↦ absurd hmem hkeyRest
      · intro wait hwait hle hpending
        have hother : e.2.future ≠ req.future := fun heq ↦
          hfutureRest (List.mem_map.2 ⟨e, he, heq⟩)
        obtain ⟨hfuture, hcount⟩ := hleaves.futures e.2.future (by simpa using hother)
        rcases hattended' e he wait (by rw [hleaves.proto]; exact hwait) hle
          (by rw [hfuture]; exact hpending) with hgone | ⟨hmem, hentry, hcount'⟩
        · exact .inl hgone
        · exact .inr ⟨hmem, hentry, by rw [hcount', hcount]⟩
    rcases r with remaining | - | -
    · refine hfinish gone (min t remaining) (run_bind_of_ok hrun) (fun _ h ↦ h) (fun _ h ↦ .inl h) ?_
      simp [hkey]
    · refine hfinish gone t (run_bind_of_ok hrun) (fun _ h ↦ h) (fun _ h ↦ .inl h) ?_
      simp [hkey]
    · exact hfinish (gone ++ [key]) t (run_bind_of_ok hrun) (fun _ h ↦ List.mem_append_left _ h)
        (fun _ h ↦ by simpa using h) ⟨fun _ ↦ by simp, fun _ ↦ rfl⟩

end

/-! ### Runs -/

/-- The timer has not died, it runs on an open transport, and no two requests share a future. -/
structure TimerLives (s : TransportState) : Prop where
  created : ∀ key req, s.pending.get? key = some req → req.future < s.loop.created
  separate : ∀ key req, s.pending.get? key = some req →
    ∀ key' req', s.pending.get? key' = some req' → req'.future = req.future → key' = key
  alive : ∀ e, s.proto.timeoutFuture ≠ .died e
  opened : s.proto.timeoutFuture = .running → s.proto.transport = true

/-- When the timer survives a step: in a pass, all pending requests can be serviced. -/
def TimerSafe (E : Env) (s : TransportState) : TransportEvent → Prop
  | .timeout now noise => s.proto.timeoutFuture = .running →
      ∀ key req, s.pending.get? key = some req → Serviceable E s now (noise key) req
  | _ => True

/-- A step that the timer survives. -/
def TimerSafeStep (E : Env) (s s' : TransportState) : Prop :=
  ∃ e, TimerSafe E s e ∧ s' = e.next E s

section

variable {E : Env} {s s' : TransportState} {e : TransportEvent}

/-- A step that leaves the timer alone and adds no request. -/
theorem TimerLives.of_frame (h : TimerLives s) (hcreated : s.loop.created ≤ s'.loop.created)
    (honly : ∀ key req', s'.pending.get? key = some req' →
      ∃ req, s.pending.get? key = some req ∧ req.future = req'.future)
    (htimer : s'.proto.timeoutFuture = s.proto.timeoutFuture)
    (htransport : s'.proto.transport = s.proto.transport) : TimerLives s' where
  created := fun key req' hreq' ↦ by
    obtain ⟨req, hreq, hfuture⟩ := honly key req' hreq'
    exact hfuture ▸ (h.created key req hreq).trans_le hcreated
  separate := fun key₁ req₁ hreq₁ key₂ req₂ hreq₂ heq ↦ by
    obtain ⟨req₁', hreq₁', hfuture₁⟩ := honly key₁ req₁ hreq₁
    obtain ⟨req₂', hreq₂', hfuture₂⟩ := honly key₂ req₂ hreq₂
    exact h.separate key₁ req₁' hreq₁' key₂ req₂' hreq₂' (by rw [hfuture₂, heq, hfuture₁])
  alive := fun e ↦ htimer ▸ h.alive e
  opened := fun hrunning ↦ htransport ▸ h.opened (htimer ▸ hrunning)

/-- A request is stored under a free key, with a future of its own. -/
theorem TimerLives.enqueued (h : TimerLives s) {now : Time} {packet : ℕ} {p : Packet}
    {world : World} {r : LoopRecord} {s₁ : TransportState}
    (hs₁ : s₁ = s.withLoop { s.loop with created := s.loop.created + 1 }) :
    TimerLives (enqueued s₁ now packet s.loop.created p world r) := by
  subst hs₁
  have hget {key : Option ℕ} {req : PendingRequest}
      (hreq : (s.pending.set (s.loop.packets packet).id
        { packet, future := s.loop.created, sendDate := now }).get? key = some req) :
      (key = (s.loop.packets packet).id ∧ req.future = s.loop.created) ∨
        (s.pending.get? key = some req) := by
    rw [OrderedDict.get?_set] at hreq
    split at hreq
    · next heq => exact .inl ⟨heq, by rw [← Option.some.inj hreq]⟩
    · exact .inr hreq
  refine {
    created := fun key req hreq ↦ ?_
    separate := fun key₁ req₁ hreq₁ key₂ req₂ hreq₂ heq ↦ ?_
    alive := h.alive
    opened := h.opened }
  · show req.future < s.loop.created + 1
    rcases hget hreq with ⟨-, hfuture⟩ | hold
    · omega
    · exact (h.created key req hold).trans (Nat.lt_succ_self _)
  · rcases hget hreq₁ with ⟨hkey₁, hfuture₁⟩ | hold₁
    · rcases hget hreq₂ with ⟨hkey₂, -⟩ | hold₂
      · exact hkey₂.trans hkey₁.symm
      · have hlt := h.created key₂ req₂ hold₂
        omega
    · rcases hget hreq₂ with ⟨-, hfuture₂⟩ | hold₂
      · have hlt := h.created key₁ req₁ hold₁
        omega
      · exact h.separate key₁ req₁ hold₁ key₂ req₂ hold₂ heq

/-- **A pass** over requests that can all be serviced. -/
theorem timerLives_timeout {now : Time} {noise : Option ℕ → ℚ} (h : TimerLives s)
    (hsafe : TimerSafe E s (.timeout now noise)) :
    TimerLives ((TransportEvent.timeout now noise).next E s) ∧
      (s.proto.timeoutFuture = .running →
        ServicesAll s now noise ((TransportEvent.timeout now noise).next E s)) := by
  have hrun := run_timeoutHandler E now noise s
  by_cases hrunning : s.proto.timeoutFuture = .running
  · have hkeys : (s.pending.entries.map Prod.fst).Nodup := s.pending.nodup
    have hmem : ∀ e ∈ s.pending.entries, s.pending.get? e.1 = some e.2 := fun e he ↦
      OrderedDict.get?_eq_some_iff.2 he
    have hfutures : (s.pending.entries.map fun e ↦ e.2.future).Nodup := by
      refine List.Nodup.map_on (fun e he e' he' heq ↦ ?_) (List.Nodup.of_map _ hkeys)
      have hkey := h.separate e'.1 e'.2 (hmem e' he') e.1 e.2 (hmem e he) heq
      have hreq := hmem e he
      rw [hkey, hmem e' he'] at hreq
      exact Prod.ext hkey (Option.some.inj hreq.symm)
    obtain ⟨gone, t, s₁, hloop, hleaves, -, -, hattended⟩ := exists_run_serviceRequests
      (h.opened hrunning) (fun e he ↦ ⟨hmem e he, List.not_mem_nil,
        hsafe hrunning e.1 e.2 (hmem e he)⟩) hkeys hfutures s.proto.retryPolicy.timeout
    have hpass : (timeoutPass E now noise).run s = .ok (max 0 t)
        (s₁.setPending (gone.foldl OrderedDict.erase s₁.pending)) := by
      rw [timeoutPass, run_bind_of_ok (run_get s), run_bind_of_ok hloop]
      rfl
    rw [if_pos hrunning, hpass] at hrun
    rw [TransportEvent.next, TransportEvent.method, after_of_ok hrun]
    refine ⟨h.of_frame hleaves.created.ge (fun key req' hreq' ↦ ?_) ?_ ?_, fun _ key req wait hreq
      hwait hle hpending ↦ ?_⟩
    · rw [TransportState.pending_setPending, OrderedDict.get?_foldl_erase] at hreq'
      split at hreq'
      · cases hreq'
      · exact hleaves.only key req' hreq'
    · show s₁.proto.timeoutFuture = s.proto.timeoutFuture
      rw [hleaves.proto]
    · show s₁.proto.transport = s.proto.transport
      rw [hleaves.proto]
    · rcases hattended (key, req) (OrderedDict.get?_eq_some_iff.1 hreq) wait hwait hle hpending with
        ⟨hgone, houtcome⟩ | ⟨hgone, hentry, hcount⟩
      · refine .inl ⟨?_, houtcome⟩
        rw [TransportState.pending_setPending, OrderedDict.get?_foldl_erase, if_pos hgone]
      · refine .inr ⟨?_, hcount⟩
        rw [TransportState.pending_setPending, OrderedDict.get?_foldl_erase, if_neg hgone]
        exact hentry
  · rw [if_neg hrunning] at hrun
    rw [TransportEvent.next, TransportEvent.method, after_of_ok hrun]
    exact ⟨h, fun h ↦ absurd h hrunning⟩

/-- **Every step** that the timer survives leaves it so that it survives. -/
theorem timerLives_next (h : TimerLives s) (hsafe : TimerSafe E s e) :
    TimerLives (e.next E s) := by
  rcases e with - | ⟨now, packet⟩ | data | ⟨now, noise⟩ | ⟨packet, p⟩ | future | -
  · have hnext : (TransportEvent.createId).next E s = s ∨ ∃ id, (TransportEvent.createId).next E s =
        { s with proto := { s.proto with packetId := id } } := by
      rcases run_createId s with ⟨id, -, -, hrun⟩ | ⟨-, hrun⟩
      · exact .inr ⟨id, after_bind_of_ok hrun⟩
      · exact .inl (after_of_error (run_bind_of_error hrun))
    rcases hnext with hnext | ⟨id, hnext⟩
    · rwa [hnext]
    · rw [hnext]
      exact h.of_frame le_rfl (fun _ req' hreq' ↦ ⟨req', hreq', rfl⟩) rfl rfl
  · set s₁ := s.withLoop { s.loop with created := s.loop.created + 1 } with hs₁
    have hnext : (TransportEvent.sendPacket now packet).next E s =
        after (sendPacket E now packet s.loop.created) s₁ :=
      after_bind_of_ok (a := s.loop.created) rfl
    rw [hnext]
    rcases run_sendPacket E now packet s.loop.created s₁ with
      ⟨-, hrun⟩ | ⟨-, p, world, -, ⟨raw, -, hrun⟩ | ⟨e, -, hrun⟩⟩
    · rw [after_of_error hrun]
      exact h.of_frame (Nat.le_succ _) (fun _ req' hreq' ↦ ⟨req', hreq', rfl⟩) rfl rfl
    · rw [after_of_ok hrun]
      exact h.enqueued hs₁
    · rw [after_of_error hrun]
      exact h.enqueued hs₁
  · rcases after_datagramReceived E data s with ⟨world, hafter⟩ |
      ⟨req, reply, world, -, -, hafter⟩
    · rw [TransportEvent.next, TransportEvent.method, hafter]
      exact h.of_frame le_rfl (fun _ req' hreq' ↦ ⟨req', hreq', rfl⟩) rfl rfl
    · rw [TransportEvent.next, TransportEvent.method, hafter]
      refine h.of_frame le_rfl (fun key req' hreq' ↦ ⟨req', ?_, rfl⟩) rfl rfl
      change (s.pending.erase reply.id).get? key = some req' at hreq'
      rw [OrderedDict.get?_erase] at hreq'
      split at hreq'
      · cases hreq'
      · exact hreq'
  · exact (timerLives_timeout h hsafe).1
  · exact h.of_frame le_rfl (fun _ req' hreq' ↦ ⟨req', hreq', rfl⟩) rfl rfl
  · have hcreated : (s.loop.cancel future).created = s.loop.created := by
      rw [EventLoop.cancel]
      split <;> rfl
    exact h.of_frame hcreated.ge (fun _ req' hreq' ↦ ⟨req', hreq', rfl⟩) rfl rfl
  · obtain ⟨timer, hnext, htimer⟩ := after_closeTransport s
    have hclosed : timer = .closed :=
      htimer.elim id fun ⟨e, hdied, _⟩ ↦ absurd hdied (h.alive e)
    rw [TransportEvent.next, TransportEvent.method, hnext, hclosed]
    exact {
      created := h.created
      separate := h.separate
      alive := fun _ hdied ↦ by cases hdied
      opened := fun hrunning ↦ by cases hrunning }

variable {policy : RetryPolicy} {dict : Option Dictionary} {enforceMa : Bool} {packetId : ℕ}
  {packets : ℕ → Packet} {world : World}

theorem timerLives_of_reach (hreach : Relation.ReflTransGen (TimerSafeStep E)
    (.init policy dict enforceMa packetId packets world) s) : TimerLives s := by
  induction hreach with
  | refl =>
    exact {
      created := fun _ _ hreq ↦ by cases hreq
      separate := fun _ _ hreq ↦ by cases hreq
      alive := fun _ hdied ↦ by cases hdied
      opened := fun _ ↦ rfl }
  | tail _ hstep ih =>
    obtain ⟨e, hsafe, rfl⟩ := hstep
    exact timerLives_next ih hsafe

/-- **The life of the timer.** In every run whose passes find only requests that can be serviced,
the timer has not died in any state reached, and a pass retries or fails every request whose wait has
elapsed and whose future is open. -/
theorem timer_lives (hreach : Relation.ReflTransGen (TimerSafeStep E)
    (.init policy dict enforceMa packetId packets world) s) :
    (∀ e, s.proto.timeoutFuture ≠ .died e) ∧
      ∀ now noise, TimerSafe E s (.timeout now noise) → s.proto.timeoutFuture = .running →
        ServicesAll s now noise ((TransportEvent.timeout now noise).next E s) := by
  have h := timerLives_of_reach hreach
  exact ⟨h.alive, fun now noise hsafe ↦ (timerLives_timeout h hsafe).2⟩

end

/-- A transport without retries on which packet object `n` is an Access-Request with identifier `n`,
and every digest is zero. -/
def TransportState.numbered : TransportState :=
  .init { retries := 0 } none false 0
    (fun n ↦ { cls := .auth, code := PacketType.accessRequest, id := some n, secret := [1] })
    { rng := ⟨fun _ ↦ 0⟩ }

/-- A request is sent and given up. -/
theorem timer_lives_numbered : ∃ s,
    Relation.ReflTransGen (TimerSafeStep (Env.ofByte (fun _ ↦ 0) fun _ _ ↦ 0))
      TransportState.numbered s ∧
    (∀ e, s.proto.timeoutFuture ≠ .died e) ∧
      ServicesAll s 10 (fun _ ↦ 0) ((TransportEvent.timeout 10 fun _ ↦ 0).next
        (Env.ofByte (fun _ ↦ 0) fun _ _ ↦ 0) s) := by
  set E := Env.ofByte (fun _ ↦ 0) fun _ _ ↦ 0
  have hstep : TimerSafeStep E .numbered ((TransportEvent.sendPacket 0 7).next E .numbered) :=
    ⟨.sendPacket 0 7, trivial, rfl⟩
  have hreach := Relation.ReflTransGen.single hstep
  have hwait : RetryPolicy.waitFor { retries := 0 } 0 0 = .ok 5 := by decide +kernel
  have hsafe : TimerSafe E ((TransportEvent.sendPacket 0 7).next E .numbered)
      (.timeout 10 fun _ ↦ 0) := by
    intro _ key req hreq
    change Assoc.get? key [(some 7, ({ packet := 7, future := 0, sendDate := 0 } : PendingRequest))] =
      some req at hreq
    rw [Assoc.get?_cons] at hreq
    split at hreq
    · rw [← Option.some.inj hreq]
      exact ⟨5, hwait, fun _ ↦ rfl⟩
    · cases hreq
  exact ⟨_, hreach, (timer_lives hreach).1, (timer_lives hreach).2 10 _ hsafe rfl⟩

/-- Two requests are sent, the owner of the first future cancels it, and the next pass kills the
timer; the second request, as old as the first, is neither failed nor sent again. -/
theorem timer_died_of_cancel :
    let E := Env.ofByte (fun _ ↦ 0) fun _ _ ↦ 0
    let s := ([.sendPacket 0 7, .sendPacket 0 8, .cancel 0, .timeout 10 fun _ ↦ 0] :
      List TransportEvent).foldl (fun s e ↦ e.next E s) TransportState.numbered
    s.proto.timeoutFuture = .died .invalidStateError ∧
      s.pending.keys = [some 7, some 8] ∧ (s.loop.futures 1).isPending = true ∧
      s.loop.sentCount 1 = 1 := by
  decide +kernel

end Pyrad2
