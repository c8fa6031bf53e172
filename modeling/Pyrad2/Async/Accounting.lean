import Mathlib.Logic.Relation
import Pyrad2.Async.Steps

/-!
# Transport accounting

Which futures a transport completes, with what, and when.

The invariant ties the map of pending requests, their futures and their retry counters to the record
of what was sent. In the middle of a timer pass some requests have failed and are still in the map,
so the invariant carries the list of their keys; between two steps that list is empty.
-/

namespace Pyrad2

open EStateM DatagramProtocolClient

/-- The exception of a request that was given up. -/
def FutureState.timedOut : FutureState := .exception (.timeoutError "Timeout on Reply")

/-- The books of a transport are in order, the requests in `gone` having failed. -/
structure Accounted (gone : List (Option ℕ)) (s : TransportState) : Prop where
  created : ∀ key req, s.pending.get? key = some req → req.future < s.loop.created
  /-- No two requests share a future. -/
  separate : ∀ key req, s.pending.get? key = some req →
    ∀ key' req', s.pending.get? key' = some req' → req'.future = req.future → key' = key
  isPending_iff : ∀ key req, s.pending.get? key = some req →
    ((s.loop.futures req.future).isPending = true ↔ key ∉ gone)
  /-- A request is pending under its own identifier. -/
  id_eq : ∀ key req, s.pending.get? key = some req → (s.loop.packets req.packet).id = key
  isSome_key : ∀ key req, s.pending.get? key = some req → key.isSome
  retries_le : ∀ key req, s.pending.get? key = some req →
    (req.retries : ℤ) ≤ s.proto.retryPolicy.retries
  sentCount_eq : ∀ key req, s.pending.get? key = some req →
    s.loop.sentCount req.future = req.retries + 1
  completedCount_eq : ∀ f,
    s.loop.completedCount f = if (s.loop.futures f).isPending then 0 else 1
  fresh : ∀ f, s.loop.created ≤ f →
    (s.loop.futures f).isPending = true ∧ s.loop.sentCount f = 0
  timedOut : ∀ f e, s.loop.futures f = .exception e →
    (s.loop.sentCount f : ℤ) = s.proto.retryPolicy.retries + 1

/-- A transport that was just created. -/
theorem accounted_init (policy : RetryPolicy) (dict : Option Dictionary) (enforceMa : Bool)
    (packetId : ℕ) (packets : ℕ → Packet) (world : World) :
    Accounted [] (TransportState.init policy dict enforceMa packetId packets world) where
  created := fun _ _ h ↦ by cases h
  separate := fun _ _ h ↦ by cases h
  isPending_iff := fun _ _ h ↦ by cases h
  id_eq := fun _ _ h ↦ by cases h
  isSome_key := fun _ _ h ↦ by cases h
  retries_le := fun _ _ h ↦ by cases h
  sentCount_eq := fun _ _ h ↦ by cases h
  completedCount_eq := fun _ ↦ rfl
  fresh := fun _ _ ↦ ⟨rfl, rfl⟩
  timedOut := fun _ _ h ↦ by cases h

namespace Accounted

variable {gone : List (Option ℕ)} {s : TransportState}

/-! ### What keeps the books in order -/

/-- Fields of the transport that are not on the books do not matter. -/
theorem of_eq {s' : TransportState} (h : Accounted gone s) (hloop : s'.loop = s.loop)
    (hpending : s'.pending = s.pending) (hpolicy : s'.proto.retryPolicy = s.proto.retryPolicy) :
    Accounted gone s' where
  created := by rw [hpending, hloop]; exact h.created
  separate := by rw [hpending]; exact h.separate
  isPending_iff := by rw [hpending, hloop]; exact h.isPending_iff
  id_eq := by rw [hpending, hloop]; exact h.id_eq
  isSome_key := by rw [hpending]; exact h.isSome_key
  retries_le := by rw [hpending, hpolicy]; exact h.retries_le
  sentCount_eq := by rw [hpending, hloop]; exact h.sentCount_eq
  completedCount_eq := by rw [hloop]; exact h.completedCount_eq
  fresh := by rw [hloop]; exact h.fresh
  timedOut := by rw [hloop, hpolicy]; exact h.timedOut

theorem withWorld (h : Accounted gone s) (world : World) : Accounted gone (s.withWorld world) :=
  ⟨h.created, h.separate, h.isPending_iff, h.id_eq, h.isSome_key, h.retries_le, h.sentCount_eq,
    h.completedCount_eq, h.fresh, h.timedOut⟩

/-- A packet object that belongs to no pending request is changed. -/
theorem assign (h : Accounted gone s) {packet : ℕ} (p : Packet)
    (hfree : ∀ key req, s.pending.get? key = some req → req.packet ≠ packet) :
    Accounted gone
      (s.withLoop { s.loop with packets := Function.update s.loop.packets packet p }) :=
  ⟨h.created, h.separate, h.isPending_iff, fun key req hreq ↦ by
      show (Function.update s.loop.packets packet p req.packet).id = key
      rw [Function.update_of_ne (hfree key req hreq)]
      exact h.id_eq key req hreq,
    h.isSome_key, h.retries_le, h.sentCount_eq, h.completedCount_eq, h.fresh, h.timedOut⟩

/-- A future is created. -/
theorem createFuture (h : Accounted gone s) :
    Accounted gone (s.withLoop { s.loop with created := s.loop.created + 1 }) :=
  ⟨fun key req hreq ↦ (h.created key req hreq).trans (Nat.lt_succ_self _), h.separate,
    h.isPending_iff, h.id_eq, h.isSome_key, h.retries_le, h.sentCount_eq, h.completedCount_eq,
    fun f hf ↦ h.fresh f ((Nat.le_succ _).trans hf), h.timedOut⟩

/-- The future of a request is completed, and its key goes on the list. -/
theorem settle (h : Accounted gone s) {key : Option ℕ} {req : PendingRequest}
    (hreq : s.pending.get? key = some req) (hkey : key ∉ gone) {outcome : FutureState}
    (hdone : outcome.isPending = false)
    (hretries : ∀ e, outcome = .exception e → s.proto.retryPolicy.retries ≤ req.retries) :
    Accounted (gone ++ [key]) (s.withLoop (s.loop.settle req.future outcome)) where
  created := h.created
  separate := h.separate
  isPending_iff := fun key' req' hreq' ↦ by
    show ((s.loop.settle req.future outcome).futures req'.future).isPending = true ↔ _
    rcases eq_or_ne key' key with rfl | hne
    · obtain rfl : req' = req := Option.some.inj (hreq'.symm.trans hreq)
      simp [hdone]
    · have hfuture : req'.future ≠ req.future := fun heq ↦
        hne (h.separate key req hreq key' req' hreq' heq)
      rw [EventLoop.futures_settle_ne hfuture, h.isPending_iff key' req' hreq']
      simp [hne]
  id_eq := h.id_eq
  isSome_key := h.isSome_key
  retries_le := h.retries_le
  sentCount_eq := fun key' req' hreq' ↦ by
    show (s.loop.settle req.future outcome).sentCount req'.future = _
    rw [EventLoop.sentCount_settle]
    exact h.sentCount_eq key' req' hreq'
  completedCount_eq := fun f ↦ by
    show (s.loop.settle req.future outcome).completedCount f =
      if ((s.loop.settle req.future outcome).futures f).isPending then 0 else 1
    rw [EventLoop.completedCount_settle, h.completedCount_eq f]
    rcases eq_or_ne f req.future with rfl | hne
    · simp [(h.isPending_iff key req hreq).2 hkey, hdone]
    · rw [EventLoop.futures_settle_ne hne, if_neg hne, Nat.add_zero]
  fresh := fun f hf ↦ by
    have hne : f ≠ req.future := fun heq ↦
      absurd (h.created key req hreq) (not_lt.2 (heq ▸ hf))
    show ((s.loop.settle req.future outcome).futures f).isPending = true ∧
      (s.loop.settle req.future outcome).sentCount f = 0
    rw [EventLoop.futures_settle_ne hne, EventLoop.sentCount_settle]
    exact h.fresh f hf
  timedOut := fun f e hf ↦ by
    show ((s.loop.settle req.future outcome).sentCount f : ℤ) = _
    rw [EventLoop.sentCount_settle]
    change (s.loop.settle req.future outcome).futures f = .exception e at hf
    rcases eq_or_ne f req.future with rfl | hne
    · rw [EventLoop.futures_settle_self] at hf
      have hge := hretries e hf
      have hle := h.retries_le key req hreq
      have hsent := h.sentCount_eq key req hreq
      show (s.loop.sentCount req.future : ℤ) = s.proto.retryPolicy.retries + 1
      omega
    · rw [EventLoop.futures_settle_ne hne] at hf
      exact h.timedOut f e hf

/-- The completed requests are taken out of the map. -/
theorem erase (h : Accounted gone s) :
    Accounted [] (s.setPending (gone.foldl OrderedDict.erase s.pending)) := by
  have hget {key : Option ℕ} {req : PendingRequest}
      (hreq : (gone.foldl OrderedDict.erase s.pending).get? key = some req) :
      key ∉ gone ∧ s.pending.get? key = some req := by
    rw [OrderedDict.get?_foldl_erase] at hreq
    split at hreq
    · cases hreq
    · next hkey => exact ⟨hkey, hreq⟩
  exact {
    created := fun key req hreq ↦ h.created key req (hget hreq).2
    separate := fun key req hreq key' req' hreq' ↦
      h.separate key req (hget hreq).2 key' req' (hget hreq').2
    isPending_iff := fun key req hreq ↦ by
      show (s.loop.futures req.future).isPending = true ↔ _
      rw [h.isPending_iff key req (hget hreq).2]
      simp [(hget hreq).1]
    id_eq := fun key req hreq ↦ h.id_eq key req (hget hreq).2
    isSome_key := fun key req hreq ↦ h.isSome_key key req (hget hreq).2
    retries_le := fun key req hreq ↦ h.retries_le key req (hget hreq).2
    sentCount_eq := fun key req hreq ↦ h.sentCount_eq key req (hget hreq).2
    completedCount_eq := h.completedCount_eq
    fresh := h.fresh
    timedOut := h.timedOut }

/-- A request is transmitted, for the first time or again. The entry under `key` is the one it has
from then on; no other request has its future. -/
theorem transmit (h : Accounted gone s) {key : Option ℕ} (req : PendingRequest) {p : Packet}
    {world : World} {raw : Bytes} (hkey : key ∉ gone) (hsome : key.isSome)
    (hid : (s.loop.packets req.packet).id = key)
    (hp : (s.loop.packets req.packet).id.isSome → p.id = (s.loop.packets req.packet).id)
    (hcreated : req.future < s.loop.created)
    (hpending : (s.loop.futures req.future).isPending = true)
    (hsent : s.loop.sentCount req.future = req.retries)
    (hretries : (req.retries : ℤ) ≤ s.proto.retryPolicy.retries)
    (hothers : ∀ key' req', key' ≠ key → s.pending.get? key' = some req' →
      req'.future ≠ req.future) :
    Accounted gone ((s.setPending (s.pending.set key req)).withLoop
      (s.loop.transmitted req.packet p world (.sent req.future raw))) := by
  have hpid : p.id = (s.loop.packets req.packet).id := hp (by rwa [hid])
  have hget {key' : Option ℕ} {req' : PendingRequest}
      (hreq' : (s.pending.set key req).get? key' = some req') :
      (key' = key ∧ req' = req) ∨ (key' ≠ key ∧ s.pending.get? key' = some req') := by
    rw [OrderedDict.get?_set] at hreq'
    split at hreq'
    · next heq => exact .inl ⟨heq, (Option.some.inj hreq').symm⟩
    · next hne => exact .inr ⟨hne, hreq'⟩
  refine {
    created := fun key' req' hreq' ↦ ?_
    separate := fun key₁ req₁ hreq₁ key₂ req₂ hreq₂ heq ↦ ?_
    isPending_iff := fun key' req' hreq' ↦ ?_
    id_eq := fun key' req' hreq' ↦ ?_
    isSome_key := fun key' req' hreq' ↦ ?_
    retries_le := fun key' req' hreq' ↦ ?_
    sentCount_eq := fun key' req' hreq' ↦ ?_
    completedCount_eq := fun f ↦ ?_
    fresh := fun f hf ↦ ?_
    timedOut := fun f e hf ↦ ?_ }
  · rcases hget hreq' with ⟨-, rfl⟩ | ⟨-, hold⟩
    · exact hcreated
    · exact h.created key' req' hold
  · rcases hget hreq₁ with ⟨rfl, rfl⟩ | ⟨hne₁, hold₁⟩
    · rcases hget hreq₂ with ⟨rfl, rfl⟩ | ⟨hne₂, hold₂⟩
      · rfl
      · exact absurd heq (hothers key₂ req₂ hne₂ hold₂)
    · rcases hget hreq₂ with ⟨rfl, rfl⟩ | ⟨hne₂, hold₂⟩
      · exact absurd heq.symm (hothers key₁ req₁ hne₁ hold₁)
      · exact h.separate key₁ req₁ hold₁ key₂ req₂ hold₂ heq
  · show (s.loop.futures req'.future).isPending = true ↔ _
    rcases hget hreq' with ⟨rfl, rfl⟩ | ⟨-, hold⟩
    · simp [hpending, hkey]
    · exact h.isPending_iff key' req' hold
  · rw [TransportState.loop_withLoop, EventLoop.id_transmitted hpid]
    rcases hget hreq' with ⟨rfl, rfl⟩ | ⟨-, hold⟩
    · exact hid
    · exact h.id_eq key' req' hold
  · rcases hget hreq' with ⟨rfl, rfl⟩ | ⟨-, hold⟩
    · exact hsome
    · exact h.isSome_key key' req' hold
  · rcases hget hreq' with ⟨rfl, rfl⟩ | ⟨-, hold⟩
    · exact hretries
    · exact h.retries_le key' req' hold
  · rw [TransportState.loop_withLoop, EventLoop.sentCount_transmitted]
    rcases hget hreq' with ⟨rfl, rfl⟩ | ⟨hne, hold⟩
    · rw [if_pos rfl, hsent]
    · rw [if_neg (hothers key' req' hne hold), h.sentCount_eq key' req' hold]
  · rw [TransportState.loop_withLoop, EventLoop.completedCount_transmitted]
    exact h.completedCount_eq f
  · have hne : f ≠ req.future := fun heq ↦ absurd hcreated (not_lt.2 (heq ▸ hf))
    rw [TransportState.loop_withLoop, EventLoop.sentCount_transmitted, if_neg hne]
    exact h.fresh f hf
  · change s.loop.futures f = .exception e at hf
    have hne : f ≠ req.future := by
      rintro rfl
      rw [hf] at hpending
      cases hpending
    rw [TransportState.loop_withLoop, EventLoop.sentCount_transmitted, if_neg hne]
    exact h.timedOut f e hf

end Accounted

/-! ### A pass of the timer -/

/-- What a pass has done so far: entries have been sent again, and some futures are timed out. -/
structure Progress (s s' : TransportState) : Prop where
  policy : s'.proto.retryPolicy = s.proto.retryPolicy
  kept : ∀ key req, s.pending.get? key = some req →
    ∃ req', s'.pending.get? key = some req' ∧ req'.future = req.future
  futures : ∀ f, s'.loop.futures f = s.loop.futures f ∨
    s'.loop.futures f = .timedOut ∧ (s.loop.futures f).isPending = true ∧
      ∃ key req, s.pending.get? key = some req ∧ req.future = f
  trace : ∃ new, s'.loop.trace = s.loop.trace ++ new

namespace Progress

variable {s s' s'' : TransportState}

theorem refl (s : TransportState) : Progress s s where
  policy := rfl
  kept := fun _ req hreq ↦ ⟨req, hreq, rfl⟩
  futures := fun _ ↦ .inl rfl
  trace := ⟨[], by simp⟩

/-- Only a future that was pending is timed out, and its entry was there from the start. -/
theorem trans (h : Progress s s') (h' : Progress s' s'')
    (honly : ∀ key req', s'.pending.get? key = some req' →
      ∃ req, s.pending.get? key = some req ∧ req.future = req'.future) : Progress s s'' where
  policy := h'.policy.trans h.policy
  kept := fun key req hreq ↦ by
    obtain ⟨req', hreq', hfuture⟩ := h.kept key req hreq
    obtain ⟨req'', hreq'', hfuture'⟩ := h'.kept key req' hreq'
    exact ⟨req'', hreq'', hfuture'.trans hfuture⟩
  futures := fun f ↦ by
    rcases h'.futures f with heq | ⟨heq, hpending, key, req', hreq', rfl⟩
    · rw [heq]
      exact h.futures f
    · obtain ⟨req, hreq, hfuture⟩ := honly key req' hreq'
      rcases h.futures req'.future with hold | ⟨hold, -⟩
      · exact .inr ⟨heq, hold ▸ hpending, key, req, hreq, hfuture⟩
      · rw [hold] at hpending
        cases hpending
  trace := by
    obtain ⟨new, hnew⟩ := h.trace
    obtain ⟨new', hnew'⟩ := h'.trace
    exact ⟨new ++ new', by rw [hnew', hnew, List.append_assoc]⟩

/-- A future of a request is timed out. -/
theorem settle {key : Option ℕ} {req : PendingRequest} (hreq : s.pending.get? key = some req)
    (hpending : (s.loop.futures req.future).isPending = true) :
    Progress s (s.withLoop (s.loop.settle req.future .timedOut)) where
  policy := rfl
  kept := fun _ req' hreq' ↦ ⟨req', hreq', rfl⟩
  futures := fun f ↦ by
    rcases eq_or_ne f req.future with rfl | hne
    · exact .inr ⟨EventLoop.futures_settle_self, hpending, key, req, hreq, rfl⟩
    · exact .inl (EventLoop.futures_settle_ne hne)
  trace := ⟨_, rfl⟩

/-- A request is sent again, or cannot be. -/
theorem resent {key : Option ℕ} {req : PendingRequest} (hreq : s.pending.get? key = some req)
    (now : Time) (p : Packet) (world : World) (r : LoopRecord) :
    Progress s (DatagramProtocolClient.resent s now key req p world r) where
  policy := rfl
  kept := fun key' req' hreq' ↦ by
    show ∃ req'', (s.pending.set key _).get? key' = some req'' ∧ _
    rw [OrderedDict.get?_set]
    split
    · next heq =>
      obtain rfl : req' = req := Option.some.inj (hreq'.symm.trans (heq ▸ hreq))
      exact ⟨_, rfl, rfl⟩
    · exact ⟨req', hreq', rfl⟩
  futures := fun _ ↦ .inl rfl
  trace := ⟨_, rfl⟩

end Progress

section

variable {E : Env} {now : Time} {noise : Option ℕ → ℚ} {s : TransportState}

/-- The retry counter of a request that is serviced is below the limit, so that the wait of the last
attempt exists only if its own does. -/
theorem Accounted.exists_waitFor {gone : List (Option ℕ)} (h : Accounted gone s)
    {key : Option ℕ} {req : PendingRequest} (hreq : s.pending.get? key = some req) {x : ℚ} {t : Time}
    (hlast : s.proto.retryPolicy.waitFor s.proto.retryPolicy.retries.toNat x = .ok t) (y : ℚ) :
    ∃ t', s.proto.retryPolicy.waitFor req.retries y = .ok t' := by
  have hle := h.retries_le key req hreq
  exact RetryPolicy.exists_waitFor_of_le (by omega) hlast y

/-- **The loop of a pass.** If it is left by an exception although everything could be sent, then no
request had failed: the wait that overflows would have overflowed for those as well. -/
theorem ensures_serviceRequests (hretries : 0 ≤ s.proto.retryPolicy.retries)
    {entries : List (Option ℕ × PendingRequest)} {gone : List (Option ℕ)}
    (h : Accounted gone s)
    (hentries : ∀ e ∈ entries, s.pending.get? e.1 = some e.2 ∧ e.1 ∉ gone)
    (hnodup : (entries.map Prod.fst).Nodup)
    (hlast : gone ≠ [] → ∃ x t,
      s.proto.retryPolicy.waitFor s.proto.retryPolicy.retries.toNat x = .ok t) (t : Time) :
    Ensures (serviceRequests E now noise entries gone t) s
      (fun r s' ↦ Accounted r.1 s' ∧ Progress s s')
      fun _ s' ↦ s'.loop.AllSent → gone = [] ∧ Accounted [] s' ∧ Progress s s' := by
  induction entries generalizing s gone t with
  | nil => exact .of_ok rfl ⟨h, .refl s⟩
  | cons entry rest ih =>
    obtain ⟨key, req⟩ := entry
    obtain ⟨hreq, hkey⟩ := hentries (key, req) List.mem_cons_self
    have hrest : ∀ e ∈ rest, s.pending.get? e.1 = some e.2 ∧ e.1 ∉ gone := fun e he ↦
      hentries e (List.mem_cons_of_mem _ he)
    have hne : ∀ e ∈ rest, e.1 ≠ key := fun e he heq ↦
      (List.nodup_cons.1 hnodup).1 (List.mem_map.2 ⟨e, he, heq⟩)
    have hrestNodup := (List.nodup_cons.1 hnodup).2
    have hserviced := serviced_serviceRequest E now (noise key) key req s
    rw [serviceRequests]
    generalize hrun : (serviceRequest E now (noise key) key req).run s = result at hserviced
    rcases hserviced with ⟨e, hwait⟩ | ⟨wait, -, -⟩ | ⟨wait, hwait, -, hle, -⟩ |
      ⟨wait, -, -, -, hdone⟩ | ⟨wait, -, -, hlt, p, world, hp, raw, -⟩ |
      ⟨wait, -, -, -, p, world, -, e, -⟩
    · -- the wait overflows
      refine ensures_bind.2 (.of_error hrun fun _ ↦ ?_)
      rcases eq_or_ne gone [] with rfl | hgone
      · exact ⟨rfl, h, .refl s⟩
      · obtain ⟨x, t', hlast⟩ := hlast hgone
        obtain ⟨t'', hwait'⟩ := h.exists_waitFor hreq hlast (noise key)
        rw [hwait] at hwait'
        cases hwait'
    · exact ensures_bind.2 (.of_ok hrun (ih hretries h hrest hrestNodup hlast _))
    · -- the request fails
      refine ensures_bind.2 (.of_ok hrun ?_)
      have hpending := (h.isPending_iff key req hreq).2 hkey
      have hsettled : Accounted (gone ++ [key])
          (s.withLoop (s.loop.settle req.future .timedOut)) :=
        h.settle hreq hkey rfl fun _ _ ↦ hle
      have hreached : req.retries = s.proto.retryPolicy.retries.toNat := by
        have hcount := h.retries_le key req hreq
        omega
      have hrest' : ∀ e ∈ rest, s.pending.get? e.1 = some e.2 ∧ e.1 ∉ gone ++ [key] := fun e he ↦
        ⟨(hrest e he).1, by simp [(hrest e he).2, hne e he]⟩
      have hih := ih (by exact hretries) hsettled hrest' hrestNodup
        (fun _ ↦ ⟨noise key, wait, hreached ▸ hwait⟩) t
      refine hih.imp (fun r s' hs' ↦ ⟨hs'.1, ?_⟩) fun e s' hs' hsent ↦ ?_
      · exact (Progress.settle hreq hpending).trans hs'.2 fun _ req' hreq' ↦ ⟨req', hreq', rfl⟩
      · -- a request that failed has a wait, and so have all others
        exact absurd (hs' hsent).1 (by simp)
    · -- the future of a request in the map is not done
      rw [(h.isPending_iff key req hreq).2 hkey] at hdone
      cases hdone
    · -- the request is sent again
      refine ensures_bind.2 (.of_ok hrun ?_)
      have hresent : Accounted gone (resent s now key req p world (.sent req.future raw)) :=
        h.transmit { req with sendDate := now, retries := req.retries + 1 } hkey
          (h.isSome_key key req hreq) (h.id_eq key req hreq) hp (h.created key req hreq)
          ((h.isPending_iff key req hreq).2 hkey) (h.sentCount_eq key req hreq)
          (by show ((req.retries + 1 : ℕ) : ℤ) ≤ _; omega)
          fun key' req' hne' hreq' heq ↦ hne' (h.separate key req hreq key' req' hreq' heq)
      have hrest' : ∀ e ∈ rest, (resent s now key req p world (.sent req.future raw)).pending.get?
          e.1 = some e.2 ∧ e.1 ∉ gone := fun e he ↦
        ⟨(OrderedDict.get?_set_ne _ (hne e he) _).trans (hrest e he).1, (hrest e he).2⟩
      have hih := ih (by exact hretries) hresent hrest' hrestNodup hlast t
      have hprogress := Progress.resent hreq now p world (.sent req.future raw)
      refine hih.imp (fun r s' hs' ↦ ⟨hs'.1, ?_⟩) fun e s' hs' hsent ↦ ?_
      · exact hprogress.trans hs'.2 fun _ _ ↦ exists_of_get?_resent hreq
      · obtain ⟨hgone, hbooks, hs'⟩ := hs' hsent
        exact ⟨hgone, hbooks, hprogress.trans hs' fun _ _ ↦ exists_of_get?_resent hreq⟩
    · -- a failure is on record
      refine ensures_bind.2 (.of_error hrun fun hsent ↦ ?_)
      exact absurd hsent EventLoop.not_allSent_transmitted_failed

/-- **A pass**: what its loop did, with the requests taken out that failed. -/
theorem exists_progress_of_timeoutHandler (hretries : 0 ≤ s.proto.retryPolicy.retries)
    (h : Accounted [] s) (hsent : (after (timeoutHandler E now noise) s).loop.AllSent) :
    ∃ gone s₁, Accounted gone s₁ ∧ Progress s s₁ ∧
      (after (timeoutHandler E now noise) s).loop = s₁.loop ∧
      (after (timeoutHandler E now noise) s).pending =
        (s₁.setPending (gone.foldl OrderedDict.erase s₁.pending)).pending ∧
      (after (timeoutHandler E now noise) s).proto.retryPolicy = s.proto.retryPolicy := by
  have hrun := run_timeoutHandler E now noise s
  by_cases hrunning : s.proto.timeoutFuture = .running
  · rw [if_pos hrunning] at hrun
    have hloop : Ensures (serviceRequests E now noise s.pending.entries []
        s.proto.retryPolicy.timeout) s _ _ :=
      ensures_serviceRequests hretries h
        (fun e he ↦ ⟨OrderedDict.get?_eq_some_iff.2 he, List.not_mem_nil⟩) s.pending.nodup
        (fun hgone ↦ absurd rfl hgone) _
    rcases hentries : (serviceRequests E now noise s.pending.entries []
      s.proto.retryPolicy.timeout).run s with ⟨⟨gone, t⟩, s₁⟩ | ⟨e, s₁⟩
    · obtain ⟨hbooks, hprogress⟩ := hloop.of_run_eq_ok hentries
      have hpass : (timeoutPass E now noise).run s = .ok (max 0 t)
          (s₁.setPending (gone.foldl OrderedDict.erase s₁.pending)) := by
        rw [timeoutPass, run_bind_of_ok (run_get s), run_bind_of_ok hentries]
        rfl
      rw [hpass] at hrun
      rw [after_of_ok hrun]
      exact ⟨gone, s₁, hbooks, hprogress, rfl, rfl, hprogress.policy⟩
    · have hraised := hloop.of_run_eq_error hentries
      have hpass : (timeoutPass E now noise).run s = .error e s₁ := by
        rw [timeoutPass, run_bind_of_ok (run_get s), run_bind_of_error hentries]
      rw [hpass] at hrun
      rw [after_of_ok hrun] at hsent ⊢
      obtain ⟨-, hbooks, hprogress⟩ := hraised hsent
      exact ⟨[], s₁, hbooks, hprogress, rfl, rfl, hprogress.policy⟩
  · rw [if_neg hrunning] at hrun
    rw [after_of_ok hrun]
    exact ⟨[], s, h, .refl s, rfl, rfl, rfl⟩

end

/-! ### Steps -/

/-- How the future of a request comes to be completed: with a reply that carries its identifier and
that it accepts, or with a timeout after one transmission more than there are retries. -/
def CompletedBy (E : Env) (s : TransportState) (e : TransportEvent) (s' : TransportState)
    (key : Option ℕ) (req : PendingRequest) : Prop :=
  (∃ data reply, e = .datagramReceived data ∧ s'.loop.futures req.future = .result reply ∧
      reply.id = key ∧ Answers E s data req reply) ∨
    (∃ now noise, e = .timeout now noise) ∧ s'.loop.futures req.future = .timedOut ∧
      (s'.loop.sentCount req.future : ℤ) = s.proto.retryPolicy.retries + 1

/-- What a step does to futures and to the map of pending requests. -/
structure Accounts (E : Env) (s : TransportState) (e : TransportEvent) (s' : TransportState) :
    Prop where
  /-- A future that is done stays as it is. -/
  done : ∀ f, (s.loop.futures f).isPending = false → s'.loop.futures f = s.loop.futures f
  completed : ∀ f, (s.loop.futures f).isPending = true → (s'.loop.futures f).isPending = false →
    ∃ key req, s.pending.get? key = some req ∧ req.future = f ∧ CompletedBy E s e s' key req
  /-- A request leaves the map when its future is completed. -/
  left_iff : ∀ key req, s.pending.get? key = some req →
    (s'.pending.get? key = none ↔ (s'.loop.futures req.future).isPending = false)
  stays : ∀ key req req', s.pending.get? key = some req → s'.pending.get? key = some req' →
    req'.future = req.future
  policy : s'.proto.retryPolicy = s.proto.retryPolicy

section

variable {E : Env} {s s' : TransportState} {e : TransportEvent}

/-- A step that completes nothing and takes nothing out of the map. -/
theorem Accounts.of_frame (h : Accounted [] s) (hfutures : s'.loop.futures = s.loop.futures)
    (hkept : ∀ key req, s.pending.get? key = some req → s'.pending.get? key = some req)
    (hpolicy : s'.proto.retryPolicy = s.proto.retryPolicy) : Accounts E s e s' where
  done := fun _ _ ↦ by rw [hfutures]
  completed := fun f hf hf' ↦ by
    rw [hfutures, hf] at hf'
    cases hf'
  left_iff := fun key req hreq ↦ by
    have hpending := (h.isPending_iff key req hreq).2 List.not_mem_nil
    rw [hkept key req hreq, hfutures, hpending]
    simp
  stays := fun key req req' hreq hreq' ↦ by
    rw [hkept key req hreq] at hreq'
    rw [Option.some.inj hreq']
  policy := hpolicy

/-- **The step of the timer.** -/
theorem accounts_timeout {now : Time} {noise : Option ℕ → ℚ}
    (hretries : 0 ≤ s.proto.retryPolicy.retries) (h : Accounted [] s)
    (hsent : (after (timeoutHandler E now noise) s).loop.AllSent) :
    Accounted [] (after (timeoutHandler E now noise) s) ∧
      Accounts E s (.timeout now noise) (after (timeoutHandler E now noise) s) := by
  obtain ⟨gone, s₁, hbooks, hprogress, hloop, hpending, hpolicy⟩ :=
    exists_progress_of_timeoutHandler hretries h hsent
  generalize after (timeoutHandler E now noise) s = s' at hloop hpending hpolicy ⊢
  refine ⟨hbooks.erase.of_eq hloop hpending (hpolicy.trans hprogress.policy.symm), ?_⟩
  refine {
    done := fun f hf ↦ ?_
    completed := fun f hf hf' ↦ ?_
    left_iff := fun key req hreq ↦ ?_
    stays := fun key req req' hreq hreq' ↦ ?_
    policy := hpolicy }
  · rw [hloop]
    rcases hprogress.futures f with heq | ⟨-, hpending', -⟩
    · exact heq
    · rw [hf] at hpending'
      cases hpending'
  · rw [hloop] at hf'
    rcases hprogress.futures f with heq | ⟨heq, -, key, req, hreq, rfl⟩
    · rw [heq, hf] at hf'
      cases hf'
    · refine ⟨key, req, hreq, rfl, .inr ⟨⟨now, noise, rfl⟩, hloop ▸ heq, ?_⟩⟩
      rw [hloop, hbooks.timedOut req.future _ heq, hprogress.policy]
  · obtain ⟨req₁, hreq₁, hfuture⟩ := hprogress.kept key req hreq
    have hiff := hbooks.isPending_iff key req₁ hreq₁
    rw [hpending, hloop, ← hfuture, TransportState.pending_setPending,
      OrderedDict.get?_foldl_erase, hreq₁, ← Bool.not_eq_true, hiff]
    simp
  · obtain ⟨req₁, hreq₁, hfuture⟩ := hprogress.kept key req hreq
    rw [hpending, TransportState.pending_setPending, OrderedDict.get?_foldl_erase, hreq₁] at hreq'
    split at hreq'
    · cases hreq'
    · rw [← Option.some.inj hreq', hfuture]

/-- **The step of a datagram.** -/
theorem accounts_datagramReceived (h : Accounted [] s) (data : Bytes) :
    Accounted [] (after (datagramReceived E data) s) ∧
      Accounts E s (.datagramReceived data) (after (datagramReceived E data) s) := by
  rcases after_datagramReceived E data s with ⟨world, hafter⟩ |
    ⟨req, reply, world, hanswers, hpending, hafter⟩
  · rw [hafter]
    exact ⟨h.withWorld world, .of_frame h rfl (fun _ _ h ↦ h) rfl⟩
  rw [hafter]
  have hsettled := ((h.withWorld world).settle hanswers.pending List.not_mem_nil
    (FutureState.isPending_result reply) fun _ he ↦ by cases he).erase
  refine ⟨hsettled.of_eq rfl rfl rfl, ?_⟩
  refine {
    done := fun f hf ↦ ?_
    completed := fun f hf hf' ↦ ?_
    left_iff := fun key req' hreq' ↦ ?_
    stays := fun key req₁ req₂ hreq₁ hreq₂ ↦ ?_
    policy := rfl }
  · refine EventLoop.futures_settle_ne ?_
    rintro rfl
    rw [hpending] at hf
    cases hf
  · rcases eq_or_ne f req.future with rfl | hne
    · exact ⟨reply.id, req, hanswers.pending, rfl,
        .inl ⟨data, reply, rfl, EventLoop.futures_settle_self, rfl, hanswers⟩⟩
    · change ((EventLoop.settle _ req.future (.result reply)).futures f).isPending = false at hf'
      rw [EventLoop.futures_settle_ne hne] at hf'
      exact absurd hf (by simp [hf'])
  · show (s.pending.erase reply.id).get? key = none ↔
      ((EventLoop.settle _ req.future (.result reply)).futures req'.future).isPending = false
    rw [OrderedDict.get?_erase]
    rcases eq_or_ne key reply.id with rfl | hne
    · obtain rfl : req' = req := Option.some.inj (hreq'.symm.trans hanswers.pending)
      simp
    · have hfuture : req'.future ≠ req.future := fun heq ↦
        hne (h.separate reply.id req hanswers.pending key req' hreq' heq)
      have hother := (h.isPending_iff key req' hreq').2 List.not_mem_nil
      rw [if_neg hne, hreq', EventLoop.futures_settle_ne hfuture]
      simp [hother]
  · change (s.pending.erase reply.id).get? key = some req₂ at hreq₂
    rw [OrderedDict.get?_erase] at hreq₂
    split at hreq₂
    · cases hreq₂
    · rw [Option.some.inj (hreq₁.symm.trans hreq₂)]

/-! ### Runs -/

/-- What the code around a transport may do: it sends packets that have an identifier, changes no
packet that is pending and cancels no future. -/
def Admissible (s : TransportState) : TransportEvent → Prop
  | .sendPacket _ packet => (s.loop.packets packet).id.isSome
  | .assign packet _ => ∀ key req, s.pending.get? key = some req → req.packet ≠ packet
  | .cancel _ => False
  | _ => True

/-- A step in which no `request_packet()` and no `sendto` raises. -/
def AdmissibleStep (E : Env) (s s' : TransportState) : Prop :=
  ∃ e, Admissible s e ∧ (e.next E s).loop.AllSent ∧ s' = e.next E s

/-- A future that was just created belongs to no request. -/
theorem Accounted.future_ne_created (h : Accounted [] s) {key : Option ℕ} {req : PendingRequest}
    (hreq : s.pending.get? key = some req) : req.future ≠ s.loop.created :=
  (h.created key req hreq).ne

/-- **The step of `send_packet`.** -/
theorem accounts_sendPacket (hretries : 0 ≤ s.proto.retryPolicy.retries) (h : Accounted [] s)
    (now : Time) {packet : ℕ} (hid : (s.loop.packets packet).id.isSome)
    (hsent : ((TransportEvent.sendPacket now packet).next E s).loop.AllSent) :
    Accounted [] ((TransportEvent.sendPacket now packet).next E s) ∧
      Accounts E s (.sendPacket now packet) ((TransportEvent.sendPacket now packet).next E s) := by
  set s₁ := s.withLoop { s.loop with created := s.loop.created + 1 } with hs₁
  have hnext : (TransportEvent.sendPacket now packet).next E s =
      after (sendPacket E now packet s.loop.created) s₁ :=
    after_bind_of_ok (a := s.loop.created) rfl
  rw [hnext] at hsent ⊢
  rcases run_sendPacket E now packet s.loop.created s₁ with
    ⟨-, hrun⟩ | ⟨hfree, p, world, hp, ⟨raw, -, hrun⟩ | ⟨e, -, hrun⟩⟩
  · rw [after_of_error hrun]
    exact ⟨h.createFuture, .of_frame h rfl (fun _ _ h ↦ h) rfl⟩
  · rw [after_of_ok hrun]
    obtain ⟨hpending, hcount⟩ := h.fresh s.loop.created le_rfl
    refine ⟨?_, .of_frame h rfl (fun key req hreq ↦ ?_) rfl⟩
    · exact h.createFuture.transmit { packet, future := s.loop.created, sendDate := now }
        List.not_mem_nil hid rfl hp (Nat.lt_succ_self _) hpending hcount hretries
        fun key' req' _ hreq' ↦ h.future_ne_created hreq'
    · refine (OrderedDict.get?_set_ne _ ?_ _).trans hreq
      rintro rfl
      exact absurd (hfree.symm.trans hreq) (by simp)
  · rw [after_of_error hrun] at hsent
    exact absurd hsent EventLoop.not_allSent_transmitted_failed

/-- **Every step** keeps the books in order. -/
theorem accounts_next (hretries : 0 ≤ s.proto.retryPolicy.retries) (h : Accounted [] s)
    (hadmissible : Admissible s e) (hsent : (e.next E s).loop.AllSent) :
    Accounted [] (e.next E s) ∧ Accounts E s e (e.next E s) := by
  rcases e with - | ⟨now, packet⟩ | data | ⟨now, noise⟩ | ⟨packet, p⟩ | future | -
  · have hnext : (TransportEvent.createId).next E s = s ∨ ∃ id, (TransportEvent.createId).next E s =
        { s with proto := { s.proto with packetId := id } } := by
      rcases run_createId s with ⟨id, -, -, hrun⟩ | ⟨-, hrun⟩
      · exact .inr ⟨id, after_bind_of_ok hrun⟩
      · exact .inl (after_of_error (run_bind_of_error hrun))
    rcases hnext with hnext | ⟨id, hnext⟩
    · rw [hnext]
      exact ⟨h, .of_frame h rfl (fun _ _ h ↦ h) rfl⟩
    · rw [hnext]
      exact ⟨h.of_eq rfl rfl rfl, .of_frame h rfl (fun _ _ h ↦ h) rfl⟩
  · exact accounts_sendPacket hretries h now hadmissible hsent
  · exact accounts_datagramReceived h data
  · exact accounts_timeout hretries h hsent
  · exact ⟨h.assign p hadmissible, .of_frame h rfl (fun _ _ h ↦ h) rfl⟩
  · exact hadmissible.elim
  · obtain ⟨timer, hnext, -⟩ := after_closeTransport s
    rw [TransportEvent.next, TransportEvent.method, hnext]
    exact ⟨h.of_eq rfl rfl rfl, .of_frame h rfl (fun _ _ h ↦ h) rfl⟩

end

/-- What `create_id` returns and when it raises. -/
structure CreatesFreeId (s : TransportState) : Prop where
  of_ok : ∀ id s', createId.run s = .ok id s' → id < 256 ∧ s.pending.get? (some id) = none
  error_iff : (∃ e s', createId.run s = .error e s') ↔
    ∀ id < 256, (s.pending.get? (some id)).isSome
  of_error : ∀ e s', createId.run s = .error e s' →
    e = .identifierExhausted "All 256 RADIUS Identifier slots are in flight on this transport"

theorem createsFreeId (s : TransportState) : CreatesFreeId s := by
  rcases run_createId s with ⟨id, hlt, hfree, hrun⟩ | ⟨hall, hrun⟩
  · refine ⟨fun id' s' hrun' ↦ ?_, ⟨fun ⟨e, s', hrun'⟩ ↦ ?_, fun hall ↦ ?_⟩, fun e s' hrun' ↦ ?_⟩
    · rw [hrun] at hrun'
      cases hrun'
      exact ⟨hlt, hfree⟩
    · rw [hrun] at hrun'
      cases hrun'
    · exact absurd (hall id hlt) (by simp [hfree])
    · rw [hrun] at hrun'
      cases hrun'
  · refine ⟨fun id' s' hrun' ↦ ?_, ⟨fun _ ↦ hall, fun _ ↦ ⟨_, _, hrun⟩⟩, fun e s' hrun' ↦ ?_⟩
    · rw [hrun] at hrun'
      cases hrun'
    · rw [hrun] at hrun'
      cases hrun'
      rfl

section

variable {E : Env} {policy : RetryPolicy} {dict : Option Dictionary} {enforceMa : Bool}
  {packetId : ℕ} {packets : ℕ → Packet} {world : World} {s : TransportState}

/-- The books are in order along every run. -/
theorem accounted_of_reach (hretries : 0 ≤ policy.retries)
    (hreach : Relation.ReflTransGen (AdmissibleStep E)
      (.init policy dict enforceMa packetId packets world) s) :
    Accounted [] s ∧ s.proto.retryPolicy = policy := by
  induction hreach with
  | refl => exact ⟨accounted_init .., rfl⟩
  | tail _ hstep ih =>
    obtain ⟨e, hadmissible, hsent, rfl⟩ := hstep
    obtain ⟨hbooks, hpolicy⟩ := ih
    have hnext := accounts_next (by rwa [hpolicy]) hbooks hadmissible hsent
    exact ⟨hnext.1, hnext.2.policy.trans hpolicy⟩

/-- **Transport accounting.** In every reachable state each future was completed at most once, no
two pending requests have one identifier, and `create_id` returns a free identifier if there is one;
and in every step from there, futures are completed by accepted replies and final timeouts, and the
requests that leave the map are those whose futures are completed. -/
theorem accounting (hretries : 0 ≤ policy.retries)
    (hreach : Relation.ReflTransGen (AdmissibleStep E)
      (.init policy dict enforceMa packetId packets world) s) :
    (∀ f, s.loop.completedCount f ≤ 1) ∧
      (∀ key req key' req', s.pending.get? key = some req → s.pending.get? key' = some req' →
        (s.loop.packets req.packet).id = (s.loop.packets req'.packet).id → key = key') ∧
      CreatesFreeId s ∧ s.proto.retryPolicy = policy ∧
      ∀ e, Admissible s e → (e.next E s).loop.AllSent → Accounts E s e (e.next E s) := by
  obtain ⟨h, hpolicy⟩ := accounted_of_reach hretries hreach
  refine ⟨fun f ↦ ?_, fun key req key' req' hreq hreq' heq ↦ ?_, createsFreeId s, hpolicy,
    fun e hadmissible hsent ↦ (accounts_next (by rwa [hpolicy]) h hadmissible hsent).2⟩
  · rw [h.completedCount_eq f]
    split <;> omega
  · rw [← h.id_eq key req hreq, ← h.id_eq key' req' hreq', heq]

end

/-- An Access-Request with identifier `7`. -/
def requestSeven : Packet :=
  { cls := .auth, code := PacketType.accessRequest, id := some 7, secret := [1] }

/-- A transport on which every packet object is that request, and every digest is zero. -/
def TransportState.seven : TransportState :=
  .init {} none false 0 (fun _ ↦ requestSeven) { rng := ⟨fun _ ↦ 0⟩ }

/-- The request is sent and answered. -/
theorem accounting_seven : ∃ s,
    Relation.ReflTransGen (AdmissibleStep (Env.ofByte (fun _ ↦ 0) fun _ _ ↦ 0))
      TransportState.seven s ∧
    (s.loop.futures 0).isPending = false ∧ s.pending.keys = [] ∧ s.loop.completedCount 0 ≤ 1 := by
  set E := Env.ofByte (fun _ ↦ 0) fun _ _ ↦ 0
  have hsent : AdmissibleStep E .seven ((TransportEvent.sendPacket 0 0).next E .seven) :=
    ⟨.sendPacket 0 0, rfl, by decide +kernel, rfl⟩
  have hanswered : AdmissibleStep E ((TransportEvent.sendPacket 0 0).next E .seven)
      ((TransportEvent.datagramReceived ([2, 7, 0, 20] ++ List.replicate 16 0)).next E
        ((TransportEvent.sendPacket 0 0).next E .seven)) :=
    ⟨.datagramReceived _, trivial, by decide +kernel, rfl⟩
  have hreach := (Relation.ReflTransGen.single hsent).tail hanswered
  exact ⟨_, hreach, by decide +kernel, by decide +kernel, (accounting (by decide) hreach).1 0⟩

end Pyrad2
