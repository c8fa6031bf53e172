import Pyrad2.Async.Steps

/-!
# What a transport keeps

In every step of a transport, whatever else happens, a pending request stays in the map until its
future is done.
-/

namespace Pyrad2

open EStateM

namespace DatagramProtocolClient

/-- A request stays in the map until its future is done, and what is done stays done. -/
structure Keeps (s s' : TransportState) : Prop where
  entries : ∀ key req, s.pending.get? key = some req →
    (s'.loop.futures req.future).isPending = true →
      ∃ req', s'.pending.get? key = some req' ∧ req'.future = req.future
  done : ∀ f, (s.loop.futures f).isPending = false → (s'.loop.futures f).isPending = false
  transport : s'.proto.transport = s.proto.transport

theorem Keeps.refl (s : TransportState) : Keeps s s where
  entries := fun _ req hreq _ ↦ ⟨req, hreq, rfl⟩
  done := fun _ h ↦ h
  transport := rfl

theorem Keeps.trans {s s' s'' : TransportState} (h : Keeps s s') (h' : Keeps s' s'') :
    Keeps s s'' where
  entries := fun key req hreq hpending ↦ by
    have hmid : (s'.loop.futures req.future).isPending = true := by
      by_contra hdone
      rw [h'.done req.future (by simpa using hdone)] at hpending
      cases hpending
    obtain ⟨req', hreq', hfuture⟩ := h.entries key req hreq hmid
    obtain ⟨req'', hreq'', hfuture'⟩ := h'.entries key req' hreq' (by rwa [hfuture])
    exact ⟨req'', hreq'', hfuture'.trans hfuture⟩
  done := fun f hf ↦ h'.done f (h.done f hf)
  transport := h'.transport.trans h.transport

instance : IsPreorder TransportState Keeps where
  refl := Keeps.refl
  trans := fun _ _ _ ↦ Keeps.trans

section

variable {s s' : TransportState}

/-- No request leaves the map, and no future changes. -/
theorem Keeps.of_futures_eq (hfutures : s'.loop.futures = s.loop.futures)
    (hentries : ∀ key req, s.pending.get? key = some req →
      ∃ req', s'.pending.get? key = some req' ∧ req'.future = req.future)
    (htransport : s'.proto.transport = s.proto.transport) : Keeps s s' where
  entries := fun key req hreq _ ↦ hentries key req hreq
  done := fun f hf ↦ by rwa [hfutures]
  transport := htransport

theorem Keeps.settle (future : ℕ) {outcome : FutureState} (houtcome : outcome.isPending = false) :
    Keeps s (s.withLoop (s.loop.settle future outcome)) where
  entries := fun _ req hreq _ ↦ ⟨req, hreq, rfl⟩
  done := fun f hf ↦ by
    show ((s.loop.settle future outcome).futures f).isPending = false
    rcases eq_or_ne f future with rfl | hne
    · rwa [EventLoop.futures_settle_self]
    · rwa [EventLoop.futures_settle_ne hne]
  transport := rfl

/-- Requests whose futures are done may leave the map. -/
theorem Keeps.erase {gone : List (Option ℕ)} (hgone : ∀ key ∈ gone, ∀ req,
      s.pending.get? key = some req → (s.loop.futures req.future).isPending = false) :
    Keeps s (s.setPending (gone.foldl OrderedDict.erase s.pending)) where
  entries := fun key req hreq hpending ↦ by
    change (s.loop.futures req.future).isPending = true at hpending
    have hkey : key ∉ gone := fun hmem ↦ by
      rw [hgone key hmem req hreq] at hpending
      cases hpending
    refine ⟨req, ?_, rfl⟩
    rw [TransportState.pending_setPending, OrderedDict.get?_foldl_erase, if_neg hkey, hreq]
  done := fun _ hf ↦ hf
  transport := rfl

end

section

variable {s : TransportState}

theorem keeps_createId : Respects Keeps createId := by
  intro s
  rcases run_createId s with ⟨id, -, -, hrun⟩ | ⟨-, hrun⟩
  · rw [after_of_ok hrun]
    exact .of_futures_eq rfl (fun _ req hreq ↦ ⟨req, hreq, rfl⟩) rfl
  · rw [after_of_error hrun]
    exact .refl s

theorem keeps_sendPacket (E : Env) (now : Time) (packet future : ℕ) :
    Respects Keeps (sendPacket E now packet future) := by
  intro s
  have henqueued (hfree : s.pending.get? (s.loop.packets packet).id = none) (p : Packet)
      (world : World) (r : LoopRecord) : Keeps s (enqueued s now packet future p world r) := by
    refine .of_futures_eq rfl (fun key req hreq ↦ ⟨req, ?_, rfl⟩) rfl
    refine (OrderedDict.get?_set_ne _ ?_ _).trans hreq
    rintro rfl
    rw [hfree] at hreq
    cases hreq
  rcases run_sendPacket E now packet future s with
    ⟨-, hrun⟩ | ⟨hfree, p, world, -, ⟨raw, -, hrun⟩ | ⟨e, -, hrun⟩⟩
  · rw [after_of_error hrun]
    exact .refl s
  · rw [after_of_ok hrun]
    exact henqueued hfree p world _
  · rw [after_of_error hrun]
    exact henqueued hfree p world _

theorem keeps_datagramReceived (E : Env) (data : Bytes) :
    Respects Keeps (datagramReceived E data) := by
  intro s
  rcases after_datagramReceived E data s with ⟨world, hafter⟩ |
    ⟨req, reply, world, hanswers, -, hafter⟩
  · rw [hafter]
    exact .of_futures_eq rfl (fun _ req hreq ↦ ⟨req, hreq, rfl⟩) rfl
  · rw [hafter]
    have hworld : Keeps s (s.withWorld world) :=
      .of_futures_eq rfl (fun _ req hreq ↦ ⟨req, hreq, rfl⟩) rfl
    refine (hworld.trans (Keeps.settle req.future (FutureState.isPending_result reply))).trans ?_
    refine Keeps.erase fun key (hkey : key ∈ [reply.id]) req' hreq' ↦ ?_
    obtain rfl := List.mem_singleton.1 hkey
    obtain rfl : req' = req := Option.some.inj (hreq'.symm.trans hanswers.pending)
    show ((EventLoop.settle _ req'.future (.result reply)).futures req'.future).isPending = false
    rw [EventLoop.futures_settle_self, FutureState.isPending_result]

/-- **The loop of a pass.** The requests whose keys are to be deleted have futures that are done. -/
theorem keeps_serviceRequests (E : Env) (now : Time) (noise : Option ℕ → ℚ)
    {entries : List (Option ℕ × PendingRequest)} {gone : List (Option ℕ)}
    (hentries : ∀ e ∈ entries, s.pending.get? e.1 = some e.2)
    (hkeys : (entries.map Prod.fst).Nodup)
    (hgone : ∀ key ∈ gone, ∀ req, s.pending.get? key = some req →
      (s.loop.futures req.future).isPending = false) (t : Time) :
    Ensures (serviceRequests E now noise entries gone t) s
      (fun r s' ↦ Keeps s s' ∧ ∀ key ∈ r.1, ∀ req, s'.pending.get? key = some req →
        (s'.loop.futures req.future).isPending = false)
      fun _ s' ↦ Keeps s s' := by
  induction entries generalizing s gone t with
  | nil => exact .of_ok rfl ⟨.refl s, hgone⟩
  | cons entry rest ih =>
    obtain ⟨key, req⟩ := entry
    have hreq := hentries (key, req) List.mem_cons_self
    obtain ⟨hkeyRest, hkeysRest⟩ := List.nodup_cons.1 hkeys
    have hrest : ∀ e ∈ rest, s.pending.get? e.1 = some e.2 := fun e he ↦
      hentries e (List.mem_cons_of_mem _ he)
    have hne : ∀ e ∈ rest, e.1 ≠ key := fun e he heq ↦
      hkeyRest (List.mem_map.2 ⟨e, he, heq⟩)
    have hresent (p : Packet) (world : World) (r : LoopRecord) :
        Keeps s (resent s now key req p world r) := by
      refine .of_futures_eq rfl (fun key' req' hreq' ↦ ?_) rfl
      show ∃ req'', (s.pending.set key _).get? key' = some req'' ∧ _
      rw [OrderedDict.get?_set]
      split
      · next heq =>
        obtain rfl : req' = req := Option.some.inj (hreq'.symm.trans (heq ▸ hreq))
        exact ⟨_, rfl, rfl⟩
      · exact ⟨req', hreq', rfl⟩
    have hserviced := serviced_serviceRequest E now (noise key) key req s
    rw [serviceRequests]
    generalize hrun : (serviceRequest E now (noise key) key req).run s = result at hserviced
    rcases hserviced with ⟨e, -⟩ | ⟨wait, -, -⟩ | ⟨wait, -, -, -, hpending⟩ |
      ⟨wait, -, -, -, hdone⟩ | ⟨wait, -, -, hlt, p, world, -, raw, -⟩ |
      ⟨wait, -, -, -, p, world, -, e, -⟩
    · exact ensures_bind.2 (.of_error hrun (.refl s))
    · exact ensures_bind.2 (.of_ok hrun (ih hrest hkeysRest hgone _))
    · refine ensures_bind.2 (.of_ok hrun ?_)
      set s₁ := s.withLoop
        (s.loop.settle req.future (.exception (.timeoutError "Timeout on Reply"))) with hs₁
      have hsettle : Keeps s s₁ := Keeps.settle req.future (FutureState.isPending_exception _)
      refine (ih (s := s₁) hrest hkeysRest (fun key' hkey' req' hreq' ↦ ?_) t).imp
        (fun r s' hs' ↦ ⟨hsettle.trans hs'.1, hs'.2⟩) fun e s' hs' ↦ hsettle.trans hs'
      rcases List.mem_append.1 hkey' with hmem | hmem
      · exact hsettle.done _ (hgone key' hmem req' hreq')
      · obtain rfl := List.mem_singleton.1 hmem
        obtain rfl : req' = req := Option.some.inj (hreq'.symm.trans hreq)
        show ((s.loop.settle req'.future _).futures req'.future).isPending = false
        rw [EventLoop.futures_settle_self, FutureState.isPending_exception]
    · exact ensures_bind.2 (.of_error hrun (.refl s))
    · refine ensures_bind.2 (.of_ok hrun ?_)
      refine (ih (s := resent s now key req p world (.sent req.future raw))
        (fun e he ↦ (OrderedDict.get?_set_ne _ (hne e he) _).trans (hrest e he)) hkeysRest
        (fun key' hkey' req' hreq' ↦ ?_) t).imp
        (fun r s' hs' ↦ ⟨(hresent ..).trans hs'.1, hs'.2⟩) fun e s' hs' ↦ (hresent ..).trans hs'
      obtain ⟨req₀, hreq₀, hfuture⟩ := exists_of_get?_resent hreq hreq'
      rw [← hfuture]
      exact hgone key' hkey' req₀ hreq₀
    · exact ensures_bind.2 (.of_error hrun (hresent ..))

theorem keeps_timeoutHandler (E : Env) (now : Time) (noise : Option ℕ → ℚ) :
    Respects Keeps (timeoutHandler E now noise) := by
  intro s
  have hrun := run_timeoutHandler E now noise s
  have hpass : Ensures (timeoutPass E now noise) s (fun _ s' ↦ Keeps s s') fun _ s' ↦ Keeps s s' := by
    refine ensures_bind.2 (ensures_get.2 (ensures_bind.2 ?_))
    refine (keeps_serviceRequests E now noise
      (fun e he ↦ OrderedDict.get?_eq_some_iff.2 he) s.pending.nodup
      (fun _ hmem ↦ absurd hmem List.not_mem_nil) _).imp (fun r s' hs' ↦ ?_) fun _ _ hs' ↦ hs'
    exact ensures_bind.2 (ensures_modify.2 (hs'.1.trans (Keeps.erase hs'.2)))
  by_cases hrunning : s.proto.timeoutFuture = .running
  · rw [if_pos hrunning] at hrun
    rcases hloop : (timeoutPass E now noise).run s with ⟨t, s'⟩ | ⟨e, s'⟩
    · rw [hloop] at hrun
      rw [after_of_ok hrun]
      exact hpass.of_run_eq_ok hloop
    · rw [hloop] at hrun
      rw [after_of_ok hrun]
      exact (hpass.of_run_eq_error hloop).trans
        (.of_futures_eq rfl (fun _ req hreq ↦ ⟨req, hreq, rfl⟩) rfl)
  · rw [if_neg hrunning] at hrun
    rw [after_of_ok hrun]
    exact .refl s

end

end DatagramProtocolClient

end Pyrad2
