import Pyrad2.Async.Accounting

/-!
# Sends that fail

What `send_packet` of a transport leaves behind when it raises.

The request is stored first and serialized afterwards. An identifier that is taken is noticed before
that, and the transport is as it was; what is noticed later, in the encoder or at the closed
transport, leaves the request in the map, where its identifier is taken and the timer finds it.
-/

namespace Pyrad2

open EStateM

namespace DatagramProtocolClient

variable {E : Env} {now : Time} {packet future : ℕ} {s : TransportState}

/-- If `send_packet` raises, the requests that are pending are the same as before. -/
def LeavesNoTrace (E : Env) (now : Time) (packet future : ℕ) (s : TransportState) : Prop :=
  Ensures (sendPacket E now packet future) s (fun _ _ ↦ True) fun _ s' ↦ s'.pending = s.pending

/-- The transport is open and the packet can be serialized. -/
structure CanSend (E : Env) (packet : ℕ) (s : TransportState) : Prop where
  opened : s.proto.transport = true
  serializes : ∃ raw ps,
    (Packet.requestPacket E).run ⟨s.loop.packets packet, s.loop.world⟩ = .ok raw ps

theorem run_transmit_eq_ok_iff :
    (∃ s', (transmit E future packet).run s = .ok () s') ↔ CanSend E packet s := by
  rw [run_transmit_eq]
  constructor
  · rintro ⟨s', hrun⟩
    split at hrun
    · next hopen =>
      obtain ⟨p, world, -, ⟨raw, hpacket, -⟩ | ⟨e, -, hrequest⟩⟩ :=
        EventLoop.run_requestPacket E packet s.loop
      · exact ⟨hopen, raw, _, hpacket⟩
      · rw [hrequest] at hrun
        cases hrun
    · cases hrun
  · rintro ⟨hopen, raw, ps, hpacket⟩
    rw [if_pos hopen]
    obtain ⟨p, world, -, ⟨raw', -, hrequest⟩ | ⟨e, hraised, -⟩⟩ :=
      EventLoop.run_requestPacket E packet s.loop
    · rw [hrequest]
      exact ⟨_, rfl⟩
    · cases hpacket.symm.trans hraised

/-- A stored request is not what was there before. -/
theorem pending_enqueued_ne {p : Packet} {world : World} {r : LoopRecord}
    (hfree : s.pending.get? (s.loop.packets packet).id = none) :
    (enqueued s now packet future p world r).pending ≠ s.pending := by
  intro heq
  have hget : (s.pending.set (s.loop.packets packet).id
      { packet, future, sendDate := now }).get? (s.loop.packets packet).id = none :=
    (congrArg (·.get? (s.loop.packets packet).id) heq).trans hfree
  rw [OrderedDict.get?_set_self] at hget
  cases hget

/-- **Failed sends.** A call that raises leaves no trace exactly when it raises over the identifier,
and a call that does not raise is one that can send. -/
theorem leavesNoTrace_iff (E : Env) (now : Time) (packet future : ℕ) (s : TransportState) :
    LeavesNoTrace E now packet future s ↔
      (s.pending.get? (s.loop.packets packet).id).isSome ∨ CanSend E packet s := by
  rcases run_sendPacket E now packet future s with
    ⟨htaken, hrun⟩ | ⟨hfree, p, world, -, ⟨raw, -, hrun⟩ | ⟨e, -, hrun⟩⟩
  · exact iff_of_true (.of_error hrun rfl) (.inl htaken)
  all_goals
    -- behind a free identifier the outcome is that of the transmission
    have htransmit : (sendPacket E now packet future).run s = (transmit E future packet).run
        (s.setPending (s.pending.set (s.loop.packets packet).id
          { packet, future, sendDate := now })) := by
      rw [sendPacket, run_bind_of_ok (run_get s)]
      dsimp only
      rw [if_neg (by rw [OrderedDict.contains, hfree]; decide)]
      rfl
    rw [htransmit] at hrun
  · have hsend := run_transmit_eq_ok_iff.1 ⟨_, hrun⟩
    exact iff_of_true (.of_ok (htransmit.trans hrun) trivial) (.inr ⟨hsend.opened, hsend.serializes⟩)
  · refine iff_of_false (fun h ↦ ?_) ?_
    · exact pending_enqueued_ne hfree (h.of_run_eq_error (htransmit.trans hrun))
    · rintro (htaken | hsend)
      · rw [hfree] at htaken
        cases htaken
      · have hstored : CanSend E packet (s.setPending (s.pending.set (s.loop.packets packet).id
            { packet, future, sendDate := now })) := ⟨hsend.opened, hsend.serializes⟩
        obtain ⟨s', hok⟩ := run_transmit_eq_ok_iff.2 hstored
        cases hok.symm.trans hrun

/-- A transport on which packet object `n` is an Access-Request with identifier `n` and an attribute
that is too long. -/
def overlongTransport : TransportState :=
  .init {} none false 0 (fun n ↦ { requestSeven with
    id := some n
    attrs := (∅ : OrderedDict Key (Stored PyVal)).set (.int 1) (.vals [.bytes (.replicate 254 0)]) })
    { rng := ⟨fun _ ↦ 0⟩ }

/-- A transport that was closed. -/
def closedTransport : TransportState :=
  TransportEvent.closeTransport.next (Env.ofByte (fun _ ↦ 0) fun _ _ ↦ 0) .seven

/-- The packet cannot be serialized, or the transport was closed, and the request stays in the map. -/
theorem not_leavesNoTrace_overlongTransport :
    let E := Env.ofByte (fun _ ↦ 0) fun _ _ ↦ 0
    ¬ LeavesNoTrace E 0 7 0 overlongTransport ∧ ¬ LeavesNoTrace E 0 7 0 closedTransport := by
  have hstays (s : TransportState) (hs : s.pending.keys = [])
      (hkeys : Ensures (sendPacket (Env.ofByte (fun _ ↦ 0) fun _ _ ↦ 0) 0 7 0) s (fun _ _ ↦ False)
        fun _ s' ↦ s'.pending.keys = [some 7]) :
      ¬ LeavesNoTrace (Env.ofByte (fun _ ↦ 0) fun _ _ ↦ 0) 0 7 0 s := by
    intro h
    rcases hrun : (sendPacket (Env.ofByte (fun _ ↦ 0) fun _ _ ↦ 0) 0 7 0).run s with
      ⟨⟨⟩, s'⟩ | ⟨e, s'⟩
    · exact hkeys.of_run_eq_ok hrun
    · have hseven := hkeys.of_run_eq_error hrun
      rw [h.of_run_eq_error hrun, hs] at hseven
      cases hseven
  exact ⟨hstays overlongTransport rfl (by decide +kernel),
    hstays closedTransport rfl (by decide +kernel)⟩

end DatagramProtocolClient

end Pyrad2
