import Pyrad2.Async.Protocol

/-!
# What a transport can do in a step

The outcomes of each method of a transport, said once. What holds along runs is derived from these
and never from the methods themselves.
-/

namespace Pyrad2

open EStateM

namespace DatagramProtocolClient

variable {E : Env} {s : TransportState}

/-! ### Transmissions -/

theorem run_transmit_eq (E : Env) (future packet : ℕ) (s : TransportState) :
    (transmit E future packet).run s =
      if s.proto.transport then
        match (EventLoop.requestPacket E packet).run s.loop with
        | .ok raw loop => .ok () (s.withLoop (loop.record (.sent future raw)))
        | .error e loop => .error e (s.withLoop (loop.record (.failed future e)))
      else .error .attributeError (s.withLoop (s.loop.record (.failed future .attributeError))) := rfl

/-- **A transmission** serializes the packet object, which keeps its identifier, and is put on
record, whether it succeeds or not. -/
theorem run_transmit (E : Env) (future packet : ℕ) (s : TransportState) :
    ∃ p world, ((s.loop.packets packet).id.isSome → p.id = (s.loop.packets packet).id) ∧
      ((∃ raw, (Packet.requestPacket E).run ⟨s.loop.packets packet, s.loop.world⟩ =
            .ok raw ⟨p, world⟩ ∧
          (transmit E future packet).run s =
            .ok () (s.withLoop (s.loop.transmitted packet p world (.sent future raw)))) ∨
        ∃ e, (s.proto.transport = true →
            (Packet.requestPacket E).run ⟨s.loop.packets packet, s.loop.world⟩ =
              .error e ⟨p, world⟩) ∧
          (transmit E future packet).run s =
            .error e (s.withLoop (s.loop.transmitted packet p world (.failed future e)))) := by
  rw [run_transmit_eq]
  by_cases hopen : s.proto.transport = true
  · rw [if_pos hopen]
    obtain ⟨p, world, hid, ⟨raw, hpacket, hrequest⟩ | ⟨e, hpacket, hrequest⟩⟩ :=
      EventLoop.run_requestPacket E packet s.loop
    · rw [hrequest]
      exact ⟨p, world, hid, .inl ⟨raw, hpacket, rfl⟩⟩
    · rw [hrequest]
      exact ⟨p, world, hid, .inr ⟨e, fun _ ↦ hpacket, rfl⟩⟩
  · -- a closed transport leaves the packet object as it is
    rw [if_neg hopen]
    refine ⟨s.loop.packets packet, s.loop.world, fun _ ↦ rfl, .inr ⟨.attributeError, ?_, ?_⟩⟩
    · exact fun h ↦ absurd h hopen
    · rw [EventLoop.transmitted, Function.update_eq_self]
      rfl

/-! ### Completing futures -/

theorem run_complete (future : ℕ) (outcome : FutureState) (s : TransportState) :
    (complete future outcome).run s =
      if (s.loop.futures future).isPending then
        .ok () (s.withLoop (s.loop.settle future outcome))
      else .error .invalidStateError s := by
  have hrun : (complete future outcome).run s = match s.loop.complete future outcome with
      | .ok l => .ok () (s.withLoop l)
      | .error e => .error e s := by
    change (onPart TransportState.loop _ (modifyM fun l ↦ l.complete future outcome)).run s = _
    rw [run_onPart, run_modifyM]
    rcases s.loop.complete future outcome with e | l <;> rfl
  rw [hrun, EventLoop.complete]
  by_cases hpending : (s.loop.futures future).isPending
  · rw [if_pos hpending, if_pos hpending]
  · rw [if_neg hpending, if_neg hpending]

/-! ### The timer -/

/-- The state after a request was sent again. -/
def resent (s : TransportState) (now : Time) (id : Option ℕ) (req : PendingRequest) (p : Packet)
    (world : World) (r : LoopRecord) : TransportState :=
  (s.setPending (s.pending.set id { req with sendDate := now, retries := req.retries + 1 })).withLoop
    (s.loop.transmitted req.packet p world r)

/-- An entry that was sent again is the old one but for its counter and its date. -/
theorem exists_of_get?_resent {s : TransportState} {now : Time} {key : Option ℕ}
    {req : PendingRequest} {p : Packet} {world : World} {r : LoopRecord}
    (hreq : s.pending.get? key = some req) {key' : Option ℕ} {req' : PendingRequest}
    (h : (resent s now key req p world r).pending.get? key' = some req') :
    ∃ req₀, s.pending.get? key' = some req₀ ∧ req₀.future = req'.future := by
  change (s.pending.set key _).get? key' = some req' at h
  rw [OrderedDict.get?_set] at h
  split at h
  · next heq =>
    obtain rfl := Option.some.inj h
    exact ⟨req, heq ▸ hreq, rfl⟩
  · exact ⟨req', h, rfl⟩

/-- What servicing a request comes to. -/
inductive Serviced (E : Env) (s : TransportState) (now : Time) (noise : ℚ) (id : Option ℕ)
    (req : PendingRequest) : EStateM.Result Exn TransportState Service → Prop
  /-- Its wait cannot be computed. -/
  | overflow (e : Exn) (hwait : s.proto.retryPolicy.waitFor req.retries noise = .error e) :
      Serviced E s now noise id req (.error e s)
  /-- Its wait has not elapsed. -/
  | waiting (wait : Time) (hwait : s.proto.retryPolicy.waitFor req.retries noise = .ok wait)
      (hlt : now - req.sendDate < wait) :
      Serviced E s now noise id req (.ok (.waiting (wait - (now - req.sendDate))) s)
  /-- No retries are left. -/
  | failed (wait : Time) (hwait : s.proto.retryPolicy.waitFor req.retries noise = .ok wait)
      (hle : wait ≤ now - req.sendDate) (hretries : s.proto.retryPolicy.retries ≤ req.retries)
      (hpending : (s.loop.futures req.future).isPending = true) :
      Serviced E s now noise id req (.ok .failed (s.withLoop
        (s.loop.settle req.future (.exception (.timeoutError "Timeout on Reply")))))
  /-- No retries are left, and the future is done already. -/
  | invalid (wait : Time) (hwait : s.proto.retryPolicy.waitFor req.retries noise = .ok wait)
      (hle : wait ≤ now - req.sendDate) (hretries : s.proto.retryPolicy.retries ≤ req.retries)
      (hdone : (s.loop.futures req.future).isPending = false) :
      Serviced E s now noise id req (.error .invalidStateError s)
  | resent (wait : Time) (hwait : s.proto.retryPolicy.waitFor req.retries noise = .ok wait)
      (hle : wait ≤ now - req.sendDate) (hretries : req.retries < s.proto.retryPolicy.retries)
      (p : Packet) (world : World)
      (hid : (s.loop.packets req.packet).id.isSome → p.id = (s.loop.packets req.packet).id)
      (raw : Bytes)
      (hpacket : (Packet.requestPacket E).run ⟨s.loop.packets req.packet, s.loop.world⟩ =
        .ok raw ⟨p, world⟩) :
      Serviced E s now noise id req
        (.ok .resent (resent s now id req p world (.sent req.future raw)))
  /-- The packet cannot be sent again. -/
  | unsent (wait : Time) (hwait : s.proto.retryPolicy.waitFor req.retries noise = .ok wait)
      (hle : wait ≤ now - req.sendDate) (hretries : req.retries < s.proto.retryPolicy.retries)
      (p : Packet) (world : World)
      (hid : (s.loop.packets req.packet).id.isSome → p.id = (s.loop.packets req.packet).id)
      (e : Exn)
      (hpacket : s.proto.transport = true →
        (Packet.requestPacket E).run ⟨s.loop.packets req.packet, s.loop.world⟩ =
          .error e ⟨p, world⟩) :
      Serviced E s now noise id req
        (.error e (resent s now id req p world (.failed req.future e)))

theorem run_resend (E : Env) (now : Time) (id : Option ℕ) (req : PendingRequest)
    (s : TransportState) :
    ∃ p world, ((s.loop.packets req.packet).id.isSome → p.id = (s.loop.packets req.packet).id) ∧
      ((∃ raw, (Packet.requestPacket E).run ⟨s.loop.packets req.packet, s.loop.world⟩ =
            .ok raw ⟨p, world⟩ ∧
          (resend E now id req).run s =
            .ok () (resent s now id req p world (.sent req.future raw))) ∨
        ∃ e, (s.proto.transport = true →
            (Packet.requestPacket E).run ⟨s.loop.packets req.packet, s.loop.world⟩ =
              .error e ⟨p, world⟩) ∧
          (resend E now id req).run s =
            .error e (resent s now id req p world (.failed req.future e))) :=
  run_transmit E req.future req.packet (s.setPending
    (s.pending.set id { req with sendDate := now, retries := req.retries + 1 }))

/-- **Every outcome of servicing a request.** -/
theorem serviced_serviceRequest (E : Env) (now : Time) (noise : ℚ) (id : Option ℕ)
    (req : PendingRequest) (s : TransportState) :
    Serviced E s now noise id req ((serviceRequest E now noise id req).run s) := by
  rw [serviceRequest, run_bind_of_ok (run_get s)]
  dsimp only
  rcases hwait : s.proto.retryPolicy.waitFor req.retries noise with e | wait
  · rw [run_bind_of_error (run_liftM_error e s)]
    exact .overflow e hwait
  rw [run_bind_of_ok (run_liftM_ok wait s)]
  split
  · next hlt => exact .waiting wait hwait hlt
  next hlt =>
  have hle := not_lt.1 hlt
  split
  · next hretries =>
    rcases hdone : (s.loop.futures req.future).isPending
    · have hrun : (complete req.future (.exception (.timeoutError "Timeout on Reply"))).run s =
          .error .invalidStateError s := by
        rw [run_complete, if_neg (by simp [hdone])]
      rw [run_bind_of_error hrun]
      exact .invalid wait hwait hle hretries hdone
    · rw [run_bind_of_ok (by rw [run_complete, if_pos hdone])]
      exact .failed wait hwait hle hretries hdone
  next hretries =>
  have hlt := not_le.1 hretries
  obtain ⟨p, world, hid, ⟨raw, hpacket, hrun⟩ | ⟨e, hpacket, hrun⟩⟩ := run_resend E now id req s
  · rw [run_bind_of_ok hrun]
    exact .resent wait hwait hle hlt p world hid raw hpacket
  · rw [run_bind_of_error hrun]
    exact .unsent wait hwait hle hlt p world hid e hpacket

/-! ### The timer -/

theorem run_timeoutHandler (E : Env) (now : Time) (noise : Option ℕ → ℚ) (s : TransportState) :
    (timeoutHandler E now noise).run s =
      if s.proto.timeoutFuture = .running then
        match (timeoutPass E now noise).run s with
        | .ok _ s' => .ok () s'
        | .error e s' => .ok () { s' with proto := { s'.proto with timeoutFuture := .died e } }
      else .ok () s := rfl

/-! ### Identifiers -/

/-- The identifiers that `create_id` looks at, the one after the last first. -/
theorem run_createId_eq (s : TransportState) :
    createId.run s =
      match ((List.range' 1 256).map fun offset ↦ (s.proto.packetId + offset) % 256).find?
        fun c ↦ !s.pending.contains (some c) with
      | some candidate => .ok candidate { s with proto := { s.proto with packetId := candidate } }
      | none => .error (.identifierExhausted
          "All 256 RADIUS Identifier slots are in flight on this transport") s := rfl

/-- **Every outcome of `create_id`**: an identifier that is not pending, or none is left. -/
theorem run_createId (s : TransportState) :
    (∃ id < 256, s.pending.get? (some id) = none ∧
        createId.run s = .ok id { s with proto := { s.proto with packetId := id } }) ∨
      (∀ id < 256, (s.pending.get? (some id)).isSome) ∧
        createId.run s = .error (.identifierExhausted
          "All 256 RADIUS Identifier slots are in flight on this transport") s := by
  set candidates := (List.range' 1 256).map fun offset ↦ (s.proto.packetId + offset) % 256
    with hcandidates
  rw [run_createId_eq, ← hcandidates]
  rcases hfind : candidates.find? fun c ↦ !s.pending.contains (some c) with - | id
  · refine .inr ⟨fun id hid ↦ ?_, rfl⟩
    -- the offsets from 1 to 256 reach every identifier
    have hmem : id ∈ candidates := by
      rw [hcandidates, List.mem_map]
      refine ⟨(id + 255 - s.proto.packetId % 256) % 256 + 1, ?_, by omega⟩
      rw [List.mem_range'_1]
      omega
    simpa [OrderedDict.contains, Option.isSome_iff_ne_none] using
      List.find?_eq_none.1 hfind id hmem
  · have hfree : s.pending.get? (some id) = none := by
      simpa [OrderedDict.contains] using List.find?_some hfind
    obtain ⟨offset, -, hoffset⟩ := List.mem_map.1 (List.mem_of_find?_eq_some hfind)
    exact .inl ⟨id, hoffset ▸ Nat.mod_lt _ (by decide), hfree, rfl⟩

/-! ### Sending -/

/-- The state after a request was stored and sent, or not sent. -/
def enqueued (s : TransportState) (now : Time) (packet future : ℕ) (p : Packet) (world : World)
    (r : LoopRecord) : TransportState :=
  (s.setPending (s.pending.set (s.loop.packets packet).id
    { packet, future, sendDate := now })).withLoop (s.loop.transmitted packet p world r)

/-- **Every outcome of `send_packet`.** -/
theorem run_sendPacket (E : Env) (now : Time) (packet future : ℕ) (s : TransportState) :
    ((s.pending.get? (s.loop.packets packet).id).isSome ∧
        (sendPacket E now packet future).run s =
          .error (alreadyInFlight (s.loop.packets packet).id) s) ∨
      s.pending.get? (s.loop.packets packet).id = none ∧
        ∃ p world, ((s.loop.packets packet).id.isSome → p.id = (s.loop.packets packet).id) ∧
          ((∃ raw, (Packet.requestPacket E).run ⟨s.loop.packets packet, s.loop.world⟩ =
                .ok raw ⟨p, world⟩ ∧
              (sendPacket E now packet future).run s =
                .ok () (enqueued s now packet future p world (.sent future raw))) ∨
            ∃ e, (s.proto.transport = true →
                (Packet.requestPacket E).run ⟨s.loop.packets packet, s.loop.world⟩ =
                  .error e ⟨p, world⟩) ∧
              (sendPacket E now packet future).run s =
                .error e (enqueued s now packet future p world (.failed future e))) := by
  rw [sendPacket, run_bind_of_ok (run_get s)]
  dsimp only
  split
  · next hcontains => exact .inl ⟨hcontains, rfl⟩
  · next hcontains =>
    refine .inr ⟨by simpa [OrderedDict.contains] using hcontains, ?_⟩
    exact run_transmit E future packet (s.setPending (s.pending.set (s.loop.packets packet).id
      { packet, future, sendDate := now }))

/-- Closing the transport leaves the requests in the map; the timer is ended unless it died. -/
theorem after_closeTransport (s : TransportState) : ∃ timer, after closeTransport s =
      { s with proto := { s.proto with transport := false, timeoutFuture := timer } } ∧
    (timer = .closed ∨ ∃ e, s.proto.timeoutFuture = .died e ∧ timer = .died e) := by
  have hrun : closeTransport.run s = closeTransport s := rfl
  rcases htimer : s.proto.timeoutFuture with - | - | e
  · exact ⟨.closed, after_of_ok (hrun.trans (by rw [closeTransport, htimer])), .inl rfl⟩
  · exact ⟨.closed, after_of_ok (hrun.trans (by rw [closeTransport, htimer])), .inl rfl⟩
  · exact ⟨.died e, after_of_error (e := e) (hrun.trans (by simp only [closeTransport, htimer])),
      .inr ⟨e, rfl, rfl⟩⟩

/-! ### Datagrams -/

/-- The datagram answers a pending request: it decodes, the identifier it carries is the key of the
request, and `verify_reply` of the request accepts what it decodes to, leaving `reply`. -/
structure Answers (E : Env) (s : TransportState) (data : Bytes) (req : PendingRequest)
    (reply : Packet) : Prop where
  pending : s.pending.get? reply.id = some req
  accepted : ∃ received w w',
    (Packet.construct E { cls := .packet, secret := Tools.utf8 "radsec", dict := s.proto.dict }
      (some data) []).run s.loop.world = .ok received w ∧ received.code ≠ 0 ∧
    received.id = reply.id ∧
    (Packet.run { received with
          dict := (s.loop.packets req.packet).dict
          secret := (s.loop.packets req.packet).secret }
        (Packet.verifyReply E (s.loop.packets req.packet) (some data) s.proto.enforceMa)).run w =
      .ok (true, reply) w'

theorem run_onLoop_inWorld {α : Type} (m : Method World α) (s : TransportState) :
    (onLoop (EventLoop.inWorld m)).run s = match m.run s.loop.world with
      | .ok a w => .ok a (s.withWorld w)
      | .error e w => .error e (s.withWorld w) := by
  change (onPart TransportState.loop _ (onPart EventLoop.world _ m)).run s = _
  rw [run_onPart, run_onPart]
  rcases m.run s.loop.world with ⟨a, w⟩ | ⟨e, w⟩ <;> rfl

/-- The state after a request was answered. -/
def answered (s : TransportState) (world : World) (req : PendingRequest) (reply : Packet) :
    TransportState :=
  (s.withLoop ({ s.loop with world }.settle req.future (.result reply))).setPending
    (s.pending.erase reply.id)

section

variable {data : Bytes} {received : Packet} {w : World}

/-- What a datagram that carries the identifier of a pending request comes to. -/
theorem after_matchReply {req : PendingRequest} (hconstruct : (Packet.construct E
      { cls := .packet, secret := Tools.utf8 "radsec", dict := s.proto.dict } (some data) []).run
        s.loop.world = .ok received w)
    (hcode : received.code ≠ 0) (hid : received.id.isSome)
    (hreq : s.pending.get? received.id = some req) :
    (∃ world, after (matchReply E data received req) (s.withWorld w) = s.withWorld world) ∨
      ∃ reply world, Answers E s data req reply ∧ (s.loop.futures req.future).isPending = true ∧
        after (matchReply E data received req) (s.withWorld w) = answered s world req reply := by
  set packet := s.loop.packets req.packet with hpacket
  set reply₀ : Packet := { received with dict := packet.dict, secret := packet.secret } with hreply₀
  rw [matchReply, after_bind_of_ok (run_get _)]
  have hrun := run_onLoop_inWorld
    (reply₀.run (Packet.verifyReply E packet (some data) s.proto.enforceMa)) (s.withWorld w)
  rcases hverify : (reply₀.run (Packet.verifyReply E packet (some data) s.proto.enforceMa)).run w
    with ⟨⟨valid, reply⟩, w'⟩ | ⟨e, w'⟩
  · have hverified : (verifyReply E packet reply₀ data s.proto.enforceMa).run (s.withWorld w) =
        .ok (valid, reply) (s.withWorld w') := by
      rw [verifyReply, hrun, TransportState.world_withWorld, hverify]
      rfl
    show (∃ world, after (verifyReply E packet reply₀ data s.proto.enforceMa >>= _) _ = _) ∨
      ∃ reply world, _ ∧ _ ∧ after (verifyReply E packet reply₀ data s.proto.enforceMa >>= _) _ = _
    rw [after_bind_of_ok hverified]
    rcases valid
    · exact .inl ⟨w', rfl⟩
    have hidEq : reply.id = received.id :=
      Packet.KeepsId.id_eq_of_run (Packet.keepsId_verifyReply E packet data _) (p := reply₀) hid hverify
    simp only [if_true]
    by_cases hpending : (s.loop.futures req.future).isPending
    · refine .inr ⟨reply, w', ⟨by rw [hidEq, hreq], received, w, w', hconstruct, hcode, hidEq.symm,
        hverify⟩, hpending, ?_⟩
      have hcomplete : (complete req.future (.result reply)).run (s.withWorld w') = .ok ()
          (s.withLoop ({ s.loop with world := w' }.settle req.future (.result reply))) := by
        rw [run_complete]
        exact if_pos hpending
      rw [after_bind_of_ok hcomplete]
      rfl
    · have hcomplete : (complete req.future (.result reply)).run (s.withWorld w') =
          .error .invalidStateError (s.withWorld w') := by
        rw [run_complete]
        exact if_neg hpending
      exact .inl ⟨w', after_of_error (run_bind_of_error hcomplete)⟩
  · have hraised : (verifyReply E packet reply₀ data s.proto.enforceMa).run (s.withWorld w) =
        .error e (s.withWorld w') := by
      rw [verifyReply, hrun, TransportState.world_withWorld, hverify]
      rfl
    exact .inl ⟨w', after_of_error (run_bind_of_error hraised)⟩

/-- **Every outcome of a datagram**: it completes the future of the request it answers, or leaves
everything but the process as it was. -/
theorem after_datagramReceived (E : Env) (data : Bytes) (s : TransportState) :
    (∃ world, after (datagramReceived E data) s = s.withWorld world) ∨
      ∃ req reply world, Answers E s data req reply ∧
        (s.loop.futures req.future).isPending = true ∧
        after (datagramReceived E data) s = answered s world req reply := by
  rw [datagramReceived, Method.after_catchException_pure, after_bind_of_ok (run_get s)]
  have hrun : (decodeReply E s.proto.dict data).run s = _ := run_onLoop_inWorld _ s
  rcases hconstruct : (Packet.construct E
      { cls := .packet, secret := Tools.utf8 "radsec", dict := s.proto.dict } (some data) []).run
        s.loop.world with ⟨received, w⟩ | ⟨e, w⟩
  · rw [hconstruct] at hrun
    rw [after_bind_of_ok hrun, after_bind_of_ok (run_get _), TransportState.pending_withWorld]
    rcases hreq : s.pending.get? received.id with - | req
    · exact .inl ⟨w, rfl⟩
    by_cases hcode : received.code ≠ 0
    · have hid : received.id.isSome := by
        obtain ⟨st, -, hreceived⟩ := (@Packet.ensures_construct E
          { cls := .packet, secret := Tools.utf8 "radsec", dict := s.proto.dict }
          rfl rfl data s.loop.world).of_run_eq_ok hconstruct
        rw [hreceived]
        rfl
      simp only [if_pos hcode]
      rcases after_matchReply hconstruct hcode hid hreq with h | ⟨reply, world, h⟩
      · exact .inl h
      · exact .inr ⟨req, reply, world, h⟩
    · simp only [if_neg hcode]
      exact .inl ⟨w, rfl⟩
  · rw [hconstruct] at hrun
    exact .inl ⟨w, after_of_error (run_bind_of_error hrun)⟩

end

end DatagramProtocolClient

end Pyrad2
