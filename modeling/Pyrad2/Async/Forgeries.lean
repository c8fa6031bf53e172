import Pyrad2.Async.Steps
import Pyrad2.Forgeries
import Pyrad2.Packet.Counter

/-!
# Forged datagrams on the asynchronous transport

Whatever else happens on a transport, in whatever order: a datagram that was not made with the secret
completes no future, and no request is sent again or given up earlier or later because of it. All it
does is count `CURRENT_ID` up, as every datagram does that is decoded.

Here the check of a reply may raise; the transport goes on.
-/

namespace Pyrad2

open EStateM Packet

namespace Packet

variable {E : Env}

/-! ### A forgery is turned down -/

/-- The check of a forgery returns `False` or raises, and leaves no trace. -/
theorem ensures_verifyReply_of_unsigned {p : Packet} (hversion : p.radiusVersion = .v1_0)
    {raw : Bytes} (h : Unsigned E p.secret raw) {s : PacketState}
    (hdeferred : s.pkt.deferredObfuscated.entries = []) (enforceMa : Bool) :
    Ensures (verifyReply E p (some raw) enforceMa) s (fun valid s' ↦ valid = false ∧ s' = s)
      fun _ s' ↦ s' = s := by
  rw [verifyReply]
  refine ensures_bind.2 (ensures_get.2 ?_)
  dsimp only
  rw [if_neg (by rw [hversion]; decide)]
  split
  · exact ⟨rfl, rfl⟩
  refine ensures_bind.2 (ensures_pure.2 ?_)
  rcases hencode : s.pkt.encodeStored [] with e | body
  · exact ensures_bind.2 (.of_error (run_encodeAttributes_of_error E hdeferred hencode) rfl)
  · refine ensures_bind.2 (.of_ok (run_encodeAttributes_of_ok E hdeferred hencode) ?_)
    refine ensures_bind.2 (ensures_liftM (fun a _ ↦ ?_) fun _ _ ↦ rfl)
    have hdigest : E.md5 (raw.take 4 ++ a ++ raw.drop 20 ++ p.secret) ≠ (raw.drop 4).take 16 :=
      (h a).symm
    rw [if_pos hdigest]
    exact ⟨rfl, rfl⟩

end Packet

theorem TransportState.proto_withWorld (s : TransportState) (w : World) :
    (s.withWorld w).proto = s.proto := rfl

namespace DatagramProtocolClient

/-! ### The counter and the transport -/

/-- Transports that are the same but for the counter. -/
structure SameButCount (s t : TransportState) : Prop where
  eq : t = s.withWorld t.loop.world
  draws : SameDraws s.loop.world t.loop.world

variable {s t : TransportState} {E : Env}

theorem SameButCount.exists_eq (h : SameButCount s t) :
    ∃ w, SameDraws s.loop.world w ∧ t = s.withWorld w := ⟨_, h.draws, h.eq⟩

theorem sameButCount_withWorld {w : World} (h : SameDraws s.loop.world w) :
    SameButCount s (s.withWorld w) := ⟨rfl, h⟩

theorem SameButCount.trans {u : TransportState} (h : SameButCount s t) (h' : SameButCount t u) :
    SameButCount s u := by
  obtain ⟨w, hw, rfl⟩ := h.exists_eq
  obtain ⟨w', hw', rfl⟩ := h'.exists_eq
  exact sameButCount_withWorld (hw'.trans hw)

/-- A method that does the same on transports that differ in the counter. -/
abbrev Uncounted {α : Type} (m : TransportMethod α) : Prop := Lockstep SameButCount Eq m m

section

variable {α : Type}

theorem uncounted_get_bind {f : TransportState → TransportMethod α}
    (h : ∀ s w, SameDraws s.loop.world w →
      Lockstep SameButCount Eq (f s) (f (s.withWorld w))) : Uncounted (get >>= f) := by
  refine lockstep_get_bind fun s t hst ↦ ?_
  obtain ⟨w, hw, rfl⟩ := hst.exists_eq
  exact h s w hw

/-- A change that commutes with a change of the process. -/
theorem uncounted_modify {f : TransportState → TransportState}
    (h : ∀ s w, f (s.withWorld w) = (f s).withWorld w)
    (hworld : ∀ s, (f s).loop.world = s.loop.world) : Uncounted (modify f) := by
  refine lockstep_modify fun s t hst ↦ ?_
  obtain ⟨w, hw, rfl⟩ := hst.exists_eq
  rw [h]
  exact sameButCount_withWorld (by rwa [hworld])

theorem uncounted_inWorld {m : Method World α} (h : Lockstep SameDraws Eq m m) :
    Uncounted (onLoop (EventLoop.inWorld m)) := by
  refine ⟨fun s t hst ↦ ?_⟩
  obtain ⟨w, hw, rfl⟩ := hst.exists_eq
  rw [run_onLoop_inWorld, run_onLoop_inWorld]
  rcases h.run s.loop.world w hw with ⟨a, w₁, b, w₂, hs, ht, hab, hw'⟩ | ⟨e, w₁, w₂, hs, ht, hw'⟩
  · rw [hs, TransportState.world_withWorld, ht]
    exact .inl ⟨a, _, b, _, rfl, rfl, hab, sameButCount_withWorld (s := s.withWorld w₁) hw'⟩
  · rw [hs, TransportState.world_withWorld, ht]
    exact .inr ⟨e, _, _, rfl, rfl, sameButCount_withWorld (s := s.withWorld w₁) hw'⟩

end

variable (E)

theorem uncounted_transmit (future packet : ℕ) : Uncounted (transmit E future packet) := by
  refine ⟨fun s t hst ↦ ?_⟩
  obtain ⟨w, hw, rfl⟩ := hst.exists_eq
  rw [run_transmit_eq, run_transmit_eq, TransportState.proto_withWorld]
  by_cases hopen : s.proto.transport = true
  · rw [if_pos hopen, if_pos hopen, EventLoop.requestPacket, EventLoop.onPacket, run_onPart,
      run_onPart]
    have hpart : (⟨(s.withWorld w).loop.packets packet, (s.withWorld w).loop.world⟩ : PacketState) =
      ⟨s.loop.packets packet, w⟩ := rfl
    rw [hpart]
    rcases (uncounting_requestPacket E).run ⟨s.loop.packets packet, s.loop.world⟩
      ⟨s.loop.packets packet, w⟩ ⟨rfl, hw⟩ with
      ⟨raw, ⟨p, w₁⟩, raw', ⟨q, w₂⟩, hs, ht, rfl, hst'⟩ | ⟨e, ⟨p, w₁⟩, ⟨q, w₂⟩, hs, ht, hst'⟩
    · obtain rfl : q = p := hst'.pkt
      rw [hs, ht]
      exact .inl ⟨_, _, _, _, rfl, rfl, rfl, rfl, hst'.world⟩
    · obtain rfl : q = p := hst'.pkt
      rw [hs, ht]
      exact .inr ⟨e, _, _, rfl, rfl, rfl, hst'.world⟩
  · rw [if_neg hopen, if_neg hopen]
    exact .inr ⟨_, _, _, rfl, rfl, rfl, hw⟩

theorem uncounted_complete (future : ℕ) (outcome : FutureState) :
    Uncounted (complete future outcome) := by
  refine ⟨fun s t hst ↦ ?_⟩
  obtain ⟨w, hw, rfl⟩ := hst.exists_eq
  rw [run_complete, run_complete]
  have hfutures : (s.withWorld w).loop.futures = s.loop.futures := rfl
  rw [hfutures]
  by_cases hpending : (s.loop.futures future).isPending
  · rw [if_pos hpending, if_pos hpending]
    exact .inl ⟨_, _, _, _, rfl, rfl, rfl, rfl, hw⟩
  · rw [if_neg hpending, if_neg hpending]
    exact .inr ⟨_, _, _, rfl, rfl, rfl, hw⟩

theorem uncounted_createId : Uncounted createId := by
  refine ⟨fun s t hst ↦ ?_⟩
  obtain ⟨w, hw, rfl⟩ := hst.exists_eq
  rw [run_createId_eq, run_createId_eq]
  rw [TransportState.proto_withWorld, TransportState.pending_withWorld]
  rcases ((List.range' 1 256).map fun offset ↦ (s.proto.packetId + offset) % 256).find?
    fun c ↦ !s.pending.contains (some c) with - | candidate
  · exact .inr ⟨_, _, _, rfl, rfl, rfl, hw⟩
  · exact .inl ⟨_, _, _, _, rfl, rfl, rfl, rfl, hw⟩

theorem uncounted_sendPacket (now : Time) (packet future : ℕ) :
    Uncounted (sendPacket E now packet future) := by
  refine uncounted_get_bind fun s w hw ↦ ?_
  have hset (m : OrderedDict (Option ℕ) PendingRequest) : Lockstep SameButCount Eq
      (set (s.setPending m) : TransportMethod PUnit) (set ((s.withWorld w).setPending m)) :=
    ⟨fun _ _ _ ↦ .inl ⟨_, _, _, _, rfl, rfl, rfl, rfl, hw⟩⟩
  have hpackets : (s.withWorld w).loop.packets = s.loop.packets := rfl
  dsimp only
  rw [TransportState.pending_withWorld, hpackets]
  split
  · exact lockstep_throw_bind _
  · exact (hset _).bind_eq fun _ ↦ uncounted_transmit E future packet

/-! ### The timer -/

theorem uncounted_serviceRequest (now : Time) (noise : ℚ) (id : Option ℕ) (req : PendingRequest) :
    Uncounted (serviceRequest E now noise id req) := by
  refine uncounted_get_bind fun s w hw ↦ ?_
  dsimp only
  rw [TransportState.proto_withWorld]
  refine (lockstep_liftM _).bind_eq fun wait ↦ ?_
  split
  · exact lockstep_pure rfl
  split
  · exact (uncounted_complete _ _).bind_eq fun _ ↦ lockstep_pure rfl
  · refine Lockstep.bind_eq (Lockstep.bind_eq (uncounted_modify (fun _ _ ↦ rfl) fun _ ↦ rfl)
      fun _ ↦ uncounted_transmit E _ _) fun _ ↦ lockstep_pure rfl

theorem uncounted_serviceRequests (now : Time) (noise : Option ℕ → ℚ)
    (entries : List (Option ℕ × PendingRequest)) (gone : List (Option ℕ)) (next : Time) :
    Uncounted (serviceRequests E now noise entries gone next) := by
  induction entries generalizing gone next with
  | nil => exact lockstep_pure rfl
  | cons entry rest ih =>
    obtain ⟨id, req⟩ := entry
    refine (uncounted_serviceRequest E now (noise id) id req).bind_eq fun service ↦ ?_
    rcases service with remaining | - | -
    · exact ih _ _
    · exact ih _ _
    · exact ih _ _

theorem uncounted_timeoutHandler (now : Time) (noise : Option ℕ → ℚ) :
    Uncounted (timeoutHandler E now noise) := by
  have hpass : Uncounted (timeoutPass E now noise) := by
    refine uncounted_get_bind fun s w hw ↦ ?_
    refine (uncounted_serviceRequests E now noise _ _ _).bind_eq fun served ↦ ?_
    obtain ⟨gone, next⟩ := served
    exact (uncounted_modify (f := fun s ↦ s.setPending (gone.foldl OrderedDict.erase s.pending))
      (fun _ _ ↦ rfl) fun _ ↦ rfl).bind_eq fun _ ↦ lockstep_pure rfl
  refine ⟨fun s t hst ↦ ?_⟩
  rw [run_timeoutHandler, run_timeoutHandler]
  have htimer : t.proto = s.proto := by
    obtain ⟨w, -, rfl⟩ := hst.exists_eq
    rfl
  rw [htimer]
  by_cases hrunning : s.proto.timeoutFuture = .running
  · rw [if_pos hrunning, if_pos hrunning]
    rcases hpass.run s t hst with ⟨a, s', b, t', hs, ht, -, hst'⟩ | ⟨e, s', t', hs, ht, hst'⟩
    · rw [hs, ht]
      exact .inl ⟨_, _, _, _, rfl, rfl, rfl, hst'⟩
    · obtain ⟨w, hw, rfl⟩ := hst'.exists_eq
      rw [hs, ht]
      exact .inl ⟨_, _, _, _, rfl, rfl, rfl, rfl, hw⟩
  · rw [if_neg hrunning, if_neg hrunning]
    exact .inl ⟨_, _, _, _, rfl, rfl, rfl, hst⟩

/-! ### Datagrams -/

theorem uncounted_matchReply (data : Bytes) (reply : Packet) (req : PendingRequest) :
    Uncounted (matchReply E data reply req) := by
  have hverify (p q : Packet) (enforceMa : Bool) : Uncounted (verifyReply E p q data enforceMa) := by
    refine uncounted_inWorld ⟨fun w w' hw ↦ ?_⟩
    rw [run_run, run_run]
    rcases (uncounting_verifyReply E p data enforceMa).run ⟨q, w⟩ ⟨q, w'⟩ ⟨rfl, hw⟩ with
      ⟨a, s, b, t, hs, ht, rfl, hst⟩ | ⟨e, s, t, hs, ht, hst⟩
    · rw [hs, ht]
      exact .inl ⟨_, _, _, _, rfl, rfl, by rw [hst.pkt], hst.world⟩
    · rw [hs, ht]
      exact .inr ⟨e, _, _, rfl, rfl, hst.world⟩
  refine uncounted_get_bind fun s w _ ↦ (hverify _ _ _).bind_eq fun checked ↦ ?_
  obtain ⟨valid, reply⟩ := checked
  dsimp only
  split
  · exact (uncounted_complete _ _).bind_eq fun _ ↦ uncounted_modify
      (f := fun s ↦ s.setPending (s.pending.erase reply.id)) (fun _ _ ↦ rfl) fun _ ↦ rfl
  · exact lockstep_pure rfl

theorem uncounted_datagramReceived (data : Bytes) : Uncounted (datagramReceived E data) := by
  refine lockstep_catchException ?_ (lockstep_pure rfl)
  refine uncounted_get_bind fun s w _ ↦ ?_
  refine Lockstep.bind_eq (uncounted_inWorld (lockstep_construct E _ data)) fun reply ↦ ?_
  refine uncounted_get_bind fun s w _ ↦ ?_
  rw [TransportState.pending_withWorld]
  split
  · split
    · exact uncounted_matchReply E data reply _
    · exact lockstep_pure rfl
  · exact lockstep_pure rfl

/-- **A forged datagram** counts `CURRENT_ID` up, and that is all. -/
theorem sameButCount_of_unsigned {data : Bytes} (h : ∀ i, Unsigned E (s.loop.packets i).secret data)
    (hversion : ∀ i, (s.loop.packets i).radiusVersion = .v1_0) :
    SameButCount s (after (datagramReceived E data) s) := by
  have hrun : (decodeReply E s.proto.dict data).run s = _ := run_onLoop_inWorld _ s
  have hdraws := ensures_construct_sameDraws E
    { cls := .packet, secret := Tools.utf8 "radsec", dict := s.proto.dict } data s.loop.world
  rw [datagramReceived, Method.after_catchException_pure, after_bind_of_ok (run_get s)]
  rw [Ensures] at hdraws
  rcases hconstruct : (construct E
      { cls := .packet, secret := Tools.utf8 "radsec", dict := s.proto.dict } (some data) []).run
        s.loop.world with ⟨reply, w⟩ | ⟨e, w⟩
  · rw [hconstruct] at hdraws hrun
    rw [after_bind_of_ok hrun, after_bind_of_ok (run_get _), TransportState.pending_withWorld]
    have hsame : SameButCount s (s.withWorld w) := sameButCount_withWorld hdraws
    have hdeferred : reply.deferredObfuscated.entries = [] := by
      obtain ⟨st, -, hreceived⟩ := (@ensures_construct E
        { cls := .packet, secret := Tools.utf8 "radsec", dict := s.proto.dict }
        rfl rfl data s.loop.world).of_run_eq_ok hconstruct
      rw [hreceived]
      rfl
    split
    · next req _ =>
      split
      · have hturned := ensures_verifyReply_of_unsigned (hversion req.packet) (h req.packet)
          (s := ⟨{ reply with
            dict := (s.loop.packets req.packet).dict
            secret := (s.loop.packets req.packet).secret }, w⟩) hdeferred s.proto.enforceMa
        have hverify := run_onLoop_inWorld (Packet.run { reply with
            dict := (s.loop.packets req.packet).dict
            secret := (s.loop.packets req.packet).secret }
          (Packet.verifyReply E (s.loop.packets req.packet) (some data) s.proto.enforceMa))
          (s.withWorld w)
        rw [run_run, TransportState.world_withWorld] at hverify
        rw [Ensures] at hturned
        rw [matchReply, after_bind_of_ok (run_get _)]
        rcases hchecked : (Packet.verifyReply E (s.loop.packets req.packet) (some data)
          s.proto.enforceMa).run ⟨{ reply with
            dict := (s.loop.packets req.packet).dict
            secret := (s.loop.packets req.packet).secret }, w⟩ with ⟨valid, u⟩ | ⟨e, u⟩
        · rw [hchecked] at hturned hverify
          obtain ⟨rfl, rfl⟩ := hturned
          exact (after_bind_of_ok hverify).symm ▸ hsame
        · rw [hchecked] at hturned hverify
          subst hturned
          exact (after_of_error (run_bind_of_error hverify)).symm ▸ hsame
      · exact hsame
    · exact hsame
  · rw [hconstruct] at hdraws hrun
    rw [after_of_error (run_bind_of_error hrun)]
    exact sameButCount_withWorld hdraws

/-! ### The packets of a transport -/

/-- The secret, the dictionary and the version of every packet object. -/
def SamePackets (s s' : TransportState) : Prop :=
  ∀ i, SameTerms ⟨s.loop.packets i, s.loop.world⟩ ⟨s'.loop.packets i, s'.loop.world⟩

instance instIsPreorderSamePackets : IsPreorder TransportState SamePackets where
  refl := fun _ _ ↦ ⟨rfl, rfl, rfl⟩
  trans := fun _ _ _ h h' i ↦ trans_of SameTerms (h i) (h' i)

theorem samePackets_of_eq {s s' : TransportState} (h : s'.loop.packets = s.loop.packets) :
    SamePackets s s' := fun i ↦ by
  rw [SameTerms, h]
  exact ⟨rfl, rfl, rfl⟩

theorem samePackets_transmit (future packet : ℕ) :
    Respects SamePackets (transmit E future packet) := by
  intro s
  have hrequest := (refreshes_requestPacket E) ⟨s.loop.packets packet, s.loop.world⟩
  have hupdate {p : Packet} {w : World} (hp : Refreshes ⟨s.loop.packets packet, s.loop.world⟩ ⟨p, w⟩)
      (r : LoopRecord) : SamePackets s (s.withLoop (s.loop.transmitted packet p w r)) := by
    intro i
    show SameTerms _ ⟨Function.update s.loop.packets packet p i, w⟩
    rcases eq_or_ne i packet with rfl | hne
    · rw [Function.update_self]
      exact hp.sameTerms
    · rw [Function.update_of_ne hne]
      exact ⟨rfl, rfl, rfl⟩
  by_cases hopen : s.proto.transport = true
  · have htransmit := run_transmit_eq E future packet s
    rw [if_pos hopen, EventLoop.requestPacket, EventLoop.onPacket, run_onPart] at htransmit
    rcases hrun : (requestPacket E).run ⟨s.loop.packets packet, s.loop.world⟩ with
      ⟨raw, p, w⟩ | ⟨e, p, w⟩
    · rw [after_of_ok hrun] at hrequest
      rw [hrun] at htransmit
      rw [after_of_ok htransmit]
      exact hupdate hrequest _
    · rw [after_of_error hrun] at hrequest
      rw [hrun] at htransmit
      rw [after_of_error htransmit]
      exact hupdate hrequest _
  · rw [after_of_error ((run_transmit_eq E future packet s).trans (if_neg hopen))]
    exact samePackets_of_eq rfl

theorem samePackets_complete (future : ℕ) (outcome : FutureState) :
    Respects SamePackets (complete future outcome) := by
  intro s
  by_cases hpending : (s.loop.futures future).isPending
  · rw [after_of_ok ((run_complete future outcome s).trans (if_pos hpending))]
    exact samePackets_of_eq rfl
  · rw [after_of_error ((run_complete future outcome s).trans (if_neg hpending))]
    exact samePackets_of_eq rfl

theorem samePackets_timeoutHandler (now : Time) (noise : Option ℕ → ℚ) :
    Respects SamePackets (timeoutHandler E now noise) := by
  have hresend (id : Option ℕ) (req : PendingRequest) :
      Respects SamePackets (resend E now id req) :=
    (respects_modify (R := SamePackets) (g := fun s ↦ s.setPending (s.pending.set id
      { req with sendDate := now, retries := req.retries + 1 })) fun _ ↦ samePackets_of_eq rfl).bind
        fun _ ↦ samePackets_transmit E _ _
  have hrequest (noise : ℚ) (id : Option ℕ) (req : PendingRequest) :
      Respects SamePackets (serviceRequest E now noise id req) := by
    refine respects_get.bind fun s ↦ (respects_liftM _).bind fun wait ↦ ?_
    split
    · exact respects_pure _
    split
    · exact (samePackets_complete _ _).bind fun _ ↦ respects_pure _
    · exact (hresend id req).bind fun _ ↦ respects_pure _
  have hrequests (entries : List (Option ℕ × PendingRequest)) (gone : List (Option ℕ)) (next : Time) :
      Respects SamePackets (serviceRequests E now noise entries gone next) := by
    induction entries generalizing gone next with
    | nil => exact respects_pure _
    | cons entry rest ih =>
      obtain ⟨id, req⟩ := entry
      refine (hrequest (noise id) id req).bind fun service ↦ ?_
      rcases service with remaining | - | -
      · exact ih _ _
      · exact ih _ _
      · exact ih _ _
  have hpass : Respects SamePackets (timeoutPass E now noise) := by
    refine respects_get.bind fun s ↦ (hrequests _ _ _).bind fun served ↦ ?_
    obtain ⟨gone, next⟩ := served
    exact (respects_modify (R := SamePackets)
      (g := fun s ↦ s.setPending (gone.foldl OrderedDict.erase s.pending))
      fun _ ↦ samePackets_of_eq rfl).bind fun _ ↦ respects_pure _
  intro s
  have hafter := hpass s
  have hhandler := run_timeoutHandler E now noise s
  by_cases hrunning : s.proto.timeoutFuture = .running
  · rw [if_pos hrunning] at hhandler
    rcases hrun : (timeoutPass E now noise).run s with ⟨a, s'⟩ | ⟨e, s'⟩
    · rw [after_of_ok hrun] at hafter
      rw [hrun] at hhandler
      rwa [after_of_ok hhandler]
    · rw [after_of_error hrun] at hafter
      rw [hrun] at hhandler
      rw [after_of_ok hhandler]
      exact hafter
  · rw [after_of_ok (hhandler.trans (if_neg hrunning))]
    exact refl_of SamePackets s

theorem samePackets_createId : Respects SamePackets createId := by
  intro s
  rcases run_createId s with ⟨id, -, -, hrun⟩ | ⟨-, hrun⟩
  · rw [after_of_ok hrun]
    exact samePackets_of_eq rfl
  · rw [after_of_error hrun]
    exact refl_of SamePackets s

theorem samePackets_sendPacket (now : Time) (packet future : ℕ) :
    Respects SamePackets (sendPacket E now packet future) := by
  intro s
  rw [sendPacket, after_bind_of_ok (run_get s)]
  dsimp only
  split
  · exact refl_of SamePackets s
  · exact trans_of SamePackets (samePackets_of_eq rfl) (samePackets_transmit E future packet
      (s.setPending (s.pending.set (s.loop.packets packet).id { packet, future, sendDate := now })))

/-- A datagram changes no packet object. -/
theorem samePackets_datagramReceived (data : Bytes) :
    Respects SamePackets (datagramReceived E data) := by
  intro s
  rcases after_datagramReceived E data s with ⟨w, hafter⟩ | ⟨req, reply, w, -, -, hafter⟩
  · rw [hafter]
    exact samePackets_of_eq rfl
  · rw [hafter]
    exact samePackets_of_eq rfl

end DatagramProtocolClient

/-! ### Any order of steps -/

/-- Every packet object is one of RADIUS/1.0 with the secret. -/
def TransportState.Shares (secret : Bytes) (s : TransportState) : Prop :=
  ∀ i, (s.loop.packets i).secret = secret ∧ (s.loop.packets i).radiusVersion = .v1_0

namespace TransportEvent

open DatagramProtocolClient

/-- Packet objects that are built or changed are ones of RADIUS/1.0 with the secret. -/
def Shares (secret : Bytes) : TransportEvent → Prop
  | assign _ p => p.secret = secret ∧ p.radiusVersion = .v1_0
  | _ => True

variable (E : Env) {secret : Bytes} {s t : TransportState}

/-- **No step looks at the counter.** -/
theorem uncounted_method (e : TransportEvent) : Uncounted (e.method E) := by
  cases e with
  | createId => exact uncounted_createId.bind_eq fun _ ↦ lockstep_pure rfl
  | sendPacket now packet =>
    have hcreate : Uncounted (onLoop EventLoop.createFuture) := by
      refine ⟨fun s t hst ↦ ?_⟩
      obtain ⟨w, hw, rfl⟩ := hst.exists_eq
      exact .inl ⟨_, _, _, _, rfl, rfl, rfl, rfl, hw⟩
    exact hcreate.bind_eq fun future ↦ uncounted_sendPacket E now packet future
  | datagramReceived data => exact uncounted_datagramReceived E data
  | timeout now noise => exact uncounted_timeoutHandler E now noise
  | assign packet p =>
    exact uncounted_modify (f := fun s ↦
      s.withLoop { s.loop with packets := Function.update s.loop.packets packet p })
      (fun _ _ ↦ rfl) fun _ ↦ rfl
  | cancel future =>
    have hcancel (s : TransportState) : (s.loop.cancel future).world = s.loop.world := by
      rw [EventLoop.cancel]
      split <;> rfl
    refine uncounted_modify (f := fun s ↦ s.withLoop (s.loop.cancel future)) (fun s w ↦ ?_) hcancel
    show (s.withWorld w).withLoop (EventLoop.cancel { s.loop with world := w } future) =
      s.withLoop { s.loop.cancel future with world := w }
    rw [EventLoop.cancel, EventLoop.cancel]
    split <;> rfl
  | closeTransport =>
    refine ⟨fun s t hst ↦ ?_⟩
    obtain ⟨w, hw, rfl⟩ := hst.exists_eq
    show (∃ a s' b t', DatagramProtocolClient.closeTransport s = _ ∧
      DatagramProtocolClient.closeTransport (s.withWorld w) = _ ∧ _) ∨ ∃ e s' t',
        DatagramProtocolClient.closeTransport s = _ ∧
        DatagramProtocolClient.closeTransport (s.withWorld w) = _ ∧ _
    rw [DatagramProtocolClient.closeTransport, DatagramProtocolClient.closeTransport,
      TransportState.proto_withWorld]
    rcases s.proto.timeoutFuture with - | - | e
    · exact .inl ⟨_, _, _, _, rfl, rfl, rfl, rfl, hw⟩
    · exact .inl ⟨_, _, _, _, rfl, rfl, rfl, rfl, hw⟩
    · exact .inr ⟨_, _, _, rfl, rfl, rfl, hw⟩

theorem shares_next (e : TransportEvent) (he : e.Shares secret) (hs : s.Shares secret) :
    (e.next E s).Shares secret := by
  have hkeeps (hsame : SamePackets s (e.next E s)) : (e.next E s).Shares secret := fun i ↦
    ⟨(hsame i).2.1.trans (hs i).1, (hsame i).1.trans (hs i).2⟩
  cases e with
  | createId =>
    exact hkeeps (samePackets_createId.bind (fun _ ↦ respects_pure _) s)
  | sendPacket now packet =>
    have hcreate : Respects SamePackets (onLoop EventLoop.createFuture) := fun _ ↦
      samePackets_of_eq rfl
    exact hkeeps (hcreate.bind (fun future ↦ samePackets_sendPacket E now packet future) s)
  | datagramReceived data => exact hkeeps (samePackets_datagramReceived E data s)
  | timeout now noise => exact hkeeps (samePackets_timeoutHandler E now noise s)
  | assign packet p =>
    intro i
    show (Function.update s.loop.packets packet p i).secret = secret ∧
      (Function.update s.loop.packets packet p i).radiusVersion = .v1_0
    rcases eq_or_ne i packet with rfl | hne
    · rw [Function.update_self]
      exact he
    · rw [Function.update_of_ne hne]
      exact hs i
  | cancel future =>
    refine hkeeps (samePackets_of_eq ?_)
    show (s.loop.cancel future).packets = s.loop.packets
    rw [EventLoop.cancel]
    split <;> rfl
  | closeTransport =>
    obtain ⟨timer, hafter, -⟩ := after_closeTransport s
    refine hkeeps (samePackets_of_eq ?_)
    rw [next, method, hafter]

end TransportEvent

/-- A datagram arrives that was not made with the secret. -/
def TransportEvent.IsForgery (E : Env) (secret : Bytes) (e : TransportEvent) : Prop :=
  ∃ data, e = .datagramReceived data ∧ Unsigned E secret data

namespace TransportState

open DatagramProtocolClient

variable {E : Env} {secret : Bytes} {l l' : List TransportEvent} {s t : TransportState}

/-- A step keeps runs together that differ in the counter. -/
theorem sameButCount_next (e : TransportEvent) (he : e.Shares secret)
    (h : s.Shares secret ∧ SameButCount s t) :
    (e.next E s).Shares secret ∧ SameButCount (e.next E s) (e.next E t) :=
  ⟨TransportEvent.shares_next E e he h.1, (TransportEvent.uncounted_method E e).after h.2⟩

/-- So does a forgery that only one of them meets. -/
theorem sameButCount_of_isForgery (e : TransportEvent) (he : e.IsForgery E secret)
    (h : s.Shares secret ∧ SameButCount s t) :
    s.Shares secret ∧ SameButCount s (e.next E t) := by
  obtain ⟨data, rfl, hdata⟩ := he
  obtain ⟨hs, hst⟩ := h
  have hshares : t.Shares secret := by
    obtain ⟨w, -, rfl⟩ := hst.exists_eq
    exact hs
  refine ⟨hs, hst.trans (sameButCount_of_unsigned E (fun i ↦ ?_) fun i ↦ (hshares i).2)⟩
  rw [(hshares i).1]
  exact hdata

/-- **Forgeries change nothing but the counter**, whatever is sent, received, retried, cancelled or
closed between them. -/
theorem foldl_next_of_noisy (h : Noisy (TransportEvent.IsForgery E secret) l l') (hl : ∀ e ∈ l, e.Shares secret)
    (hs : s.Shares secret) : ∃ n, l'.foldl (fun s e ↦ e.next E s) s =
      (l.foldl (fun s e ↦ e.next E s) s).withWorld
        { (l.foldl (fun s e ↦ e.next E s) s).loop.world with currentId := n } := by
  have hsame := h.foldl (R := fun s t ↦ s.Shares secret ∧ SameButCount s t)
    (fun e _ _ he hst ↦ sameButCount_next e he hst)
    (fun e _ _ he hst ↦ sameButCount_of_isForgery e he hst) hl
    ⟨hs, sameButCount_withWorld (s := s) rfl⟩
  obtain ⟨⟨rng, n⟩, hw, heq⟩ := hsame.2.exists_eq
  obtain rfl : rng = (l.foldl (fun s e ↦ e.next E s) s).loop.world.rng := hw
  exact ⟨n, heq⟩

/-- A transport whose packet objects are all a request with identifier `7`. -/
def acceptedTransport : TransportState :=
  .init {} none false 0 (fun _ ↦ Client.acceptedCall.pkt) { rng := ⟨fun _ ↦ 0⟩ }

/-- A forgery comes before the answer. -/
theorem foldl_next_of_noisy_acceptedTransport :
    ∃ n, [.sendPacket 0 0, .datagramReceived Client.forgedAccept, .timeout 1 fun _ ↦ 0,
        .datagramReceived ([2, 7, 0, 20] ++ List.replicate 16 0)].foldl
        (fun s e ↦ TransportEvent.next (Env.ofByte (fun _ ↦ 0) fun _ _ ↦ 0) e s) acceptedTransport =
      ([.sendPacket 0 0, .timeout 1 fun _ ↦ 0,
        .datagramReceived ([2, 7, 0, 20] ++ List.replicate 16 0)].foldl
        (fun s e ↦ TransportEvent.next (Env.ofByte (fun _ ↦ 0) fun _ _ ↦ 0) e s)
          acceptedTransport).withWorld
        { ([.sendPacket 0 0, .timeout 1 fun _ ↦ 0,
          .datagramReceived ([2, 7, 0, 20] ++ List.replicate 16 0)].foldl
          (fun s e ↦ TransportEvent.next (Env.ofByte (fun _ ↦ 0) fun _ _ ↦ 0) e s)
            acceptedTransport).loop.world with currentId := n } := by
  refine foldl_next_of_noisy (show Noisy (TransportEvent.IsForgery _ [1]) _ _ from
    .cons _ (.noise ⟨_, rfl, (Client.forged_forgedAccept none [1]).unsigned⟩ (.cons _ (.cons _ .nil))))
    (fun e he ↦ ?_) fun _ ↦ ⟨rfl, rfl⟩
  · simp only [List.mem_cons, List.not_mem_nil, or_false] at he
    rcases he with rfl | rfl | rfl
    · exact trivial
    · exact trivial
    · exact trivial

/-- The answer completes the future. -/
example : (([.sendPacket 0 0, .datagramReceived Client.forgedAccept,
    .datagramReceived ([2, 7, 0, 20] ++ List.replicate 16 0)].foldl
      (fun s e ↦ TransportEvent.next (Env.ofByte (fun _ ↦ 0) fun _ _ ↦ 0) e s)
        acceptedTransport).loop.futures 0).isPending = false := by
  decide +kernel

end TransportState

end Pyrad2
