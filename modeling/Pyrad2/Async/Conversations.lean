import Mathlib.Logic.Relation
import Pyrad2.Async.Client
import Pyrad2.Async.Keeps
import Pyrad2.Eap.Md5

/-!
# Conversations and what drives them

When the future of an Access-Request is sure to be completed.

An unresolved future is driven by the round its conversation is in: by a request that is pending on
the transport, or by the callback that is scheduled once the future of the round is done. Nothing
but that callback can lose it, because it is the only code that runs between two rounds. It guards
one call, the answer of the method; an exception of any of the others ends the callback with nothing
left that would complete the future.
-/

namespace Pyrad2

open EStateM DatagramProtocolClient

namespace ClientAsync

variable {M : Type}

/-- A request with this future is pending on `protocol_auth`. -/
def AuthPending (s : ClientAsync M) (future : ℕ) : Prop :=
  ∃ auth, s.protocols .auth = some auth ∧
    ∃ key req, auth.pendingRequests.get? key = some req ∧ req.future = future

/-- What drives a conversation: its callback is scheduled, or waits for a pending request. -/
def Drives (s : ClientAsync M) (c : Conversation M) : Prop :=
  ∃ fut, c.waiting = some fut ∧
    ((s.loop.futures fut).isPending = false ∨ s.AuthPending fut)

/-- No future of an Access-Request is orphaned. -/
def NoOrphan (s : ClientAsync M) : Prop :=
  ∀ c ∈ s.conversations, (s.loop.futures c.outer).isPending = true → s.Drives c

/-! ### What the client keeps -/

/-- Between two callbacks: conversations stay as they are, and requests stay pending until their
futures are done. -/
structure Stays (s s' : ClientAsync M) : Prop where
  conversations : s'.conversations = s.conversations
  enforceMa : s'.enforceMa = s.enforceMa
  pending : ∀ f, s.AuthPending f → (s'.loop.futures f).isPending = true → s'.AuthPending f
  done : ∀ f, (s.loop.futures f).isPending = false → (s'.loop.futures f).isPending = false

theorem Stays.refl (s : ClientAsync M) : Stays s s where
  conversations := rfl
  enforceMa := rfl
  pending := fun _ h _ ↦ h
  done := fun _ h ↦ h

theorem Stays.trans {s s' s'' : ClientAsync M} (h : Stays s s') (h' : Stays s' s'') :
    Stays s s'' where
  conversations := h'.conversations.trans h.conversations
  enforceMa := h'.enforceMa.trans h.enforceMa
  pending := fun f hf hpending ↦ by
    refine h'.pending f (h.pending f hf ?_) hpending
    by_contra hdone
    rw [h'.done f (by simpa using hdone)] at hpending
    cases hpending
  done := fun f hf ↦ h'.done f (h.done f hf)

instance : IsPreorder (ClientAsync M) Stays where
  refl := Stays.refl
  trans := fun _ _ _ ↦ Stays.trans

/-- A step that touches no transport and completes no future, or completes some. -/
theorem Stays.of_loop (s : ClientAsync M) {loop : EventLoop}
    (hdone : ∀ f, (s.loop.futures f).isPending = false → (loop.futures f).isPending = false) :
    Stays s { s with loop } where
  conversations := rfl
  enforceMa := rfl
  pending := fun _ h _ ↦ h
  done := hdone

/-- A call of a transport. -/
theorem Stays.of_keeps {s : ClientAsync M} {server : ServerType} {proto : DatagramProtocolClient}
    (hproto : s.protocols server = some proto) {t : TransportState}
    (h : Keeps ⟨s.loop, proto⟩ t) : Stays s (s.putTransport server t) where
  conversations := rfl
  enforceMa := rfl
  pending := fun f ⟨auth, hauth, key, req, hreq, hfuture⟩ hpending ↦ by
    rcases eq_or_ne server .auth with rfl | hne
    · obtain rfl : proto = auth := Option.some.inj (hproto.symm.trans hauth)
      obtain ⟨req', hreq', hfuture'⟩ := h.entries key req hreq (by rwa [hfuture])
      refine ⟨t.proto, ?_, key, req', hreq', hfuture'.trans hfuture⟩
      exact Function.update_self ServerType.auth (some t.proto) s.protocols
    · exact ⟨auth, (Function.update_of_ne hne.symm ..).trans hauth, key, req, hreq, hfuture⟩
  done := h.done

/-- The client after a method of a packet object. -/
def withPacket (s : ClientAsync M) (packet : ℕ) (ps : PacketState) : ClientAsync M :=
  { s with loop := { s.loop with
    packets := Function.update s.loop.packets packet ps.pkt, world := ps.world } }

theorem state_withPacket (s : ClientAsync M) (packet : ℕ) (ps : PacketState) :
    (⟨(s.withPacket packet ps).loop.packets packet, (s.withPacket packet ps).loop.world⟩ :
      PacketState) = ps := by
  show PacketState.mk (Function.update s.loop.packets packet ps.pkt packet) ps.world = ps
  rw [Function.update_self]

theorem Stays.withPacket (s : ClientAsync M) (packet : ℕ) (ps : PacketState) :
    Stays s (s.withPacket packet ps) :=
  .of_loop s fun _ hf ↦ hf

theorem run_onPacket_of_ok {α : Type} {m : PacketMethod α} {packet : ℕ} {a : α}
    {s : ClientAsync M} {ps : PacketState}
    (h : m.run ⟨s.loop.packets packet, s.loop.world⟩ = .ok a ps) :
    (onLoop (EventLoop.onPacket packet m)).run s = .ok a (s.withPacket packet ps) := by
  rw [onLoop, run_onPart, EventLoop.onPacket, run_onPart, h]
  rfl

section

variable (E : Env) {α : Type}

theorem run_onTransport (missing : String) (server : ServerType) (m : TransportMethod α)
    (s : ClientAsync M) : (onTransport missing server m).run s = match s.protocols server with
      | none => .error (.exception missing) s
      | some proto =>
        match m.run ⟨s.loop, proto⟩ with
        | .ok a t => .ok a (s.putTransport server t)
        | .error e t => .error e (s.putTransport server t) := rfl

theorem run_onTransport_of_ok {missing : String} {server : ServerType} {m : TransportMethod α}
    {s : ClientAsync M} {proto : DatagramProtocolClient} (hproto : s.protocols server = some proto)
    {a : α} {t : TransportState} (h : m.run ⟨s.loop, proto⟩ = .ok a t) :
    (onTransport missing server m).run s = .ok a (s.putTransport server t) := by
  rw [run_onTransport, hproto]
  dsimp only
  rw [h]

theorem run_onTransport_of_error {missing : String} {server : ServerType} {m : TransportMethod α}
    {s : ClientAsync M} {proto : DatagramProtocolClient} (hproto : s.protocols server = some proto)
    {e : Exn} {t : TransportState} (h : m.run ⟨s.loop, proto⟩ = .error e t) :
    (onTransport missing server m).run s = .error e (s.putTransport server t) := by
  rw [run_onTransport, hproto]
  dsimp only
  rw [h]

theorem stays_onTransport (missing : String) (server : ServerType) {m : TransportMethod α}
    (h : Respects Keeps m) : Respects Stays (onTransport (M := M) missing server m) := by
  intro s
  rcases hproto : s.protocols server with - | proto
  · have hrun : (onTransport missing server m).run s = .error (.exception missing) s := by
      rw [run_onTransport, hproto]
    rw [after_of_error hrun]
    exact .refl s
  · have hkeeps := h ⟨s.loop, proto⟩
    rcases ht : m.run ⟨s.loop, proto⟩ with ⟨a, t⟩ | ⟨e, t⟩
    · rw [after_of_ok ht] at hkeeps
      rw [after_of_ok (run_onTransport_of_ok hproto ht)]
      exact .of_keeps hproto hkeeps
    · rw [after_of_error ht] at hkeeps
      rw [after_of_error (run_onTransport_of_error hproto ht)]
      exact .of_keeps hproto hkeeps

/-- A method of a packet object completes no future. -/
theorem stays_onPacket (packet : ℕ) (m : PacketMethod α) :
    Respects Stays (onLoop (M := M) (EventLoop.onPacket packet m)) := by
  intro s
  rw [onLoop, after_onPart, EventLoop.onPacket, after_onPart]
  exact .of_loop s fun _ hf ↦ hf

theorem stays_createFuture : Respects Stays (onLoop (M := M) EventLoop.createFuture) := fun s ↦
  .of_loop s fun _ hf ↦ hf

theorem run_completeOuter (outer : ℕ) (outcome : FutureState) (s : ClientAsync M) :
    (completeOuter outer outcome).run s =
      if (s.loop.futures outer).isPending then
        .ok () { s with loop := s.loop.settle outer outcome }
      else .error .invalidStateError s := by
  have hrun : (completeOuter outer outcome).run s = match s.loop.complete outer outcome with
      | .ok loop => .ok () { s with loop }
      | .error e => .error e s := by
    change (onPart ClientAsync.loop _ (modifyM fun l ↦ l.complete outer outcome)).run s = _
    rw [run_onPart, run_modifyM]
    rcases s.loop.complete outer outcome with e | l <;> rfl
  rw [hrun, EventLoop.complete]
  by_cases hpending : (s.loop.futures outer).isPending
  · rw [if_pos hpending, if_pos hpending]
  · rw [if_neg hpending, if_neg hpending]

theorem stays_completeOuter (outer : ℕ) {outcome : FutureState}
    (houtcome : outcome.isPending = false) :
    Respects Stays (completeOuter (M := M) outer outcome) := by
  intro s
  rw [after, run_completeOuter]
  by_cases hpending : (s.loop.futures outer).isPending
  · rw [if_pos hpending]
    exact .of_loop s fun f hf ↦ by
      rcases eq_or_ne f outer with rfl | hne
      · rwa [EventLoop.futures_settle_self]
      · rwa [EventLoop.futures_settle_ne hne]
  · rw [if_neg hpending]
    exact .refl s

theorem run_onMethod_of_ok {packet : ℕ} {method method' : M} {m : Method (EapState M) Unit}
    {s : ClientAsync M} {ps : PacketState}
    (h : m.run (method, ⟨s.loop.packets packet, s.loop.world⟩) = .ok () (method', ps)) :
    (onMethod packet method m).run s = .ok method' (s.withPacket packet ps) := by
  change onMethod packet method m s = _
  rw [onMethod, h]
  rfl

theorem run_onMethod_of_error {packet : ℕ} {method method' : M} {m : Method (EapState M) Unit}
    {s : ClientAsync M} {e : Exn} {ps : PacketState}
    (h : m.run (method, ⟨s.loop.packets packet, s.loop.world⟩) = .error e (method', ps)) :
    (onMethod packet method m).run s = .error e (s.withPacket packet ps) := by
  change onMethod packet method m s = _
  rw [onMethod, h]
  rfl

theorem stays_onMethod (packet : ℕ) (method : M) (m : Method (EapState M) Unit) :
    Respects Stays (onMethod packet method m) := by
  intro s
  rcases hm : m.run (method, ⟨s.loop.packets packet, s.loop.world⟩) with
    ⟨⟨⟩, method', ps⟩ | ⟨e, method', ps⟩
  · rw [after_of_ok (run_onMethod_of_ok hm)]
    exact .withPacket s packet ps
  · rw [after_of_error (run_onMethod_of_error hm)]
    exact .withPacket s packet ps

theorem stays_prepareOutgoingPacket (packet : ℕ) :
    Respects Stays (prepareOutgoingPacket (M := M) E packet) :=
  respects_get.bind fun _ ↦ stays_onPacket packet _

theorem stays_allocatePacketId (server : ServerType) :
    Respects Stays (allocatePacketId (M := M) server) :=
  stays_onTransport _ server keeps_createId

theorem stays_sendOn (missing : String) (server : ServerType) (now : Time) (packet : ℕ) :
    Respects Stays (sendOn (M := M) E missing server now packet) :=
  stays_createFuture.bind fun ans ↦ (stays_prepareOutgoingPacket E packet).bind fun _ ↦
    (stays_onTransport _ server (keeps_sendPacket E now packet ans)).bind fun _ ↦ respects_pure ans

theorem stays_sendRound (now : Time) (packet : ℕ) :
    Respects Stays (sendRound (M := M) E now packet) :=
  stays_createFuture.bind fun fut ↦
    (stays_onTransport _ .auth (keeps_sendPacket E now packet fut)).bind fun _ ↦ respects_pure fut

theorem stays_startRound (now : Time) (packet : ℕ) :
    Respects Stays (startRound (M := M) E now packet) :=
  (stays_allocatePacketId .auth).bind fun id ↦ (stays_onPacket packet (renewPacket id)).bind
    fun _ ↦ (stays_prepareOutgoingPacket E packet).bind fun _ ↦ stays_sendRound E now packet

end

/-! ### Rounds -/

section

variable {E : Env} {s s' : ClientAsync M}

/-- A conversation that is driven stays so, for as long as it waits. -/
theorem Drives.of_stays {c : Conversation M} (h : s.Drives c) (hstays : Stays s s') :
    s'.Drives c := by
  obtain ⟨fut, hwaiting, hdriven⟩ := h
  refine ⟨fut, hwaiting, ?_⟩
  rcases hdone : (s'.loop.futures fut).isPending
  · exact .inl rfl
  · rcases hdriven with hold | hpending
    · rw [hstays.done fut hold] at hdone
      cases hdone
    · exact .inr (hstays.pending fut hpending hdone)

/-- Nothing is orphaned between two callbacks. -/
theorem NoOrphan.of_stays (h : s.NoOrphan) (hstays : Stays s s') : s'.NoOrphan := by
  intro c hc houter
  rw [hstays.conversations] at hc
  refine (h c hc ?_).of_stays hstays
  by_contra hdone
  rw [hstays.done c.outer (by simpa using hdone)] at houter
  cases houter

/-- **A round that has started** has a pending request. -/
theorem authPending_of_sendRound {now : Time} {packet fut : ℕ}
    (h : (sendRound E now packet).run s = .ok fut s') : s'.AuthPending fut := by
  obtain ⟨f, s₁, -, h⟩ := run_bind_eq_ok_iff.1 h
  obtain ⟨⟨⟩, s₂, hsend, h⟩ := run_bind_eq_ok_iff.1 h
  cases h
  rcases hproto : s₁.protocols .auth with - | proto
  · rw [run_onTransport, hproto] at hsend
    cases hsend
  rcases run_sendPacket E now packet fut ⟨s₁.loop, proto⟩ with
    ⟨-, ht⟩ | ⟨-, p, world, -, ⟨raw, -, ht⟩ | ⟨e, -, ht⟩⟩
  · rw [run_onTransport_of_error hproto ht] at hsend
    cases hsend
  · rw [run_onTransport_of_ok hproto ht] at hsend
    cases hsend
    exact ⟨_, Function.update_self ServerType.auth _ s₁.protocols, _,
      { packet, future := fut, sendDate := now }, OrderedDict.get?_set_self .., rfl⟩
  · rw [run_onTransport_of_error hproto ht] at hsend
    cases hsend

/-- The packet of the next round on its way to the wire, with its new identifier. -/
def roundPacket (E : Env) (enforceMa : Bool) (id : ℕ) : PacketMethod Bytes := do
  renewPacket id
  Packet.prepareRequestMessageAuthenticator E enforceMa
  Packet.requestPacket E

/-- The next round can start with this packet: `protocol_auth` is open and an identifier is free on
it, and with any identifier the packet can be prepared and serialized. -/
def RoundStarts (E : Env) (s : ClientAsync M) (ps : PacketState) : Prop :=
  (∃ auth, s.protocols .auth = some auth ∧ auth.transport = true ∧
    ∃ id < 256, auth.pendingRequests.get? (some id) = none) ∧
  ∀ id < 256, ∃ raw ps', (roundPacket E s.enforceMa id).run ps = .ok raw ps'

/-- **A round that can start does.** -/
theorem exists_run_startRound {now : Time} {packet : ℕ}
    (h : RoundStarts E s ⟨s.loop.packets packet, s.loop.world⟩) :
    ∃ fut s', (startRound E now packet).run s = .ok fut s' := by
  obtain ⟨⟨auth, hauth, hopen, free, hfree, hnone⟩, hround⟩ := h
  -- an identifier is free, and `create_id` finds one
  obtain ⟨id, hid, hget, hcreate⟩ : ∃ id < 256, auth.pendingRequests.get? (some id) = none ∧
      createId.run ⟨s.loop, auth⟩ = .ok id ⟨s.loop, { auth with packetId := id }⟩ := by
    rcases run_createId ⟨s.loop, auth⟩ with hok | ⟨hall, -⟩
    · exact hok
    · have hsome := hall free hfree
      rw [show TransportState.pending ⟨s.loop, auth⟩ = auth.pendingRequests from rfl, hnone] at hsome
      cases hsome
  obtain ⟨raw, ps₃, hpacket⟩ := hround id hid
  obtain ⟨⟨⟩, ps₁, hrenew, hpacket⟩ := run_bind_eq_ok_iff.1 hpacket
  obtain ⟨⟨⟩, ps₂, hprepare, hrequest⟩ := run_bind_eq_ok_iff.1 hpacket
  have hid₁ : ps₁.pkt.id = some id := by
    cases hrenew
    rfl
  have hid₂ : ps₂.pkt.id = some id := by
    have hkeeps := Packet.keepsId_prepareRequestMessageAuthenticator E s.enforceMa ps₁
    rw [after_of_ok hprepare] at hkeeps
    rw [hkeeps (by rw [hid₁]; rfl), hid₁]
  set s₁ := s.putTransport .auth ⟨s.loop, { auth with packetId := id }⟩ with hs₁
  have halloc : (allocatePacketId .auth).run s = .ok id s₁ := run_onTransport_of_ok hauth hcreate
  have hrun₁ : (onLoop (EventLoop.onPacket packet (renewPacket id))).run s₁ =
      .ok () (s₁.withPacket packet ps₁) := run_onPacket_of_ok hrenew
  have hrun₂ : (prepareOutgoingPacket E packet).run (s₁.withPacket packet ps₁) =
      .ok () ((s₁.withPacket packet ps₁).withPacket packet ps₂) := by
    rw [prepareOutgoingPacket, run_bind_of_ok (run_get _)]
    exact run_onPacket_of_ok (by rw [state_withPacket]; exact hprepare)
  set s₂ := (s₁.withPacket packet ps₁).withPacket packet ps₂ with hs₂
  set t : TransportState := ⟨{ s₂.loop with created := s₂.loop.created + 1 },
    { auth with packetId := id }⟩ with ht
  have hstate : (⟨t.loop.packets packet, t.loop.world⟩ : PacketState) = ps₂ :=
    state_withPacket (s₁.withPacket packet ps₁) packet ps₂
  have hidt : (t.loop.packets packet).id = some id := by
    rw [← hid₂, ← hstate]
  have hsent : ∃ t', (DatagramProtocolClient.sendPacket E now packet s₂.loop.created).run t =
      .ok () t' := by
    rcases run_sendPacket E now packet s₂.loop.created t with
      ⟨hsome, -⟩ | ⟨-, p, world, -, ⟨raw', -, hrun⟩ | ⟨e, hfailed, -⟩⟩
    · rw [hidt] at hsome
      exact absurd hsome (by rw [show t.pending = auth.pendingRequests from rfl, hget]; simp)
    · exact ⟨_, hrun⟩
    · have hraised := hfailed hopen
      rw [hstate, hrequest] at hraised
      cases hraised
  obtain ⟨t', hsent⟩ := hsent
  refine ⟨s₂.loop.created, ({ s₂ with loop := t.loop } : ClientAsync M).putTransport .auth t', ?_⟩
  rw [startRound, run_bind_of_ok halloc, run_bind_of_ok hrun₁, run_bind_of_ok hrun₂, sendRound]
  have hcreated : (onLoop EventLoop.createFuture).run s₂ =
      .ok s₂.loop.created { s₂ with loop := t.loop } := rfl
  rw [run_bind_of_ok hcreated]
  have htransport : (onTransport "Transport not initialized" .auth
      (DatagramProtocolClient.sendPacket E now packet s₂.loop.created)).run
        { s₂ with loop := t.loop } =
      .ok () (({ s₂ with loop := t.loop } : ClientAsync M).putTransport .auth t') := by
    have hproto : s₂.protocols .auth = some { auth with packetId := id } :=
      Function.update_self ServerType.auth _ s.protocols
    exact run_onTransport_of_ok (s := ({ s₂ with loop := t.loop } : ClientAsync M)) hproto hsent
  rw [run_bind_of_ok htransport]
  rfl

end

/-! ### Callbacks -/

section

variable {E : Env} {methods : EapMethods M} {s s' : ClientAsync M} {now : Time} {i : ℕ}
  {c c' : Conversation M}

/-- What becomes of the other conversations when one of them is changed. -/
theorem NoOrphan.of_stays_setConversation (h : s.NoOrphan)
    (hstays : Stays (s.setConversation i c) s')
    (hc : (s'.loop.futures c.outer).isPending = true → s'.Drives c) : s'.NoOrphan := by
  intro d hd houter
  rw [hstays.conversations] at hd
  rcases List.mem_or_eq_of_mem_set hd with hold | rfl
  · have hpending : (s.loop.futures d.outer).isPending = true := by
      by_contra hdone
      have hfalse : (s.loop.futures d.outer).isPending = false := by simpa using hdone
      rw [hstays.done d.outer hfalse] at houter
      cases houter
    have hdrives : (s.setConversation i c).Drives d := h d hold hpending
    exact hdrives.of_stays hstays
  · exact hc houter

theorem Stays.setConversation (h : Stays (s.setConversation i c) s') :
    Stays (s.setConversation i c') (s'.setConversation i c') where
  conversations := by
    show s'.conversations.set i c' = s.conversations.set i c'
    rw [h.conversations]
    exact List.set_set c
  enforceMa := h.enforceMa
  pending := h.pending
  done := h.done

/-- **An outer future that is completed** needs nothing to drive it. -/
theorem noOrphan_completeOuter (h : s.NoOrphan) (hstays : Stays (s.setConversation i c) s')
    (houter : (s'.loop.futures c.outer).isPending = true) {outcome : FutureState}
    (houtcome : outcome.isPending = false) :
    (after (completeOuter c.outer outcome) s').NoOrphan := by
  have hrun := run_completeOuter c.outer outcome s'
  rw [if_pos houter] at hrun
  refine h.of_stays_setConversation (hstays.trans (stays_completeOuter c.outer houtcome s'))
    fun hpending ↦ ?_
  rw [after_of_ok hrun] at hpending
  rw [EventLoop.futures_settle_self, houtcome] at hpending
  cases hpending

/-- **A next round that can start** drives the conversation. -/
theorem noOrphan_nextRound (h : s.NoOrphan) (hstays : Stays (s.setConversation i c') s')
    (hstarts : RoundStarts E s' ⟨s'.loop.packets c.packet, s'.loop.world⟩) :
    (after (nextRound E now i c) s').NoOrphan := by
  obtain ⟨fut, s'', hrun⟩ : ∃ fut s'', (startRound E now c.packet).run s' = .ok fut s'' :=
    exists_run_startRound hstarts
  have hstays' := stays_startRound E now c.packet s'
  rw [after_of_ok hrun] at hstays'
  have hdriven : s''.AuthPending fut := by
    obtain ⟨_, s₁, -, hrun⟩ := run_bind_eq_ok_iff.1 hrun
    obtain ⟨_, s₂, -, hrun⟩ := run_bind_eq_ok_iff.1 hrun
    obtain ⟨_, s₃, -, hrun⟩ := run_bind_eq_ok_iff.1 hrun
    exact authPending_of_sendRound hrun
  have hafter : after (nextRound E now i c) s' =
      s''.setConversation i { c with waiting := some fut } := by
    rw [nextRound, after_bind_of_ok hrun]
    rfl
  rw [hafter]
  exact h.of_stays_setConversation (hstays.trans hstays').setConversation fun _ ↦
    ⟨fut, rfl, .inr hdriven⟩

/-- The callback of a conversation that is still open, up to what it does with the outcome. -/
theorem run_onReply {fut : ℕ} (hc : s.conversations[i]? = some c) (hwaiting : c.waiting = some fut)
    (hdone : (s.loop.futures fut).isPending = false)
    (houter : (s.loop.futures c.outer).isPending = true) :
    (onReply E methods now i).run s =
      (match s.loop.futures fut with
      | .pending => pure ()
      | .cancelled => modify fun s ↦ { s with loop := s.loop.cancel c.outer }
      | .exception e => completeOuter c.outer (.exception e)
      | .result reply => onResult E methods now i { c with waiting := none } reply :
        ClientMethod M Unit).run (s.setConversation i { c with waiting := none }) := by
  rw [onReply, run_bind_of_ok (run_get s)]
  dsimp only
  rw [hc]
  dsimp only
  rw [hwaiting]
  dsimp only
  rw [if_neg (by simp [hdone])]
  have hset : (modify (setConversation i { c with waiting := none }) : ClientMethod M Unit).run s =
      .ok () (s.setConversation i { c with waiting := none }) := rfl
  have hopen : ¬ (!(s.loop.futures c.outer).isPending) = true := by simp [houter]
  exact (run_bind_of_ok hset).trans (congrFun (congrArg EStateM.run (if_neg hopen)) _)

/-- What the answer to a challenge leaves is such that the next round can start: an identifier is
free, and the packet can be serialized. Other steps are unconstrained. -/
def RoundSafe (E : Env) (methods : EapMethods M) (s : ClientAsync M) : ClientEvent → Prop
  | .onReply _ i => ∀ c fut reply method method' ps, s.conversations[i]? = some c →
      c.waiting = some fut → s.loop.futures fut = .result reply →
      (s.loop.futures c.outer).isPending = true → c.method = some method →
      reply.code = PacketType.accessChallenge →
      (methods.respond reply).run (method, ⟨s.loop.packets c.packet, s.loop.world⟩) =
        .ok () (method', ps) →
      RoundStarts E s ps
  | _ => True

/-- The answer to the challenge of a conversation is followed by a round that can start. -/
def startsNextRound (E : Env) (methods : EapMethods M) (s : ClientAsync M) (i : ℕ) : Bool :=
  s.conversations[i]?.all fun c ↦ c.method.all fun method ↦ c.waiting.all fun fut ↦
    match s.loop.futures fut with
    | .result reply =>
      let ps := (after (methods.respond reply)
        (method, ⟨s.loop.packets c.packet, s.loop.world⟩)).2
      ((s.protocols .auth).any fun auth ↦ auth.transport &&
        (List.range 256).any fun id ↦ (auth.pendingRequests.get? (some id)).isNone) &&
      (List.range 256).all fun id ↦ returns (roundPacket E s.enforceMa id) ps
    | _ => true

theorem roundSafe_of_startsNextRound (h : startsNextRound E methods s i = true) :
    RoundSafe E methods s (.onReply now i) := by
  intro c fut reply method method' ps hc hwaiting hresult _ hmethod _ hrespond
  rw [startsNextRound, hc, Option.all_some, hmethod, Option.all_some, hwaiting, Option.all_some,
    hresult] at h
  dsimp only at h
  rw [after_of_ok hrespond, Bool.and_eq_true] at h
  obtain ⟨hopen, hround⟩ := h
  refine ⟨?_, fun id hid ↦ ?_⟩
  · obtain ⟨auth, hauth, hfree⟩ := (Option.any_eq_true _ _).1 hopen
    rw [Bool.and_eq_true, List.any_eq_true] at hfree
    obtain ⟨htransport, free, hmem, hnone⟩ := hfree
    exact ⟨auth, hauth, htransport, free, List.mem_range.1 hmem, Option.isNone_iff_eq_none.1 hnone⟩
  · exact exists_of_returns (List.all_eq_true.1 hround id (List.mem_range.2 hid))

/-- A callback without an outcome to read changes nothing. -/
theorem after_onReply_of_isPending (h : ∀ c fut, s.conversations[i]? = some c →
    c.waiting = some fut → (s.loop.futures fut).isPending = true) :
    after (onReply E methods now i) s = s := by
  rw [onReply, after_bind_of_ok (run_get s)]
  dsimp only
  rcases hc : s.conversations[i]? with - | c
  · rfl
  dsimp only
  rcases hwaiting : c.waiting with - | fut
  · rfl
  dsimp only
  rw [if_pos (h c fut hc hwaiting)]
  rfl

/-- The callback of a conversation that is closed waits for nothing any more. -/
theorem after_onReply_of_closed {fut : ℕ} (hc : s.conversations[i]? = some c)
    (hwaiting : c.waiting = some fut) (hdone : (s.loop.futures fut).isPending = false)
    (houter : (s.loop.futures c.outer).isPending = false) :
    after (onReply E methods now i) s = s.setConversation i { c with waiting := none } := by
  rw [onReply, after_bind_of_ok (run_get s)]
  dsimp only
  rw [hc]
  dsimp only
  rw [hwaiting]
  dsimp only
  rw [if_neg (by simp [hdone])]
  have hset : (modify (setConversation i { c with waiting := none }) : ClientMethod M Unit).run s =
      .ok () (s.setConversation i { c with waiting := none }) := rfl
  rw [after_bind_of_ok hset, if_pos (by simp [houter])]
  rfl

/-- A reply completes the caller's future, unless it is a challenge that is answered. -/
theorem noOrphan_onResult (h : s.NoOrphan) {fut : ℕ} {reply : Packet}
    (hc : s.conversations[i]? = some c) (hwaiting : c.waiting = some fut)
    (hresult : s.loop.futures fut = .result reply)
    (houter : (s.loop.futures c.outer).isPending = true)
    (hsafe : RoundSafe E methods s (.onReply now i)) :
    (after (onResult E methods now i { c with waiting := none } reply)
      (s.setConversation i { c with waiting := none })).NoOrphan := by
  set c₀ : Conversation M := { c with waiting := none } with hc₀
  have hstays : Stays (s.setConversation i c₀) (s.setConversation i c₀) := .refl _
  unfold onResult
  rcases hmethod : c.method with - | method
  · exact noOrphan_completeOuter h hstays houter rfl
  dsimp only
  by_cases hcode : reply.code = PacketType.accessChallenge
  swap
  · rw [if_neg hcode]
    exact noOrphan_completeOuter h hstays houter rfl
  rw [if_pos hcode]
  rcases hrespond : (methods.respond reply).run
      (method, ⟨s.loop.packets c.packet, s.loop.world⟩) with ⟨⟨⟩, method', ps⟩ | ⟨e, method', ps⟩
  · have hrun : (Method.attempt (onMethod c.packet method (methods.respond reply))).run
        (s.setConversation i c₀) =
        .ok (.ok method') ((s.setConversation i c₀).withPacket c.packet ps) :=
      Method.run_attempt_of_ok (run_onMethod_of_ok hrespond)
    rw [after_bind_of_ok hrun]
    have hstarts := hsafe c fut reply method method' ps hc hwaiting hresult houter hmethod hcode
      hrespond
    refine noOrphan_nextRound h (.withPacket _ c.packet ps) ?_
    rw [state_withPacket]
    exact hstarts
  · -- what the method raises completes the future
    have hends : e ≠ .divergence := by
      rintro rfl
      exact methods.respond_ends reply _ _ hrespond
    have hrun : (Method.attempt (onMethod c.packet method (methods.respond reply))).run
        (s.setConversation i c₀) =
        .ok (.error e) ((s.setConversation i c₀).withPacket c.packet ps) :=
      Method.run_attempt_of_error (run_onMethod_of_error hrespond) hends
    rw [after_bind_of_ok hrun]
    exact noOrphan_completeOuter (c := c₀) h (.withPacket _ c.packet ps) houter rfl

/-- A caller's future that is cancelled needs nothing to drive it. -/
theorem noOrphan_cancel (h : s.NoOrphan) (houter : (s.loop.futures c.outer).isPending = true) :
    ({ s.setConversation i c with loop := s.loop.cancel c.outer } : ClientAsync M).NoOrphan := by
  have hcancelled : (s.loop.cancel c.outer).futures c.outer = .cancelled := by
    rw [EventLoop.cancel, if_pos houter]
    exact Function.update_self ..
  refine h.of_stays_setConversation (c := c) (.of_loop _ fun f hf ↦ ?_) fun hpending ↦ ?_
  · rcases eq_or_ne f c.outer with rfl | hne
    · exact congrArg FutureState.isPending hcancelled
    · show ((s.loop.cancel c.outer).futures f).isPending = false
      rw [EventLoop.cancel, if_pos houter]
      exact (congrArg FutureState.isPending (Function.update_of_ne hne ..)).trans hf
  · have hopen : ((s.loop.cancel c.outer).futures c.outer).isPending = true := hpending
    rw [hcancelled] at hopen
    cases hopen

/-- **A callback** orphans no conversation, if the round it starts can start. -/
theorem noOrphan_onReply (h : s.NoOrphan) (hsafe : RoundSafe E methods s (.onReply now i)) :
    (after (onReply E methods now i) s).NoOrphan := by
  by_cases hready : ∃ c fut, s.conversations[i]? = some c ∧ c.waiting = some fut ∧
      (s.loop.futures fut).isPending = false
  swap
  · have hpending : ∀ c fut, s.conversations[i]? = some c → c.waiting = some fut →
        (s.loop.futures fut).isPending = true := by
      intro c fut hc hwaiting
      by_contra hdone
      exact hready ⟨c, fut, hc, hwaiting, by simpa using hdone⟩
    rw [after_onReply_of_isPending hpending]
    exact h
  obtain ⟨c, fut, hc, hwaiting, hdone⟩ := hready
  rcases houter : (s.loop.futures c.outer).isPending with - | -
  · -- the caller's future is done already
    rw [after_onReply_of_closed hc hwaiting hdone houter]
    refine h.of_stays_setConversation (.refl _) fun hpending ↦ ?_
    cases houter.symm.trans hpending
  rw [after, run_onReply hc hwaiting hdone houter, ← after]
  rcases hfut : s.loop.futures fut with - | reply | e | -
  · rw [hfut] at hdone
    cases hdone
  · exact noOrphan_onResult h hc hwaiting hfut houter hsafe
  · exact noOrphan_completeOuter (c := { c with waiting := none }) h (.refl _) houter rfl
  · -- the owner of the round has cancelled it
    exact noOrphan_cancel (c := { c with waiting := none }) h houter

theorem NoOrphan.ensures_bind {α β : Type} (h : s.NoOrphan) {m : ClientMethod M α}
    {f : α → ClientMethod M β} (hm : Respects Stays m)
    (hf : ∀ a s', s'.NoOrphan → Ensures (f a) s' (fun _ t ↦ t.NoOrphan) fun _ t ↦ t.NoOrphan) :
    Ensures (m >>= f) s (fun _ t ↦ t.NoOrphan) fun _ t ↦ t.NoOrphan :=
  EStateM.ensures_bind.2 ((ensures_iff_after.2 (h.of_stays (hm s))).imp hf fun _ _ ht ↦ ht)

/-- **A first round that is sent** drives its conversation. -/
theorem noOrphan_sendAuthPacket (h : s.NoOrphan) (packet : ℕ) :
    Ensures (sendAuthPacket E methods now packet) s (fun _ t ↦ t.NoOrphan) fun _ t ↦ t.NoOrphan := by
  have hround (method : Option M) (s₁ : ClientAsync M) (h₁ : s₁.NoOrphan) :
      Ensures (do
        let outer ← onLoop EventLoop.createFuture
        prepareOutgoingPacket E packet
        let fut ← sendRound E now packet
        modify fun s ↦ { s with
          conversations := s.conversations ++ [{ packet, outer, waiting := some fut, method }] }
        return outer) s₁ (fun _ t ↦ t.NoOrphan) fun _ t ↦ t.NoOrphan := by
    refine h₁.ensures_bind stays_createFuture fun outer s₂ h₂ ↦ ?_
    refine h₂.ensures_bind (stays_prepareOutgoingPacket E packet) fun _ s₃ h₃ ↦ ?_
    have hstays := h₃.of_stays (stays_sendRound E now packet s₃)
    rw [ensures_bind]
    rcases hsend : (sendRound E now packet).run s₃ with ⟨fut, s₄⟩ | ⟨e, s₄⟩
    · rw [after_of_ok hsend] at hstays
      have hdriven := authPending_of_sendRound hsend
      refine .of_ok hsend ?_
      intro c hc houter
      rcases List.mem_append.1 hc with hold | hnew
      · exact hstays c hold houter
      · obtain rfl := List.mem_singleton.1 hnew
        exact ⟨fut, rfl, .inr hdriven⟩
    · rw [after_of_error hsend] at hstays
      exact .of_error hsend hstays
  rw [sendAuthPacket]
  refine h.ensures_bind respects_get fun s₀ s₁ h₁ ↦ ?_
  dsimp only
  split
  · refine h₁.ensures_bind (stays_onMethod packet _ methods.start) fun method s₂ h₂ ↦ ?_
    exact hround (some method) s₂ h₂
  · exact hround none s₁ h₁

/-- The exceptions of a step end at the event loop, or with the caller. -/
theorem noOrphan_after_bind_pure {α β : Type} {m : ClientMethod M α} (b : β)
    (h : Ensures m s (fun _ t ↦ t.NoOrphan) fun _ t ↦ t.NoOrphan) :
    (after (m >>= fun _ ↦ pure b) s).NoOrphan :=
  ensures_iff_after.1 (EStateM.ensures_bind.2 h)

theorem stays_sendStatusPacket (port : ServerType) (packet : ℕ) :
    Respects Stays (sendStatusPacket (M := M) E port now packet) := by
  have hsend (missing : String) : Respects Stays (do
      if ((← get).protocols port).isNone then throw (.exception missing)
      sendOn E missing port now packet : ClientMethod M ℕ) := by
    refine respects_get.bind fun s₀ ↦ ?_
    split
    · exact respects_throw_bind _ _
    · exact stays_sendOn E missing port now packet
  unfold sendStatusPacket
  cases port with
  | auth => exact hsend "Auth transport not initialized"
  | acct => exact hsend "Accounting transport not initialized"
  | coa => exact respects_throw_bind _ _

theorem noOrphan_sendPacket (h : s.NoOrphan) (packet : ℕ) :
    Ensures (sendPacket E methods now packet) s (fun _ t ↦ t.NoOrphan) fun _ t ↦ t.NoOrphan := by
  rw [sendPacket]
  refine h.ensures_bind respects_get fun s₀ s₁ h₁ ↦ ?_
  have hstays {m : ClientMethod M ℕ} (hm : Respects Stays m) :
      Ensures m s₁ (fun _ t ↦ t.NoOrphan) fun _ t ↦ t.NoOrphan :=
    ensures_iff_after.2 (h₁.of_stays (hm s₁))
  split
  · exact hstays (stays_sendStatusPacket .auth packet)
  · split
    · exact hstays (respects_throw_bind _ _)
    · exact noOrphan_sendAuthPacket h₁ packet
  · exact hstays (stays_sendOn E _ .acct now packet)
  · exact hstays (stays_sendOn E _ .coa now packet)
  · exact hstays (stays_createFuture.bind fun _ ↦
      (stays_prepareOutgoingPacket E packet).bind fun _ ↦ respects_throw _)

/-- **A step** orphans no conversation. -/
theorem noOrphan_next (h : s.NoOrphan) {e : ClientEvent} (hsafe : RoundSafe E methods s e) :
    (e.next E methods s).NoOrphan := by
  cases e with
  | sendPacket now packet => exact noOrphan_after_bind_pure () (noOrphan_sendPacket h packet)
  | sendStatusPacket port now packet =>
    exact h.of_stays (((stays_sendStatusPacket port packet).bind fun _ ↦ respects_pure ()) s)
  | allocatePacketId server =>
    exact h.of_stays (((stays_allocatePacketId server).bind fun _ ↦ respects_pure ()) s)
  | assign packet p => exact h.of_stays (.of_loop s fun _ hf ↦ hf)
  | datagramReceived server data =>
    exact h.of_stays (stays_onTransport "" server (keeps_datagramReceived E data) s)
  | timeout server now noise =>
    exact h.of_stays (stays_onTransport "" server (keeps_timeoutHandler E now noise) s)
  | onReply now i => exact noOrphan_onReply h hsafe

/-- A step that starts no round that cannot start. -/
def RoundSafeStep (E : Env) (methods : EapMethods M) (s s' : ClientAsync M) : Prop :=
  ∃ e, RoundSafe E methods s e ∧ s' = e.next E methods s

/-- **Conversations.** In every run whose answers to challenges leave rounds that can start, every
unresolved future of an Access-Request is driven, in every state reached: by a request that is
pending on the transport, or by its callback. -/
theorem conversations_driven {protocols : ServerType → Option DatagramProtocolClient}
    {enforceMa : Bool} {packets : ℕ → Packet} {world : World}
    (hreach : Relation.ReflTransGen (RoundSafeStep E methods)
      (.init protocols enforceMa packets world) s) : s.NoOrphan := by
  induction hreach with
  | refl =>
    intro c hc
    cases hc
  | tail _ hstep ih =>
    obtain ⟨e, hsafe, rfl⟩ := hstep
    exact noOrphan_next ih hsafe

end

end ClientAsync

/-- A client with one transport, on which packet object `0` is an Access-Request for EAP-MD5 and
packet object `n` one without a method, with the identifiers from `0` to `255` and around again. -/
def ClientAsync.numbered : ClientAsync Unit :=
  .init
    (fun server ↦ if server = .auth then
      some { retryPolicy := { retries := 0 }, enforceMa := false, packetId := 0,
             dict := some .messageAuthenticatorOnly }
      else none)
    false
    (fun n ↦
      if n = 0 then
        { cls := .auth, code := PacketType.accessRequest, id := some 0, secret := [1],
          dict := some .messageAuthenticatorOnly, authType := "eap-md5",
          attrs := OrderedDict.set ∅ (.int 2) (.vals [.bytes [112, 119]]) }
      else
        { cls := .auth, code := PacketType.accessRequest, id := some (n % 256), secret := [1] })
    { rng := ⟨fun _ ↦ 0⟩ }

/-- A challenge for identifier `0`, in a world where every digest is zero. -/
def Eap.zeroChallenge : Bytes :=
  [11, 0, 0, 30] ++ List.replicate 16 0 ++ [79, 7, 1, 9, 0, 5, 4] ++ [24, 3, 5]

/-- A challenge arrives, and the callback sends the answer in a second round. -/
theorem conversations_driven_numbered : ∃ s,
    Relation.ReflTransGen
      (ClientAsync.RoundSafeStep (Env.ofByte (fun _ ↦ 0) fun _ _ ↦ 0)
        (Eap.md5Methods (Env.ofByte (fun _ ↦ 0) fun _ _ ↦ 0))) .numbered s ∧
    (s.conversations.map fun c ↦ (c.outer, c.waiting)) = [(0, some 2)] ∧ s.NoOrphan := by
  set E := Env.ofByte (fun _ ↦ 0) fun _ _ ↦ 0
  set s₁ := (ClientEvent.sendPacket 0 0).next E (Eap.md5Methods E) .numbered
  set s₂ := (ClientEvent.datagramReceived .auth Eap.zeroChallenge).next E (Eap.md5Methods E) s₁
  set s₃ := (ClientEvent.onReply 0 0).next E (Eap.md5Methods E) s₂
  have hsent : ClientAsync.RoundSafeStep E (Eap.md5Methods E) .numbered s₁ :=
    ⟨.sendPacket 0 0, trivial, rfl⟩
  have hreceived : ClientAsync.RoundSafeStep E (Eap.md5Methods E) s₁ s₂ :=
    ⟨.datagramReceived .auth Eap.zeroChallenge, trivial, rfl⟩
  have hanswered : ClientAsync.RoundSafeStep E (Eap.md5Methods E) s₂ s₃ :=
    ⟨.onReply 0 0, ClientAsync.roundSafe_of_startsNextRound (by decide +kernel), rfl⟩
  have hreach := ((Relation.ReflTransGen.single hsent).tail hreceived).tail hanswered
  exact ⟨s₃, hreach, by decide +kernel, ClientAsync.conversations_driven hreach⟩

/-- All identifiers are taken; a challenge frees the one of its conversation, a new request takes it,
and only then the callback runs. -/
def ClientEvent.crowd : List ClientEvent :=
  (List.range 256).map (sendPacket 0) ++
    [datagramReceived .auth Eap.zeroChallenge, sendPacket 0 256, onReply 0 0]

/-- `create_id` raises in a callback, and nothing is left that would complete the future of the
conversation. -/
theorem conversation_orphaned_of_crowd :
    let E := Env.ofByte (fun _ ↦ 0) fun _ _ ↦ 0
    ¬ (ClientEvent.crowd.foldl (fun s e ↦ e.next E (Eap.md5Methods E) s)
      ClientAsync.numbered).NoOrphan := by
  intro E hno
  generalize hs : List.foldl _ _ _ = s at hno
  have hlost : (s.conversations.head?.map fun c ↦
      (c.waiting, (s.loop.futures c.outer).isPending)) = some (none, true) := by
    rw [← hs]
    decide +kernel
  obtain ⟨c, hc, hpair⟩ := Option.map_eq_some_iff.1 hlost
  obtain ⟨hwaiting, houter⟩ := Prod.mk.inj hpair
  obtain ⟨fut, hfut, -⟩ := hno c (List.mem_of_head? hc) houter
  rw [hwaiting] at hfut
  cases hfut

end Pyrad2
