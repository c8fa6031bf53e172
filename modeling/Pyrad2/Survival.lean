import Pyrad2.Decision
import Pyrad2.Packet.ReplySafety
import Pyrad2.Packet.Repliable

/-!
# Datagrams the server loop survives

What comes out of `_process_input`, around which the main loop catches `PacketError` and
`ServerPacketError` and nothing else.

Up to the dispatch only these two are raised. What is raised behind it comes from the handler, and a
handler that creates replies and sends them, and does nothing else, raises only what sending raises.
So a datagram ends the loop just when a reply is sent whose Message-Authenticator cannot be stored.
-/

namespace Pyrad2

open EStateM Packet ServerState

namespace RequestRouter

variable {E : Env} {r : RequestRouter} {D : Dictionary} {p : Packet} {s : ServerState}

/-- Does `force_reply_ma` add a Message-Authenticator to the reply? -/
def forcesMa (r : RequestRouter) (reply : Packet) : Bool :=
  r.requireMessageAuthenticator &&
      reply.code ∈ [PacketType.accessAccept, PacketType.accessReject, PacketType.accessChallenge] ||
    r.requireEapMessageAuthenticator && reply.hasEapMessage

/-- The reply is sent without a Message-Authenticator, or its digest is no text that begins with `0x`
and goes on with anything but hexadecimal digits. -/
def Sends (E : Env) (r : RequestRouter) (reply : Packet) : Prop :=
  reply.messageAuthenticator = some true ∨ r.forcesMa reply = true → reply.MacStorable E

theorem run_forceReplyMa (hp : Repliable D p) (w : World) :
    (r.forceReplyMa E).run ⟨p, w⟩ = .ok () ⟨if r.forcesMa p then p.equipped else p, w⟩ := by
  rw [forceReplyMa, run_bind_of_ok (run_get _)]
  show (if r.forcesMa p = true then _ else _ : PacketMethod Unit).run ⟨p, w⟩ = _
  split
  · exact hp.run_ensureMessageAuthenticator w
  · rfl

/-- `prepare_reply` does not fail. -/
theorem ensures_prepareReply (hp : Repliable D p) (request : Packet) (w : World) :
    Ensures (r.prepareReply E request) ⟨p, w⟩
      (fun _ s ↦ Repliable D s.pkt ∧ s.pkt.source = p.source) fun _ _ ↦ False := by
  have hsource : p.equipped.source = p.source := by
    rw [equipped]
    split <;> rfl
  rw [prepareReply, prepareReplyMessageAuthenticator]
  refine ensures_bind.2 (ensures_get.2 ?_)
  dsimp only
  split
  · exact ⟨hp, rfl⟩
  split
  · exact .of_ok (hp.run_ensureMessageAuthenticator w) ⟨hp.equipped, hsource⟩
  · exact ⟨hp, rfl⟩

/-- **Creating a reply**: what `create_reply` makes is made ready to be sent. -/
theorem ensures_createReplyPacket {pkt : Packet} {code : Option ℕ} {attributes : KwAttributes}
    (hcreate : ∀ w, Ensures (createReply E pkt code none attributes) w
      (fun reply _ ↦ Repliable D reply) fun _ _ ↦ False) (source : Option Address) :
    Ensures (r.createReplyPacket E source pkt code attributes) s
      (fun reply _ ↦ Repliable D reply ∧ reply.source = source) fun _ _ ↦ False := by
  rw [createReplyPacket]
  refine ensures_bind.2 (ensures_onPart.2 ((hcreate s.world).imp (fun reply w hreply ↦ ?_)
    fun _ _ h ↦ h))
  have hsourced := hreply.update hreply.code_lt reply.originalCode reply.token
    reply.messageAuthenticator source reply.dedupKey
  refine ensures_bind.2 (ensures_onPart.2 (ensures_run.2
    ((ensures_prepareReply hsourced pkt w).imp (fun _ t ht ↦ ?_) fun _ _ h ↦ h)))
  obtain ⟨hrepliable, hsource⟩ := ht
  show Repliable D (attachDedupKey pkt t.pkt) ∧ (attachDedupKey pkt t.pkt).source = source
  rw [attachDedupKey]
  split
  · exact ⟨hrepliable.update hrepliable.code_lt t.pkt.originalCode t.pkt.token
      t.pkt.messageAuthenticator t.pkt.source _, hsource⟩
  · exact ⟨hrepliable, hsource⟩

/-- **Sending a reply** fails in storing the digest, or not at all. -/
theorem ensures_sendReplyPacket (hp : Repliable D p) (dest : Address) :
    Ensures (r.sendReplyPacket E (some dest) p) s (fun _ _ ↦ r.Sends E p)
      fun e _ ↦ e.IsForeign ∧ ¬ r.Sends E p := by
  let q : Packet := if r.forcesMa p then p.equipped else p
  have hq : Repliable D q := by
    dsimp only [q]
    split
    · exact hp.equipped
    · exact hp
  have hflag : p.messageAuthenticator = some true ∨ r.forcesMa p = true ↔
      q.messageAuthenticator = some true := by
    dsimp only [q]
    split
    · next hforced =>
      refine iff_of_true (.inr hforced) ?_
      rw [equipped]
      split <;> rfl
    · next hforced => exact ⟨fun h ↦ h.resolve_right hforced, .inl⟩
  have hstorable : q.MacStorable E ↔ p.MacStorable E := by
    dsimp only [q]
    split
    · rw [MacStorable, MacStorable, macDigest_equipped]
    · rfl
  have hsends : r.Sends E p ↔ (q.messageAuthenticator = some true → q.MacStorable E) := by
    rw [Sends, hflag, hstorable]
  rw [sendReplyPacket, hsends]
  refine ensures_bind.2 (ensures_onPart.2 (ensures_run.2 (.of_ok (run_forceReplyMa hp _) ?_)))
  refine ensures_bind.2 (ensures_onPart.2 (ensures_run.2
    ((hq.ensures_replyPacket s.world).imp (fun raw t hraw ↦ ?_) fun e _ he ↦ ?_)))
  · refine ensures_bind.2 (ensures_modify.2 ?_)
    show Ensures (r.recordReply t.pkt raw) _ _ _
    rw [recordReply]
    split
    · exact ensures_modify.2 hraw
    · exact hraw
  · exact ⟨he.1, fun h ↦ he.2.2 (h he.2.1)⟩

/-! ### The checks -/

section

variable {raw secret : Bytes} {st : DecodeState} {source : Option Address}

end

end RequestRouter

/-! ### Handlers -/

/-- A handler that creates replies to its request and sends them, with the code they have or another:
it stops at the first exception, and the attributes it gives to a reply fit a packet. `created` are
the replies it has. -/
inductive Answers (E : Env) (request : Packet) : List Packet → HandlerProgram → Prop where
  | done {created : List Packet} : Answers E request created .done
  | create {created : List Packet} {attributes : KwAttributes}
      {next : Except Exn Packet → HandlerProgram} (fitting : Fitting E request none attributes)
      (raises : ∀ e, next (.error e) = .raise e)
      (answers : ∀ reply, Answers E request (reply :: created) (next (.ok reply))) :
      Answers E request created (.createReply request none attributes next)
  | send {created : List Packet} {reply : Packet} {code : ℕ} {addr : Address}
      {next : Except Exn Unit → HandlerProgram} (mem : reply ∈ created) (code_lt : code < 256)
      (raises : ∀ e, next (.error e) = .raise e)
      (answers : Answers E request created (next (.ok ()))) :
      Answers E request created (.sendReply { reply with code } addr next)

namespace HandlerProgram

variable (E : Env) (r : RequestRouter) (t : Transport)

/-- The replies that a handler, run from this state, has sent. -/
def replies : HandlerProgram → ServerState → List Packet
  | done, _ => []
  | raise _, _ => []
  | createReply request code attributes next, s =>
    match (Method.attempt (t.createReplyPacket E r request code attributes)).run s with
    | .ok outcome s' => (next outcome).replies s'
    | .error _ _ => []
  | edit pkt m next, s =>
    match (Method.attempt (onWorld (pkt.run m))).run s with
    | .ok outcome s' => (next (outcome.map Prod.snd)).replies s'
    | .error _ _ => []
  | sendReply reply addr next, s =>
    reply :: match (Method.attempt (t.sendReply E r reply addr)).run s with
      | .ok outcome s' => (next outcome).replies s'
      | .error _ _ => []

end HandlerProgram

section

variable {E : Env} {r : RequestRouter} {D : Dictionary} {request : Packet} {created : List Packet}
  {program : HandlerProgram}

/-- **A handler that answers** raises what sending a reply raises, and nothing else. -/
theorem Answers.ensures_run (h : Answers E request created program)
    (hrequest : Answerable D request) (hD : D.DeclaresMessageAuthenticator)
    (hsource : request.source.isSome = true)
    (hcreated : ∀ reply ∈ created, Repliable D reply ∧ reply.source.isSome = true) (s : ServerState) :
    Ensures (program.run E r .sync) s
      (fun _ _ ↦ ∀ reply ∈ program.replies E r .sync s, r.Sends E reply)
      fun e _ ↦ e.IsForeign ∧ ∃ reply ∈ program.replies E r .sync s, ¬ r.Sends E reply := by
  induction h generalizing s with
  | done => exact fun reply hreply ↦ absurd hreply (List.not_mem_nil)
  | @create created attributes next fitting raises answers ih =>
    have hcreate : Ensures (Transport.sync.createReplyPacket E r request none attributes) s
        (fun reply _ ↦ Repliable D reply ∧ reply.source = request.source) fun _ _ ↦ False :=
      RequestRouter.ensures_createReplyPacket
        (fun w ↦ hrequest.ensures_createReply hD (fun c hc ↦ by cases hc) fitting w) _
    rw [Ensures] at hcreate
    rcases hrun : (Transport.sync.createReplyPacket E r request none attributes).run s with
      ⟨reply, s'⟩ | ⟨e, s'⟩
    · rw [hrun] at hcreate
      obtain ⟨hrepliable, hreply⟩ := hcreate
      have hattempt := Method.run_attempt_of_ok hrun
      have hreplies : (HandlerProgram.createReply request none attributes next).replies E r .sync s =
          (next (.ok reply)).replies E r .sync s' := by
        rw [HandlerProgram.replies, hattempt]
      rw [HandlerProgram.run, hreplies]
      refine ensures_bind.2 (.of_ok hattempt (ih reply (fun other hother ↦ ?_) s'))
      rcases List.mem_cons.1 hother with rfl | hother
      · exact ⟨hrepliable, by rw [hreply]; exact hsource⟩
      · exact hcreated other hother
    · rw [hrun] at hcreate
      exact hcreate.elim
  | @send created reply code addr next mem code_lt raises answers ih =>
    obtain ⟨hrepliable, hsome⟩ := hcreated reply mem
    obtain ⟨dest, hdest⟩ := Option.isSome_iff_exists.1 hsome
    have hrecoded := hrepliable.update code_lt reply.originalCode reply.token
      reply.messageAuthenticator reply.source reply.dedupKey
    have hsend : Ensures (Transport.sync.sendReply E r { reply with code } addr) s
        (fun _ _ ↦ r.Sends E { reply with code })
        fun e _ ↦ e.IsForeign ∧ ¬ r.Sends E { reply with code } := by
      have hsent := RequestRouter.ensures_sendReplyPacket (E := E) (r := r) (s := s) hrecoded dest
      rw [← hdest] at hsent
      exact hsent
    rw [Ensures] at hsend
    rcases hrun : (Transport.sync.sendReply E r { reply with code } addr).run s with
      ⟨⟨⟩, s'⟩ | ⟨e, s'⟩
    · rw [hrun] at hsend
      have hattempt := Method.run_attempt_of_ok hrun
      have hreplies : (HandlerProgram.sendReply { reply with code } addr next).replies E r .sync s =
          { reply with code } :: (next (.ok ())).replies E r .sync s' := by
        rw [HandlerProgram.replies, hattempt]
      rw [HandlerProgram.run, hreplies]
      refine ensures_bind.2 (.of_ok hattempt ((ih hcreated s').imp (fun _ _ hall ↦ ?_)
        fun e _ he ↦ ?_))
      · exact List.forall_mem_cons.2 ⟨hsend, hall⟩
      · obtain ⟨other, hmem, hnot⟩ := he.2
        exact ⟨he.1, other, List.mem_cons_of_mem _ hmem, hnot⟩
    · rw [hrun] at hsend
      have hattempt := Method.run_attempt_of_error hrun hsend.1.ne_divergence
      have hmem : ({ reply with code } : Packet) ∈
          (HandlerProgram.sendReply { reply with code } addr next).replies E r .sync s := by
        rw [HandlerProgram.replies]
        exact List.mem_cons_self
      rw [HandlerProgram.run]
      refine ensures_bind.2 (.of_ok hattempt ?_)
      rw [raises]
      exact ⟨hsend.1, _, hmem, hsend.2⟩

end

/-! ### Dispatching -/

namespace Dispatch

variable {E : Env} {r : RequestRouter}

/-- The handler with the packet it is called with. -/
def program (r : RequestRouter) (d : Dispatch) : HandlerProgram :=
  d.handler (if (d.key r).isSome then { d.pkt with dedupKey := d.key r } else d.pkt)

/-- The handler is called, and has the reply sent. -/
def HasSent (E : Env) (r : RequestRouter) (d : Dispatch) (s : ServerState) (reply : Packet) : Prop :=
  d.Calls r s ∧ reply ∈ (d.program r).replies E r .sync (d.entry r s)

end Dispatch

/-! ### The main loop -/

namespace Server

variable {E : Env} {srv : Server} {D : Dictionary} {kind : ServerType} {data : Bytes}
  {addr : Address} {s : ServerState}

/-- What `_process_input` takes a socket of the kind for. -/
def role (srv : Server) (kind : ServerType) : Option ServerType :=
  if srv.authEnabled ∧ kind = .auth then some .auth
  else if srv.acctEnabled ∧ kind = .acct then some .acct
  else if srv.coaEnabled then some .coa
  else none

/-- What follows the verdict has the reply sent. -/
def Enacts (E : Env) (srv : Server) : Verdict → ServerState → Packet → Prop
  | .status pkt code, s, reply =>
    ∃ s', (srv.createReplyPacket E pkt (some code) []).run s = .ok reply s'
  | .dispatch name pkt, s, reply =>
    ({ pkt, handler := srv.handler name } : Dispatch).HasSent E srv.router s reply

/-- On the datagram the server has the reply sent. -/
def Replies (E : Env) (srv : Server) (kind : ServerType) (data : Bytes) (addr : Address)
    (s : ServerState) (reply : Packet) : Prop :=
  ∃ role v s', srv.role kind = some role ∧
    (srv.grabPacket E data addr >>= srv.judge E role).run s = .ok v s' ∧ srv.Enacts E v s' reply

/-- A handler that accepts every request. -/
def acceptAll : Handler := fun pkt ↦
  .createReply pkt none [] fun
    | .error e => .raise e
    | .ok reply => .sendReply { reply with code := PacketType.accessAccept } ("", 0) fun
      | .error e => .raise e
      | .ok () => .done

/-- A server of one host that accepts every Access-Request. -/
def acceptingServer : Server where
  router :=
    { hosts := OrderedDict.set ∅ "127.0.0.1" ⟨[115]⟩
      dictionary := some Dictionary.messageAuthenticatorOnly }
  handleAuthPacket := acceptAll

/-- Every hash is zeros. -/
def zeroEnv : Env := Env.ofByte (fun _ ↦ 0) fun _ _ ↦ 0

end Server

end Pyrad2
