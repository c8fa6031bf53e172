import Pyrad2.Packet.Bound
import Pyrad2.Survival

/-!
# Everything sent answers something received

By what does a client know that a datagram answers its request, and does the server see to it that it
does?

A reply object is bound to the request it is created for, and what is put on the wire of it is bound
to the datagram. A reply from the response cache, though, answers another datagram than the one it
was made for. It was recorded under the key of that one, and the key has all that binds a reply: who
asked, the identifier and the authenticator. So of everything the cache holds, the key says what it
answers, and two datagrams with the same key are answered by the same bytes.
-/

namespace Pyrad2

open EStateM Packet ServerState

namespace Packet

/-- The packet is a reply to the request, and goes to where that came from under the key of that, or
nowhere, or under none. -/
structure ReplyOf (request reply : Packet) : Prop where
  repliesTo : RepliesTo request reply
  source : reply.source = none ∨ reply.source = request.source
  dedupKey : reply.dedupKey = none ∨ reply.dedupKey = request.dedupKey

theorem ReplyOf.of_fills {request : Packet} {s s' : PacketState} (h : ReplyOf request s.pkt)
    (hs : Fills s s') : ReplyOf request s'.pkt where
  repliesTo := h.repliesTo.of_fills hs
  source := by
    rw [hs.source_eq]
    exact h.source
  dedupKey := by
    rw [hs.dedupKey_eq]
    exact h.dedupKey

/-- Which code a reply has makes no difference. -/
theorem ReplyOf.recode {request reply : Packet} (h : ReplyOf request reply) (code : ℕ) :
    ReplyOf request { reply with code } :=
  ⟨⟨h.repliesTo.id_eq, h.repliesTo.authenticator_eq, h.repliesTo.token_eq, h.repliesTo.secret_eq,
    h.repliesTo.version_eq⟩, h.source, h.dedupKey⟩

end Packet

/-! ### What a server adds -/

/-- What was sent since satisfies `sends`, and what was cached since satisfies `caches`. -/
structure Adds (sends : Sent → Prop) (caches : DedupKey → Bytes → Prop) (s s' : ServerState) :
    Prop where
  sent : ∃ new, s'.sent = s.sent ++ new ∧ ∀ m ∈ new, sends m
  cached : ∀ key raw expiresAt, s'.dedup.cache.cached.get? key = some (raw, expiresAt) →
    s.dedup.cache.cached.get? key = some (raw, expiresAt) ∨ caches key raw

instance instIsPreorderAdds (sends : Sent → Prop) (caches : DedupKey → Bytes → Prop) :
    IsPreorder ServerState (Adds sends caches) where
  refl := fun s ↦ ⟨⟨[], (List.append_nil _).symm, by simp⟩, fun _ _ _ h ↦ .inl h⟩
  trans := by
    rintro s s' s'' ⟨⟨new, hnew, hsends⟩, hcached⟩ ⟨⟨new', hnew', hsends'⟩, hcached'⟩
    refine ⟨⟨new ++ new', by rw [hnew', hnew, List.append_assoc], fun m hm ↦ ?_⟩,
      fun key raw expiresAt h ↦ ?_⟩
    · rcases List.mem_append.1 hm with hm | hm
      · exact hsends m hm
      · exact hsends' m hm
    · rcases hcached' key raw expiresAt h with h | h
      · exact hcached key raw expiresAt h
      · exact .inr h

section

variable {sends : Sent → Prop} {caches : DedupKey → Bytes → Prop} {s s' : ServerState} {E : Env}
  {r : RequestRouter} {α β : Type}

/-- Nothing is sent, and at most something is dropped from the cache. -/
theorem Adds.of_sent_eq (hsent : s'.sent = s.sent)
    (hcached : ∀ key v, s'.dedup.cache.cached.get? key = some v →
      s.dedup.cache.cached.get? key = some v) : Adds sends caches s s' :=
  ⟨⟨[], by rw [hsent, List.append_nil], by simp⟩, fun key raw expiresAt h ↦ .inl (hcached key _ h)⟩

theorem adds_onWorld (m : Method World α) : Respects (Adds sends caches) (onWorld m) :=
  respects_onPart m fun _ _ ↦ .of_sent_eq rfl fun _ _ h ↦ h

/-- What follows a method of the process may go by what that returns. -/
theorem adds_onWorld_bind {m : Method World α} {f : α → ServerMethod β}
    (h : ∀ w a w', m.run w = .ok a w' → Respects (Adds sends caches) (f a)) :
    Respects (Adds sends caches) (onWorld m >>= f) := by
  refine respects_bind_of_ensures (P := fun a ↦ ∃ w w', m.run w = .ok a w') (fun s ↦ ?_) fun a ha ↦ ?_
  · have hadds (world : World) : Adds sends caches s { s with world } :=
      .of_sent_eq rfl fun _ _ h ↦ h
    rw [onWorld, ensures_onPart, Ensures]
    rcases hrun : m.run s.world with ⟨a, w⟩ | ⟨e, w⟩
    · exact ⟨⟨s.world, w, hrun⟩, hadds w⟩
    · exact hadds w
  · obtain ⟨w, w', hrun⟩ := ha
    exact h w a w' hrun

theorem adds_sendTo {raw : Bytes} {dest : Option Address} {key : Option DedupKey}
    (h : ∀ a, dest = some a → sends ⟨raw, a, key⟩) :
    Respects (Adds sends caches) (sendTo raw dest key) := by
  rcases dest with - | a
  · exact respects_throw _
  · refine respects_modify fun s ↦ ⟨⟨[⟨raw, a, key⟩], rfl, fun m hm ↦ ?_⟩, fun _ _ _ h ↦ .inl h⟩
    rw [List.mem_singleton.1 hm]
    exact h a rfl

/-- Recording a reply may push others out. -/
theorem adds_recordReply {reply : Packet} {raw : Bytes}
    (h : ∀ key, reply.dedupKey = some key → caches key raw) :
    Respects (Adds sends caches) (r.recordReply reply raw) := by
  rw [RequestRouter.recordReply]
  split
  · next key hkey =>
    refine respects_modify fun s ↦ ?_
    split
    · refine ⟨⟨[], (List.append_nil _).symm, by simp⟩, fun key' raw' expiresAt hget ↦ ?_⟩
      have hinserted := OrderedDict.get?_of_sublist
        (DedupState.evictLocked_sublist (s.dedup.cache.insertReply s.dedup.clock.now key raw)
          s.dedup.clock.tick.now) hget
      rw [DedupState.get?_insertReply] at hinserted
      split at hinserted
      · next heq =>
        cases hinserted
        rw [heq]
        exact .inr (h key hkey)
      · exact .inl hinserted
    · exact refl_of (Adds sends caches) s
  · exact respects_pure _

/-- A lookup may drop a reply. -/
theorem get?_of_get?_lookup {d : DedupState} {key key' : DedupKey} {v : Bytes × Time}
    (h : (d.lookup key).2.cache.cached.get? key' = some v) :
    d.cache.cached.get? key' = some v := by
  rcases d.lookup_cases key with ⟨raw, expiresAt, -, -, hlookup⟩ | ⟨raw, expiresAt, -, -, hlookup⟩ |
    ⟨-, hlookup⟩
  · rw [hlookup] at h
    exact (OrderedDict.get?_moveToEnd _ _ _).symm.trans h
  · rw [hlookup] at h
    have herased : (d.cache.cached.erase key).get? key' = some v := h
    rw [OrderedDict.get?_erase] at herased
    split at herased
    · cases herased
    · exact herased
  · rw [hlookup] at h
    exact h

theorem exists_get?_of_lookup_eq_reply {d : DedupState} {key : DedupKey} {raw : Bytes}
    (h : (d.lookup key).1 = .reply raw) :
    ∃ expiresAt, d.cache.cached.get? key = some (raw, expiresAt) := by
  rcases d.lookup_cases key with ⟨raw', expiresAt, hget, -, hlookup⟩ | ⟨-, -, -, -, hlookup⟩ |
    ⟨-, hlookup⟩
  · rw [hlookup] at h
    cases h
    exact ⟨expiresAt, hget⟩
  · rw [hlookup] at h
    exact absurd h (DedupState.inFlightEntry_ne_reply _ _ _)
  · rw [hlookup] at h
    exact absurd h (DedupState.inFlightEntry_ne_reply _ _ _)

/-- Whatever a call that is looked at returns or raises, what follows it may go by that. -/
theorem adds_attempt_bind {P : α → Prop} {m : ServerMethod α} {f : Except Exn α → ServerMethod β}
    (hm : ∀ s, Ensures m s (fun a s' ↦ P a ∧ Adds sends caches s s') fun _ s' ↦
      Adds sends caches s s')
    (hok : ∀ a, P a → Respects (Adds sends caches) (f (.ok a)))
    (herror : ∀ e, Respects (Adds sends caches) (f (.error e))) :
    Respects (Adds sends caches) (Method.attempt m >>= f) := by
  refine respects_bind_of_ensures (P := fun outcome ↦ ∀ a, outcome = .ok a → P a) (fun s ↦ ?_)
    fun outcome houtcome ↦ ?_
  · have hs := hm s
    rw [Ensures] at hs ⊢
    rcases hrun : m.run s with ⟨a, s'⟩ | ⟨e, s'⟩
    · rw [hrun] at hs
      rw [Method.run_attempt_of_ok hrun]
      exact ⟨fun b hb ↦ Except.ok.inj hb ▸ hs.1, hs.2⟩
    · rw [hrun] at hs
      rcases eq_or_ne e .divergence with rfl | he
      · rw [Method.run_attempt_of_divergence hrun]
        exact hs
      · rw [Method.run_attempt_of_error hrun he]
        exact ⟨fun b hb ↦ (by cases hb), hs⟩
  · rcases outcome with e | a
    · exact herror e
    · exact hok a (houtcome a rfl)

end

/-! ### Replies -/

section

variable {sends : Sent → Prop} {caches : DedupKey → Bytes → Prop} {E : Env} {r : RequestRouter}
  {secret data : Bytes} {request : Packet}

theorem Packet.run_run_eq_ok {α : Type} {p : Packet} {m : PacketMethod α} {w w' : World}
    {b : α × Packet} (h : (p.run m).run w = .ok b w') : m.run ⟨p, w⟩ = .ok b.1 ⟨b.2, w'⟩ := by
  rw [run_run] at h
  rcases hrun : m.run ⟨p, w⟩ with ⟨a, s⟩ | ⟨e, s⟩
  · rw [hrun] at h
    cases h
    rfl
  · rw [hrun] at h
    cases h

namespace RequestRouter

theorem fills_prepareReply (E : Env) (r : RequestRouter) (request : Packet) :
    Respects Fills (r.prepareReply E request) :=
  fills_prepareReplyMessageAuthenticator E request _ _

theorem fills_forceReplyMa (E : Env) (r : RequestRouter) : Respects Fills (r.forceReplyMa E) := by
  refine respects_get.bind fun s ↦ ?_
  dsimp only
  split
  · exact fills_ensureMessageAuthenticator E
  · exact respects_pure _

/-- **Creating a reply** adds nothing. -/
theorem ensures_createReplyPacket_replyOf {source : Option Address}
    (hsource : source = none ∨ source = request.source) (code : Option ℕ) (attributes : KwAttributes)
    (s : ServerState) : Ensures (r.createReplyPacket E source request code attributes) s
      (fun reply s' ↦ ReplyOf request reply ∧ Adds sends caches s s') fun _ s' ↦
        Adds sends caches s s' := by
  have hworld (s : ServerState) (world : World) : Adds sends caches s { s with world } :=
    .of_sent_eq rfl fun _ _ h ↦ h
  rw [createReplyPacket]
  refine ensures_bind.2 (ensures_onPart.2
    ((ensures_createReply_new E request code attributes s.world).imp (fun reply w hreply ↦ ?_)
      fun _ _ _ ↦ hworld s _))
  obtain ⟨hreplies, hkey⟩ := hreply
  have hnew : ReplyOf request { reply with source } :=
    ⟨⟨hreplies.id_eq, hreplies.authenticator_eq, hreplies.token_eq, hreplies.secret_eq,
      hreplies.version_eq⟩, hsource, .inl hkey⟩
  refine ensures_bind.2 (ensures_onPart.2 (ensures_run.2 ?_))
  have hfills := fills_prepareReply E r request ⟨{ reply with source }, w⟩
  refine (ensures_iff_after.2 hfills).imp (fun _ t ht ↦ ?_) fun _ _ _ ↦ hworld s _
  have hprepared : ReplyOf request t.pkt := hnew.of_fills ht
  refine ensures_pure.2 ⟨?_, hworld s _⟩
  rw [attachDedupKey]
  split
  · next key hkey =>
    exact ⟨⟨hprepared.repliesTo.id_eq, hprepared.repliesTo.authenticator_eq,
      hprepared.repliesTo.token_eq, hprepared.repliesTo.secret_eq, hprepared.repliesTo.version_eq⟩,
      hprepared.source, .inr hkey.symm⟩
  · exact hprepared

/-- **Sending a reply** adds bytes that are bound to the request. -/
theorem adds_sendReplyPacket {reply : Packet} {dest : Option Address}
    (hrequest : Represents .v1_0 secret data request) (hreply : ReplyOf request reply)
    (hsends : ∀ raw a key, dest = some a → Bound E .v1_0 secret data raw → sends ⟨raw, a, key⟩)
    (hcaches : ∀ raw key, request.dedupKey = some key → Bound E .v1_0 secret data raw →
      caches key raw) : Respects (Adds sends caches) (r.sendReplyPacket E dest reply) := by
  rw [sendReplyPacket]
  refine adds_onWorld_bind fun w forced w' hforced ↦ ?_
  have hfills := fills_forceReplyMa E r ⟨reply, w⟩
  rw [after_of_ok (run_run_eq_ok hforced)] at hfills
  have hforced : ReplyOf request forced.2 := hreply.of_fills hfills
  refine adds_onWorld_bind fun w sent w' hsent ↦ ?_
  have hrun := run_run_eq_ok hsent
  have hbound : Bound E .v1_0 secret data sent.1 :=
    ((hrequest.of_repliesTo hforced.repliesTo).ensures_replyPacket w).of_run_eq_ok hrun
  have hfills := fills_replyPacket E ⟨forced.2, w⟩
  rw [after_of_ok hrun] at hfills
  have hsent : ReplyOf request sent.2 := hforced.of_fills hfills
  refine Respects.bind (adds_sendTo fun a ha ↦ hsends _ a _ ha hbound) fun _ ↦
    adds_recordReply fun key hkey ↦ hcaches _ key ?_ hbound
  rcases hsent.dedupKey with hnone | hsame
  · rw [hnone] at hkey
    cases hkey
  · rw [← hsame, hkey]

end RequestRouter

end

/-! ### Handlers -/

/-- A handler of one request: whatever its calls come to, the replies it sends were created for the
request, and it has changed nothing of them that binds them to it. To the asynchronous server it hands
the address it was handed itself. -/
inductive HandlerProgram.Responds (t : Transport) (request : Packet) (addr : Address) :
    HandlerProgram → Prop
  | done : Responds t request addr .done
  | raise (e : Exn) : Responds t request addr (.raise e)
  | createReply {code : Option ℕ} {attributes : KwAttributes}
      {next : Except Exn Packet → HandlerProgram}
      (created : ∀ reply, ReplyOf request reply → Responds t request addr (next (.ok reply)))
      (failed : ∀ e, Responds t request addr (next (.error e))) :
      Responds t request addr (.createReply request code attributes next)
  | edit {reply : Packet} {m : PacketMethod Unit} {next : Except Exn Packet → HandlerProgram}
      (replyOf : ReplyOf request reply) (fills : Respects Fills m)
      (edited : ∀ reply, ReplyOf request reply → Responds t request addr (next (.ok reply)))
      (failed : ∀ e, Responds t request addr (next (.error e))) :
      Responds t request addr (.edit reply m next)
  | sendReply {reply : Packet} {dest : Address} {next : Except Exn Unit → HandlerProgram}
      (replyOf : ReplyOf request reply) (back : t = .async → dest = addr)
      (after : ∀ outcome, Responds t request addr (next outcome)) :
      Responds t request addr (.sendReply reply dest next)

section

variable {sends : Sent → Prop} {caches : DedupKey → Bytes → Prop} {E : Env} {r : RequestRouter}
  {t : Transport} {secret data : Bytes} {request : Packet} {addr : Address}

theorem Transport.ensures_createReplyPacket_replyOf (code : Option ℕ) (attributes : KwAttributes)
    (s : ServerState) : Ensures (t.createReplyPacket E r request code attributes) s
      (fun reply s' ↦ ReplyOf request reply ∧ Adds sends caches s s') fun _ s' ↦
        Adds sends caches s s' := by
  cases t with
  | sync => exact RequestRouter.ensures_createReplyPacket_replyOf (.inr rfl) code attributes s
  | async => exact RequestRouter.ensures_createReplyPacket_replyOf (.inl rfl) code attributes s

/-- The reply goes to where the request came from. -/
theorem Transport.adds_sendReply {reply : Packet} {dest : Address}
    (hrequest : Represents .v1_0 secret data request) (hreply : ReplyOf request reply)
    (hsource : t = .sync → request.source = some addr) (hdest : t = .async → dest = addr)
    (hsends : ∀ raw key, Bound E .v1_0 secret data raw → sends ⟨raw, addr, key⟩)
    (hcaches : ∀ raw key, request.dedupKey = some key → Bound E .v1_0 secret data raw →
      caches key raw) : Respects (Adds sends caches) (t.sendReply E r reply dest) := by
  cases t with
  | sync =>
    refine RequestRouter.adds_sendReplyPacket hrequest hreply (fun raw a key ha hbound ↦ ?_) hcaches
    have hsome : request.source = some a := by
      rcases hreply.source with hnone | hsame
      · rw [hnone] at ha
        cases ha
      · rw [← hsame, ha]
    obtain rfl : addr = a := Option.some.inj ((hsource rfl).symm.trans hsome)
    exact hsends raw key hbound
  | async =>
    refine RequestRouter.adds_sendReplyPacket hrequest hreply (fun raw a key ha hbound ↦ ?_) hcaches
    obtain rfl : dest = a := Option.some.inj ha
    rw [hdest rfl]
    exact hsends raw key hbound

/-- **Handlers.** All they add is bound to the request. -/
theorem HandlerProgram.Responds.adds_run {program : HandlerProgram}
    (h : program.Responds t request addr) (hrequest : Represents .v1_0 secret data request)
    (hsource : t = .sync → request.source = some addr)
    (hsends : ∀ raw key, Bound E .v1_0 secret data raw → sends ⟨raw, addr, key⟩)
    (hcaches : ∀ raw key, request.dedupKey = some key → Bound E .v1_0 secret data raw →
      caches key raw) : Respects (Adds sends caches) (program.run E r t) := by
  induction h with
  | done => exact respects_pure _
  | raise e => exact respects_throw _
  | createReply created failed ih ih' =>
    exact adds_attempt_bind (Transport.ensures_createReplyPacket_replyOf _ _) ih ih'
  | @edit reply m next replyOf fills edited failed ih ih' =>
    refine adds_attempt_bind (P := fun b ↦ ReplyOf request b.2) (fun s ↦ ?_) (fun b ↦ ih b.2) ih'
    have hadds (world : World) : Adds sends caches s { s with world } :=
      .of_sent_eq rfl fun _ _ h ↦ h
    exact ensures_onPart.2 (ensures_run.2 ((ensures_iff_after.2 (fills ⟨reply, s.world⟩)).imp
      (fun _ _ h ↦ ⟨replyOf.of_fills h, hadds _⟩) fun _ _ _ ↦ hadds _))
  | sendReply replyOf back _ ih =>
    have hsend := Transport.adds_sendReply (r := r) hrequest replyOf hsource back hsends hcaches
    refine adds_attempt_bind (P := fun _ ↦ True) (fun s ↦ ?_) (fun _ _ ↦ ih _) fun e ↦ ih _
    exact (ensures_iff_after.2 (hsend s)).imp (fun _ _ h ↦ ⟨trivial, h⟩) fun _ _ h ↦ h

end

/-! ### Keys -/

/-- The bytes answer whatever request is remembered under the key. -/
def RequestRouter.Binds (E : Env) (r : RequestRouter) (key : DedupKey) (raw : Bytes) : Prop :=
  ∃ secret, r.lookupSecret key.srcIp = .ok secret ∧ wireId raw = key.identifier ∧
    wireAuthenticator raw = E.md5 (raw.take 4 ++ key.requestAuthenticator ++ raw.drop 20 ++ secret)

/-- All replies that are cached answer what is remembered under their key. -/
def ServerState.Answering (E : Env) (r : RequestRouter) (s : ServerState) : Prop :=
  ∀ key raw expiresAt, s.dedup.cache.cached.get? key = some (raw, expiresAt) → r.Binds E key raw

/-- What is sent goes to the address and is bound to the datagram that came from there, and what is
cached answers what is remembered under its key. -/
abbrev AddsAnswers (E : Env) (r : RequestRouter) (secret data : Bytes) (addr : Address) :
    ServerState → ServerState → Prop :=
  Adds (fun m ↦ m.dest = addr ∧ Bound E .v1_0 secret data m.raw) (r.Binds E)

namespace Dispatch

variable {E : Env} {r : RequestRouter} {t : Transport} {d : Dispatch} {secret data : Bytes}
  {addr : Address} {key : DedupKey}

/-- The key of a request from the wire. -/
theorem key_eq_of_represents (hrequest : Represents .v1_0 secret data d.pkt)
    (htoken : d.pkt.token = none) (hdest : d.dest = some addr) (hkey : d.key r = some key) :
    key.srcIp = addr.1 ∧ key.identifier = wireId data ∧
      key.requestAuthenticator = wireAuthenticator data := by
  have hfrom : d.addr.or d.pkt.source = some addr := hdest
  rw [Dispatch.key, RequestRouter.dedupKeyFor, if_pos (hasDedupCache_of_key hkey), keyFor, hfrom,
    hrequest.id_eq rfl, correlator, htoken, hrequest.authenticator_eq rfl] at hkey
  obtain ⟨u, -, hkey⟩ := Option.bind_eq_some_iff.1 hkey
  obtain ⟨source, hsource, hkey⟩ := Option.bind_eq_some_iff.1 hkey
  obtain ⟨authenticator, hauth, hkey⟩ := Option.bind_eq_some_iff.1 hkey
  have htruthy : (some (wireAuthenticator data)).filter (· ≠ []) = some authenticator := hauth
  cases hsource
  cases hkey
  exact ⟨rfl, rfl, (Option.some.inj (Option.filter_eq_some_iff.1 htruthy).1).symm⟩

/-- **The key of a request has all that binds a reply to it.** -/
theorem binds_iff_bound (hrequest : Represents .v1_0 secret data d.pkt) (htoken : d.pkt.token = none)
    (hdest : d.dest = some addr) (hsecret : r.lookupSecret addr.1 = .ok secret)
    (hkey : d.key r = some key) (raw : Bytes) :
    r.Binds E key raw ↔ Bound E .v1_0 secret data raw := by
  obtain ⟨hip, hidentifier, hauthenticator⟩ := key_eq_of_represents hrequest htoken hdest hkey
  rw [RequestRouter.Binds, hip, hidentifier, hauthenticator]
  constructor
  · rintro ⟨secret', hsecret', hid, hdigest⟩
    cases hsecret.symm.trans hsecret'
    exact ⟨hid, hdigest⟩
  · rintro ⟨hid, hdigest⟩
    exact ⟨secret, hsecret, hid, hdigest⟩

/-- **A dispatch**, whether it calls the handler or the cached reply is sent again. -/
theorem addsAnswers_method (hrequest : Represents .v1_0 secret data d.pkt)
    (htoken : d.pkt.token = none) (hkeyless : d.pkt.dedupKey = none) (hdest : d.dest = some addr)
    (hsource : t = .sync → d.pkt.source = some addr) (hsecret : r.lookupSecret addr.1 = .ok secret)
    (hhandler : ∀ pkt, (d.handler pkt).Responds t pkt addr) {s : ServerState}
    (hs : s.Answering E r) : AddsAnswers E r secret data addr s (after (d.method E r t) s) := by
  have hbinds {k : DedupKey} (hkey : d.key r = some k) (raw : Bytes) :=
    binds_iff_bound (E := E) hrequest htoken hdest hsecret hkey raw
  rcases after_dispatch_cases E r t d s with
    ⟨k, raw, a, hkey, hlookup, ha, hafter⟩ | ⟨k, hkey, hlookup, hafter⟩ | ⟨-, hafter⟩
  · -- what is sent again was cached under the key of this request
    obtain rfl : addr = a := Option.some.inj (hdest.symm.trans ha)
    obtain ⟨expiresAt, hget⟩ := exists_get?_of_lookup_eq_reply hlookup
    rw [hafter]
    refine ⟨⟨[⟨raw, addr, some k⟩], rfl, fun m hm ↦ ?_⟩, fun key raw' expiresAt' h ↦
      .inl (get?_of_get?_lookup h)⟩
    rw [List.mem_singleton.1 hm]
    exact ⟨rfl, (hbinds hkey raw).1 (hs k raw expiresAt hget)⟩
  · rw [hafter]
    exact .of_sent_eq rfl fun _ _ h ↦ get?_of_get?_lookup h
  · have hentry : AddsAnswers E r secret data addr s (d.entry r s) := by
      rw [entry]
      split
      · exact .of_sent_eq rfl fun _ _ h ↦ get?_of_get?_lookup h
      · exact .of_sent_eq rfl fun _ _ h ↦ h
    have hdrop (s : ServerState) : AddsAnswers E r secret data addr s
        (r.dropInFlight (d.key r) s) := by
      unfold RequestRouter.dropInFlight
      split <;> exact .of_sent_eq rfl fun _ _ h ↦ h
    have hcall : Respects (AddsAnswers E r secret data addr) (d.call E r t) := by
      have hrekeyed (key : Option DedupKey) :
          Represents .v1_0 secret data { d.pkt with dedupKey := key } :=
        ⟨hrequest.version_eq, hrequest.secret_eq, hrequest.id_eq, hrequest.authenticator_eq,
          hrequest.token_eq⟩
      rw [call]
      split
      · exact (hhandler _).adds_run (hrekeyed _) hsource (fun raw key hbound ↦ ⟨rfl, hbound⟩)
          fun raw key hkey hbound ↦ (hbinds hkey raw).2 hbound
      · refine (hhandler _).adds_run hrequest hsource (fun raw key hbound ↦ ⟨rfl, hbound⟩)
          fun raw key hkey hbound ↦ ?_
        rw [hkeyless] at hkey
        cases hkey
    rw [hafter]
    exact trans_of _ (trans_of _ hentry (hcall _)) (hdrop _)

end Dispatch

/-! ### Listeners -/

theorem RequestRouter.Passes.represents {E : Env} {r : RequestRouter} {raw secret : Bytes}
    {s s' : ServerState} {q : Packet} (h : r.Passes E raw secret s q s') :
    Represents .v1_0 secret raw q ∧ q.token = none ∧ q.dedupKey = none := by
  obtain ⟨st, -, hrun⟩ := h
  obtain ⟨attrs, authenticator, rfl, hauth⟩ := frame_of_check hrun
  exact ⟨⟨rfl, rfl, fun _ ↦ rfl, fun _ ↦ hauth _ rfl, fun h ↦ absurd h (by decide)⟩, rfl, rfl⟩

namespace Listener

variable {E : Env} {L : Listener} {r : RequestRouter} {data : Bytes} {addr : Address}
  {s s' : ServerState} {v : Verdict}

/-- The listener belongs to a server with this router. The hosts it serves can be a part of the
router's, with the secrets they have there. -/
structure Of (r : RequestRouter) (L : Listener) : Prop where
  router : L.router = r
  lookup : ∀ addr secret, L.secretOf addr = some secret → r.lookupSecret addr.1 = .ok secret

/-- Its handlers reply to the requests they are called with, and to nothing else. -/
def Responds (L : Listener) : Prop :=
  ∀ addr name pkt, ((L.dispatchOf addr name pkt).handler pkt).Responds L.transport pkt addr

/-- The bytes answer the datagram: that is a request which passes the checks under the secret of its
source, and they are bound to it. -/
def Answers (E : Env) (L : Listener) (data : Bytes) (addr : Address) (raw : Bytes) : Prop :=
  ∃ secret, L.secretOf addr = some secret ∧
    (∃ s q s', L.router.Passes E (L.read data) secret s q s') ∧
    Bound E .v1_0 secret (L.read data) raw

theorem secretOf_eq_some_iff (hhosts : L.hosts = r.hosts) {secret : Bytes} :
    L.secretOf addr = some secret ↔ r.lookupSecret addr.1 = .ok secret := by
  rw [secretOf, RequestRouter.lookupSecret, hhosts]
  rcases (r.hosts.get? addr.1).or (r.hosts.get? "0.0.0.0") with - | host
  · exact iff_of_false (by simp) (by simp)
  · simp

/-- **A verdict is on a packet that passes the checks.** -/
theorem exists_passes_of_run (h : (L.judge E data addr).run s = .ok v s') : ∃ secret q source,
    L.secretOf addr = some secret ∧ L.router.Passes E (L.read data) secret s q s' ∧
      (L.transport = .sync → source = some addr) ∧
      v = L.kind.verdict (wireCode (L.read data)) { q with source } := by
  cases L with
  | sync srv kind enabled =>
    obtain ⟨secret, q, hsecret, -, hpasses, hv⟩ := Server.run_judge_eq_ok_iff.1 h
    exact ⟨secret, q, some addr, (secretOf_eq_some_iff rfl).2 hsecret, hpasses,
      fun _ ↦ rfl, hv⟩
  | async proto =>
    rw [judge] at h
    rcases hremote : proto.remoteHost addr.1 with - | host
    · rw [hremote] at h
      cases h
    · rw [hremote] at h
      obtain ⟨q, -, hpasses, hv⟩ := DatagramProtocolServer.run_judge_eq_ok_iff.1 h
      have hsource : q = { q with source := none } := by
        obtain ⟨st, -, hrun⟩ := hpasses
        obtain ⟨attrs, authenticator, rfl, -⟩ := RequestRouter.frame_of_check hrun
        rfl
      refine ⟨host.secret, q, none, ?_, hpasses, fun h ↦ (by cases h), ?_⟩
      · show (proto.remoteHost addr.1).map _ = _
        rw [hremote]
        rfl
      · rw [← hsource]
        exact hv

/-- The checks change the process at most. -/
theorem adds_judge (E : Env) (L : Listener) (data : Bytes) (addr : Address) (sends : Sent → Prop)
    (caches : DedupKey → Bytes → Prop) : Respects (Adds sends caches) (L.judge E data addr) := by
  have hpolicy (r : RequestRouter) (p : Packet) :
      Respects (Adds sends caches) (r.validatePolicy E p) :=
    Respects.bind (adds_onWorld _) fun _ ↦ respects_pure _
  have hcheck (r : RequestRouter) (p : Packet) : Respects (Adds sends caches) (r.check E p) :=
    (respects_liftM _).bind fun _ ↦ hpolicy r p
  cases L with
  | sync srv kind enabled =>
    have hgrab : Respects (Adds sends caches) (srv.grabPacket E data addr) :=
      (respects_liftM _).bind fun _ ↦ (adds_onWorld _).bind fun _ ↦ respects_pure _
    refine hgrab.bind fun p ↦ ?_
    cases kind with
    | auth =>
      refine (respects_liftM _).bind fun p ↦ ?_
      split
      · exact (hpolicy _ p).bind fun _ ↦ respects_pure _
      split
      · exact respects_throw_bind _ _
      · exact (hcheck _ p).bind fun _ ↦ respects_pure _
    | acct =>
      refine (respects_liftM _).bind fun p ↦ ?_
      split
      · exact (hpolicy _ p).bind fun _ ↦ respects_pure _
      split
      · exact respects_throw_bind _ _
      · exact (hcheck _ p).bind fun _ ↦ respects_pure _
    | coa =>
      refine (respects_liftM _).bind fun p ↦ ?_
      split
      · exact (hcheck _ p).bind fun _ ↦ respects_pure _
      split
      · exact (hcheck _ p).bind fun _ ↦ respects_pure _
      · exact respects_throw _
  | async proto =>
    rw [judge]
    split
    · exact respects_throw _
    rcases data with - | ⟨code, rest⟩
    · exact respects_throw _
    refine (respects_liftM _).bind fun _ ↦ (respects_liftM _).bind fun _ ↦ ?_
    split
    · exact (adds_onWorld _).bind fun p ↦ (hpolicy _ p).bind fun _ ↦ respects_pure _
    · exact (adds_onWorld _).bind fun p ↦ (hcheck _ p).bind fun _ ↦
        (respects_liftM _).bind fun _ ↦ respects_pure _

/-- Answering a Status-Server. -/
theorem addsAnswers_enact_status {secret : Bytes} {q : Packet} (hof : L.Of r)
    (hrequest : Represents .v1_0 secret (L.read data) q) (hkeyless : q.dedupKey = none)
    (hsource : L.transport = .sync → q.source = some addr) (code : ℕ) :
    Respects (AddsAnswers E r secret (L.read data) addr) (L.enact E addr (.status q code)) := by
  have henact : L.enact E addr (.status q code) =
      L.transport.createReplyPacket E r q (some code) [] >>= fun reply ↦
        L.transport.sendReply E r reply addr := by
    rw [← hof.router]
    cases L <;> rfl
  rw [henact]
  refine respects_bind_of_ensures (Transport.ensures_createReplyPacket_replyOf (some code) [])
    fun reply hreply ↦ ?_
  refine Transport.adds_sendReply hrequest hreply hsource (fun _ ↦ rfl)
    (fun raw key hbound ↦ ⟨rfl, hbound⟩) fun raw key hkey _ ↦ ?_
  rw [hkeyless] at hkey
  cases hkey

/-- **One datagram.** -/
theorem adds_receive (hof : L.Of r) (hresponds : L.Responds) (data : Bytes) (addr : Address)
    (hs : s.Answering E r) :
    Adds (fun m ↦ m.dest = addr ∧ L.Answers E data addr m.raw) (r.Binds E) s
      (after (L.receive E data addr) s) := by
  rw [after_receive]
  rcases hrun : (L.judge E data addr).run s with ⟨v, s'⟩ | ⟨e, s'⟩
  · obtain ⟨secret, q, source, hsecret, hpasses, hsource, hv⟩ := exists_passes_of_run hrun
    obtain ⟨hrepresents, htoken, hkeyless⟩ := hpasses.represents
    have hrequest : Represents .v1_0 secret (L.read data) { q with source } :=
      ⟨hrepresents.version_eq, hrepresents.secret_eq, hrepresents.id_eq,
        hrepresents.authenticator_eq, hrepresents.token_eq⟩
    have hjudged : AddsAnswers E r secret (L.read data) addr s s' := by
      have hadds := adds_judge E L data addr
        (fun m ↦ m.dest = addr ∧ Bound E .v1_0 secret (L.read data) m.raw) (r.Binds E) s
      rwa [after_of_ok hrun] at hadds
    have hanswering : s'.Answering E r := by
      intro key raw expiresAt hget
      rw [hpasses.dedup_eq] at hget
      exact hs key raw expiresAt hget
    have henacted : AddsAnswers E r secret (L.read data) addr s' (after (L.enact E addr v) s') := by
      rcases v with ⟨pkt, code⟩ | ⟨name, pkt⟩
      · obtain rfl : pkt = { q with source } := by
          unfold ServerType.verdict at hv
          split at hv
          · cases hv
            rfl
          · cases hv
        exact addsAnswers_enact_status hof hrequest hkeyless hsource code s'
      · obtain rfl : pkt = { q with source } := by
          unfold ServerType.verdict at hv
          split at hv
          · cases hv
          · cases hv
            rfl
        have hpkt : (L.dispatchOf addr name { q with source }).pkt = { q with source } := by
          cases L <;> rfl
        rw [enact_dispatch, hof.router]
        refine Dispatch.addsAnswers_method (by rw [hpkt]; exact hrequest) (by rw [hpkt]; exact htoken)
          (by rw [hpkt]; exact hkeyless) (dest_of_run hrun) (by rw [hpkt]; exact hsource)
          (hof.lookup addr secret hsecret) (fun pkt ↦ ?_) hanswering
        have hhandler := hresponds addr name pkt
        cases L <;> exact hhandler
    rw [after_bind_of_ok hrun]
    obtain ⟨⟨new, hnew, hsends⟩, hcached⟩ := trans_of _ hjudged henacted
    exact ⟨⟨new, hnew, fun m hm ↦ ⟨(hsends m hm).1, secret, hsecret, ⟨s, q, s', hpasses⟩,
      (hsends m hm).2⟩⟩, hcached⟩
  · have hadds := adds_judge E L data addr (fun m ↦ m.dest = addr ∧ L.Answers E data addr m.raw)
      (r.Binds E) s
    rw [after_of_error hrun] at hadds
    rwa [after_of_error (run_bind_of_error hrun)]

end Listener

/-! ### Runs -/

/-- A datagram that arrives at a listener. -/
structure Arrival where
  listener : Listener
  data : Bytes
  source : Address

/-- What a server does with the datagrams that arrive at its listeners. An exception ends the handling
of one datagram. -/
def receiveAll (E : Env) (l : List Arrival) (s : ServerState) : ServerState :=
  l.foldl (fun s a ↦ after (a.listener.receive E a.data a.source) s) s

section

variable {E : Env} {r : RequestRouter} {l : List Arrival}

/-- What a run adds to what was sent answers a datagram of the run. -/
theorem mem_sent_or_answers (hl : ∀ a ∈ l, a.listener.Of r ∧ a.listener.Responds) {s : ServerState}
    (hs : s.Answering E r) : ∀ m ∈ (receiveAll E l s).sent, m ∈ s.sent ∨
      ∃ a ∈ l, m.dest = a.source ∧ a.listener.Answers E a.data a.source m.raw := by
  induction l generalizing s with
  | nil => exact fun m hm ↦ .inl hm
  | cons a l ih =>
    obtain ⟨hof, hresponds⟩ := hl a List.mem_cons_self
    obtain ⟨⟨new, hnew, hsends⟩, hcached⟩ := Listener.adds_receive hof hresponds a.data a.source hs
    have hanswering : (after (a.listener.receive E a.data a.source) s).Answering E r := by
      intro key raw expiresAt hget
      rcases hcached key raw expiresAt hget with hold | hbinds
      · exact hs key raw expiresAt hold
      · exact hbinds
    intro m hm
    rcases ih (fun b hb ↦ hl b (List.mem_cons_of_mem a hb)) hanswering m hm with hmem | hlater
    · rw [hnew] at hmem
      rcases List.mem_append.1 hmem with hmem | hmem
      · exact .inl hmem
      · exact .inr ⟨a, List.mem_cons_self, hsends m hmem⟩
    · obtain ⟨b, hb, hanswers⟩ := hlater
      exact .inr ⟨b, List.mem_cons_of_mem a hb, hanswers⟩

/-- **Everything sent answers something received.** Whatever datagrams arrive at the listeners of a
server, in whatever order, each datagram that is sent goes to where one of them came from. That one was
a request which passes the checks, and the reply is bound to it, also if it was made for another one
and comes from the response cache. -/
theorem answers_of_mem_sent_receiveAll (hl : ∀ a ∈ l, a.listener.Of r ∧ a.listener.Responds)
    (cache : ResponseCache) (clock : Clock) (world : World) :
    ∀ m ∈ (receiveAll E l (.init cache clock world)).sent,
      ∃ a ∈ l, m.dest = a.source ∧ a.listener.Answers E a.data a.source m.raw := by
  intro m hm
  have hempty : (ServerState.init cache clock world).Answering E r :=
    fun key raw expiresAt hget ↦ by cases hget
  rcases mem_sent_or_answers hl hempty m hm with hnone | hanswers
  · cases hnone
  · exact hanswers

end

/-- An Access-Request whose Message-Authenticator is zeros. -/
def Server.accessDatagram : Bytes :=
  [1, 7, 0, 38] ++ List.replicate 16 1 ++ [80, 18] ++ List.replicate 16 0

/-- It arrives at the server that accepts every Access-Request. -/
def Server.accessArrival : Arrival where
  listener := .sync Server.acceptingServer .auth rfl
  data := Server.accessDatagram
  source := ("127.0.0.1", 1812)

/-- The Access-Request arrives twice. It is answered twice, the second time from the cache. -/
theorem answers_of_mem_sent_receiveAll_twice :
    ((receiveAll Server.zeroEnv [Server.accessArrival, Server.accessArrival]
      (.init .default .still { rng := ⟨fun _ ↦ 0⟩ })).handled.length = 1 ∧
    (receiveAll Server.zeroEnv [Server.accessArrival, Server.accessArrival]
      (.init .default .still { rng := ⟨fun _ ↦ 0⟩ })).sent.length = 2) ∧
    ∀ m ∈ (receiveAll Server.zeroEnv [Server.accessArrival, Server.accessArrival]
        (.init .default .still { rng := ⟨fun _ ↦ 0⟩ })).sent,
      ∃ a ∈ [Server.accessArrival, Server.accessArrival], m.dest = a.source ∧
        a.listener.Answers Server.zeroEnv a.data a.source m.raw := by
  have hresponds : Server.accessArrival.listener.Responds := by
    intro addr name pkt
    cases name with
    | auth =>
      refine .createReply (fun reply hreply ↦ ?_) fun e ↦ .raise e
      refine .sendReply (hreply.recode _) (fun h ↦ (by cases h)) fun outcome ↦ ?_
      rcases outcome with e | ⟨⟨⟩⟩
      · exact .raise e
      · exact .done
    | acct => exact .done
    | coa => exact .done
    | disconnect => exact .done
  have hof : Server.accessArrival.listener.Of Server.acceptingServer.router :=
    ⟨rfl, fun _ _ ↦ (Listener.secretOf_eq_some_iff rfl).1⟩
  refine ⟨⟨by decide +kernel, by decide +kernel⟩,
    answers_of_mem_sent_receiveAll (r := Server.acceptingServer.router) (fun a ha ↦ ?_) _ _ _⟩
  rcases List.mem_pair.1 ha with rfl | rfl <;> exact ⟨hof, hresponds⟩

end Pyrad2
