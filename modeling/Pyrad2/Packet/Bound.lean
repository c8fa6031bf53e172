import Pyrad2.Packet.Output
import Pyrad2.Radsec.Connection

/-!
# What binds a reply to its request

By what does the peer know which request a reply answers?

Under RADIUS/1.0 by the identifier and by the digest in the place of the authenticator, which covers
the authenticator of the request; under RADIUS/1.1 by the Token. A reply object is given all of these
when it is created. What is done to it before it is sent fills in what is missing and changes nothing
of this, so they arrive on the wire.
-/

namespace Pyrad2

open EStateM

namespace Packet

/-! ### What preparing and serializing leave -/

/-- An identifier and an authenticator that are there stay; the rest of what binds the packet is not
touched, nor is where it goes and the key it is remembered under. -/
structure Fills (s s' : PacketState) : Prop where
  id_eq : ∀ i, s.pkt.id = some i → s'.pkt.id = some i
  authenticator_eq : ∀ a, s.pkt.authenticator = some a → s'.pkt.authenticator = some a
  token_eq : s'.pkt.token = s.pkt.token
  secret_eq : s'.pkt.secret = s.pkt.secret
  version_eq : s'.pkt.radiusVersion = s.pkt.radiusVersion
  source_eq : s'.pkt.source = s.pkt.source
  dedupKey_eq : s'.pkt.dedupKey = s.pkt.dedupKey

instance instIsPreorderFills : IsPreorder PacketState Fills where
  refl := fun _ ↦ ⟨fun _ h ↦ h, fun _ h ↦ h, rfl, rfl, rfl, rfl, rfl⟩
  trans := fun _ _ _ h h' ↦ ⟨fun i hi ↦ h'.id_eq i (h.id_eq i hi),
    fun a ha ↦ h'.authenticator_eq a (h.authenticator_eq a ha), h'.token_eq.trans h.token_eq,
    h'.secret_eq.trans h.secret_eq, h'.version_eq.trans h.version_eq,
    h'.source_eq.trans h.source_eq, h'.dedupKey_eq.trans h.dedupKey_eq⟩

theorem Recodes.fills {s s' : PacketState} (h : Recodes s s') : Fills s s' := by
  obtain ⟨attrs, authenticator, hpkt, hauth⟩ := h
  refine ⟨fun i hi ↦ ?_, fun a ha ↦ ?_, ?_, ?_, ?_, ?_, ?_⟩
  · rw [hpkt]
    exact hi
  · rw [hpkt]
    exact hauth a ha
  all_goals rw [hpkt]

section

variable (E : Env)

theorem fills_setMessageAuthenticator (v : PyVal) : Respects Fills (setMessageAuthenticator E v) :=
  (recodes_setItem E _ _).mono fun _ _ h ↦ h.fills

theorem fills_encodeAttributes : Respects Fills (encodeAttributes E) :=
  (recodes_encodeAttributes E).mono fun _ _ h ↦ h.fills

theorem fills_ensureAuthenticator : Respects Fills ensureAuthenticator :=
  draws_ensureAuthenticator.mono fun _ _ h ↦ h.recodes.fills

theorem fills_ensureId : Respects Fills ensureId := by
  intro s
  rcases hid : s.pkt.id with - | i
  · have hnone (i : ℕ) : s.pkt.id ≠ some i := by
      rw [hid]
      exact fun h ↦ by cases h
    rw [ensureId, after_bind_of_ok (run_get s), if_pos (by rw [hid]; rfl)]
    exact ⟨fun i hi ↦ absurd hi (hnone i), fun _ h ↦ h, rfl, rfl, rfl, rfl, rfl⟩
  · have hrun : ensureId.run s = .ok () s := run_ensureId_of_some (p := s.pkt) hid s.world
    rw [after_of_ok hrun]
    exact refl_of Fills s

theorem fills_setFlag : Respects Fills (modify fun s : PacketState ↦
    { s with pkt := { s.pkt with messageAuthenticator := some true } } : PacketMethod PUnit) :=
  respects_modify fun _ ↦ ⟨fun _ h ↦ h, fun _ h ↦ h, rfl, rfl, rfl, rfl, rfl⟩

theorem fills_refreshMessageAuthenticator : Respects Fills (refreshMessageAuthenticator E) :=
  (fills_setMessageAuthenticator E _).bind fun _ ↦ (fills_encodeAttributes E).bind fun _ ↦
    respects_get.bind fun _ ↦ (respects_liftM _).bind fun _ ↦ (respects_liftM _).bind fun _ ↦
      fills_setMessageAuthenticator E _

theorem fills_refreshIfCarried : Respects Fills (refreshIfCarried E) := by
  refine respects_get.bind fun s ↦ ?_
  split
  · exact fills_refreshMessageAuthenticator E
  · exact respects_pure _

theorem fills_addMessageAuthenticator : Respects Fills (addMessageAuthenticator E) := by
  refine respects_get.bind fun s ↦ ?_
  split
  · exact respects_pure _
  refine fills_setFlag.bind fun _ ↦ (fills_setMessageAuthenticator E _).bind fun _ ↦
    fills_ensureId.bind fun _ ↦ respects_get.bind fun s' ↦ ?_
  dsimp only
  split
  · exact fills_ensureAuthenticator.bind fun _ ↦ fills_refreshMessageAuthenticator E
  · exact respects_pure _

theorem fills_ensureMessageAuthenticator : Respects Fills (ensureMessageAuthenticator E) := by
  refine respects_get.bind fun s ↦ ?_
  dsimp only
  split
  · exact respects_pure _
  split
  · exact fills_setFlag
  · exact fills_addMessageAuthenticator E

/-- **Preparing a reply** keeps what binds it. -/
theorem fills_prepareReplyMessageAuthenticator (request : Packet) (required requiredForEap : Bool) :
    Respects Fills (prepareReplyMessageAuthenticator E request required requiredForEap) := by
  refine respects_get.bind fun s ↦ ?_
  dsimp only
  split
  · exact respects_pure _
  split
  · exact fills_ensureMessageAuthenticator E
  · exact respects_pure _

theorem fills_serializeV11 : Respects Fills (serializeV11 E) :=
  (fills_encodeAttributes E).bind fun _ ↦ respects_get.bind fun _ ↦ (respects_liftM _).bind fun _ ↦
    respects_pure _

/-- **Serializing a reply** keeps it as well. -/
theorem fills_replyPacket : Respects Fills (replyPacket E) := by
  refine respects_get.bind fun s ↦ ?_
  dsimp only
  split
  · exact fills_serializeV11 E
  split
  · exact respects_throw _
  · exact respects_throw _
  · exact (fills_refreshIfCarried E).bind fun _ ↦ (fills_encodeAttributes E).bind fun _ ↦
      respects_get.bind fun _ ↦ (respects_liftM _).bind fun _ ↦ respects_pure _

end

/-! ### Reply objects -/

/-- The reply has what binds it to the request. -/
structure RepliesTo (request reply : Packet) : Prop where
  id_eq : ∀ i, request.id = some i → reply.id = some i
  authenticator_eq : ∀ a, request.authenticator = some a → reply.authenticator = some a
  token_eq : reply.token = request.token
  secret_eq : reply.secret = request.secret
  version_eq : reply.radiusVersion = request.radiusVersion

theorem RepliesTo.of_fills {request : Packet} {s s' : PacketState} (h : RepliesTo request s.pkt)
    (hs : Fills s s') : RepliesTo request s'.pkt where
  id_eq := fun i hi ↦ hs.id_eq i (h.id_eq i hi)
  authenticator_eq := fun a ha ↦ hs.authenticator_eq a (h.authenticator_eq a ha)
  token_eq := hs.token_eq.trans h.token_eq
  secret_eq := hs.secret_eq.trans h.secret_eq
  version_eq := hs.version_eq.trans h.version_eq

theorem RepliesTo.fills_request {s s' : PacketState} {reply : Packet} (hs : Fills s s')
    (h : RepliesTo s'.pkt reply) : RepliesTo s.pkt reply where
  id_eq := fun i hi ↦ h.id_eq i (hs.id_eq i hi)
  authenticator_eq := fun a ha ↦ h.authenticator_eq a (hs.authenticator_eq a ha)
  token_eq := h.token_eq.trans hs.token_eq
  secret_eq := h.secret_eq.trans hs.secret_eq
  version_eq := h.version_eq.trans hs.version_eq

section

variable {E : Env} {p : Packet}

/-- A new packet has the fields it is constructed with. -/
theorem ensures_construct_fills (E : Env) (fields : Packet) (attributes : KwAttributes) (w : World) :
    Ensures (construct E fields none attributes) w (fun p _ ↦ Fills ⟨fields, w⟩ ⟨p, w⟩)
      fun _ _ ↦ True := by
  have hadd : Respects Fills (attributes.forM fun e ↦ addAttribute E (attributeName e.1) e.2) :=
    respects_forM fun e _ ↦ (recodes_addAttribute E _ _).mono fun _ _ h ↦ h.fills
  have hinit : Respects Fills (init E none attributes) := by
    intro s
    rcases hid : s.pkt.id with - | i
    · have hnone (i : ℕ) : s.pkt.id ≠ some i := by
        rw [hid]
        exact fun h ↦ by cases h
      rw [init, after_bind_of_ok (run_get s), if_pos (by rw [hid]; rfl)]
      refine trans_of Fills ?_ (hadd _)
      exact ⟨fun i hi ↦ absurd hi (hnone i), fun _ h ↦ h, rfl, rfl, rfl, rfl, rfl⟩
    · rw [init, after_bind_of_ok (run_get s), if_neg (by rw [hid]; exact Bool.false_ne_true)]
      exact hadd s
  rw [construct, ensures_bind, ensures_run]
  have hafter := hinit ⟨fields, w⟩
  rw [Ensures]
  rcases hrun : (init E none attributes).run ⟨fields, w⟩ with ⟨u, s⟩ | ⟨e, s⟩
  · rw [after_of_ok hrun] at hafter
    exact ⟨hafter.id_eq, hafter.authenticator_eq, hafter.token_eq, hafter.secret_eq, hafter.version_eq,
      hafter.source_eq, hafter.dedupKey_eq⟩
  · trivial

/-- **A reply is bound to its request when it is created**, whatever its class and its code. It is
remembered under no key yet. -/
theorem ensures_createReply_new (E : Env) (p : Packet) (code : Option ℕ) (attributes : KwAttributes)
    (w : World) : Ensures (createReply E p code none attributes) w
      (fun reply _ ↦ RepliesTo p reply ∧ reply.dedupKey = none) fun _ _ ↦ True := by
  have hmake (cls : PacketClass) (code : ℕ) : Ensures (makeReply E p cls code none attributes) w
      (fun reply _ ↦ RepliesTo p reply ∧ reply.dedupKey = none) fun _ _ ↦ True := by
    rw [makeReply]
    refine ensures_bind.2 ((ensures_construct_fills E _ attributes w).imp (fun reply _ h ↦ ?_)
      fun _ _ h ↦ h)
    exact ensures_pure.2
      ⟨⟨h.id_eq, h.authenticator_eq, rfl, h.secret_eq, h.version_eq⟩, h.dedupKey_eq⟩
  unfold createReply
  split
  iterate 5 exact hmake _ _
  trivial

theorem ensures_createReply_repliesTo (E : Env) (p : Packet) (code : Option ℕ)
    (attributes : KwAttributes) (w : World) :
    Ensures (createReply E p code none attributes) w (fun reply _ ↦ RepliesTo p reply)
      fun _ _ ↦ True :=
  (ensures_createReply_new E p code attributes w).imp (fun _ _ h ↦ h.1) fun _ _ h ↦ h

/-! ### Replies on the wire -/

/-- What a request from the wire is bound by. -/
structure Represents (version : RadiusVersion) (secret request : Bytes) (p : Packet) : Prop where
  version_eq : p.radiusVersion = version
  secret_eq : p.secret = secret
  id_eq : version = .v1_0 → p.id = some (wireId request)
  authenticator_eq : version = .v1_0 → p.authenticator = some (wireAuthenticator request)
  token_eq : version = .v1_1 → p.token = some (wireToken request)

/-- The bytes are bound to the request: by its identifier and its authenticator, or by its Token. -/
def Bound (E : Env) (version : RadiusVersion) (secret request raw : Bytes) : Prop :=
  match version with
  | .v1_0 => wireId raw = wireId request ∧ wireAuthenticator raw =
      E.md5 (raw.take 4 ++ wireAuthenticator request ++ raw.drop 20 ++ secret)
  | .v1_1 => HasV11Header (some (wireToken request)) raw

theorem carries_withHeader (p : Packet) (raw : Bytes) :
    Represents p.radiusVersion p.secret raw (p.withHeader raw) := by
  rw [withHeader]
  rcases p.radiusVersion
  · exact ⟨rfl, rfl, fun _ ↦ rfl, fun _ ↦ rfl, fun h ↦ absurd h (by decide)⟩
  · refine ⟨rfl, rfl, fun h ↦ absurd h (by decide), fun h ↦ absurd h (by decide), fun _ ↦ ?_⟩
    show some (((raw.drop 4).take 16).take 4) = some (wireToken raw)
    rw [List.take_take]
    rfl

/-- **Decoding** takes from the wire what binds a request. -/
theorem ensures_decodePacket_represents (s : PacketState) (raw : Bytes) :
    Ensures (decodePacket raw) s
      (fun _ s' ↦ Represents s.pkt.radiusVersion s.pkt.secret raw s'.pkt) fun _ _ ↦ True := by
  have hbody (t : PacketState) : Ensures (decodeBody (raw.drop 20)) t
      (fun _ s' ↦ ∃ attrs flag, s'.pkt = { t.pkt with attrs, messageAuthenticator := flag })
      fun _ _ ↦ True := by
    rcases hrun : (decodeAvps t.pkt.dict t.pkt.radiusVersion (raw.drop 20).length (raw.drop 20)).run
        { messageAuthenticator := t.pkt.messageAuthenticator } with ⟨u, st⟩ | ⟨e, st⟩
    · exact .of_ok (run_decodeBody_of_ok hrun) ⟨_, _, rfl⟩
    · exact .of_error (run_decodeBody_of_error hrun) trivial
  rw [decodePacket]
  split
  · trivial
  refine ensures_bind.2 (ensures_modify.2 ?_)
  dsimp only
  split
  · trivial
  split
  · trivial
  refine (hbody _).imp (fun _ s' h ↦ ?_) fun _ _ h ↦ h
  obtain ⟨attrs, flag, hpkt⟩ := h
  have hheader := carries_withHeader s.pkt raw
  rw [hpkt]
  exact ⟨hheader.version_eq, hheader.secret_eq, hheader.id_eq, hheader.authenticator_eq,
    hheader.token_eq⟩

theorem ensures_parsePacket_represents (E : Env) (raw secret : Bytes) (D : Option Dictionary)
    (version : RadiusVersion) (w : World) :
    Ensures (parsePacket E raw secret D version) w (fun p _ ↦ Represents version secret raw p)
      fun _ _ ↦ True := by
  rcases raw with - | ⟨code, rest⟩
  · trivial
  · exact ensures_construct_of_decode (fun id w ↦ ensures_decodePacket_represents _ _) w

/-- What is filled in does not change what binds the request. -/
theorem Represents.of_fills {version : RadiusVersion} {secret request : Bytes} {s s' : PacketState}
    (h : Represents version secret request s.pkt) (hs : Fills s s') :
    Represents version secret request s'.pkt where
  version_eq := hs.version_eq.trans h.version_eq
  secret_eq := hs.secret_eq.trans h.secret_eq
  id_eq := fun hversion ↦ hs.id_eq _ (h.id_eq hversion)
  authenticator_eq := fun hversion ↦ hs.authenticator_eq _ (h.authenticator_eq hversion)
  token_eq := fun hversion ↦ hs.token_eq.trans (h.token_eq hversion)

theorem Represents.of_repliesTo {version : RadiusVersion} {secret request : Bytes} {p reply : Packet}
    (h : Represents version secret request p) (hreply : RepliesTo p reply) :
    Represents version secret request reply where
  version_eq := hreply.version_eq.trans h.version_eq
  secret_eq := hreply.secret_eq.trans h.secret_eq
  id_eq := fun hversion ↦ hreply.id_eq _ (h.id_eq hversion)
  authenticator_eq := fun hversion ↦ hreply.authenticator_eq _ (h.authenticator_eq hversion)
  token_eq := fun hversion ↦ hreply.token_eq.trans (h.token_eq hversion)

/-- **A serialized reply is bound to its request.** -/
theorem Represents.ensures_replyPacket {version : RadiusVersion} {secret request : Bytes}
    (h : Represents version secret request p) (w : World) :
    Ensures (replyPacket E) ⟨p, w⟩ (fun raw _ ↦ Bound E version secret request raw)
      fun _ _ ↦ True := by
  rw [replyPacket]
  refine ensures_bind.2 (ensures_get.2 ?_)
  dsimp only
  rcases version
  · rw [if_neg (by rw [h.version_eq]; decide), h.authenticator_eq rfl]
    split
    · trivial
    · trivial
    next authenticator _ hauth =>
    obtain rfl : wireAuthenticator request = authenticator := Option.some.inj hauth
    have hrefresh := fills_refreshIfCarried E ⟨p, w⟩
    rw [ensures_bind]
    rcases hrun : (refreshIfCarried E).run ⟨p, w⟩ with ⟨u, s⟩ | ⟨e, s⟩
    · rw [after_of_ok hrun] at hrefresh
      have hencode := fills_encodeAttributes E s
      refine .of_ok hrun (ensures_encodeAttributes_bind fun body s' hbody ↦ ensures_bind.2
        (ensures_get.2 (ensures_bind.2 (ensures_liftM (fun front hfront ↦ ?_) fun _ _ ↦ trivial))))
      rw [after_of_ok hbody] at hencode
      have hrepresents := (h.of_fills hrefresh).of_fills hencode
      rw [hrepresents.id_eq rfl] at hfront
      have hmiddle : (E.md5 (front ++ wireAuthenticator request ++ body ++ s'.pkt.secret)).length = 16 :=
        E.md5_length _
      have hwire := wire_append hfront hmiddle
      have htake : (front ++ E.md5 (front ++ wireAuthenticator request ++ body ++ s'.pkt.secret) ++
          body).take 4 = front := by
        rw [List.append_assoc, List.take_left' (length_header hfront)]
      refine ensures_pure.2 ⟨(Option.some.inj hwire.id_eq).symm, ?_⟩
      rw [hwire.authenticator_eq, htake, hwire.body_eq, hrepresents.secret_eq]
    · exact .of_error hrun trivial
  · rw [if_pos h.version_eq]
    refine (ensures_serializeV11 w).imp (fun raw _ hraw ↦ ?_) fun _ _ h ↦ h
    show HasV11Header (some (wireToken request)) raw
    rw [← h.token_eq rfl]
    exact hraw.1

end

end Packet

end Pyrad2
