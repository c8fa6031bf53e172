import Pyrad2.Packet.Serialize

/-!
# What sending changes

A packet that is serialized is given an identifier, an authenticator and a Message-Authenticator, and
is otherwise left as it was. What goes out behind the header is the encoding of such a packet.
-/

namespace Pyrad2

open EStateM

namespace Packet

/-! ### What is left as it was -/

/-- A packet that is sent is given an identifier, an authenticator and a Message-Authenticator at
most. -/
def Refreshes (s s' : PacketState) : Prop :=
  ∃ id authenticator flag attrs,
    s'.pkt = { s.pkt with id, authenticator, messageAuthenticator := flag, attrs } ∧
      ∀ key, s.pkt.encodeKey "Message-Authenticator" ≠ .ok key →
        attrs.get? key = s.pkt.attrs.get? key

theorem Refreshes.of_attrs_eq {s s' : PacketState} (h : ∃ id authenticator flag,
    s'.pkt = { s.pkt with id, authenticator, messageAuthenticator := flag }) : Refreshes s s' := by
  obtain ⟨id, authenticator, flag, hpkt⟩ := h
  exact ⟨id, authenticator, flag, s.pkt.attrs, hpkt, fun _ _ ↦ rfl⟩

instance : IsPreorder PacketState Refreshes where
  refl := fun s ↦ .of_attrs_eq ⟨s.pkt.id, s.pkt.authenticator, s.pkt.messageAuthenticator, rfl⟩
  trans := by
    rintro s s' s'' ⟨id, auth, flag, attrs, hs', hkeep⟩ ⟨id', auth', flag', attrs', hs'', hkeep'⟩
    rw [hs'] at hs'' hkeep'
    exact ⟨id', auth', flag', attrs', hs'', fun key hkey ↦ (hkeep' key hkey).trans (hkeep key hkey)⟩

theorem Draws.refreshes {s s' : PacketState} (h : Draws s s') : Refreshes s s' := by
  obtain ⟨authenticator, hpkt, -⟩ := h
  exact .of_attrs_eq ⟨s.pkt.id, authenticator, s.pkt.messageAuthenticator, hpkt⟩

section

variable (E : Env)

/-- The key of the name is computed before anything is stored. -/
theorem ensures_encodeKeyValues (name : String) (values : List PyVal) (s : PacketState) :
    Ensures (encodeKeyValues E name values) s
      (fun kv _ ↦ s.pkt.encodeKey (partitionTag name).1 = .ok kv.1) fun _ _ ↦ True := by
  rw [encodeKeyValues]
  refine ensures_bind.2 (ensures_get.2 (ensures_bind.2 (ensures_liftM (fun D hD ↦ ?_)
    fun _ _ ↦ trivial)))
  refine ensures_bind.2 (ensures_liftM (fun attr _ ↦ ?_) fun _ _ ↦ trivial)
  refine ensures_bind.2 (ensures_liftM (fun key hkey ↦ ?_) fun _ _ ↦ trivial)
  have hown : s.pkt.encodeKey (partitionTag name).1 = .ok key := by
    rw [encodeKey, hD]
    exact hkey
  split
  · exact ensures_bind.2 (ensures_of_forall (fun _ _ ↦ hown) fun _ _ ↦ trivial)
  · exact ensures_bind.2 (ensures_of_forall (fun _ _ ↦ hown) fun _ _ ↦ trivial)

theorem refreshes_setMessageAuthenticator (v : PyVal) :
    Respects Refreshes (setMessageAuthenticator E v) := by
  intro s
  have hkeys := ensures_encodeKeyValues E "Message-Authenticator" [v] s
  have hdraws := draws_encodeKeyValues E "Message-Authenticator" [v] s
  rw [partitionTag_messageAuthenticator] at hkeys
  rw [Ensures] at hkeys
  have hset : setMessageAuthenticator E v = encodeKeyValues E "Message-Authenticator" [v] >>=
      fun kv ↦ store kv.1 (.vals kv.2) := rfl
  rcases hrun : (encodeKeyValues E "Message-Authenticator" [v]).run s with ⟨kv, s'⟩ | ⟨e, s'⟩
  · rw [hrun] at hkeys
    rw [after_of_ok hrun] at hdraws
    obtain ⟨authenticator, hpkt, -⟩ := hdraws
    have hstored : (setMessageAuthenticator E v).run s = .ok ()
        { s' with pkt := { s'.pkt with attrs := s'.pkt.attrs.set kv.1 (.vals kv.2) } } := by
      rw [hset, run_bind_of_ok hrun]
      rfl
    rw [after_of_ok hstored]
    refine ⟨s.pkt.id, authenticator, s.pkt.messageAuthenticator, s'.pkt.attrs.set kv.1 (.vals kv.2),
      by rw [hpkt], fun key hkey ↦ ?_⟩
    have hne : key ≠ kv.1 := by
      rintro rfl
      exact hkey hkeys
    rw [OrderedDict.get?_set_ne _ hne, hpkt]
  · rw [after_of_error hrun] at hdraws
    have hraised : (setMessageAuthenticator E v).run s = .error e s' := by
      rw [hset]
      exact run_bind_of_error hrun
    rw [after_of_error hraised]
    exact hdraws.refreshes

theorem refreshes_modify {g : PacketState → PacketState} (h : ∀ s, ∃ id authenticator flag,
    (g s).pkt = { s.pkt with id, authenticator, messageAuthenticator := flag }) :
    Respects Refreshes (modify g : PacketMethod PUnit) :=
  respects_modify fun s ↦ .of_attrs_eq (h s)

theorem refreshes_encodeAttributes : Respects Refreshes (encodeAttributes E) :=
  (draws_encodeAttributes E).mono fun _ _ h ↦ h.refreshes

theorem refreshes_ensureAuthenticator : Respects Refreshes ensureAuthenticator :=
  draws_ensureAuthenticator.mono fun _ _ h ↦ h.refreshes

theorem refreshes_refreshMessageAuthenticator :
    Respects Refreshes (refreshMessageAuthenticator E) :=
  (refreshes_setMessageAuthenticator E _).bind fun _ ↦ (refreshes_encodeAttributes E).bind fun _ ↦
    respects_get.bind fun _ ↦ (respects_liftM _).bind fun _ ↦ (respects_liftM _).bind fun _ ↦
      refreshes_setMessageAuthenticator E _

theorem refreshes_ensureId : Respects Refreshes ensureId := by
  have hrandrange : Respects Refreshes (randrange 0 256) := fun s ↦
    .of_attrs_eq ⟨s.pkt.id, s.pkt.authenticator, s.pkt.messageAuthenticator, rfl⟩
  refine respects_get.bind fun s ↦ ?_
  split
  · refine hrandrange.bind fun id ↦ refreshes_modify ?_
    exact fun s ↦ ⟨some id, s.pkt.authenticator, s.pkt.messageAuthenticator, rfl⟩
  · exact respects_pure _

theorem refreshes_setFlag : Respects Refreshes (modify fun s : PacketState ↦
    { s with pkt := { s.pkt with messageAuthenticator := some true } } : PacketMethod PUnit) :=
  refreshes_modify fun s ↦ ⟨s.pkt.id, s.pkt.authenticator, some true, rfl⟩

theorem refreshes_addMessageAuthenticator : Respects Refreshes (addMessageAuthenticator E) := by
  refine respects_get.bind fun s ↦ ?_
  split
  · exact respects_pure _
  refine refreshes_setFlag.bind fun _ ↦ (refreshes_setMessageAuthenticator E _).bind fun _ ↦
    refreshes_ensureId.bind fun _ ↦ respects_get.bind fun s' ↦ ?_
  dsimp only
  split
  · exact refreshes_ensureAuthenticator.bind fun _ ↦ refreshes_refreshMessageAuthenticator E
  · exact respects_pure _

theorem refreshes_ensureMessageAuthenticator :
    Respects Refreshes (ensureMessageAuthenticator E) := by
  refine respects_get.bind fun s ↦ ?_
  dsimp only
  split
  · exact respects_pure _
  split
  · exact refreshes_setFlag
  · exact refreshes_addMessageAuthenticator E

theorem refreshes_prepareRequestMessageAuthenticator (required : Bool) :
    Respects Refreshes (prepareRequestMessageAuthenticator E required) := by
  refine respects_get.bind fun s ↦ ?_
  dsimp only
  split
  · exact respects_pure _
  split
  · exact respects_pure _
  split
  · exact refreshes_ensureMessageAuthenticator E
  · exact respects_pure _

theorem refreshes_refreshIfCarried : Respects Refreshes (refreshIfCarried E) := by
  refine respects_get.bind fun s ↦ ?_
  split
  · exact refreshes_refreshMessageAuthenticator E
  · exact respects_pure _

theorem refreshes_encodeV10RequestWithRandomAuthenticator :
    Respects Refreshes (encodeV10RequestWithRandomAuthenticator E) :=
  refreshes_ensureAuthenticator.bind fun _ ↦ (refreshes_refreshIfCarried E).bind fun _ ↦
    (refreshes_encodeAttributes E).bind fun _ ↦ respects_get.bind fun _ ↦
      (respects_liftM _).bind fun _ ↦ (respects_liftM _).bind fun _ ↦ respects_pure _

theorem refreshes_encodeV10RequestWithBodyMd5Authenticator :
    Respects Refreshes (encodeV10RequestWithBodyMd5Authenticator E) := by
  refine (refreshes_refreshIfCarried E).bind fun _ ↦ (refreshes_encodeAttributes E).bind fun body ↦
    respects_get.bind fun s ↦ (respects_liftM _).bind fun header ↦ ?_
  refine Respects.bind (refreshes_modify ?_) fun _ ↦ respects_pure _
  exact fun s' ↦ ⟨s'.pkt.id, some (E.md5 (header ++ zeros16 ++ body ++ s.pkt.secret)),
    s'.pkt.messageAuthenticator, rfl⟩

theorem refreshes_serializeV11 : Respects Refreshes (serializeV11 E) :=
  (refreshes_encodeAttributes E).bind fun _ ↦ respects_get.bind fun _ ↦
    (respects_liftM _).bind fun _ ↦ respects_pure _

theorem refreshes_requestPacket : Respects Refreshes (requestPacket E) := by
  refine respects_get.bind fun s ↦ ?_
  dsimp only
  split
  · exact respects_throw_bind _ _
  refine refreshes_ensureId.bind fun _ ↦ ?_
  split
  · exact refreshes_serializeV11 E
  split
  · exact refreshes_ensureAuthenticator.bind fun _ ↦
      (refreshes_prepareRequestMessageAuthenticator E false).bind fun _ ↦
        refreshes_encodeV10RequestWithRandomAuthenticator E
  · exact refreshes_encodeV10RequestWithRandomAuthenticator E
  · exact refreshes_encodeV10RequestWithBodyMd5Authenticator E

end

/-! ### What goes out -/

/-- The bytes are a header that says how long they are, and the encoding of a packet that sending may
have led to. -/
structure Encodes (E : Env) (s : PacketState) (raw : Bytes) : Prop where
  header : 20 ≤ raw.length
  length_eq : wireLength raw = raw.length
  exists_run : ∃ s₁ s₂, Refreshes s s₁ ∧ (encodeAttributes E).run s₁ = .ok (raw.drop 20) s₂

section

variable {E : Env} {s s' s'' : PacketState}

theorem Encodes.of_refreshes {raw : Bytes} (h : Encodes E s' raw) (hs : Refreshes s s') :
    Encodes E s raw := by
  obtain ⟨s₁, s₂, hs₁, hrun⟩ := h.exists_run
  exact ⟨h.header, h.length_eq, s₁, s₂, trans_of Refreshes hs hs₁, hrun⟩

/-- A header, sixteen bytes and the encoding. -/
theorem encodes_append {code : ℕ} {id : Option ℕ} {front middle body : Bytes}
    (hrun : (encodeAttributes E).run s = .ok body s')
    (hfront : packHeader code id (20 + body.length) = .ok front) (hmiddle : middle.length = 16) :
    Encodes E s (front ++ middle ++ body) := by
  have hwire := wire_append hfront hmiddle
  exact ⟨hwire.length_le, hwire.wireLength_eq, s, s', refl_of Refreshes s, by rwa [hwire.body_eq]⟩

/-- Something that changes what sending changes, in front of a serializer. -/
theorem ensures_bind_encodes {α : Type} {m : PacketMethod α} {f : α → PacketMethod Bytes}
    (hm : Respects Refreshes m)
    (hf : ∀ a s', Ensures (f a) s' (fun raw _ ↦ Encodes E s' raw) fun _ _ ↦ True) :
    Ensures (m >>= f) s (fun raw _ ↦ Encodes E s raw) fun _ _ ↦ True := by
  have hafter := hm s
  rw [ensures_bind]
  rcases hrun : m.run s with ⟨a, s'⟩ | ⟨e, s'⟩
  · rw [after_of_ok hrun] at hafter
    exact .of_ok hrun ((hf a s').imp (fun _ _ h ↦ h.of_refreshes hafter) fun _ _ h ↦ h)
  · exact .of_error hrun trivial

/-- The attributes are encoded before anything is put in front of them. -/
theorem ensures_encodeAttributes_bind {f : Bytes → PacketMethod Bytes} {Q : Bytes → PacketState → Prop}
    (hf : ∀ body s', (encodeAttributes E).run s = .ok body s' →
      Ensures (f body) s' Q fun _ _ ↦ True) :
    Ensures (encodeAttributes E >>= f) s Q fun _ _ ↦ True := by
  rw [ensures_bind]
  rcases hrun : (encodeAttributes E).run s with ⟨body, s'⟩ | ⟨e, s'⟩
  · exact .of_ok hrun (hf body s' hrun)
  · exact .of_error hrun trivial

theorem encodes_serializeV11 (s : PacketState) :
    Ensures (serializeV11 E) s (fun raw _ ↦ Encodes E s raw) fun _ _ ↦ True := by
  rw [serializeV11]
  refine ensures_encodeAttributes_bind fun body s' hrun ↦ ensures_bind.2 (ensures_get.2
    (ensures_bind.2 (ensures_liftM (fun header hheader ↦ ?_) fun _ _ ↦ trivial)))
  obtain ⟨front, token, hfront, -, htoken, rfl⟩ := packV11Header_eq_ok hheader
  have hmiddle : (token ++ List.replicate 12 0).length = 16 := by
    rw [List.length_append, htoken, List.length_replicate]
  have happend := encodes_append hrun hfront hmiddle
  rwa [← List.append_assoc] at happend

theorem encodes_encodeV10RequestWithRandomAuthenticator (s : PacketState) :
    Ensures (encodeV10RequestWithRandomAuthenticator E) s (fun raw _ ↦ Encodes E s raw)
      fun _ _ ↦ True := by
  rw [encodeV10RequestWithRandomAuthenticator]
  refine ensures_bind_encodes refreshes_ensureAuthenticator fun _ s ↦
    ensures_bind_encodes (refreshes_refreshIfCarried E) fun _ s ↦ ?_
  refine ensures_encodeAttributes_bind fun body s' hrun ↦ ensures_bind.2 (ensures_get.2
    (ensures_bind.2 (ensures_liftM (fun front hfront ↦ ?_) fun _ _ ↦ trivial)))
  refine ensures_bind.2 (ensures_liftM (fun authenticator _ ↦ ?_) fun _ _ ↦ trivial)
  refine encodes_append hrun hfront ?_
  rw [List.length_take, List.length_append, List.length_replicate]
  omega

theorem encodes_encodeV10RequestWithBodyMd5Authenticator (s : PacketState) :
    Ensures (encodeV10RequestWithBodyMd5Authenticator E) s (fun raw _ ↦ Encodes E s raw)
      fun _ _ ↦ True := by
  rw [encodeV10RequestWithBodyMd5Authenticator]
  refine ensures_bind_encodes (refreshes_refreshIfCarried E) fun _ s ↦ ?_
  refine ensures_encodeAttributes_bind fun body s' hrun ↦ ensures_bind.2 (ensures_get.2
    (ensures_bind.2 (ensures_liftM (fun front hfront ↦ ?_) fun _ _ ↦ trivial)))
  exact ensures_bind.2 (ensures_modify.2 (encodes_append hrun hfront (E.md5_length _)))

/-- **What `request_packet` returns.** -/
theorem encodes_requestPacket (s : PacketState) :
    Ensures (requestPacket E) s (fun raw _ ↦ Encodes E s raw) fun _ _ ↦ True := by
  rw [requestPacket]
  refine ensures_bind.2 (ensures_get.2 ?_)
  dsimp only
  split
  · exact trivial
  refine ensures_bind_encodes refreshes_ensureId fun _ s ↦ ?_
  split
  · exact encodes_serializeV11 s
  split
  · exact ensures_bind_encodes refreshes_ensureAuthenticator fun _ s ↦
      ensures_bind_encodes (refreshes_prepareRequestMessageAuthenticator E false) fun _ s ↦
        encodes_encodeV10RequestWithRandomAuthenticator s
  · exact encodes_encodeV10RequestWithRandomAuthenticator s
  · exact encodes_encodeV10RequestWithBodyMd5Authenticator s

end

end Packet

end Pyrad2
