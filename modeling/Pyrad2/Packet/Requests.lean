import Pyrad2.Packet.Serialize

/-!
# Sending requests

What a request has on the wire after `prepare_request_message_authenticator` and `request_packet`.

On the way to the serializer a request is given what it lacks: an identifier, an authenticator, the
flag that it carries a Message-Authenticator and a value to hold the place of the digest. Nothing
that was there is replaced.
-/

namespace Pyrad2

open EStateM

namespace Packet

/-! ### Completing a request -/

section

variable {p p' : Packet} (h : Completes p p')

include h

theorem Completes.code_eq : p'.code = p.code := by
  obtain ⟨id, authenticator, flag, attrs, rfl⟩ := h.pkt_eq
  rfl

theorem Completes.cls_eq : p'.cls = p.cls := by
  obtain ⟨id, authenticator, flag, attrs, rfl⟩ := h.pkt_eq
  rfl

theorem Completes.secret_eq : p'.secret = p.secret := by
  obtain ⟨id, authenticator, flag, attrs, rfl⟩ := h.pkt_eq
  rfl

theorem Completes.originalCode_eq : p'.originalCode = p.originalCode := by
  obtain ⟨id, authenticator, flag, attrs, rfl⟩ := h.pkt_eq
  rfl

end

section

variable {E : Env} {D : Dictionary} {p : Packet}

/-- What completes a packet does not matter, as long as its attributes are left alone. -/
theorem Sendable.of_completes {q : Packet} (h : Sendable E D p) (hcompletes : Completes p q)
    (hattrs : q.attrs = p.attrs) : Sendable E D q := by
  have hkeeps := h.keepsDigest.of_completes hcompletes hattrs
  have hflag := hcompletes.flag
  obtain ⟨id, authenticator, flag, attrs, rfl⟩ := hcompletes.pkt_eq
  obtain rfl : attrs = p.attrs := hattrs
  exact
    { declares := h.declares
      dict := h.dict
      version := h.version
      saltFree := h.saltFree
      onlyMac := ⟨h.onlyMac.stored, h.onlyMac.pending⟩
      keepsDigest := hkeeps
      flagged := fun hcontains ↦ hflag (h.flagged hcontains) }

theorem Sendable.withMac (h : Sendable E D p) (hflag : p.messageAuthenticator = some true)
    (v : Bytes) : Sendable E D (p.withMac v) where
  declares := h.declares
  dict := h.dict
  version := h.version
  saltFree := h.saltFree
  onlyMac := by
    refine ⟨fun e he hne ↦ ?_, h.onlyMac.pending⟩
    obtain ⟨pre, post, hentries, hold⟩ := p.attrs.exists_split_set (.int 80)
    have hmem : e ∈ pre ++ (.int 80, .vals [.bytes v]) :: post := by
      rw [← hentries]
      exact he
    rcases List.mem_append.1 hmem with hpre | hpost
    · exact h.onlyMac.stored e (hold e (List.mem_append_left _ hpre)).1 hne
    · rcases List.mem_cons.1 hpost with rfl | hpost
      · exact absurd rfl hne
      · exact h.onlyMac.stored e (hold e (List.mem_append_right _ hpost)).1 hne
  keepsDigest := h.keepsDigest.withMac v
  flagged := fun _ ↦ hflag

theorem completes_withMac (p : Packet) (v : Bytes) : Completes p (p.withMac v) where
  pkt_eq := ⟨_, _, _, _, rfl⟩
  id := fun _ h ↦ h
  authenticator := fun _ h ↦ h
  drawn := (Completes.refl p).drawn
  flag := fun h ↦ h

/-- The packet can still be sent, and was completed. -/
def Ready (E : Env) (D : Dictionary) (p : Packet) (s : PacketState) : Prop :=
  Sendable E D s.pkt ∧ Completes p s.pkt

theorem Ready.trans {p' : Packet} {s : PacketState} (hp : Completes p p') (h : Ready E D p' s) :
    Ready E D p s := ⟨h.1, hp.trans h.2⟩

theorem Sendable.ready {s : PacketState} (h : Sendable E D p) (hcompletes : Completes p s.pkt)
    (hattrs : s.pkt.attrs = p.attrs) : Ready E D p s :=
  ⟨h.of_completes hcompletes hattrs, hcompletes⟩

theorem ensures_ensureId (h : Sendable E D p) (w : World) :
    Ensures ensureId ⟨p, w⟩
      (fun _ s ↦ Ready E D p s ∧ s.pkt.authenticator = p.authenticator) fun _ _ ↦ True := by
  rw [ensureId]
  refine ensures_bind.2 (ensures_get.2 ?_)
  split
  · next hnone =>
    refine ensures_bind.2 (.of_ok rfl (ensures_modify.2 ⟨h.ready ?_ rfl, rfl⟩))
    refine ⟨⟨_, _, _, _, rfl⟩, fun i hi ↦ ?_, fun _ ha ↦ ha, (Completes.refl p).drawn, fun hf ↦ hf⟩
    change p.id.isNone = true at hnone
    rw [hi] at hnone
    cases hnone
  · exact ⟨⟨h, .refl p⟩, rfl⟩

theorem ensures_ensureAuthenticator (h : Sendable E D p) (w : World) :
    Ensures ensureAuthenticator ⟨p, w⟩
      (fun _ s ↦ Ready E D p s ∧ s.pkt.authenticator.isSome = true ∧
        s.pkt.messageAuthenticator = p.messageAuthenticator)
      fun _ _ ↦ True := by
  rcases ha : p.authenticator with - | a
  · refine .of_ok (run_ensureAuthenticator_of_none ha w) ⟨h.ready ?_ rfl, rfl, rfl⟩
    refine ⟨⟨_, _, _, _, rfl⟩, fun _ hi ↦ hi, fun a ha' ↦ ?_, fun _ a ha' ↦ ?_, fun hf ↦ hf⟩
    · rw [ha] at ha'
      cases ha'
    · cases ha'
      exact World.length_bytes ..
  · refine .of_ok (run_ensureAuthenticator_of_some ha w) ⟨⟨h, .refl p⟩, ?_, rfl⟩
    change p.authenticator.isSome = true
    rw [ha]
    rfl

/-- `add_message_authenticator()` -/
theorem ensures_addMessageAuthenticator (h : Sendable E D p) (w : World) :
    Ensures (addMessageAuthenticator E) ⟨p, w⟩
      (fun _ s ↦ Ready E D p s ∧ s.pkt.messageAuthenticator = some true) fun _ _ ↦ True := by
  have hzeros (digits : Bytes) : zeros16 ≠ 0x30 :: 0x78 :: digits := by
    intro heq
    cases heq
  let flagged : Packet := { p with messageAuthenticator := some true }
  have hcompletes : Completes p flagged := by
    refine ⟨⟨_, _, _, _, rfl⟩, fun _ hi ↦ hi, fun _ ha ↦ ha, (Completes.refl p).drawn, fun _ ↦ rfl⟩
  have hflagged : Sendable E D flagged := h.of_completes hcompletes rfl
  rw [addMessageAuthenticator]
  refine ensures_bind.2 (ensures_get.2 ?_)
  rw [if_neg (by rw [h.version]; decide)]
  -- the flag, and zeros in the place of the digest
  refine ensures_bind.2 (ensures_modify.2 ?_)
  refine ensures_bind.2 (.of_ok
    (run_setMessageAuthenticator_of_ne h.declares (p := flagged) h.dict hzeros w) ?_)
  have hplaced : Ready E D p (flagged.macState zeros16 w) :=
    ⟨hflagged.withMac rfl zeros16, hcompletes.trans (completes_withMac flagged zeros16)⟩
  refine ensures_bind.2 ((ensures_ensureId hplaced.1 w).imp (fun _ s hs ↦ ?_) fun _ _ hfalse ↦ hfalse)
  obtain ⟨hs, -⟩ := hs
  have hready : Ready E D p s := hs.trans hplaced.2
  have hflag : s.pkt.messageAuthenticator = some true := hs.2.flag rfl
  refine ensures_bind.2 (ensures_get.2 ?_)
  dsimp only
  split
  · -- a request that lacks an authenticator draws it here, so that the digest can be taken
    refine ensures_bind.2 ((ensures_ensureAuthenticator hready.1 s.world).imp
      (fun _ s' hs' ↦ ?_) fun _ _ hfalse ↦ hfalse)
    obtain ⟨hready', hsome, hflag'⟩ := hs'
    rw [hflag] at hflag'
    have hs := hready'.1
    refine (ensures_refreshMessageAuthenticator hs.declares hs.dict (fun _ ↦ hsome)
      hs.saltFree hs.onlyMac hs.keepsDigest.digestKept s'.world).imp (fun _ s'' hs'' ↦ ?_)
      fun _ _ hfalse ↦ hfalse
    obtain ⟨m, header, authenticator, -, -, -, rfl⟩ := hs''
    exact ⟨⟨hs.withMac hflag' _, (hready.2.trans hready'.2).trans (completes_withMac _ _)⟩, hflag'⟩
  · exact ⟨hready, hflag⟩

/-- `ensure_message_authenticator()` -/
theorem ensures_ensureMessageAuthenticator (h : Sendable E D p) (w : World) :
    Ensures (ensureMessageAuthenticator E) ⟨p, w⟩
      (fun _ s ↦ Ready E D p s ∧ s.pkt.messageAuthenticator = some true) fun _ _ ↦ True := by
  rw [ensureMessageAuthenticator]
  refine ensures_bind.2 (ensures_get.2 ?_)
  dsimp only
  rw [if_neg (by rw [h.version]; decide)]
  split
  · refine ensures_modify.2 ⟨h.ready ?_ rfl, rfl⟩
    exact ⟨⟨_, _, _, _, rfl⟩, fun _ hi ↦ hi, fun _ ha ↦ ha, (Completes.refl p).drawn, fun _ ↦ rfl⟩
  · exact ensures_addMessageAuthenticator h w

/-- `prepare_request_message_authenticator()`: an Access-Request, if it is required, and a
Status-Server leave with a Message-Authenticator. -/
theorem ensures_prepareRequestMessageAuthenticator (h : Sendable E D p) (required : Bool)
    (w : World) :
    Ensures (prepareRequestMessageAuthenticator E required) ⟨p, w⟩
      (fun _ s ↦ Ready E D p s ∧
        (p.code = PacketType.accessRequest ∧ required = true ∨ p.code = PacketType.statusServer →
          s.pkt.messageAuthenticator = some true) ∧
        (p.code ∉ [PacketType.accessRequest, PacketType.statusServer] → s.pkt = p))
      fun _ _ ↦ True := by
  rw [prepareRequestMessageAuthenticator]
  refine ensures_bind.2 (ensures_get.2 ?_)
  dsimp only
  rw [if_neg (by rw [h.version]; decide)]
  split
  · next hcode =>
    refine ⟨⟨h, .refl p⟩, fun hcalls ↦ absurd ?_ hcode, fun _ ↦ rfl⟩
    rcases hcalls with ⟨haccess, -⟩ | hstatus
    · rw [haccess]
      decide
    · rw [hstatus]
      decide
  · next hcode =>
    split
    · exact (ensures_ensureMessageAuthenticator h w).imp
        (fun _ s hs ↦ ⟨hs.1, fun _ ↦ hs.2, fun hnot ↦ absurd hnot hcode⟩) fun _ _ hfalse ↦ hfalse
    · next hskip =>
      refine ⟨⟨h, .refl p⟩, fun hcalls ↦ absurd ?_ hskip, fun _ ↦ rfl⟩
      rcases hcalls with ⟨-, rfl⟩ | hstatus
      · simp
      · simp [hstatus]

/-! ### The request on the wire -/

/-- The request has gone out as `raw` and left the packet as `q`: with its own authenticator for the
classes that draw one, and with the digest of the bytes for the others. -/
structure RequestPut (E : Env) (p q : Packet) (raw : Bytes) : Prop where
  random : p.cls = .status ∨ p.cls = .auth → ∃ a, p.authenticator = some a ∧
    Puts E p (fun _ _ ↦ (a ++ zeros16).take 16) raw ∧ ∃ attrs, q = { p with attrs }
  digest : p.cls = .acct ∨ p.cls = .coa →
    Puts E p (fun header body ↦ E.md5 (header ++ zeros16 ++ body ++ p.secret)) raw ∧
      ∃ attrs, q = { p with attrs, authenticator := some (wireAuthenticator raw) }

/-- A request without an authenticator goes out with the one that is drawn. -/
theorem ensures_encodeV10RequestWithRandomAuthenticator_drawn (h : Sendable E D p) (w : World) :
    Ensures (encodeV10RequestWithRandomAuthenticator E) ⟨p, w⟩
      (fun raw s ↦ ∃ p' a, Sendable E D p' ∧ Completes p p' ∧ p'.authenticator = some a ∧
        Puts E p' (fun _ _ ↦ (a ++ zeros16).take 16) raw ∧ ∃ attrs, s.pkt = { p' with attrs })
      fun _ _ ↦ True := by
  rcases ha : p.authenticator with - | a
  · let p' : Packet := { p with authenticator := some (w.bytes 16).1 }
    have hcompletes : Completes p p' := by
      refine ⟨⟨_, _, _, _, rfl⟩, fun _ hi ↦ hi, fun a ha' ↦ ?_, fun _ a ha' ↦ ?_, fun hf ↦ hf⟩
      · rw [ha] at ha'
        cases ha'
      · cases ha'
        exact World.length_bytes ..
    have hp' : Sendable E D p' := h.of_completes hcompletes rfl
    have hrun : (encodeV10RequestWithRandomAuthenticator E).run ⟨p, w⟩ =
        (encodeV10RequestWithRandomAuthenticator E).run ⟨p', (w.bytes 16).2⟩ := by
      rw [encodeV10RequestWithRandomAuthenticator,
        run_bind_of_ok (run_ensureAuthenticator_of_none ha w),
        run_bind_of_ok (run_ensureAuthenticator_of_some (p := p') rfl (w.bytes 16).2)]
    rw [Ensures, hrun]
    exact (ensures_encodeV10RequestWithRandomAuthenticator hp' rfl (w.bytes 16).2).imp
      (fun raw s hs ↦ ⟨p', _, hp', hcompletes, rfl, hs⟩) fun _ _ hfalse ↦ hfalse
  · exact (ensures_encodeV10RequestWithRandomAuthenticator h ha w).imp
      (fun raw s hs ↦ ⟨p, a, h, .refl p, ha, hs⟩) fun _ _ hfalse ↦ hfalse

/-- The request has gone out as `raw` and left the packet as `q`, after it was completed. Only
requests with a random authenticator are given one. -/
def RequestGone (E : Env) (D : Dictionary) (p : Packet) (raw : Bytes) (q : Packet) : Prop :=
  ∃ p', Sendable E D p' ∧ Completes p p' ∧ RequestPut E p' q raw ∧
    (p.cls = .acct ∨ p.cls = .coa → p'.authenticator = p.authenticator) ∧
    (p.cls = .status → p.code = PacketType.statusServer → p'.messageAuthenticator = some true)

/-- **A request goes out** as the packet it was completed to. -/
theorem ensures_requestPacket (h : Sendable E D p) (w : World) :
    Ensures (requestPacket E) ⟨p, w⟩
      (fun raw s ↦ RequestGone E D p raw s.pkt) fun _ _ ↦ True := by
  have hother {cls : PacketClass} (hcls : cls = .status ∨ cls = .auth) :
      ¬ (cls = .acct ∨ cls = .coa) := by
    rcases hcls with rfl | rfl <;> decide
  -- the classes that draw an authenticator, and then those that compute it
  have hrandom {s : PacketState} (hs : Ready E D p s) (hcls : p.cls = .status ∨ p.cls = .auth)
      (hflag : p.cls = .status → p.code = PacketType.statusServer →
        s.pkt.messageAuthenticator = some true) :
      Ensures (encodeV10RequestWithRandomAuthenticator E) s
        (fun raw s' ↦ RequestGone E D p raw s'.pkt) fun _ _ ↦ True := by
    refine (ensures_encodeV10RequestWithRandomAuthenticator_drawn hs.1 s.world).imp
      (fun raw s' hs' ↦ ?_) fun _ _ hfalse ↦ hfalse
    obtain ⟨p', a, hp', hcompletes, ha, hputs, hattrs⟩ := hs'
    have htotal := hs.2.trans hcompletes
    refine ⟨p', hp', htotal, ?_, fun hdigest ↦ ?_, fun hstatus hcode ↦
      hcompletes.flag (hflag hstatus hcode)⟩
    · refine ⟨fun _ ↦ ⟨a, ha, hputs, hattrs⟩, fun hdigest ↦ ?_⟩
      rw [htotal.cls_eq] at hdigest
      exact absurd hdigest (hother hcls)
    · exact absurd hdigest (hother hcls)
  have hdigest {s : PacketState} (hs : Ready E D p s) (hcls : p.cls = .acct ∨ p.cls = .coa)
      (hauth : s.pkt.authenticator = p.authenticator) :
      Ensures (encodeV10RequestWithBodyMd5Authenticator E) s
        (fun raw s' ↦ RequestGone E D p raw s'.pkt) fun _ _ ↦ True := by
    have hne : s.pkt.cls ≠ .auth := by
      rw [hs.2.cls_eq]
      rcases hcls with hcls | hcls <;> rw [hcls] <;> decide
    refine (ensures_encodeV10RequestWithBodyMd5Authenticator hs.1 hne s.world).imp
      (fun raw s' hs' ↦ ⟨s.pkt, hs.1, hs.2, ?_, fun _ ↦ hauth, fun hstatus ↦ ?_⟩)
      fun _ _ hfalse ↦ hfalse
    · refine ⟨fun hrandom ↦ ?_, fun _ ↦ hs'⟩
      rw [hs.2.cls_eq] at hrandom
      exact absurd hcls (hother hrandom)
    · exact absurd hcls (hother (.inl hstatus))
  rw [requestPacket]
  refine ensures_bind.2 (ensures_get.2 ?_)
  dsimp only
  split
  · trivial
  next hclass =>
  refine ensures_bind.2 ((ensures_ensureId h w).imp (fun _ s hs ↦ ?_) fun _ _ hfalse ↦ hfalse)
  obtain ⟨hs, hauth⟩ := hs
  rw [if_neg (by rw [h.version]; decide)]
  rcases hcls : p.cls
  · exact absurd hcls hclass
  · -- a Status-Server request gets a Message-Authenticator here
    refine ensures_bind.2 ((ensures_ensureAuthenticator hs.1 s.world).imp (fun _ s' hs' ↦ ?_)
      fun _ _ hfalse ↦ hfalse)
    refine ensures_bind.2 ((ensures_prepareRequestMessageAuthenticator hs'.1.1 false s'.world).imp
      (fun _ s'' hs'' ↦ ?_) fun _ _ hfalse ↦ hfalse)
    refine hrandom ((hs''.1.trans hs'.1.2).trans hs.2) (.inl hcls) fun _ hcode ↦ hs''.2.1 (.inr ?_)
    rw [hs'.1.2.code_eq, hs.2.code_eq, hcode]
  · refine hrandom hs (.inr hcls) fun hstatus ↦ ?_
    rw [hcls] at hstatus
    cases hstatus
  · exact hdigest hs (.inl hcls) hauth
  · exact hdigest hs (.inr hcls) hauth

end

end Packet

end Pyrad2
