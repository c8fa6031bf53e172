import Pyrad2.Packet.Refresh

/-!
# Packets on the wire

What the serializers put out: a header, an authenticator and the attributes, with the digest of all
of this in the Message-Authenticator if the packet carries one.

The three serializers of RADIUS/1.0 differ in the authenticator. All of them begin by refreshing the
Message-Authenticator and encoding the attributes, so what this leaves is stated once.
-/

namespace Pyrad2

open EStateM

namespace Packet

/-! ### The parts of a packet -/

/-- The bytes are a header, an authenticator and a body. -/
structure Wire (code : ℕ) (id : Option ℕ) (authenticator body raw : Bytes) : Prop where
  header : packHeader code id raw.length = .ok (raw.take 4)
  authenticator_eq : wireAuthenticator raw = authenticator
  body_eq : raw.drop 20 = body
  length_le : 20 ≤ raw.length

theorem packHeader_eq_ok {code length : ℕ} {id : Option ℕ} {header : Bytes}
    (h : packHeader code id length = .ok header) :
    ∃ i, id = some i ∧ code < 256 ∧ i < 256 ∧ length < 65536 ∧
      header = [UInt8.ofNat code, UInt8.ofNat i] ++ Bytes.ofNatBE 2 length := by
  rcases id with - | i
  · cases h
  · rw [packHeader] at h
    split at h
    · next hfit =>
      cases h
      exact ⟨i, rfl, hfit.1, hfit.2.1, hfit.2.2, rfl⟩
    · cases h

theorem length_header {code length : ℕ} {id : Option ℕ} {header : Bytes}
    (h : packHeader code id length = .ok header) : header.length = 4 := by
  obtain ⟨i, -, -, -, -, rfl⟩ := packHeader_eq_ok h
  rw [List.length_append, Bytes.length_ofNatBE]
  rfl

theorem packV11Header_eq_ok {code length : ℕ} {token : Option Bytes} {header : Bytes}
    (h : packV11Header code length token = .ok header) :
    ∃ front t, packHeader code (some 0) length = .ok front ∧ token = some t ∧ t.length = 4 ∧
      header = front ++ t ++ List.replicate 12 0 := by
  rcases token with - | t
  · cases h
  rw [packV11Header] at h
  split at h
  · cases h
  · next hlength =>
    obtain ⟨front, hfront, heq⟩ := Except.bind_eq_ok_iff.1 h
    cases heq
    exact ⟨front, t, hfront, rfl, not_not.1 hlength, rfl⟩

section

variable {code : ℕ} {id : Option ℕ} {header authenticator body raw : Bytes}

/-- Putting the parts together. -/
theorem wire_append (hheader : packHeader code id (20 + body.length) = .ok header)
    (hauthenticator : authenticator.length = 16) :
    Wire code id authenticator body (header ++ authenticator ++ body) := by
  have hlength := length_header hheader
  have htotal : (header ++ authenticator ++ body).length = 20 + body.length := by
    rw [List.length_append, List.length_append, hlength, hauthenticator]
  have hfront : (header ++ authenticator).length = 20 := by
    rw [List.length_append, hlength, hauthenticator]
  refine ⟨?_, ?_, ?_, by omega⟩
  · rw [htotal, List.append_assoc, List.take_left' hlength]
    exact hheader
  · rw [wireAuthenticator, List.append_assoc, List.drop_left' hlength, List.take_left' hauthenticator]
  · exact List.drop_left' hfront

theorem Wire.wireCode_eq (h : Wire code id authenticator body raw) : wireCode raw = code := by
  obtain ⟨i, -, hcode, -, -, heq⟩ := packHeader_eq_ok h.header
  have htake : raw.take 1 = (raw.take 4).take 1 := by
    rw [List.take_take]
    rfl
  rw [wireCode, htake, heq]
  simp [Bytes.toNatBE, Nat.mod_eq_of_lt hcode]

theorem Wire.id_eq (h : Wire code id authenticator body raw) : id = some (wireId raw) := by
  obtain ⟨i, hid, -, hi, -, heq⟩ := packHeader_eq_ok h.header
  have htake : (raw.drop 1).take 1 = ((raw.take 4).drop 1).take 1 := by
    rw [List.drop_take, List.take_take]
    rfl
  rw [hid, wireId, htake, heq]
  simp [Bytes.toNatBE, Nat.mod_eq_of_lt hi]

theorem Wire.wireLength_eq (h : Wire code id authenticator body raw) :
    wireLength raw = raw.length := by
  obtain ⟨i, -, -, -, hlength, heq⟩ := packHeader_eq_ok h.header
  have htake : (raw.drop 2).take 2 = ((raw.take 4).drop 2).take 2 := by
    rw [List.drop_take, List.take_take]
    rfl
  have hfield : ((raw.take 4).drop 2).take 2 = Bytes.ofNatBE 2 raw.length := by
    rw [heq, List.drop_left' (i := 2) rfl,
      List.take_of_length_le (by rw [Bytes.length_ofNatBE])]
  rw [wireLength, htake, hfield, Bytes.toNatBE_ofNatBE]
  exact hlength

/-- A packet that is not too long is well framed. -/
theorem Wire.framed (h : Wire code id authenticator body raw) (hlength : raw.length ≤ 8192) :
    Framed raw := ⟨h.length_le, h.wireLength_eq.symm, hlength⟩

theorem Wire.ne_nil (h : Wire code id authenticator body raw) : raw ≠ [] := by
  rintro rfl
  exact absurd h.length_le (by decide)

end

/-! ### The attributes that go out -/

/-- The Message-Authenticator of the bytes is the digest of all of them, with `authenticator` in the
place of theirs and the digest zeroed. -/
def Covered (E : Env) (secret authenticator raw : Bytes) : Prop :=
  ∃ m : MacSplit (raw.drop 20),
    m.mac.value = E.hmacMd5 secret (raw.take 4 ++ authenticator ++ m.zeroed)

/-- These are attributes, and none of them has the type. -/
def TypeFree (type : UInt8) (body : Bytes) : Prop :=
  ∃ l, body = Avp.join l ∧ ∀ a ∈ l, a.code ≠ type

/-- What goes out behind a header: attributes with the digest in the Message-Authenticator if the
packet carries one, and none otherwise. The digest is no hexadecimal literal. -/
def Outgoing (E : Env) (p : Packet) (header body : Bytes) : Prop :=
  if p.messageAuthenticator = some true then
    ∃ (m : MacSplit body) (authenticator : Bytes), p.macAuthenticator = .ok authenticator ∧
      m.mac.value = E.hmacMd5 p.secret (header ++ authenticator ++ m.zeroed) ∧
      ∀ digits, m.mac.value ≠ 0x30 :: 0x78 :: digits
  else TypeFree 80 body

/-- A packet to which a Message-Authenticator can be added as it should: the dictionary declares it,
none of the pending values is salt-encrypted, nothing else goes out with its type, it is stored only
along with the flag, and the digest of the packet is stored as it is. -/
structure Sendable (E : Env) (D : Dictionary) (p : Packet) : Prop where
  declares : D.DeclaresMessageAuthenticator
  dict : p.dict = some D
  version : p.radiusVersion = .v1_0
  saltFree : p.SaltFree
  onlyMac : p.OnlyMac
  keepsDigest : KeepsDigest E p
  flagged : p.attrs.contains (.int 80) = true → p.messageAuthenticator = some true

section

variable {E : Env} {D : Dictionary} {p : Packet}

theorem ensures_refreshIfCarried (hp : Sendable E D p)
    (hauth : p.cls = .auth → p.authenticator.isSome = true)
    (hflag : p.messageAuthenticator = some true) (w : World) :
    Ensures (refreshIfCarried E) ⟨p, w⟩
      (fun _ s ↦ ∃ (m : MacFrame E p) (header authenticator : Bytes),
        packHeader p.code p.id (20 + m.zeroed.length) = .ok header ∧
        p.macAuthenticator = .ok authenticator ∧
        (∀ digits, E.hmacMd5 p.secret (header ++ authenticator ++ m.zeroed) ≠
          0x30 :: 0x78 :: digits) ∧
        s = p.macState (E.hmacMd5 p.secret (header ++ authenticator ++ m.zeroed)) w)
      fun _ _ ↦ True := by
  rw [refreshIfCarried]
  refine ensures_bind.2 (ensures_get.2 ?_)
  rw [if_pos hflag]
  exact ensures_refreshMessageAuthenticator hp.declares hp.dict hauth hp.saltFree
    hp.onlyMac hp.keepsDigest.digestKept w

/-- None of the attributes goes out with the type. -/
structure FreeOf (type : UInt8) (p : Packet) : Prop where
  stored : ∀ e ∈ p.attrs.entries, p.isVirtualAttribute e.1 = true ∨
    Emits (· ≠ type) (p.encodeAvpGroup e.1 e.2)
  pending : ∀ keys, p.deferredAttributeCodes = .ok keys →
    ∀ key ∈ keys, wireType p.dict key ≠ type.toNat

/-- What goes out has none of a type that no attribute goes out with. -/
theorem ensures_encodeAttributes_typeFree {type : UInt8} (hfree : p.FreeOf type) (w : World) :
    Ensures (encodeAttributes E) ⟨p, w⟩ (fun b _ ↦ TypeFree type b) fun _ _ ↦ True := by
  rw [encodeAttributes]
  refine ensures_bind.2 (ensures_get.2 (ensures_bind.2 (ensures_liftM (fun keys hkeys ↦ ?_)
    fun _ _ ↦ trivial)))
  refine ensures_bind.2 (ensures_liftM (fun stored hstored ↦ ?_) fun _ _ ↦ trivial)
  refine ensures_bind.2 ((ensures_encodeDeferredObfuscated E (s := ⟨p, w⟩) hkeys).imp
    (fun pending s hpending ↦ ?_) fun _ _ h ↦ h)
  rw [encodeStored_eq] at hstored
  obtain ⟨parts, hparts, heq⟩ := Except.bind_eq_ok_iff.1 hstored
  cases heq
  have hemits : ∀ part ∈ parts, ∃ avps, part = Avp.join avps ∧ ∀ a ∈ avps, a.code ≠ type := by
    intro part hpart
    obtain ⟨e, he, hencode⟩ := Except.exists_of_mem_mapM hparts hpart
    rw [encodeEntry] at hencode
    split at hencode
    · exact (emits_nil (P := (· ≠ type))).exists_avps part hencode
    · next hgoes =>
      rcases hfree.stored e he with hvirtual | hemits
      · exact absurd (.inr hvirtual) hgoes
      · exact hemits.exists_avps part hencode
  obtain ⟨l, hl, hcodes⟩ := exists_avps_flatten (P := fun a ↦ a.code ≠ type) hemits
  obtain ⟨l', rfl, hcodes'⟩ := hpending
  refine ⟨l ++ l', by rw [hl, Avp.join_append], fun a ha ↦ ?_⟩
  rcases List.mem_append.1 ha with ha | ha
  · exact hcodes a ha
  · obtain ⟨key, hkey, hcode⟩ := hcodes' a ha
    intro htype
    rw [IsCode, htype] at hcode
    exact hfree.pending keys hkeys key hkey hcode.symm

/-- A packet without a Message-Authenticator puts none out. -/
theorem OnlyMac.freeOf (honly : p.OnlyMac) (hnone : p.attrs.contains (.int 80) = false) :
    p.FreeOf 80 where
  stored := by
    refine fun e he ↦ honly.stored e he fun h80 ↦ ?_
    have hget : p.attrs.get? (.int 80) = some e.2 :=
      OrderedDict.get?_eq_some_iff.2 (by rwa [← h80])
    rw [OrderedDict.contains, hget] at hnone
    cases hnone
  pending := honly.pending

/-- **What the serializers begin with**: the header and the attributes that go out. -/
theorem ensures_checked (hp : Sendable E D p)
    (hauth : p.cls = .auth → p.authenticator.isSome = true) (w : World)
    {f : Packet → Bytes → Bytes → PacketMethod Bytes} {Q : Bytes → PacketState → Prop}
    (hf : ∀ header body s, packHeader p.code p.id (20 + body.length) = .ok header →
      Outgoing E p header body → Recodes ⟨p, w⟩ s →
      Ensures (f s.pkt header body) s Q fun _ _ ↦ True) :
    Ensures (do
      refreshIfCarried E
      let body ← encodeAttributes E
      let q := (← get).pkt
      let header ← packHeader q.code q.id (20 + body.length)
      f q header body) ⟨p, w⟩ Q fun _ _ ↦ True := by
  by_cases hflag : p.messageAuthenticator = some true
  · refine ensures_bind.2 ((ensures_refreshIfCarried hp hauth hflag w).imp (fun _ s hs ↦ ?_)
      fun _ _ h ↦ h)
    obtain ⟨m, header, authenticator, hheader, hauthenticator, hdigits, rfl⟩ := hs
    -- the second encoding has the digest where the first one had zeros
    have hdigest : (E.hmacMd5 p.secret (header ++ authenticator ++ m.zeroed)).length = 16 :=
      E.hmacMd5_length _ _
    refine ensures_bind.2 (.of_ok (m.run_eq _ w hdigest) ?_)
    refine ensures_bind.2 (ensures_get.2 (ensures_bind.2 (ensures_liftM (fun header' hheader' ↦ ?_)
      fun _ _ ↦ trivial)))
    have hsame : header' = header := by
      have hlength : 20 + (m.body hdigest).length = 20 + m.zeroed.length := by
        rw [m.length_body hdigest]
      change packHeader p.code p.id (20 + (m.body hdigest).length) = .ok header' at hheader'
      rw [hlength, hheader] at hheader'
      exact (Except.ok.inj hheader').symm
    refine hf header' _ _ hheader' ?_ ⟨_, p.authenticator, rfl, fun _ ha ↦ ha⟩
    rw [Outgoing, if_pos hflag, hsame]
    exact ⟨m.split hdigest, authenticator, hauthenticator, rfl, hdigits⟩
  · have hnone : p.attrs.contains (.int 80) = false := by
      rw [Bool.eq_false_iff]
      exact fun h ↦ hflag (hp.flagged h)
    have hskip : (refreshIfCarried E).run ⟨p, w⟩ = .ok () ⟨p, w⟩ := by
      rw [refreshIfCarried]
      simp [hflag]
    refine ensures_bind.2 (.of_ok hskip (ensures_bind.2 ?_))
    have hencode := ensures_encodeAttributes_typeFree (E := E) (hp.onlyMac.freeOf hnone) w
    have hrecodes := recodes_encodeAttributes E ⟨p, w⟩
    rw [Ensures] at hencode ⊢
    rcases hrun : (encodeAttributes E).run ⟨p, w⟩ with ⟨body, s⟩ | ⟨e, s⟩
    · rw [hrun] at hencode
      rw [after_of_ok hrun] at hrecodes
      have hfields : s.pkt.code = p.code ∧ s.pkt.id = p.id := by
        obtain ⟨attrs, authenticator, hpkt, -⟩ := hrecodes
        rw [hpkt]
        exact ⟨rfl, rfl⟩
      refine ensures_bind.2 (ensures_get.2 (ensures_bind.2 (ensures_liftM (fun header hheader ↦ ?_)
        fun _ _ ↦ trivial)))
      rw [hfields.1, hfields.2] at hheader
      refine hf header body s hheader ?_ hrecodes
      rw [Outgoing, if_neg hflag]
      exact hencode
    · trivial

/-! ### Serializers -/

/-- The bytes are what goes out of the packet, with an authenticator made of the header and the
attributes. -/
def Puts (E : Env) (p : Packet) (authenticator : Bytes → Bytes → Bytes) (raw : Bytes) : Prop :=
  ∃ body, Wire p.code p.id (authenticator (raw.take 4) body) body raw ∧
    Outgoing E p (raw.take 4) body

theorem puts_append (authenticator : Bytes → Bytes → Bytes) {header body : Bytes}
    (hheader : packHeader p.code p.id (20 + body.length) = .ok header)
    (hbody : Outgoing E p header body) (hlength : (authenticator header body).length = 16) :
    Puts E p authenticator (header ++ authenticator header body ++ body) := by
  have htake : (header ++ authenticator header body ++ body).take 4 = header := by
    rw [List.append_assoc, List.take_left' (length_header hheader)]
  refine ⟨body, ?_, ?_⟩
  · rw [htake]
    exact wire_append hheader hlength
  · rw [htake]
    exact hbody

/-- A packet with its authenticator has it drawn no more. -/
theorem run_ensureAuthenticator_of_some {a : Bytes} (ha : p.authenticator = some a) (w : World) :
    ensureAuthenticator.run ⟨p, w⟩ = .ok () ⟨p, w⟩ := by
  rw [ensureAuthenticator]
  simp [ha]

theorem run_ensureAuthenticator_of_none (hnone : p.authenticator = none) (w : World) :
    ensureAuthenticator.run ⟨p, w⟩ =
      .ok () ⟨{ p with authenticator := some (w.bytes 16).1 }, (w.bytes 16).2⟩ := by
  rw [ensureAuthenticator]
  simp [hnone]
  rfl

theorem pkt_of_recodes {s : PacketState} {w : World} {a : Bytes} (ha : p.authenticator = some a)
    (h : Recodes ⟨p, w⟩ s) : ∃ attrs, s.pkt = { p with attrs } := by
  obtain ⟨attrs, authenticator, hpkt, hauth⟩ := h
  refine ⟨attrs, ?_⟩
  rw [hpkt, hauth a ha, ← ha]

/-- `_encode_v10_request_with_random_authenticator` of a packet that has its authenticator. -/
theorem ensures_encodeV10RequestWithRandomAuthenticator (hp : Sendable E D p) {a : Bytes}
    (ha : p.authenticator = some a) (w : World) :
    Ensures (encodeV10RequestWithRandomAuthenticator E) ⟨p, w⟩
      (fun raw s ↦ Puts E p (fun _ _ ↦ (a ++ zeros16).take 16) raw ∧ ∃ attrs, s.pkt = { p with attrs })
      fun _ _ ↦ True := by
  rw [encodeV10RequestWithRandomAuthenticator]
  refine ensures_bind.2 (.of_ok (run_ensureAuthenticator_of_some ha w) ?_)
  refine ensures_checked hp (fun _ ↦ by rw [ha]; rfl) w (f := fun q header body ↦ do
    let authenticator ← concatOperand q.authenticator
    return header ++ (authenticator ++ zeros16).take 16 ++ body) fun header body s hheader hbody hs ↦ ?_
  obtain ⟨attrs, hpkt⟩ := pkt_of_recodes ha hs
  have hoperand : concatOperand s.pkt.authenticator = .ok a := by
    rw [hpkt]
    change concatOperand p.authenticator = .ok a
    rw [ha]
    rfl
  rw [hoperand]
  refine ensures_pure.2 ⟨?_, attrs, hpkt⟩
  refine puts_append (fun _ _ ↦ (a ++ zeros16).take 16) hheader hbody ?_
  rw [List.length_take, List.length_append, List.length_replicate]
  omega

/-- `_encode_v10_request_with_body_md5_authenticator` -/
theorem ensures_encodeV10RequestWithBodyMd5Authenticator (hp : Sendable E D p)
    (hcls : p.cls ≠ .auth) (w : World) :
    Ensures (encodeV10RequestWithBodyMd5Authenticator E) ⟨p, w⟩
      (fun raw s ↦ Puts E p (fun header body ↦ E.md5 (header ++ zeros16 ++ body ++ p.secret)) raw ∧
        ∃ attrs, s.pkt = { p with attrs, authenticator := some (wireAuthenticator raw) })
      fun _ _ ↦ True := by
  rw [encodeV10RequestWithBodyMd5Authenticator]
  refine ensures_checked hp (fun h ↦ absurd h hcls) w (f := fun q header body ↦ do
    let authenticator := E.md5 (header ++ zeros16 ++ body ++ q.secret)
    modify fun s ↦ { s with pkt := { s.pkt with authenticator := some authenticator } }
    return header ++ authenticator ++ body) fun header body s hheader hbody hs ↦ ?_
  obtain ⟨attrs, authenticator, hpkt, -⟩ := hs
  have hsecret : s.pkt.secret = p.secret := by rw [hpkt]
  dsimp only
  rw [hsecret]
  refine ensures_bind.2 (ensures_modify.2 (ensures_pure.2 ?_))
  have hputs := puts_append (fun header body ↦ E.md5 (header ++ zeros16 ++ body ++ p.secret)) hheader
    hbody (E.md5_length _)
  have hdigest : wireAuthenticator (header ++ E.md5 (header ++ zeros16 ++ body ++ p.secret) ++ body) =
      E.md5 (header ++ zeros16 ++ body ++ p.secret) := by
    rw [wireAuthenticator, List.append_assoc header, List.drop_left' (length_header hheader),
      List.take_left' (E.md5_length _)]
  refine ⟨hputs, attrs, ?_⟩
  rw [hdigest, hpkt]

/-- `reply_packet()` under RADIUS/1.0. -/
theorem ensures_replyPacket (hp : Sendable E D p) (w : World) :
    Ensures (replyPacket E) ⟨p, w⟩
      (fun raw _ ↦ ∃ a, p.authenticator = some a ∧
        Puts E p (fun header body ↦ E.md5 (header ++ a ++ body ++ p.secret)) raw)
      fun _ _ ↦ True := by
  rw [replyPacket]
  refine ensures_bind.2 (ensures_get.2 ?_)
  dsimp only
  rw [if_neg (by rw [hp.version]; decide)]
  rcases ha : p.authenticator with - | ⟨- | ⟨b, a⟩⟩
  · trivial
  · trivial
  · refine ensures_checked hp (fun _ ↦ by rw [ha]; rfl) w (f := fun q header body ↦
      return header ++ E.md5 (header ++ (b :: a) ++ body ++ q.secret) ++ body)
      fun header body s hheader hbody hs ↦ ?_
    obtain ⟨attrs, hpkt⟩ := pkt_of_recodes ha hs
    have hsecret : s.pkt.secret = p.secret := by rw [hpkt]
    rw [hsecret]
    refine ensures_pure.2 ⟨b :: a, rfl, ?_⟩
    exact puts_append (fun header body ↦ E.md5 (header ++ (b :: a) ++ body ++ p.secret)) hheader hbody
      (E.md5_length _)

end

end Packet

end Pyrad2
