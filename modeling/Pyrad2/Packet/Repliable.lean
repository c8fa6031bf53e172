import Pyrad2.Packet.Raises
import Pyrad2.Packet.Refresh
import Pyrad2.Packet.VerifyReply

/-!
# Replies that go out

What can go wrong when a server builds a reply and serializes it.

A reply whose attributes can be encoded and fit is put out, with or without a Message-Authenticator,
but for one step: the digest is stored through the codec for octets, and the codec takes a value that
begins with `0x` for a hexadecimal literal. A digest that begins so and goes on with anything else
makes the serializer raise.
-/

namespace Pyrad2

open EStateM

namespace Packet

/-! ### Room for a Message-Authenticator -/

section

variable {D : Dictionary} {E : Env} {p : Packet}

/-- The entries around a Message-Authenticator go out as they do without it. -/
theorem exists_encodeStored_withMac_of_ok (hD : D.DeclaresMessageAuthenticator)
    (hdict : p.dict = some D) {b v : Bytes} (hv : v.length ≤ 16) (hb : p.encodeStored [] = .ok b) :
    ∃ b', (p.withMac v).encodeStored [] = .ok b' ∧ b'.length ≤ b.length + 18 := by
  have hstored (attrs : Attrs PyVal) : { p with attrs }.encodeStored [] = do
      return (← attrs.entries.mapM (p.encodeEntry [])).flatten := by
    rw [encodeStored_eq]
    rfl
  have hvirtual : p.isVirtualAttribute (.int 80) = false := by
    rw [isVirtualAttribute, hdict]
    exact hD.isVirtualAttribute_eq
  have hmac : p.encodeEntry [] (.int 80, .vals [.bytes v]) =
      .ok (Avp.mk 80 v (by omega)).bytes := by
    rw [encodeEntry, if_neg (by simp [hvirtual]), encodeAvpGroup_code80 hD hdict]
  have hlength : (Avp.mk 80 v (by omega)).bytes.length ≤ 18 := by
    rw [Avp.length_bytes]
    show v.length + 2 ≤ 18
    omega
  obtain ⟨pre, post, hset, -, hold⟩ := p.attrs.exists_split_entries (.int 80)
  have hown : (do return (← p.attrs.entries.mapM (p.encodeEntry [])).flatten) = .ok b :=
    (hstored p.attrs).symm.trans hb
  obtain ⟨parts, hparts, hflat⟩ := Except.bind_eq_ok_iff.1 hown
  cases hflat
  -- what goes out before and behind is part of what went out without it
  obtain ⟨before, after, hpre, hpost, hle⟩ : ∃ before after,
      pre.mapM (p.encodeEntry []) = .ok before ∧ post.mapM (p.encodeEntry []) = .ok after ∧
        before.flatten.length + after.flatten.length ≤ parts.flatten.length := by
    rcases hold with ⟨-, rfl, hentries⟩ | ⟨stored, -, hentries⟩
    · rw [hentries] at hparts
      exact ⟨parts, [], hparts, rfl, le_rfl⟩
    · rw [hentries, List.mapM_append] at hparts
      obtain ⟨before, hpre, hparts⟩ := Except.bind_eq_ok_iff.1 hparts
      obtain ⟨rest, hrest, hparts⟩ := Except.bind_eq_ok_iff.1 hparts
      rw [List.mapM_cons] at hrest
      obtain ⟨part, hpart, hrest⟩ := Except.bind_eq_ok_iff.1 hrest
      obtain ⟨after, hpost, hrest⟩ := Except.bind_eq_ok_iff.1 hrest
      cases hrest
      cases hparts
      refine ⟨before, after, hpre, hpost, ?_⟩
      simp only [List.flatten_append, List.flatten_cons, List.length_append]
      omega
  refine ⟨(before ++ (Avp.mk 80 v (by omega)).bytes :: after).flatten, ?_, ?_⟩
  · refine (hstored _).trans ?_
    rw [hset, List.mapM_append, List.mapM_cons, hpre, hmac, hpost]
    rfl
  · simp only [List.flatten_append, List.flatten_cons, List.length_append]
    omega

/-! ### Replies -/

/-- A reply whose attributes can be encoded and fit, with a Message-Authenticator or without. -/
structure Repliable (D : Dictionary) (p : Packet) : Prop where
  declares : D.DeclaresMessageAuthenticator
  dict : p.dict = some D
  version : p.radiusVersion = .v1_0
  pending : p.deferredObfuscated.entries = []
  code_lt : p.code < 256
  identified : ∃ i, p.id = some i ∧ i < 256
  authenticated : ∃ a, p.authenticator = some a ∧ a ≠ []
  fits : ∃ b, p.encodeStored [] = .ok b ∧ 20 + b.length < 65536
  fitsMac : ∀ v : Bytes, v.length ≤ 16 →
    ∃ b, (p.withMac v).encodeStored [] = .ok b ∧ 20 + b.length < 65536

/-- Which of its fields make a reply one that can go out. -/
theorem Repliable.update (hp : Repliable D p) {code : ℕ} (hcode : code < 256)
    (originalCode : Option ℕ) (token : Option Bytes) (messageAuthenticator : Option Bool)
    (source : Option Address) (dedupKey : Option DedupKey) :
    Repliable D { p with code, originalCode, token, messageAuthenticator, source, dedupKey } where
  declares := hp.declares
  dict := hp.dict
  version := hp.version
  pending := hp.pending
  code_lt := hcode
  identified := hp.identified
  authenticated := hp.authenticated
  fits := hp.fits
  fitsMac := hp.fitsMac

theorem Repliable.withMac (hp : Repliable D p) {v : Bytes} (hv : v.length ≤ 16) :
    Repliable D (p.withMac v) where
  declares := hp.declares
  dict := hp.dict
  version := hp.version
  pending := hp.pending
  code_lt := hp.code_lt
  identified := hp.identified
  authenticated := hp.authenticated
  fits := hp.fitsMac v hv
  fitsMac := fun v' hv' ↦ by
    rw [withMac_withMac]
    exact hp.fitsMac v' hv'

theorem Repliable.exists_packHeader (hp : Repliable D p) {n : ℕ} (hn : 20 + n < 65536) :
    ∃ header, packHeader p.code p.id (20 + n) = .ok header := by
  obtain ⟨i, hi, hlt⟩ := hp.identified
  rw [hi]
  exact ⟨_, if_pos ⟨hp.code_lt, hlt, hn⟩⟩

theorem Repliable.exists_macAuthenticator (hp : Repliable D p) :
    ∃ a, p.macAuthenticator = .ok a := by
  obtain ⟨a, ha, -⟩ := hp.authenticated
  rw [macAuthenticator, ha]
  split
  · exact ⟨_, rfl⟩
  split
  · exact ⟨_, rfl⟩
  · exact ⟨a, rfl⟩

/-! ### The digest -/

/-- The digest that `_refresh_message_authenticator` takes of a packet without pending values. -/
def macDigest (E : Env) (p : Packet) : Except Exn Bytes := do
  let body ← (p.withMac zeros16).encodeStored []
  let header ← packHeader p.code p.id (20 + body.length)
  let authenticator ← p.macAuthenticator
  return E.hmacMd5 p.secret (header ++ authenticator ++ body)

/-- The codec for octets takes the digest. -/
def MacStorable (E : Env) (p : Packet) : Prop :=
  ∀ digest, p.macDigest E = .ok digest → Except.Succeeds (Tools.encodeOctets (.bytes digest))

theorem macDigest_withMac (E : Env) (p : Packet) (v : Bytes) :
    (p.withMac v).macDigest E = p.macDigest E := by
  rw [macDigest, macDigest, withMac_withMac]
  rfl

/-- What the codec for octets makes of a digest is not longer. -/
theorem length_le_of_encodeOctets {digest : Bytes} {v : PyVal}
    (h : Tools.encodeOctets (.bytes digest) = .ok v) :
    ∃ c, v = .bytes c ∧ c.length ≤ digest.length := by
  obtain ⟨c, rfl, ⟨-, hlt⟩ | ⟨-, rfl⟩⟩ := Tools.encodeOctets_bytes_eq_ok h
  · exact ⟨c, rfl, hlt.le⟩
  · exact ⟨c, rfl, le_rfl⟩

theorem zeros16_ne (digits : Bytes) : zeros16 ≠ 0x30 :: 0x78 :: digits := by
  intro h
  cases h

/-- **Refreshing the Message-Authenticator** fails in storing the digest, or not at all. -/
theorem Repliable.ensures_refreshMessageAuthenticator (hp : Repliable D p) (w : World) :
    Ensures (refreshMessageAuthenticator E) ⟨p, w⟩
      (fun _ s ↦ MacStorable E p ∧ ∃ v : Bytes, v.length ≤ 16 ∧ s = p.macState v w)
      fun e _ ↦ e.IsForeign ∧ ¬ MacStorable E p := by
  obtain ⟨body, hbody, hlength⟩ := hp.fitsMac zeros16 (by decide)
  obtain ⟨header, hheader⟩ := hp.exists_packHeader hlength
  obtain ⟨authenticator, hauth⟩ := hp.exists_macAuthenticator
  let digest : Bytes := E.hmacMd5 p.secret (header ++ authenticator ++ body)
  have hdigest : p.macDigest E = .ok digest := by
    rw [macDigest, hbody]
    simp only [Except.bind_of_ok, hheader, hauth]
    rfl
  have hstorable : MacStorable E p ↔ Except.Succeeds (Tools.encodeOctets (.bytes digest)) := by
    refine ⟨fun h ↦ h _ hdigest, fun h digest' heq ↦ ?_⟩
    rw [hdigest] at heq
    cases heq
    exact h
  rw [refreshMessageAuthenticator]
  refine ensures_bind.2 (.of_ok
    (run_setMessageAuthenticator_of_ne hp.declares hp.dict zeros16_ne w) ?_)
  refine ensures_bind.2 (.of_ok
    (run_encodeAttributes_of_ok E (s := p.macState zeros16 w) hp.pending hbody) ?_)
  refine ensures_bind.2 (ensures_get.2 (ensures_bind.2 (.of_ok
    (run_liftM_eq_ok_iff.2 ⟨hheader, rfl⟩) ?_)))
  refine ensures_bind.2 (.of_ok (run_liftM_eq_ok_iff.2 ⟨hauth, rfl⟩) ?_)
  have hset := run_setMessageAuthenticator hp.declares E (s := p.macState zeros16 w) hp.dict digest
  rcases hstore : Tools.encodeOctets (.bytes digest) with e | v
  · rw [hstore] at hset
    refine .of_error hset ⟨(Tools.foreign_encodeOctets _).of_error e hstore, fun h ↦ ?_⟩
    obtain ⟨v, hv⟩ := hstorable.1 h
    rw [hstore] at hv
    cases hv
  · obtain ⟨c, rfl, hle⟩ := length_le_of_encodeOctets hstore
    rw [E.hmacMd5_length] at hle
    rw [hstore] at hset
    refine .of_ok hset ⟨hstorable.2 ⟨_, hstore⟩, c, hle, ?_⟩
    exact congrArg (PacketState.mk · w) (withMac_withMac p zeros16 c)

/-! ### Serializing -/

/-- **A reply goes out**, unless it carries a Message-Authenticator whose digest cannot be stored. -/
theorem Repliable.ensures_replyPacket (hp : Repliable D p) (w : World) :
    Ensures (replyPacket E) ⟨p, w⟩
      (fun _ _ ↦ p.messageAuthenticator = some true → MacStorable E p)
      fun e _ ↦ e.IsForeign ∧ p.messageAuthenticator = some true ∧ ¬ MacStorable E p := by
  obtain ⟨a, ha, hne⟩ := hp.authenticated
  -- from the encoding of the attributes on nothing fails any more
  have hrest (q : Packet) (hq : Repliable D q) (a : Bytes) {Q : Prop} (hQ : Q) {R : Exn → Prop} :
      Ensures (do
        let attr ← encodeAttributes E
        let p := (← get).pkt
        let header ← packHeader p.code p.id (20 + attr.length)
        return header ++ E.md5 (header ++ a ++ attr ++ p.secret) ++ attr) ⟨q, w⟩
        (fun _ _ ↦ Q) fun e _ ↦ R e := by
    obtain ⟨b, hb, hlength⟩ := hq.fits
    obtain ⟨header, hheader⟩ := hq.exists_packHeader hlength
    refine ensures_bind.2 (.of_ok (run_encodeAttributes_of_ok E hq.pending hb) ?_)
    refine ensures_bind.2 (ensures_get.2 (ensures_bind.2 (.of_ok
      (run_liftM_eq_ok_iff.2 ⟨hheader, rfl⟩) ?_)))
    exact hQ
  rw [replyPacket]
  refine ensures_bind.2 (ensures_get.2 ?_)
  dsimp only
  rw [if_neg (by rw [hp.version]; decide), ha]
  rcases a with - | ⟨x, a⟩
  · exact absurd rfl hne
  rw [refreshIfCarried, ensures_bind, ensures_bind]
  refine ensures_get.2 ?_
  split
  · next hflag =>
    refine (hp.ensures_refreshMessageAuthenticator w).imp (fun _ s hs ↦ ?_) fun e _ he ↦ ?_
    · obtain ⟨hstorable, v, hv, rfl⟩ := hs
      exact hrest _ (hp.withMac hv) _ fun _ ↦ hstorable
    · exact ⟨he.1, hflag, he.2⟩
  · next hflag => exact hrest p hp _ fun h ↦ absurd h hflag

/-- The packet with a Message-Authenticator to come. -/
def equipped (p : Packet) : Packet :=
  if p.hasAttribute "Message-Authenticator" 80 then { p with messageAuthenticator := some true }
  else { p with messageAuthenticator := some true }.withMac zeros16

/-- **Making sure of a Message-Authenticator** does not fail. -/
theorem Repliable.run_ensureMessageAuthenticator (hp : Repliable D p) (w : World) :
    (ensureMessageAuthenticator E).run ⟨p, w⟩ = .ok () ⟨p.equipped, w⟩ := by
  obtain ⟨i, hi, -⟩ := hp.identified
  obtain ⟨a, ha, -⟩ := hp.authenticated
  have hversion : p.radiusVersion ≠ .v1_1 := by
    rw [hp.version]
    decide
  let flagged : Packet := { p with messageAuthenticator := some true }
  have hset := run_setMessageAuthenticator_of_ne (E := E) hp.declares (p := flagged) hp.dict
    zeros16_ne w
  have hid : ensureId.run (flagged.macState zeros16 w) = .ok () (flagged.macState zeros16 w) :=
    run_ensureId_of_some (p := flagged.withMac zeros16) hi w
  rw [ensureMessageAuthenticator, Packet.equipped, run_bind_of_ok (run_get _), if_neg hversion]
  split
  · rfl
  rw [addMessageAuthenticator, run_bind_of_ok (run_get _), if_neg hversion]
  have hflag : (modify fun s ↦ { s with pkt := { s.pkt with messageAuthenticator := some true } } :
      PacketMethod PUnit).run ⟨p, w⟩ = .ok ⟨⟩ ⟨flagged, w⟩ := rfl
  rw [run_bind_of_ok hflag, run_bind_of_ok hset, run_bind_of_ok hid, run_bind_of_ok (run_get _)]
  have hsome : ¬ ((flagged.macState zeros16 w).pkt.authenticator.isNone = true ∧
      (flagged.macState zeros16 w).pkt.code ∈ [PacketType.accessRequest, PacketType.statusServer]) := by
    show ¬ (p.authenticator.isNone = true ∧ _)
    rw [ha]
    exact fun h ↦ by cases h.1
  rw [if_neg hsome]
  rfl

theorem Repliable.equipped (hp : Repliable D p) : Repliable D p.equipped := by
  have hflagged := hp.update hp.code_lt p.originalCode p.token (some true) p.source p.dedupKey
  rw [Packet.equipped]
  split
  · exact hflagged
  · exact hflagged.withMac (by decide)

theorem macDigest_equipped (E : Env) (p : Packet) : p.equipped.macDigest E = p.macDigest E := by
  rw [equipped]
  split
  · rfl
  · rw [macDigest_withMac]
    rfl

/-! ### Making a reply -/

/-- A request that can be replied to: it has what a reply takes over from it. -/
structure Answerable (D : Dictionary) (p : Packet) : Prop where
  dict : p.dict = some D
  version : p.radiusVersion = .v1_0
  identified : ∃ i, p.id = some i ∧ i < 256
  authenticated : ∃ a, p.authenticator = some a ∧ a ≠ []

/-- The attributes can be put into a reply, and leave room for a Message-Authenticator. -/
def Fitting (E : Env) (p : Packet) (code : Option ℕ) (attributes : KwAttributes) : Prop :=
  ∀ w, ∃ reply w', (createReply E p code none attributes).run w = .ok reply w' ∧
    ∃ b, reply.encodeStored [] = .ok b ∧ 20 + (b.length + 18) < 65536

/-- Adding attributes to a new reply changes nothing else of it. -/
theorem Answerable.ensures_makeReply (hp : Answerable D p) (cls : PacketClass) (code : ℕ)
    (attributes : KwAttributes) (w : World) :
    Ensures (makeReply E p cls code none attributes) w
      (fun reply _ ↦ ∃ attrs, reply = { p.setReplyContext (p.replyFields cls code) with attrs })
      fun _ _ ↦ True := by
  obtain ⟨i, hi, -⟩ := hp.identified
  obtain ⟨a, ha, -⟩ := hp.authenticated
  have hinit (w : World) : Ensures (init E none attributes) ⟨p.replyFields cls code, w⟩
      (fun _ s ↦ ∃ attrs, s.pkt = { p.replyFields cls code with attrs })
      fun _ _ ↦ True := by
    have hrecodes : Respects Recodes
        (attributes.forM fun kv ↦ addAttribute E (attributeName kv.1) kv.2) :=
      respects_forM fun kv _ ↦ recodes_addAttribute E _ _
    have hadded : Ensures (attributes.forM fun kv ↦ addAttribute E (attributeName kv.1) kv.2)
        ⟨p.replyFields cls code, w⟩ (fun _ s ↦ Recodes ⟨p.replyFields cls code, w⟩ s)
        fun _ s ↦ Recodes ⟨p.replyFields cls code, w⟩ s :=
      ensures_iff_after.2 (hrecodes _)
    rw [init]
    refine ensures_bind.2 (ensures_get.2 ?_)
    rw [if_neg (by rw [replyFields, hi]; exact Bool.false_ne_true)]
    refine ensures_bind.2 (ensures_pure.2 (ensures_bind.2 (ensures_pure.2 ?_)))
    refine hadded.imp (fun _ s hs ↦ ?_) fun _ _ _ ↦ trivial
    obtain ⟨attrs, authenticator, hpkt, hauth⟩ := hs
    refine ⟨attrs, hpkt.trans ?_⟩
    rw [hauth a ha]
    show { p.replyFields cls code with attrs, authenticator := some a } = _
    rw [← ha]
    rfl
  rw [makeReply_eq, construct]
  refine ensures_bind.2 (ensures_bind.2 (ensures_run.2 ((hinit w).imp (fun _ s hs ↦ ?_)
    fun _ _ h ↦ h)))
  obtain ⟨attrs, hpkt⟩ := hs
  exact ⟨attrs, by rw [hpkt]; rfl⟩

/-- The class and the code of a reply fit a packet. -/
theorem Answerable.repliable (hp : Answerable D p) (hD : D.DeclaresMessageAuthenticator)
    {cls : PacketClass} {code : ℕ} (hcode : code < 256) {attrs : Attrs PyVal} {b : Bytes}
    (hb : { p.setReplyContext (p.replyFields cls code) with attrs }.encodeStored [] = .ok b)
    (hlength : 20 + (b.length + 18) < 65536) :
    Repliable D { p.setReplyContext (p.replyFields cls code) with attrs } where
  declares := hD
  dict := hp.dict
  version := hp.version
  pending := rfl
  code_lt := hcode
  identified := hp.identified
  authenticated := hp.authenticated
  fits := ⟨b, hb, by omega⟩
  fitsMac := fun v hv ↦ by
    obtain ⟨b', hb', hle⟩ := exists_encodeStored_withMac_of_ok hD
      (p := { p.setReplyContext (p.replyFields cls code) with attrs }) hp.dict hv hb
    exact ⟨b', hb', by omega⟩

/-- The class and the code that `create_reply` passes on, unless it refuses the code. -/
theorem exists_makeReply_of_createReply {code : Option ℕ} {packet : Option Bytes}
    {attributes : KwAttributes} {w w' : World} {reply : Packet}
    (hcode : ∀ c, code = some c → c < 256)
    (h : (createReply E p code packet attributes).run w = .ok reply w') :
    ∃ cls c, c < 256 ∧ (makeReply E p cls c packet attributes).run w = .ok reply w' := by
  have hgetD {d : ℕ} (hd : d < 256) : code.getD d < 256 := by
    rcases code with - | c
    · exact hd
    · exact hcode c rfl
  unfold createReply at h
  split at h
  · exact ⟨_, _, hgetD (by decide), h⟩
  · exact ⟨_, _, hgetD (by decide), h⟩
  · exact ⟨_, _, by decide, h⟩
  · exact ⟨_, _, by decide, h⟩
  · exact ⟨_, _, by decide, h⟩
  · cases h

/-- **Creating a reply** with attributes that fit makes one that can go out. -/
theorem Answerable.ensures_createReply (hp : Answerable D p) (hD : D.DeclaresMessageAuthenticator)
    {code : Option ℕ} (hcode : ∀ c, code = some c → c < 256) {attributes : KwAttributes}
    (hfitting : Fitting E p code attributes) (w : World) :
    Ensures (createReply E p code none attributes) w (fun reply _ ↦ Repliable D reply)
      fun _ _ ↦ False := by
  obtain ⟨reply, w', hrun, b, hb, hlength⟩ := hfitting w
  refine .of_ok hrun ?_
  obtain ⟨cls, c, hc, hmake⟩ := exists_makeReply_of_createReply hcode hrun
  obtain ⟨attrs, rfl⟩ := (hp.ensures_makeReply cls c attributes w).of_run_eq_ok hmake
  exact hp.repliable hD hc hb hlength

end

end Packet

end Pyrad2
