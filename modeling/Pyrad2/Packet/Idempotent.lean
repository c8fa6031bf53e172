import Pyrad2.Packet.MacCoverage
import Pyrad2.Packet.Sending

/-!
# Serializing twice

A packet that has been serialized is as serializing leaves it: serializing it again returns the same
bytes and changes nothing.

What the first call writes is the identifier, the authenticator and the Message-Authenticator. Each
is written once or from the rest of the packet, so the second call finds what it would write. This
rests on the digest: a digest of an authenticator that is replaced afterwards is taken of another one
the next time.
-/

namespace Pyrad2

open EStateM

namespace Packet

/-! ### The packet again -/

/-- Under RADIUS/1.0 the Message-Authenticator is not salt-encrypted. -/
def PlainMac (p : Packet) : Prop :=
  p.radiusVersion = .v1_0 → ∀ D, p.dict = some D → ∀ attr,
    D.lookup "Message-Authenticator" = .ok attr → attr.encrypt ≠ 2

/-- The stored attributes but for the Message-Authenticator. -/
def otherAttributes (p : Packet) : Attrs PyVal :=
  match p.encodeKey "Message-Authenticator" with
  | .ok key => p.attrs.erase key
  | .error _ => p.attrs

theorem otherAttributes_set {p : Packet} {key : Key}
    (hkey : p.encodeKey "Message-Authenticator" = .ok key) (stored : Stored PyVal) :
    { p with attrs := p.attrs.set key stored }.otherAttributes = p.otherAttributes := by
  have hown : { p with attrs := p.attrs.set key stored }.encodeKey "Message-Authenticator" =
      .ok key := hkey
  rw [otherAttributes, otherAttributes, hown, hkey]
  exact OrderedDict.erase_set _ _ _

/-- Whenever it is called, the method returns `a` and leaves the packet as it is. -/
def Settled {α : Type} (m : PacketMethod α) (a : α) (p : Packet) : Prop :=
  ∀ w, m.run ⟨p, w⟩ = .ok a ⟨p, w⟩

section

variable {E : Env} {p : Packet} {w : World}

theorem recoding_refl (p : Packet) : Recoding p p :=
  ⟨⟨p.id, p.authenticator, p.messageAuthenticator, p.attrs, rfl⟩, fun _ ↦ rfl⟩

/-- The attributes go out the same under another authenticator, unless it hides a password. -/
theorem run_encodeAttributes_again (h : p.Repeatable) {body : Bytes} {s : PacketState}
    (hrun : (encodeAttributes E).run ⟨p, w⟩ = .ok body s) :
    s = ⟨p, w⟩ ∧ ∀ q w', Recoding p q → q.attrs = p.attrs →
      (encodeAttributes E).run ⟨q, w'⟩ = .ok body ⟨q, w'⟩ := by
  have huniform : Uniform (fun i : { t : PacketState // Recoding p t.pkt ∧ t.pkt.attrs = p.attrs } ↦
      i.1) (encodeAttributes E) := uniform_encodeAttributes (fun i ↦ i.2.1) h fun i ↦ i.2.2
  obtain ⟨x, hx⟩ := huniform.exists_outcome
  have hfirst := hx ⟨⟨p, w⟩, recoding_refl p, rfl⟩
  rw [hrun] at hfirst
  rcases x with e | body'
  · cases hfirst
  · cases hfirst
    exact ⟨rfl, fun q w' hq hattrs ↦ hx ⟨⟨q, w'⟩, hq, hattrs⟩⟩

/-- Assigning the Message-Authenticator stores the same under the same key, wherever it is done. -/
theorem exists_run_setMessageAuthenticator (h : p.PlainMac) (v : PyVal) :
    (∃ e, ∀ q w, Recoding p q → (setMessageAuthenticator E v).run ⟨q, w⟩ = .error e ⟨q, w⟩) ∨
      ∃ key stored, p.encodeKey "Message-Authenticator" = .ok key ∧ ∀ q w, Recoding p q →
        (setMessageAuthenticator E v).run ⟨q, w⟩ =
          .ok () ⟨{ q with attrs := q.attrs.set key stored }, w⟩ := by
  have huniform : Uniform (fun i : { t : PacketState // Recoding p t.pkt } ↦ i.1)
      (encodeKeyValues E "Message-Authenticator" [v]) := by
    have hvalues : Uniform (fun i : { t : PacketState // Recoding p t.pkt } ↦ i.1) (do
        let D ← p.theDict
        let attr ← D.lookup "Message-Authenticator"
        let key ← D.encodeKey "Message-Authenticator"
        return (key, ← [v].mapM (encodeValue E attr)) : PacketMethod (Key × List PyVal)) := by
      refine uniform_liftM_bind fun D hD ↦ uniform_liftM_bind fun attr hattr ↦
        (uniform_liftM _).bind fun key ↦ ?_
      have hencrypt : attr.encrypt = 2 → p.radiusVersion = .v1_1 := by
        intro h2
        by_contra hversion
        exact h (not_v11 hversion) D (dict_of_theDict hD) attr hattr h2
      exact (uniform_mapM fun v _ ↦ uniform_encodeValue (fun i ↦ i.2) hencrypt v).bind fun _ ↦
        uniform_pure _
    rw [encodeKeyValues, partitionTag_messageAuthenticator]
    refine uniform_get_bind hvalues fun i ↦ ?_
    rw [i.2.theDict_eq]
    rfl
  obtain ⟨x, hx⟩ := huniform.exists_outcome
  have hset : setMessageAuthenticator E v = encodeKeyValues E "Message-Authenticator" [v] >>=
      fun kv ↦ store kv.1 (.vals kv.2) := rfl
  rcases x with e | kv
  · refine .inl ⟨e, fun q w hq ↦ ?_⟩
    rw [hset]
    exact run_bind_of_error (hx ⟨⟨q, w⟩, hq⟩)
  · have hkey := (ensures_encodeKeyValues E "Message-Authenticator" [v] ⟨p, default⟩).of_run_eq_ok
      (hx ⟨⟨p, default⟩, recoding_refl p⟩)
    rw [partitionTag_messageAuthenticator] at hkey
    refine .inr ⟨kv.1, .vals kv.2, hkey, fun q w hq ↦ ?_⟩
    rw [hset, run_bind_of_ok (hx ⟨⟨q, w⟩, hq⟩)]
    rfl

theorem Recoding.repeatable {q : Packet} (hq : Recoding p q) (h : p.Repeatable) : q.Repeatable where
  authenticated := fun hversion hcls ↦ by
    have hpcls : p.cls = .auth := hq.cls_eq ▸ hcls
    rw [hq.authenticator_eq hpcls]
    exact h.authenticated (hq.radiusVersion_eq ▸ hversion) hpcls
  saltFree := fun hversion D hD e he ↦ by
    rw [hq.deferredObfuscated_eq] at he
    exact h.saltFree (hq.radiusVersion_eq ▸ hversion) D (hq.dict_eq ▸ hD) e he

/-- **Refreshing again** finds the digest in its place, provided the authenticator that enters it is
the same. -/
theorem run_refreshMessageAuthenticator_again (h : p.Repeatable) (hmac : p.PlainMac)
    {s : PacketState} (hrun : (refreshMessageAuthenticator E).run ⟨p, w⟩ = .ok () s) :
    ∃ key stored, p.encodeKey "Message-Authenticator" = .ok key ∧
      s = ⟨{ p with attrs := p.attrs.set key stored }, w⟩ ∧
      ∀ a, (p.cls = .auth → a = p.authenticator) →
        { p with authenticator := a }.macAuthenticator = p.macAuthenticator →
        Settled (refreshMessageAuthenticator E) ()
          { p with attrs := p.attrs.set key stored, authenticator := a } := by
  rw [refreshMessageAuthenticator] at hrun
  obtain ⟨⟨⟩, s₀, hzeros, hrun⟩ := run_bind_eq_ok_iff.1 hrun
  rcases exists_run_setMessageAuthenticator (E := E) hmac (.bytes zeros16) with
    ⟨e, herror⟩ | ⟨key, zeroed, hkey, hsetZeros⟩
  · rw [herror p w (recoding_refl p)] at hzeros
    cases hzeros
  rw [hsetZeros p w (recoding_refl p)] at hzeros
  cases hzeros
  have hzeroed (a : Option Bytes) (ha : p.cls = .auth → a = p.authenticator) (attrs : Attrs PyVal) :
      Recoding p { p with attrs, authenticator := a } :=
    ⟨⟨p.id, a, p.messageAuthenticator, attrs, rfl⟩, ha⟩
  have hrepeatable := (hzeroed p.authenticator (fun _ ↦ rfl) (p.attrs.set key zeroed)).repeatable h
  obtain ⟨body, s₁, hbody, hrun⟩ := run_bind_eq_ok_iff.1 hrun
  obtain ⟨rfl, hagain⟩ := run_encodeAttributes_again hrepeatable hbody
  obtain ⟨_, s₂, hget, hrun⟩ := run_bind_eq_ok_iff.1 hrun
  cases hget
  obtain ⟨header, s₃, hpack, hrun⟩ := run_bind_eq_ok_iff.1 hrun
  obtain ⟨hheader, rfl⟩ := run_liftM_eq_ok_iff.1 hpack
  obtain ⟨authenticator, s₄, hchoose, hrun⟩ := run_bind_eq_ok_iff.1 hrun
  obtain ⟨hauth, rfl⟩ := run_liftM_eq_ok_iff.1 hchoose
  rcases exists_run_setMessageAuthenticator (E := E) hmac
    (.bytes (E.hmacMd5 p.secret (header ++ authenticator ++ body))) with
    ⟨e, herror⟩ | ⟨key', stored, hkey', hsetDigest⟩
  · have hfails := herror _ w (hzeroed p.authenticator (fun _ ↦ rfl) (p.attrs.set key zeroed))
    rw [hfails] at hrun
    cases hrun
  have hsame : key' = key := Except.ok.inj (hkey'.symm.trans hkey)
  subst hsame
  have hdigest := hsetDigest _ w (hzeroed p.authenticator (fun _ ↦ rfl) (p.attrs.set key' zeroed))
  have hs := hrun.symm.trans hdigest
  rw [OrderedDict.set_set] at hs
  refine ⟨key', stored, hkey, (Result.ok.inj hs).2, fun a ha hown w ↦ ?_⟩
  -- the digest stored gives way to zeros, and the rest is as it was the first time
  have hback : (setMessageAuthenticator E (.bytes zeros16)).run
      ⟨{ p with attrs := p.attrs.set key' stored, authenticator := a }, w⟩ =
      .ok () ⟨{ p with attrs := p.attrs.set key' zeroed, authenticator := a }, w⟩ := by
    rw [hsetZeros _ w (hzeroed a ha (p.attrs.set key' stored)), OrderedDict.set_set]
  have hfront : (setMessageAuthenticator E (.bytes (E.hmacMd5 p.secret
      (header ++ authenticator ++ body)))).run
      ⟨{ p with attrs := p.attrs.set key' zeroed, authenticator := a }, w⟩ =
      .ok () ⟨{ p with attrs := p.attrs.set key' stored, authenticator := a }, w⟩ := by
    rw [hsetDigest _ w (hzeroed a ha (p.attrs.set key' zeroed)), OrderedDict.set_set]
  have hencode : (encodeAttributes E).run
      ⟨{ p with attrs := p.attrs.set key' zeroed, authenticator := a }, w⟩ =
      .ok body ⟨{ p with attrs := p.attrs.set key' zeroed, authenticator := a }, w⟩ :=
    hagain _ w ⟨⟨p.id, a, p.messageAuthenticator, p.attrs.set key' zeroed, rfl⟩, ha⟩ rfl
  have hmacAuthenticator : ({ p with attrs := p.attrs.set key' zeroed, authenticator := a } :
      Packet).macAuthenticator = .ok authenticator := hown.trans hauth
  rw [refreshMessageAuthenticator, run_bind_of_ok hback, run_bind_of_ok hencode]
  simp only [run_bind, run_get, hheader, hmacAuthenticator, run_liftM_ok]
  exact hfront

/-- The packet with another Message-Authenticator at most. -/
structure Refreshed (p q : Packet) : Prop where
  exists_eq : ∃ attrs, q = { p with attrs }
  others : q.otherAttributes = p.otherAttributes

/-- The packet goes out with a Message-Authenticator, and has one. -/
structure Carried (p : Packet) : Prop where
  flag : p.messageAuthenticator = some true
  stored : p.hasAttribute "Message-Authenticator" 80 = true

theorem refreshed_refl (p : Packet) : Refreshed p p := ⟨⟨p.attrs, rfl⟩, rfl⟩

theorem Refreshed.trans {q q' : Packet} (h : Refreshed p q) (h' : Refreshed q q') :
    Refreshed p q' := by
  have hothers := h'.others.trans h.others
  obtain ⟨attrs, rfl⟩ := h.exists_eq
  obtain ⟨attrs', rfl⟩ := h'.exists_eq
  exact ⟨⟨attrs', rfl⟩, hothers⟩

theorem Refreshed.authenticator_eq {q : Packet} (h : Refreshed p q) :
    q.authenticator = p.authenticator := by
  obtain ⟨attrs, rfl⟩ := h.exists_eq
  rfl

theorem Refreshed.recoding {q : Packet} (h : Refreshed p q) : Recoding p q := by
  obtain ⟨attrs, rfl⟩ := h.exists_eq
  exact ⟨⟨p.id, p.authenticator, p.messageAuthenticator, attrs, rfl⟩, fun _ ↦ rfl⟩

theorem hasAttribute_set {key : Key} {name : String} (hkey : p.encodeKey name = .ok key)
    (stored : Stored PyVal) (code : Int) :
    { p with attrs := p.attrs.set key stored }.hasAttribute name code = true := by
  have hown : { p with attrs := p.attrs.set key stored }.encodeKey name = .ok key := hkey
  have hcontains : { p with attrs := p.attrs.set key stored }.contains name = .ok true := by
    rw [contains, hown]
    dsimp only
    rw [OrderedDict.contains, OrderedDict.get?_set_self]
    rfl
  rw [hasAttribute, hcontains]

theorem run_refreshIfCarried_again (h : p.Repeatable)
    (hmac : p.messageAuthenticator = some true → p.PlainMac) {s : PacketState}
    (hrun : (refreshIfCarried E).run ⟨p, w⟩ = .ok () s) :
    ∃ q, Refreshed p q ∧ s = ⟨q, w⟩ ∧
      (Carried q ∨ q = p ∧ p.messageAuthenticator ≠ some true) ∧ ∀ a, (p.cls = .auth → a = p.authenticator) →
      (p.messageAuthenticator = some true →
        { p with authenticator := a }.macAuthenticator = p.macAuthenticator) →
      Settled (refreshIfCarried E) () { q with authenticator := a } := by
  have hrefresh (q : Packet) (w : World) : (refreshIfCarried E).run ⟨q, w⟩ =
      if q.messageAuthenticator = some true then (refreshMessageAuthenticator E).run ⟨q, w⟩
      else .ok () ⟨q, w⟩ := by
    rw [refreshIfCarried]
    simp only [run_bind, run_get]
    split <;> rfl
  rw [hrefresh] at hrun
  split at hrun
  · next hflag =>
    obtain ⟨key, stored, hkey, rfl, hagain⟩ := run_refreshMessageAuthenticator_again h (hmac hflag) hrun
    refine ⟨_, ⟨⟨_, rfl⟩, otherAttributes_set hkey stored⟩, rfl,
      .inl ⟨hflag, hasAttribute_set hkey stored 80⟩, fun a ha hown w ↦ ?_⟩
    rw [hrefresh]
    exact (if_pos hflag).trans (hagain a ha (hown hflag) w)
  · next hflag =>
    cases hrun
    refine ⟨p, refreshed_refl p, rfl, .inr ⟨rfl, hflag⟩, fun a _ _ w ↦ ?_⟩
    rw [hrefresh]
    exact if_neg hflag

theorem Refreshed.settled {q : Packet} (hq : Refreshed p q)
    (hagain : ∀ a, (p.cls = .auth → a = p.authenticator) → (p.messageAuthenticator = some true →
      { p with authenticator := a }.macAuthenticator = p.macAuthenticator) →
      Settled (refreshIfCarried E) () { q with authenticator := a }) :
    Settled (refreshIfCarried E) () q := by
  have hsame := hagain p.authenticator (fun _ ↦ rfl) fun _ ↦ rfl
  rwa [← hq.authenticator_eq] at hsame

/-! ### The serializers -/

/-- `_encode_v10_request_with_random_authenticator` again. -/
theorem run_encodeV10RequestWithRandomAuthenticator_again (h : p.Repeatable)
    (hmac : p.messageAuthenticator = some true → p.PlainMac) {a : Bytes}
    (ha : p.authenticator = some a) {b : Bytes} {s : PacketState}
    (hrun : (encodeV10RequestWithRandomAuthenticator E).run ⟨p, w⟩ = .ok b s) :
    ∃ q, Refreshed p q ∧ s = ⟨q, w⟩ ∧
      (Carried q ∨ q = p ∧ p.messageAuthenticator ≠ some true) ∧
      Settled (encodeV10RequestWithRandomAuthenticator E) b q := by
  rw [encodeV10RequestWithRandomAuthenticator, run_bind_of_ok (run_ensureAuthenticator_of_some ha w)]
    at hrun
  obtain ⟨⟨⟩, s₁, hrefresh, hrun⟩ := run_bind_eq_ok_iff.1 hrun
  obtain ⟨q, hq, rfl, hcarried, hagain⟩ := run_refreshIfCarried_again h hmac hrefresh
  obtain ⟨body, s₂, hbody, hrest⟩ := run_bind_eq_ok_iff.1 hrun
  obtain ⟨rfl, hencode⟩ := run_encodeAttributes_again (hq.recoding.repeatable h) hbody
  have hqa := hq.authenticator_eq
  obtain ⟨_, s₃, hget, hrest⟩ := run_bind_eq_ok_iff.1 hrest
  cases hget
  obtain ⟨header, s₄, hpack, hrest⟩ := run_bind_eq_ok_iff.1 hrest
  obtain ⟨hfits, rfl⟩ := run_liftM_eq_ok_iff.1 hpack
  obtain ⟨authenticator, s₅, hoperand, hrest⟩ := run_bind_eq_ok_iff.1 hrest
  obtain ⟨hown, rfl⟩ := run_liftM_eq_ok_iff.1 hoperand
  cases hrest
  have hheader : packHeader q.code q.id (20 + body.length) = .ok header := hfits
  have hauthenticator : concatOperand q.authenticator = .ok authenticator := hown
  refine ⟨q, hq, rfl, hcarried, fun w ↦ ?_⟩
  rw [encodeV10RequestWithRandomAuthenticator,
    run_bind_of_ok (run_ensureAuthenticator_of_some (hqa.trans ha) w),
    run_bind_of_ok (hq.settled hagain w), run_bind_of_ok (hencode q w (recoding_refl q) rfl)]
  simp only [run_bind, run_get, hheader, hauthenticator, run_liftM_ok]
  rfl

/-- The Message-Authenticator of the packet covers no authenticator. -/
def ZeroAuthenticator (p : Packet) : Prop :=
  p.code ∈ [PacketType.accountingRequest, PacketType.disconnectRequest, PacketType.coaRequest] ∨
    p.code = PacketType.accountingResponse ∧ p.originalCode ≠ some PacketType.statusServer

theorem ZeroAuthenticator.macAuthenticator_eq (h : p.ZeroAuthenticator) (a : Option Bytes) :
    { p with authenticator := a }.macAuthenticator = .ok zeros16 := by
  rw [macAuthenticator]
  rcases h with h | h
  · exact if_pos h
  · by_cases hrequest : p.code ∈ [PacketType.accountingRequest, PacketType.disconnectRequest,
        PacketType.coaRequest]
    · exact if_pos hrequest
    · exact (if_neg hrequest).trans (if_pos h)

/-- `_encode_v10_request_with_body_md5_authenticator` again: the authenticator is taken of the same
bytes, and the attributes do not depend on it. -/
theorem run_encodeV10RequestWithBodyMd5Authenticator_again (h : p.Repeatable) (hcls : p.cls ≠ .auth)
    (hmac : p.messageAuthenticator = some true → p.PlainMac ∧ p.ZeroAuthenticator) {b : Bytes}
    {s : PacketState}
    (hrun : (encodeV10RequestWithBodyMd5Authenticator E).run ⟨p, w⟩ = .ok b s) :
    ∃ q a, Refreshed p q ∧ s = ⟨{ q with authenticator := a }, w⟩ ∧
      Settled (encodeV10RequestWithBodyMd5Authenticator E) b { q with authenticator := a } := by
  rw [encodeV10RequestWithBodyMd5Authenticator] at hrun
  obtain ⟨⟨⟩, s₁, hrefresh, hrun⟩ := run_bind_eq_ok_iff.1 hrun
  obtain ⟨q, hq, rfl, -, hagain⟩ := run_refreshIfCarried_again h (fun hflag ↦ (hmac hflag).1) hrefresh
  obtain ⟨body, s₂, hbody, hrest⟩ := run_bind_eq_ok_iff.1 hrun
  obtain ⟨rfl, hencode⟩ := run_encodeAttributes_again (hq.recoding.repeatable h) hbody
  obtain ⟨_, s₃, hget, hrest⟩ := run_bind_eq_ok_iff.1 hrest
  cases hget
  obtain ⟨header, s₄, hpack, hrest⟩ := run_bind_eq_ok_iff.1 hrest
  obtain ⟨hfits, rfl⟩ := run_liftM_eq_ok_iff.1 hpack
  cases hrest
  have hheader : packHeader q.code q.id (20 + body.length) = .ok header := hfits
  let a : Option Bytes := some (E.md5 (header ++ zeros16 ++ body ++ q.secret))
  refine ⟨q, a, hq, rfl, fun w ↦ ?_⟩
  have hqcls : q.cls ≠ .auth := by rwa [hq.recoding.cls_eq]
  have hrefreshed := hagain a (fun hauth ↦ absurd hauth hcls) fun hflag ↦ by
    rw [(hmac hflag).2.macAuthenticator_eq a]
    exact ((hmac hflag).2.macAuthenticator_eq p.authenticator).symm
  have hencoded := hencode { q with authenticator := a } w
    ⟨⟨q.id, a, q.messageAuthenticator, q.attrs, rfl⟩, fun hauth ↦ absurd hauth hqcls⟩ rfl
  rw [encodeV10RequestWithBodyMd5Authenticator, run_bind_of_ok (hrefreshed w), run_bind_of_ok hencoded]
  simp only [run_bind, run_get, hheader, run_liftM_ok]
  rfl

theorem run_serializeV11_again (h : p.Repeatable) {b : Bytes} {s : PacketState}
    (hrun : (serializeV11 E).run ⟨p, w⟩ = .ok b s) :
    s = ⟨p, w⟩ ∧ Settled (serializeV11 E) b p := by
  rw [serializeV11] at hrun
  obtain ⟨body, s₁, hbody, hrest⟩ := run_bind_eq_ok_iff.1 hrun
  obtain ⟨rfl, hencode⟩ := run_encodeAttributes_again h hbody
  obtain ⟨_, s₂, hget, hrest⟩ := run_bind_eq_ok_iff.1 hrest
  cases hget
  obtain ⟨header, s₃, hpack, hrest⟩ := run_bind_eq_ok_iff.1 hrest
  obtain ⟨hfits, rfl⟩ := run_liftM_eq_ok_iff.1 hpack
  cases hrest
  have hheader : packV11Header p.code (20 + body.length) p.token = .ok header := hfits
  refine ⟨rfl, fun w ↦ ?_⟩
  rw [serializeV11, run_bind_of_ok (hencode p w (recoding_refl p) rfl)]
  simp only [run_bind, run_get, hheader, run_liftM_ok]
  rfl

theorem run_replyPacket_of_some (hversion : p.radiusVersion ≠ .v1_1) {x : UInt8} {a : Bytes}
    (ha : p.authenticator = some (x :: a)) (w : World) :
    (replyPacket E).run ⟨p, w⟩ = (do
      refreshIfCarried E
      let attr ← encodeAttributes E
      let p := (← get).pkt
      let header ← packHeader p.code p.id (20 + attr.length)
      return header ++ E.md5 (header ++ (x :: a) ++ attr ++ p.secret) ++ attr :
      PacketMethod Bytes).run ⟨p, w⟩ := by
  rw [replyPacket, run_bind, run_get]
  dsimp only
  rw [if_neg hversion, ha]

/-- `reply_packet` again. -/
theorem run_replyPacket_again (hsalt : p.radiusVersion = .v1_0 → p.SaltFree)
    (hmac : p.messageAuthenticator = some true → p.PlainMac) {b : Bytes} {s : PacketState}
    (hrun : (replyPacket E).run ⟨p, w⟩ = .ok b s) :
    ∃ q, Refreshed p q ∧ s = ⟨q, w⟩ ∧ Settled (replyPacket E) b q := by
  by_cases hversion : p.radiusVersion = .v1_1
  · have hv11 (w : World) : (replyPacket E).run ⟨p, w⟩ = (serializeV11 E).run ⟨p, w⟩ := by
      rw [replyPacket, run_bind, run_get]
      exact congrArg (fun m : PacketMethod Bytes ↦ m.run ⟨p, w⟩) (if_pos hversion)
    obtain ⟨hs, hsettled⟩ := run_serializeV11_again (repeatable_v11 hversion) ((hv11 w).symm.trans hrun)
    exact ⟨p, refreshed_refl p, hs, fun w ↦ (hv11 w).trans (hsettled w)⟩
  have hneeds : ∃ x a, p.authenticator = some (x :: a) := by
    rw [replyPacket, run_bind, run_get] at hrun
    dsimp only at hrun
    rw [if_neg hversion] at hrun
    rcases ha : p.authenticator with - | ⟨- | ⟨x, a⟩⟩
    · rw [ha] at hrun
      cases hrun
    · rw [ha] at hrun
      cases hrun
    · exact ⟨x, a, rfl⟩
  obtain ⟨x, a, ha⟩ := hneeds
  have hrepeatable : p.Repeatable := ⟨fun _ _ ↦ by rw [ha]; rfl, hsalt⟩
  rw [run_replyPacket_of_some hversion ha w] at hrun
  obtain ⟨⟨⟩, s₁, hrefresh, hrun⟩ := run_bind_eq_ok_iff.1 hrun
  obtain ⟨q, hq, rfl, -, hagain⟩ := run_refreshIfCarried_again hrepeatable hmac hrefresh
  obtain ⟨body, s₂, hbody, hrest⟩ := run_bind_eq_ok_iff.1 hrun
  obtain ⟨rfl, hencode⟩ := run_encodeAttributes_again (hq.recoding.repeatable hrepeatable) hbody
  obtain ⟨_, s₃, hget, hrest⟩ := run_bind_eq_ok_iff.1 hrest
  cases hget
  obtain ⟨header, s₄, hpack, hrest⟩ := run_bind_eq_ok_iff.1 hrest
  obtain ⟨hfits, rfl⟩ := run_liftM_eq_ok_iff.1 hpack
  cases hrest
  have hheader : packHeader q.code q.id (20 + body.length) = .ok header := hfits
  refine ⟨q, hq, rfl, fun w ↦ ?_⟩
  rw [run_replyPacket_of_some (by rwa [hq.recoding.radiusVersion_eq]) (hq.authenticator_eq.trans ha) w,
    run_bind_of_ok (hq.settled hagain w), run_bind_of_ok (hencode q w (recoding_refl q) rfl)]
  simp only [run_bind, run_get, hheader, run_liftM_ok]
  rfl

theorem run_ensureMessageAuthenticator_of_v10 (hversion : p.radiusVersion = .v1_0) (hmac : p.PlainMac)
    {i : ℕ} {a : Bytes} (hid : p.id = some i) (ha : p.authenticator = some a) {s : PacketState}
    (hrun : (ensureMessageAuthenticator E).run ⟨p, w⟩ = .ok () s) :
    ∃ q, s = ⟨q, w⟩ ∧ Refreshed { p with messageAuthenticator := some true } q := by
  have hv11 : ¬ p.radiusVersion = .v1_1 := by rw [hversion]; decide
  rw [ensureMessageAuthenticator, run_bind, run_get] at hrun
  dsimp only at hrun
  rw [if_neg hv11] at hrun
  split at hrun
  · cases hrun
    exact ⟨_, rfl, refreshed_refl _⟩
  rw [addMessageAuthenticator, run_bind, run_get] at hrun
  dsimp only at hrun
  rw [if_neg hv11] at hrun
  obtain ⟨⟨⟩, s₁, hflag, hrun⟩ := run_bind_eq_ok_iff.1 hrun
  cases hflag
  obtain ⟨⟨⟩, s₂, hset, hrun⟩ := run_bind_eq_ok_iff.1 hrun
  have hflagged : Recoding p { p with messageAuthenticator := some true } :=
    ⟨⟨p.id, p.authenticator, some true, p.attrs, rfl⟩, fun _ ↦ rfl⟩
  rcases exists_run_setMessageAuthenticator (E := E) hmac (.bytes zeros16) with
    ⟨e, herror⟩ | ⟨key, zeroed, hkey, hsetZeros⟩
  · rw [herror _ w hflagged] at hset
    cases hset
  rw [hsetZeros _ w hflagged] at hset
  cases hset
  let q : Packet := { p with messageAuthenticator := some true, attrs := p.attrs.set key zeroed }
  have hdrawn : ensureId.run ⟨q, w⟩ = .ok () ⟨q, w⟩ := run_ensureId_of_some (p := q) hid w
  rw [run_bind_of_ok hdrawn, run_bind, run_get] at hrun
  dsimp only at hrun
  rw [if_neg (fun hnone ↦ by rw [show q.authenticator = some a from ha] at hnone; cases hnone.1)]
    at hrun
  cases hrun
  exact ⟨q, rfl, ⟨_, rfl⟩, otherAttributes_set (p := { p with messageAuthenticator := some true }) hkey
    zeroed⟩

/-- The packet has to go out with a Message-Authenticator. -/
def NeedsMac (p : Packet) : Prop :=
  p.code ∈ [PacketType.accessRequest, PacketType.statusServer] ∧
    (p.code = PacketType.statusServer || false || p.hasEapMessage) = true

theorem run_prepareRequestMessageAuthenticator_v10 (hversion : p.radiusVersion = .v1_0) (w : World) :
    (p.NeedsMac → (prepareRequestMessageAuthenticator E false).run ⟨p, w⟩ =
      (ensureMessageAuthenticator E).run ⟨p, w⟩) ∧
    (¬ p.NeedsMac → (prepareRequestMessageAuthenticator E false).run ⟨p, w⟩ = .ok () ⟨p, w⟩) := by
  have hv11 : ¬ p.radiusVersion = .v1_1 := by rw [hversion]; decide
  rw [prepareRequestMessageAuthenticator, run_bind, run_get]
  dsimp only
  rw [if_neg hv11]
  by_cases hcode : p.code ∈ [PacketType.accessRequest, PacketType.statusServer]
  · rw [if_neg (not_not.2 hcode)]
    refine ⟨fun h ↦ by rw [if_pos h.2], fun h ↦ ?_⟩
    rw [if_neg fun hneeds ↦ h ⟨hcode, hneeds⟩]
    rfl
  · rw [if_pos hcode]
    exact ⟨fun h ↦ absurd h.1 hcode, fun _ ↦ rfl⟩

/-- Preparing the packet does nothing, or the Message-Authenticator is carried from then on. -/
theorem run_prepareRequestMessageAuthenticator_again (hversion : p.radiusVersion = .v1_0)
    (hmac : p.PlainMac) {i : ℕ} {a : Bytes} (hid : p.id = some i) (ha : p.authenticator = some a)
    {s : PacketState}
    (hrun : (prepareRequestMessageAuthenticator E false).run ⟨p, w⟩ = .ok () s) :
    s = ⟨p, w⟩ ∧ Settled (prepareRequestMessageAuthenticator E false) () p ∨
      ∃ q, s = ⟨q, w⟩ ∧ Refreshed { p with messageAuthenticator := some true } q := by
  by_cases hneeds : p.NeedsMac
  · rw [(run_prepareRequestMessageAuthenticator_v10 hversion w).1 hneeds] at hrun
    exact .inr (run_ensureMessageAuthenticator_of_v10 hversion hmac hid ha hrun)
  · rw [(run_prepareRequestMessageAuthenticator_v10 hversion w).2 hneeds] at hrun
    cases hrun
    exact .inl ⟨rfl, fun w ↦ (run_prepareRequestMessageAuthenticator_v10 hversion w).2 hneeds⟩

/-- Where the Message-Authenticator is carried, preparing does nothing. -/
theorem settled_prepareRequestMessageAuthenticator (hversion : p.radiusVersion = .v1_0)
    (h : p.Carried) : Settled (prepareRequestMessageAuthenticator E false) () p := by
  intro w
  by_cases hneeds : p.NeedsMac
  · rw [(run_prepareRequestMessageAuthenticator_v10 hversion w).1 hneeds, ensureMessageAuthenticator,
      run_bind, run_get]
    dsimp only
    rw [if_neg (by rw [hversion]; decide), if_pos h.stored]
    have hsame : { p with messageAuthenticator := some true } = p := by rw [← h.flag]
    exact congrArg (fun q ↦ Result.ok () (⟨q, w⟩ : PacketState)) hsame
  · exact (run_prepareRequestMessageAuthenticator_v10 hversion w).2 hneeds

theorem exists_run_ensureAuthenticator (p : Packet) (w : World) :
    ∃ a w', ensureAuthenticator.run ⟨p, w⟩ = .ok () ⟨{ p with authenticator := some a }, w'⟩ := by
  rcases ha : p.authenticator with - | a
  · exact ⟨_, _, run_ensureAuthenticator_of_none ha w⟩
  · refine ⟨a, w, ?_⟩
    rw [run_ensureAuthenticator_of_some ha w, ← ha]

/-- The serializer of a request that has its identifier. -/
def requestBody (E : Env) (p : Packet) : PacketMethod Bytes :=
  if p.radiusVersion = .v1_1 then serializeV11 E
  else match p.cls with
    | .status => do
      ensureAuthenticator
      prepareRequestMessageAuthenticator E false
      encodeV10RequestWithRandomAuthenticator E
    | .auth => encodeV10RequestWithRandomAuthenticator E
    | _ => encodeV10RequestWithBodyMd5Authenticator E

theorem run_requestPacket (hcls : p.cls ≠ .packet) {s : PacketState}
    (hid : ensureId.run ⟨p, w⟩ = .ok () s) :
    (requestPacket E).run ⟨p, w⟩ = (requestBody E p).run s := by
  rw [requestPacket, run_bind, run_get]
  dsimp only
  rw [if_neg hcls, run_bind_of_ok hid]
  rfl

/-- The packet with another authenticator, another flag and another Message-Authenticator at most. -/
structure Resent (p q : Packet) : Prop where
  exists_eq : ∃ authenticator flag attrs,
    q = { p with authenticator, messageAuthenticator := flag, attrs }
  others : q.otherAttributes = p.otherAttributes

theorem Refreshed.resent {p₁ q : Packet} (h : Refreshed p₁ q) (a : Option Bytes) (flag : Option Bool)
    (hp₁ : p₁ = { p with authenticator := a, messageAuthenticator := flag }) (a' : Option Bytes) :
    Resent p { q with authenticator := a' } := by
  subst hp₁
  have hothers := h.others
  obtain ⟨attrs, rfl⟩ := h.exists_eq
  exact ⟨⟨a', flag, attrs, rfl⟩, hothers⟩

theorem Resent.requestBody_eq {q : Packet} (h : Resent p q) : requestBody E q = requestBody E p := by
  obtain ⟨authenticator, flag, attrs, rfl⟩ := h.exists_eq
  rfl

theorem Recoding.plainMac {q : Packet} (hq : Recoding p q) (h : p.PlainMac) : q.PlainMac :=
  fun hversion D hD ↦ h (hq.radiusVersion_eq ▸ hversion) D (hq.dict_eq ▸ hD)

/-- A Status-Server again. -/
theorem run_statusBody_again (hversion : p.radiusVersion = .v1_0) (hsalt : p.SaltFree)
    (hmac : p.PlainMac) (hcls : p.cls = .status) {i : ℕ} (hid : p.id = some i) {b : Bytes}
    {s : PacketState}
    (hrun : (do
      ensureAuthenticator
      prepareRequestMessageAuthenticator E false
      encodeV10RequestWithRandomAuthenticator E : PacketMethod Bytes).run ⟨p, w⟩ = .ok b s) :
    ∃ q w', s = ⟨q, w'⟩ ∧ Resent p q ∧ Settled (do
      ensureAuthenticator
      prepareRequestMessageAuthenticator E false
      encodeV10RequestWithRandomAuthenticator E : PacketMethod Bytes) b q := by
  obtain ⟨a, w₁, hauth⟩ := exists_run_ensureAuthenticator p w
  rw [run_bind_of_ok hauth] at hrun
  have hnot : p.cls ≠ .auth := by rw [hcls]; decide
  have hrepeatable : p.Repeatable := ⟨fun _ h ↦ absurd h hnot, fun _ ↦ hsalt⟩
  have hrecoding (flag : Option Bool) (attrs : Attrs PyVal) : Recoding p
      { p with authenticator := some a, messageAuthenticator := flag, attrs } :=
    ⟨⟨p.id, some a, flag, attrs, rfl⟩, fun h ↦ absurd h hnot⟩
  obtain ⟨⟨⟩, s₁, hprepare, hrun⟩ := run_bind_eq_ok_iff.1 hrun
  -- what is left once the packet is known to be prepared for good
  have hrest (q : Packet) (hqa : q.authenticator = some a)
      (hprepared : Settled (prepareRequestMessageAuthenticator E false) () q)
      (hagain : Settled (encodeV10RequestWithRandomAuthenticator E) b q) :
      Settled (do
        ensureAuthenticator
        prepareRequestMessageAuthenticator E false
        encodeV10RequestWithRandomAuthenticator E : PacketMethod Bytes) b q := by
    intro w
    rw [run_bind_of_ok (run_ensureAuthenticator_of_some hqa w), run_bind_of_ok (hprepared w), hagain w]
  have hplain := hrecoding p.messageAuthenticator p.attrs
  rcases run_prepareRequestMessageAuthenticator_again (p := { p with authenticator := some a }) hversion
    (hplain.plainMac hmac) hid rfl hprepare with ⟨rfl, hnone⟩ | ⟨p₂, rfl, hp₂⟩
  · obtain ⟨q, hq, rfl, hcarried, hagain⟩ := run_encodeV10RequestWithRandomAuthenticator_again
      (hplain.repeatable hrepeatable) (fun _ ↦ hplain.plainMac hmac) rfl hrun
    refine ⟨q, w₁, rfl, hq.resent (some a) p.messageAuthenticator rfl q.authenticator, ?_⟩
    rcases hcarried with hcarried | ⟨rfl, -⟩
    · exact hrest q hq.authenticator_eq (settled_prepareRequestMessageAuthenticator
        (hq.recoding.radiusVersion_eq.trans hversion) hcarried) hagain
    · exact hrest _ rfl hnone hagain
  · have hp₂' : Recoding p p₂ := by
      obtain ⟨attrs, rfl⟩ := hp₂.exists_eq
      exact hrecoding (some true) attrs
    have hflag : p₂.messageAuthenticator = some true := by
      obtain ⟨attrs, rfl⟩ := hp₂.exists_eq
      rfl
    obtain ⟨q, hq, rfl, hcarried, hagain⟩ := run_encodeV10RequestWithRandomAuthenticator_again
      (hp₂'.repeatable hrepeatable) (fun _ ↦ hp₂'.plainMac hmac) hp₂.authenticator_eq hrun
    have hqa : q.authenticator = some a := hq.authenticator_eq.trans hp₂.authenticator_eq
    have hsent : Resent p q := (hp₂.trans hq).resent (p := p) (some a) (some true) rfl q.authenticator
    refine ⟨q, w₁, rfl, hsent, ?_⟩
    rcases hcarried with hcarried | ⟨-, hnone⟩
    · exact hrest q hqa (settled_prepareRequestMessageAuthenticator
        (hq.recoding.radiusVersion_eq.trans (hp₂'.radiusVersion_eq.trans hversion)) hcarried) hagain
    · exact absurd hflag hnone

/-- The serializer of an identified packet, again. -/
theorem run_requestBody_again (hsalt : p.radiusVersion = .v1_0 → p.SaltFree)
    (hmac : p.messageAuthenticator = some true ∨ p.cls = .status → p.PlainMac)
    (hzero : p.radiusVersion = .v1_0 → p.cls = .acct ∨ p.cls = .coa →
      p.messageAuthenticator = some true → p.ZeroAuthenticator)
    (hcls : p.cls ≠ .packet) {i : ℕ} (hid : p.id = some i) {b : Bytes} {s : PacketState}
    (hrun : (requestBody E p).run ⟨p, w⟩ = .ok b s) :
    ∃ q w', s = ⟨q, w'⟩ ∧ Resent p q ∧ Settled (requestBody E p) b q := by
  rw [requestBody] at hrun ⊢
  split at hrun
  · next hv11 =>
    obtain ⟨hs, hsettled⟩ := run_serializeV11_again (repeatable_v11 hv11) hrun
    refine ⟨p, w, hs, ⟨⟨p.authenticator, p.messageAuthenticator, p.attrs, rfl⟩, rfl⟩, ?_⟩
    rw [if_pos hv11]
    exact hsettled
  next hv11 =>
  have hversion := not_v11 hv11
  rw [if_neg hv11]
  have hbody (h : p.cls = .acct ∨ p.cls = .coa)
      (hrun : (encodeV10RequestWithBodyMd5Authenticator E).run ⟨p, w⟩ = .ok b s) :
      ∃ q w', s = ⟨q, w'⟩ ∧ Resent p q ∧
        Settled (encodeV10RequestWithBodyMd5Authenticator E) b q := by
    have hnot : p.cls ≠ .auth := by rcases h with h | h <;> rw [h] <;> decide
    have hrepeatable : p.Repeatable := ⟨fun _ h ↦ absurd h hnot, hsalt⟩
    obtain ⟨q, a, hq, rfl, hagain⟩ := run_encodeV10RequestWithBodyMd5Authenticator_again hrepeatable
      hnot (fun hflag ↦ ⟨hmac (.inl hflag), hzero hversion h hflag⟩) hrun
    exact ⟨_, w, rfl, hq.resent p.authenticator p.messageAuthenticator rfl a, hagain⟩
  rcases hc : p.cls with - | - | - | - | -
  · exact absurd hc hcls
  · rw [hc] at hrun
    exact run_statusBody_again hversion (hsalt hversion) (hmac (.inr hc)) hc hid hrun
  · rw [hc] at hrun
    obtain ⟨a, w₁, hauth⟩ := exists_run_ensureAuthenticator p w
    let p₁ : Packet := { p with authenticator := some a }
    have hdrawn : (encodeV10RequestWithRandomAuthenticator E).run ⟨p₁, w₁⟩ = .ok b s := by
      rw [encodeV10RequestWithRandomAuthenticator, run_bind_of_ok hauth] at hrun
      rw [encodeV10RequestWithRandomAuthenticator,
        run_bind_of_ok (run_ensureAuthenticator_of_some (p := p₁) rfl w₁)]
      exact hrun
    obtain ⟨q, hq, rfl, -, hagain⟩ := run_encodeV10RequestWithRandomAuthenticator_again (p := p₁)
      ⟨fun _ _ ↦ rfl, hsalt⟩ (fun hflag ↦ hmac (.inl hflag)) rfl hdrawn
    exact ⟨q, w₁, rfl, hq.resent (some a) p.messageAuthenticator rfl q.authenticator, hagain⟩
  · rw [hc] at hrun
    exact hbody (.inl hc) hrun
  · rw [hc] at hrun
    exact hbody (.inr hc) hrun

/-- `request_packet` again. -/
theorem run_requestPacket_again (hsalt : p.radiusVersion = .v1_0 → p.SaltFree)
    (hmac : p.messageAuthenticator = some true ∨ p.cls = .status → p.PlainMac)
    (hzero : p.radiusVersion = .v1_0 → p.cls = .acct ∨ p.cls = .coa →
      p.messageAuthenticator = some true → p.ZeroAuthenticator) {b : Bytes} {s : PacketState}
    (hrun : (requestPacket E).run ⟨p, w⟩ = .ok b s) :
    s.pkt.otherAttributes = p.otherAttributes ∧ Settled (requestPacket E) b s.pkt := by
  have hcls : p.cls ≠ .packet := by
    intro hcls
    rw [requestPacket, run_bind, run_get] at hrun
    dsimp only at hrun
    rw [if_pos hcls] at hrun
    cases hrun
  obtain ⟨i, w', hid⟩ := exists_run_ensureId p w
  rw [run_requestPacket hcls hid] at hrun
  obtain ⟨q, w'', rfl, hq, hagain⟩ := run_requestBody_again (p := { p with id := some i }) hsalt hmac
    hzero hcls rfl hrun
  refine ⟨hq.others, fun w ↦ ?_⟩
  have hqcls : q.cls ≠ .packet := by
    obtain ⟨authenticator, flag, attrs, rfl⟩ := hq.exists_eq
    exact hcls
  have hqid : q.id = some i := by
    obtain ⟨authenticator, flag, attrs, rfl⟩ := hq.exists_eq
    rfl
  rw [run_requestPacket hqcls (run_ensureId_of_some hqid w), hq.requestBody_eq]
  exact hagain w

end

/-! ### Any number of times -/

/-- The packet is serialized once in each of these worlds, one after the other: what is returned, and
the packet after that. -/
def serializations (m : PacketMethod Bytes) :
    List World → Packet → Except Exn (List Bytes × Packet)
  | [], p => .ok ([], p)
  | w :: ws, p =>
    match m.run ⟨p, w⟩ with
    | .ok b s => do
      let (bs, q) ← serializations m ws s.pkt
      return (b :: bs, q)
    | .error e _ => .error e

/-- Once the packet has been serialized, it is serialized to the same bytes however often it is, and
is not changed any more. What the first time changes of the stored attributes is the
Message-Authenticator. -/
def Idempotent (m : PacketMethod Bytes) (p : Packet) : Prop :=
  ∀ w b s, m.run ⟨p, w⟩ = .ok b s → s.pkt.otherAttributes = p.otherAttributes ∧
    ∀ ws, serializations m ws s.pkt = .ok (List.replicate ws.length b, s.pkt)

section

variable {E : Env} {p : Packet} {m : PacketMethod Bytes}

theorem serializations_of_settled {b : Bytes} (h : Settled m b p) (ws : List World) :
    serializations m ws p = .ok (List.replicate ws.length b, p) := by
  induction ws with
  | nil => rfl
  | cons w ws ih =>
    rw [serializations, h w]
    dsimp only
    rw [ih]
    rfl

/-- **Serialization is idempotent**, unless a salt is drawn each time or a digest is taken of an
authenticator that is then replaced. -/
theorem idempotent_serializers (hsalt : p.radiusVersion = .v1_0 → p.SaltFree)
    (hmac : p.messageAuthenticator = some true ∨ p.cls = .status → p.PlainMac) :
    ((p.radiusVersion = .v1_0 → p.cls = .acct ∨ p.cls = .coa →
        p.messageAuthenticator = some true → p.ZeroAuthenticator) →
      Idempotent (requestPacket E) p) ∧
    Idempotent (replyPacket E) p := by
  refine ⟨fun hzero w b s hrun ↦ ?_, fun w b s hrun ↦ ?_⟩
  · obtain ⟨hothers, hsettled⟩ := run_requestPacket_again hsalt hmac hzero hrun
    exact ⟨hothers, serializations_of_settled hsettled⟩
  · obtain ⟨q, hq, rfl, hsettled⟩ := run_replyPacket_again hsalt (fun hflag ↦ hmac (.inl hflag)) hrun
    exact ⟨hq.others, serializations_of_settled hsettled⟩

theorem not_idempotent_of_bytesOf (w : World) (raw raw' : Bytes)
    (h : bytesOf (m.run ⟨p, w⟩) = some raw)
    (h' : bytesOf ((m >>= fun _ ↦ m).run ⟨p, w⟩) = some raw') (hne : raw' ≠ raw) :
    ¬ Idempotent m p := by
  intro hidem
  obtain ⟨s, hrun⟩ := exists_of_bytesOf h
  rw [run_bind_of_ok hrun] at h'
  obtain ⟨s', hrun'⟩ := exists_of_bytesOf h'
  have hagain := (hidem w raw s hrun).2 [s.world]
  rw [serializations, hrun'] at hagain
  injection hagain with hpair
  injection hpair with hbytes
  injection hbytes with hsame
  exact hne hsame

end

/-- A Disconnect-Request that carries a Message-Authenticator, has a Reply-Message and has not been
given its authenticator. -/
def disconnectRequest : Packet :=
  { flaggedRequest with
    cls := .coa
    code := PacketType.disconnectRequest
    authenticator := none
    attrs := OrderedDict.set ∅ (.int 18) (.vals [.bytes [104, 105]]) }

theorem idempotent_serializers_disconnectRequest :
    Idempotent (requestPacket sumEnv) disconnectRequest := by
  refine (idempotent_serializers (p := disconnectRequest) (fun _ D _ e he ↦ ?_)
    fun _ _ D hD attr hattr ↦ ?_).1 fun _ _ _ ↦ .inl (by decide)
  · exact (List.not_mem_nil he).elim
  · cases hD
    cases hattr
    decide

/-- An Access-Request put into an `AcctPacket`. -/
def misfitRequest : Packet := { flaggedRequest with cls := .acct }

/-- An Access-Request under a dictionary that has the Message-Authenticator salt-encrypted. -/
def saltedMacRequest : Packet :=
  { flaggedRequest with
    dict := some { Dictionary.messageAuthenticatorOnly with
      heap := [{ name := "Message-Authenticator", code := 80, type := .octets, encrypt := 2 }] } }

/-- The digest of the first is taken of the authenticator, which the digest of the body replaces. That
of the second is salted twice. -/
theorem not_idempotent_misfitRequest :
    HexFree sumEnv ∧
      (misfitRequest.SaltFree ∧ ¬ Idempotent (requestPacket sumEnv) misfitRequest) ∧
      (saltedMacRequest.SaltFree ∧ ¬ Idempotent (requestPacket sumEnv) saltedMacRequest) := by
  refine ⟨hexFree_ofByte _ _, ⟨fun D _ e he ↦ (List.not_mem_nil he).elim, ?_⟩,
    fun D _ e he ↦ (List.not_mem_nil he).elim, ?_⟩
  · exact not_idempotent_of_bytesOf { rng := ⟨fun n ↦ n⟩ }
      ([1, 7, 0, 38] ++ List.replicate 16 5 ++ [80, 18] ++ List.replicate 16 160)
      ([1, 7, 0, 38] ++ List.replicate 16 5 ++ [80, 18] ++ List.replicate 16 224)
      (by decide +kernel) (by decide +kernel) (by decide)
  · exact not_idempotent_of_bytesOf { rng := ⟨fun n ↦ n⟩ }
      ([1, 7, 0, 56] ++ List.replicate 16 1 ++ [80, 36, 128, 1, 21] ++
        List.replicate 16 241 ++ List.replicate 15 5)
      ([1, 7, 0, 56] ++ List.replicate 16 1 ++ [80, 36, 128, 3, 21] ++
        List.replicate 16 243 ++ List.replicate 15 5)
      (by decide +kernel) (by decide +kernel) (by decide)

end Packet

end Pyrad2
