import Pyrad2.Packet.Frame
import Pyrad2.Packet.MessageAuthenticator
import Pyrad2.Packet.Pending

/-!
# Sending a Message-Authenticator

What stands on the wire for a packet that carries a Message-Authenticator.

The attributes are encoded with zeros in the place of the digest, the digest is taken and stored, and
then the attributes are encoded again to be sent. The two encodings agree around the digest if none
of the pending values draws a salt, and then the digest covers what is sent.
-/

namespace Pyrad2

open EStateM

namespace Packet

/-! ### Attributes around a Message-Authenticator -/

/-- A Message-Authenticator on the wire. -/
def macAvp (v : Bytes) (hv : v.length = 16) : Avp := ⟨80, v, by omega⟩

/-- The packet with `v` for its Message-Authenticator. -/
def withMac (p : Packet) (v : Bytes) : Packet :=
  { p with attrs := p.attrs.set (.int 80) (.vals [.bytes v]) }

/-- Nothing but what is stored under code 80 goes out with that type. -/
structure OnlyMac (p : Packet) : Prop where
  stored : ∀ e ∈ p.attrs.entries, e.1 ≠ .int 80 → p.isVirtualAttribute e.1 = true ∨
    Emits (· ≠ 80) (p.encodeAvpGroup e.1 e.2)
  pending : ∀ keys, p.deferredAttributeCodes = .ok keys →
    ∀ key ∈ keys, wireType p.dict key ≠ 80

section

variable {D : Dictionary} {E : Env} {p : Packet}

@[simp] theorem withMac_withMac (p : Packet) (v v' : Bytes) :
    (p.withMac v).withMac v' = p.withMac v' := by
  simp [withMac]

theorem wireType_int (D : Dictionary) (n : Int) :
    wireType (some D) (.int n) =
      match D.attributeAt? (.int n) with
      | some attr =>
        match attr.type with
        | .tlv => tlvType attr
        | .extended => (Key.int n).field
        | .longExtended => (Key.int n).field
        | _ => plainType (.int n)
      | none => plainType (.int n) := rfl

theorem wireType_mac (hD : D.DeclaresMessageAuthenticator) : wireType (some D) (.int 80) = 80 := by
  obtain ⟨attr, hattr, htype, -⟩ := hD.exists_attributeAt?
  rw [wireType_int, hattr]
  simp only [htype]
  rfl

/-- A single value under code 80 goes out as one attribute. -/
theorem encodeAvpGroup_code80 (hD : D.DeclaresMessageAuthenticator) (hdict : p.dict = some D)
    {v : Bytes} (hv : v.length ≤ 253) :
    p.encodeAvpGroup (.int 80) (.vals [.bytes v]) = .ok (Avp.mk 80 v hv).bytes := by
  have hcontainer : p.containerType (.int 80) = none := by
    rw [containerType, hdict]
    exact hD.containerType_eq
  have harray : p.isArrayAttribute (.int 80) = false := by
    rw [isArrayAttribute, hdict]
    exact hD.isArrayAttribute_eq
  have hconcat : p.isConcatAttribute (.int 80) = false := by
    rw [isConcatAttribute, hdict]
    exact hD.isConcatAttribute_eq
  have hpack (code : Int) : packItem code (.bytes v) =
      packOctets [code, (v.length : Int) + 2] >>= fun header ↦ .ok (header ++ v) := rfl
  have hheader : packOctets [80, (v.length : Int) + 2] = .ok [80, UInt8.ofNat (v.length + 2)] := by
    have hfits : ∀ n ∈ [(80 : Int), (v.length : Int) + 2], 0 ≤ n ∧ n < 256 := by
      intro n hn
      rcases List.mem_pair.1 hn with rfl | rfl <;> omega
    rw [packOctets, if_pos hfits]
    rfl
  have hplain : p.encodePlain (.int 80) (.bytes v) = .ok (Avp.mk 80 v hv).bytes := by
    rw [encodePlain, if_neg (by rw [hconcat]; decide), encodeAttribute]
    rw [hpack, hheader, Avp.bytes]
    rfl
  rw [encodeAvpGroup_of_ne p fun a b c d h ↦ by cases h]
  simp only [hcontainer, harray, Stored.iterate, List.mapM_cons, List.mapM_nil, hplain]
  exact congrArg Except.ok (List.append_nil _)

theorem encodeAvpGroup_mac (hD : D.DeclaresMessageAuthenticator) (hdict : p.dict = some D)
    {v : Bytes} (hv : v.length = 16) :
    p.encodeAvpGroup (.int 80) (.vals [.bytes v]) = .ok (macAvp v hv).bytes :=
  encodeAvpGroup_code80 hD hdict (by omega)

/-- One stored entry on the wire. -/
def encodeEntry (p : Packet) (deferred : List Key) (e : Key × Stored PyVal) : Except Exn Bytes :=
  if e.1 ∈ deferred ∨ p.isVirtualAttribute e.1 = true then .ok [] else p.encodeAvpGroup e.1 e.2

theorem encodeStored_eq (p : Packet) (deferred : List Key) :
    p.encodeStored deferred = do
      return (← p.attrs.entries.mapM (p.encodeEntry deferred)).flatten := rfl

theorem OnlyMac.emits_encodeEntry (h : p.OnlyMac) (deferred : List Key) {e : Key × Stored PyVal}
    (he : e ∈ p.attrs.entries) (hne : e.1 ≠ .int 80) :
    Emits (· ≠ 80) (p.encodeEntry deferred e) := by
  rw [encodeEntry]
  split
  · exact emits_nil
  · next hgoes =>
    rcases h.stored e he hne with hvirtual | hemits
    · exact absurd (.inr hvirtual) hgoes
    · exact hemits

/-- Entries under other keys put out no Message-Authenticator. -/
theorem OnlyMac.exists_avps (h : p.OnlyMac) {deferred : List Key}
    {entries : List (Key × Stored PyVal)}
    (hentries : ∀ e ∈ entries, e ∈ p.attrs.entries ∧ e.1 ≠ .int 80) {parts : List Bytes}
    (hparts : entries.mapM (p.encodeEntry deferred) = .ok parts) :
    ∃ avps, parts.flatten = Avp.join avps ∧ ∀ a ∈ avps, a.code ≠ 80 := by
  refine exists_avps_flatten (P := fun a ↦ a.code ≠ 80) fun part hpart ↦ ?_
  obtain ⟨e, he, hencode⟩ := Except.exists_of_mem_mapM hparts hpart
  obtain ⟨hmem, hne⟩ := hentries e he
  exact (h.emits_encodeEntry deferred hmem hne).exists_avps part hencode

/-- **The stored attributes around a Message-Authenticator** do not depend on its value. -/
theorem exists_encodeStored_withMac (hD : D.DeclaresMessageAuthenticator)
    (hdict : p.dict = some D) (honly : p.OnlyMac) {deferred : List Key}
    (hdeferred : Key.int 80 ∉ deferred) :
    (∃ e, ∀ v, v.length = 16 → (p.withMac v).encodeStored deferred = .error e) ∨
      ∃ front back : List Avp, (∀ a ∈ front ++ back, a.code ≠ 80) ∧ ∀ v (hv : v.length = 16),
        (p.withMac v).encodeStored deferred =
          .ok (Avp.join (front ++ macAvp v hv :: back)) := by
  -- the entry of the digest stands in one place, whatever the digest is
  obtain ⟨pre, post, hentries, hold⟩ := p.attrs.exists_split_set (.int 80)
  have hmac {v : Bytes} (hv : v.length = 16) :
      p.encodeEntry deferred (.int 80, .vals [.bytes v]) = .ok (macAvp v hv).bytes := by
    have hvirtual : p.isVirtualAttribute (.int 80) = false := by
      rw [isVirtualAttribute, hdict]
      exact hD.isVirtualAttribute_eq
    rw [encodeEntry, if_neg (by simp [hdeferred, hvirtual]), encodeAvpGroup_mac hD hdict hv]
  have hstored (v : Bytes) : (p.withMac v).encodeStored deferred = do
      let before ← pre.mapM (p.encodeEntry deferred)
      let after ← ((.int 80, .vals [.bytes v]) :: post).mapM (p.encodeEntry deferred)
      return (before ++ after).flatten := by
    rw [encodeStored_eq]
    change (do return (← (p.attrs.set (.int 80) (.vals [.bytes v])).entries.mapM
      (p.encodeEntry deferred)).flatten) = _
    rw [hentries, List.mapM_append]
    simp
  rcases hpre : pre.mapM (p.encodeEntry deferred) with e | before
  · refine .inl ⟨e, fun v _ ↦ ?_⟩
    rw [hstored, hpre]
    rfl
  rcases hpost : post.mapM (p.encodeEntry deferred) with e | after
  · refine .inl ⟨e, fun v hv ↦ ?_⟩
    rw [hstored, hpre, List.mapM_cons, hmac hv, hpost]
    rfl
  · obtain ⟨front, hfront, hfrontCodes⟩ := honly.exists_avps
      (fun e he ↦ hold e (List.mem_append_left _ he)) hpre
    obtain ⟨back, hback, hbackCodes⟩ := honly.exists_avps
      (fun e he ↦ hold e (List.mem_append_right _ he)) hpost
    refine .inr ⟨front, back, fun a ha ↦ ?_, fun v hv ↦ ?_⟩
    · exact (List.mem_append.1 ha).elim (hfrontCodes a) (hbackCodes a)
    · rw [hstored, hpre, List.mapM_cons, hmac hv, hpost]
      change Except.ok (before ++ (macAvp v hv).bytes :: after).flatten = _
      rw [List.flatten_append, List.flatten_cons, hfront, hback, Avp.join_append, Avp.join_cons]

/-! ### Both encodings -/

/-- The state of a packet with `v` for its Message-Authenticator. -/
def macState (p : Packet) (v : Bytes) (w : World) : PacketState := ⟨p.withMac v, w⟩

theorem seedParentFromStoredSiblings_withMac (p : Packet) (v v' : Bytes) (key : Key)
    (owned : List Int) : (p.withMac v).seedParentFromStoredSiblings key owned =
      (p.withMac v').seedParentFromStoredSiblings key owned := by
  have hget (v : Bytes) : (p.withMac v).attrs.get? key =
      if key = .int 80 then some (.vals [.bytes v]) else p.attrs.get? key := OrderedDict.get?_set ..
  rw [seedParentFromStoredSiblings, seedParentFromStoredSiblings, hget, hget]
  by_cases hkey : key = .int 80
  · rw [if_pos hkey, if_pos hkey]
  · rw [if_neg hkey, if_neg hkey]

/-- The pending values go out the same whatever the Message-Authenticator is. -/
theorem uniform_encodeDeferredObfuscated_withMac
    (hauth : p.cls = .auth → p.authenticator.isSome = true) (hsalt : p.SaltFree) :
    Uniform (fun i : Bytes × World ↦ p.macState i.1 i.2) (encodeDeferredObfuscated E) := by
  have hrepeatable : (p.withMac zeros16).Repeatable := ⟨fun _ ↦ hauth, fun _ ↦ hsalt⟩
  have hrecoded : Uniform (recoded (p.withMac zeros16) (fun _ ↦ p.id)
      (fun i : Bytes × World ↦ (p.withMac i.1).attrs) fun i ↦ i.2) (encodeDeferredObfuscated E) :=
    uniform_encodeDeferredObfuscated (recoding_recoded _ _ _ _) hrepeatable fun i key owned ↦
      seedParentFromStoredSiblings_withMac p i.1 zeros16 key owned
  exact hrecoded

theorem run_encodeAttributes_of_codes (E : Env) {s : PacketState} {keys : List Key}
    (hkeys : s.pkt.deferredAttributeCodes = .ok keys) :
    (encodeAttributes E).run s = match s.pkt.encodeStored keys with
      | .ok stored =>
        (encodeDeferredObfuscated E >>= fun deferred ↦ pure (stored ++ deferred)).run s
      | .error e => .error e s := by
  rw [encodeAttributes]
  simp only [run_bind, run_get, hkeys, run_liftM_ok]
  rcases s.pkt.encodeStored keys with e | stored
  · rfl
  · rfl

/-- **The attributes around a Message-Authenticator** are the same in every encoding. -/
theorem exists_encodeAttributes_withMac (hD : D.DeclaresMessageAuthenticator)
    (hdict : p.dict = some D) (hauth : p.cls = .auth → p.authenticator.isSome = true)
    (hsalt : p.SaltFree) (honly : p.OnlyMac) :
    (∃ e, ∀ v w, v.length = 16 →
      (encodeAttributes E).run (p.macState v w) = .error e (p.macState v w)) ∨
      ∃ front back : List Avp, (∀ a ∈ front ++ back, a.code ≠ 80) ∧ ∀ v w (hv : v.length = 16),
        (encodeAttributes E).run (p.macState v w) =
          .ok (Avp.join (front ++ macAvp v hv :: back)) (p.macState v w) := by
  have hcodes (v : Bytes) : (p.withMac v).deferredAttributeCodes = p.deferredAttributeCodes := rfl
  rcases hkeys : p.deferredAttributeCodes with e | keys
  · refine .inl ⟨e, fun v w _ ↦ ?_⟩
    have hrun : (liftM (p.withMac v).deferredAttributeCodes : PacketMethod (List Key)).run
        (p.macState v w) = .error e (p.macState v w) := by
      rw [hcodes, hkeys]
      rfl
    exact run_bind_of_error (m := liftM (p.withMac v).deferredAttributeCodes) hrun
  have h80 : Key.int 80 ∉ keys := fun hmem ↦ by
    refine honly.pending keys hkeys _ hmem ?_
    rw [hdict, wireType_mac hD]
  obtain ⟨deferred, hdeferred⟩ := (uniform_encodeDeferredObfuscated_withMac (E := E) hauth
    hsalt).exists_outcome
  have hcoded (v : Bytes) (w : World) : (encodeAttributes E).run (p.macState v w) =
      match (p.withMac v).encodeStored keys with
      | .ok stored => (encodeDeferredObfuscated E >>= fun deferred ↦
          pure (stored ++ deferred)).run (p.macState v w)
      | .error e => .error e (p.macState v w) :=
    run_encodeAttributes_of_codes E hkeys
  rcases exists_encodeStored_withMac hD hdict honly h80 with ⟨e, hstored⟩ | ⟨front, back, hne, hstored⟩
  · refine .inl ⟨e, fun v w hv ↦ ?_⟩
    rw [hcoded, hstored v hv]
  have hrun (v : Bytes) (w : World) (hv : v.length = 16) :
      (encodeAttributes E).run (p.macState v w) = (encodeDeferredObfuscated E >>= fun deferred ↦
        pure (Avp.join (front ++ macAvp v hv :: back) ++ deferred)).run (p.macState v w) := by
    rw [hcoded, hstored v hv]
  -- the pending values come after, and are the same in every encoding
  rcases deferred with e | deferred
  · refine .inl ⟨e, fun v w hv ↦ ?_⟩
    rw [hrun v w hv]
    exact run_bind_of_error (hdeferred (v, w))
  · have hemitted := ensures_encodeDeferredObfuscated E (s := p.macState zeros16 default) hkeys
    obtain ⟨pending, rfl, hcodes⟩ := hemitted.of_run_eq_ok (hdeferred (zeros16, default))
    refine .inr ⟨front, back ++ pending, fun a ha ↦ ?_, fun v w hv ↦ ?_⟩
    · rw [← List.append_assoc] at ha
      rcases List.mem_append.1 ha with ha | ha
      · exact hne a ha
      · obtain ⟨key, hkey, hcode⟩ := hcodes a ha
        intro h80
        rw [IsCode, h80] at hcode
        exact honly.pending keys hkeys key hkey hcode.symm
    · rw [hrun v w hv, run_bind_of_ok (hdeferred (v, w)), ← Avp.join_append, List.append_assoc,
        List.cons_append]
      rfl

/-! ### Taking the digest -/

/-- What is sent of a packet around its Message-Authenticator. -/
structure MacFrame (E : Env) (p : Packet) where
  front : List Avp
  back : List Avp
  others : ∀ a ∈ front ++ back, a.code ≠ 80
  run_eq : ∀ v w (hv : v.length = 16), (encodeAttributes E).run (p.macState v w) =
    .ok (Avp.join (front ++ macAvp v hv :: back)) (p.macState v w)

namespace MacFrame

variable (m : MacFrame E p) {v : Bytes} (hv : v.length = 16)

/-- The attributes with `v` for the Message-Authenticator. -/
def body : Bytes := Avp.join (m.front ++ macAvp v hv :: m.back)

/-- There are sixteen zero bytes. -/
theorem length_zeros16 : zeros16.length = 16 := rfl

/-- The attributes the digest is taken of. -/
def zeroed : Bytes := m.body length_zeros16

theorem length_body : (m.body hv).length = m.zeroed.length := by
  have hmac : (macAvp v hv).bytes.length = (macAvp zeros16 length_zeros16).bytes.length := by
    rw [Avp.length_bytes, Avp.length_bytes, macAvp, macAvp, hv]
    rfl
  rw [zeroed, body, body]
  simp only [Avp.join_append, Avp.join_cons, List.length_append, hmac]

/-- The Message-Authenticator in its place. -/
def split : MacSplit (m.body hv) where
  front := m.front
  mac := macAvp v hv
  back := m.back
  body_eq := rfl
  code_eq := rfl
  length_eq := hv
  others := m.others

end MacFrame

end

/-- The second packet is the first one with an identifier, an authenticator of sixteen bytes and a
Message-Authenticator, where it had none before. -/
structure Completes (p p' : Packet) : Prop where
  pkt_eq : ∃ id authenticator flag attrs,
    p' = { p with id, authenticator, messageAuthenticator := flag, attrs }
  id : ∀ i, p.id = some i → p'.id = some i
  authenticator : ∀ a, p.authenticator = some a → p'.authenticator = some a
  drawn : p.authenticator = none → ∀ a, p'.authenticator = some a → a.length = 16
  flag : p.messageAuthenticator = some true → p'.messageAuthenticator = some true

theorem Completes.refl (p : Packet) : Completes p p where
  pkt_eq := ⟨_, _, _, _, rfl⟩
  id := fun _ h ↦ h
  authenticator := fun _ h ↦ h
  drawn := fun hnone a ha ↦ by
    rw [hnone] at ha
    cases ha
  flag := fun h ↦ h

theorem Completes.trans {p p' p'' : Packet} (h : Completes p p') (h' : Completes p' p'') :
    Completes p p'' where
  pkt_eq := by
    obtain ⟨id, authenticator, flag, attrs, rfl⟩ := h.pkt_eq
    obtain ⟨id', authenticator', flag', attrs', rfl⟩ := h'.pkt_eq
    exact ⟨id', authenticator', flag', attrs', rfl⟩
  id := fun i hi ↦ h'.id i (h.id i hi)
  authenticator := fun a ha ↦ h'.authenticator a (h.authenticator a ha)
  drawn := fun hnone a ha ↦ by
    rcases hmid : p'.authenticator with - | b
    · exact h'.drawn hmid a ha
    · rw [h'.authenticator b hmid] at ha
      cases ha
      exact h.drawn hnone _ hmid
  flag := fun hflag ↦ h'.flag (h.flag hflag)

/-- The digest of the packet is stored as it is, if it is stored at all: it is not `0x` with hexadecimal
digits, which the codec would turn into the bytes they stand for. -/
def DigestKept (E : Env) (p : Packet) : Prop :=
  ∀ w body s header authenticator v, (encodeAttributes E).run (p.macState zeros16 w) = .ok body s →
    packHeader p.code p.id (20 + body.length) = .ok header →
    p.macAuthenticator = .ok authenticator →
    Tools.encodeOctets (.bytes (E.hmacMd5 p.secret (header ++ authenticator ++ body))) = .ok v →
      v = .bytes (E.hmacMd5 p.secret (header ++ authenticator ++ body))

/-- The digest is stored as it is, whatever identifier and authenticator the packet is given before. -/
def KeepsDigest (E : Env) (p : Packet) : Prop :=
  ∀ q, Completes p q → q.attrs = p.attrs → DigestKept E q

section

variable {D : Dictionary} {E : Env} {p q : Packet}

theorem KeepsDigest.digestKept (h : KeepsDigest E p) : DigestKept E p := h p (.refl p) rfl

theorem KeepsDigest.of_completes (h : KeepsDigest E p) (hcompletes : Completes p q)
    (hattrs : q.attrs = p.attrs) : KeepsDigest E q :=
  fun r hr hrattrs ↦ h r (hcompletes.trans hr) (hrattrs.trans hattrs)

/-- The value that is there does not matter. -/
theorem KeepsDigest.withMac (h : KeepsDigest E p) (v : Bytes) : KeepsDigest E (p.withMac v) := by
  intro r hr hattrs
  obtain ⟨id, authenticator, flag, attrs, rfl⟩ := hr.pkt_eq
  obtain rfl : attrs = (p.withMac v).attrs := hattrs
  have hcompletes : Completes p { p with id, authenticator, messageAuthenticator := flag } :=
    ⟨⟨_, _, _, _, rfl⟩, hr.id, hr.authenticator, hr.drawn, hr.flag⟩
  have hstate (w : World) :
      ({ p.withMac v with id, authenticator, messageAuthenticator := flag } : Packet).macState
        zeros16 w =
      ({ p with id, authenticator, messageAuthenticator := flag } : Packet).macState zeros16 w := by
    rw [macState, macState, Packet.withMac, Packet.withMac, Packet.withMac]
    dsimp only
    rw [OrderedDict.set_set]
  intro w body s header a v hrun
  exact h _ hcompletes rfl w body s header a v ((hstate w) ▸ hrun)

/-- The digests are no text that begins with `0x`. -/
def HexFree (E : Env) : Prop :=
  ∀ key msg digits, E.hmacMd5 key msg ≠ 0x30 :: 0x78 :: digits

theorem keepsDigest_of_hexFree (h : HexFree E) (p : Packet) : KeepsDigest E p := by
  intro q _ _ w body s header authenticator v _ _ _ hv
  obtain ⟨c, rfl, ⟨⟨digits, hdigits⟩, -⟩ | ⟨-, rfl⟩⟩ := Tools.encodeOctets_bytes_eq_ok hv
  · exact absurd hdigits (h _ _ digits)
  · rfl

theorem run_setMessageAuthenticator_of_ne (hD : D.DeclaresMessageAuthenticator)
    (hdict : p.dict = some D) {b : Bytes} (h : ∀ digits, b ≠ 0x30 :: 0x78 :: digits) (w : World) :
    (setMessageAuthenticator E (.bytes b)).run ⟨p, w⟩ = .ok () (p.macState b w) := by
  rw [run_setMessageAuthenticator hD E hdict, Tools.encodeOctets_of_ne h]
  rfl

/-- **Refreshing** stores the digest of the packet with zeros in its place. -/
theorem ensures_refreshMessageAuthenticator (hD : D.DeclaresMessageAuthenticator)
    (hdict : p.dict = some D) (hauth : p.cls = .auth → p.authenticator.isSome = true)
    (hsalt : p.SaltFree) (honly : p.OnlyMac) (hkept : DigestKept E p) (w : World) :
    Ensures (refreshMessageAuthenticator E) ⟨p, w⟩
      (fun _ s ↦ ∃ (m : MacFrame E p) (header authenticator : Bytes),
        packHeader p.code p.id (20 + m.zeroed.length) = .ok header ∧
        p.macAuthenticator = .ok authenticator ∧
        (∀ digits, E.hmacMd5 p.secret (header ++ authenticator ++ m.zeroed) ≠
          0x30 :: 0x78 :: digits) ∧
        s = p.macState (E.hmacMd5 p.secret (header ++ authenticator ++ m.zeroed)) w)
      fun _ _ ↦ True := by
  have hzeros (digits : Bytes) : zeros16 ≠ 0x30 :: 0x78 :: digits := by
    intro h
    cases h
  rw [refreshMessageAuthenticator]
  refine ensures_bind.2 (.of_ok (run_setMessageAuthenticator_of_ne hD hdict hzeros w) ?_)
  rcases exists_encodeAttributes_withMac (E := E) hD hdict hauth hsalt honly with
    ⟨e, herror⟩ | ⟨front, back, hothers, hrun⟩
  · exact ensures_bind.2 (.of_error (herror zeros16 w rfl) trivial)
  let m : MacFrame E p := ⟨front, back, hothers, hrun⟩
  refine ensures_bind.2 (.of_ok (m.run_eq zeros16 w rfl) ?_)
  refine ensures_bind.2 (ensures_get.2 (ensures_bind.2 (ensures_liftM (fun header hheader ↦ ?_)
    fun _ _ ↦ trivial)))
  refine ensures_bind.2 (ensures_liftM (fun authenticator hauthenticator ↦ ?_) fun _ _ ↦ trivial)
  rcases hencode : Tools.encodeOctets
    (.bytes (E.hmacMd5 p.secret (header ++ authenticator ++ m.zeroed))) with e | v
  · have hset := run_setMessageAuthenticator hD E (s := p.macState zeros16 w) hdict
      (E.hmacMd5 p.secret (header ++ authenticator ++ m.zeroed))
    rw [hencode] at hset
    exact .of_error hset trivial
  -- a digest that is taken is kept, so it is no hexadecimal literal
  obtain rfl := hkept w m.zeroed _ header authenticator v (m.run_eq zeros16 w rfl) hheader
    hauthenticator hencode
  have hdigits : ∀ digits, E.hmacMd5 p.secret (header ++ authenticator ++ m.zeroed) ≠
      0x30 :: 0x78 :: digits := by
    obtain ⟨c, hc, ⟨-, hlt⟩ | ⟨hne, -⟩⟩ := Tools.encodeOctets_bytes_eq_ok hencode
    · rw [PyVal.bytes.inj hc] at hlt
      exact absurd hlt (lt_irrefl _)
    · exact hne
  have hset := run_setMessageAuthenticator_of_ne (E := E) hD (p := p.withMac zeros16) hdict hdigits w
  refine .of_ok hset ⟨m, header, authenticator, hheader, hauthenticator, hdigits, ?_⟩
  rw [macState, withMac_withMac]
  rfl

end

end Packet

end Pyrad2
