import Pyrad2.Packet.PlainWire
import Pyrad2.Packet.Reply
import Pyrad2.Packet.Salt

/-!
# CHAP

The `CHAP-Password` that a client builds and the server's check of it.

The two sides meet in the attributes: one assigns them by name, through the codec of `octets`, the
other reads the password as it is stored. The codec takes values that begin with `0x` for hexadecimal
digits, and the check strips a textual password of the whitespace around it.
-/

namespace Pyrad2

open EStateM

namespace Chap

/-- `build_chap_password(chap_id, password, challenge)` -/
def buildChapPassword (E : Env) (chapId : Int) (password : PyVal) (challenge : Bytes) :
    Except Exn Bytes := do
  if ¬ (0 ≤ chapId ∧ chapId ≤ 0xff) then
    throw (.valueError ("CHAP id must fit in one byte, got " ++ toString chapId))
  let idByte := [UInt8.ofNat chapId.toNat]
  return idByte ++ E.md5 (idByte ++ (← password.asBytes) ++ challenge)

/-- `secrets.token_bytes(n)` -/
def tokenBytes (n : ℕ) : PacketMethod Bytes := fun s ↦
  .ok (s.world.bytes n).1 { s with world := (s.world.bytes n).2 }

/-- `password.encode("utf-8")`, if the password is text. -/
def encodePassword : PyVal → PyVal
  | .str text => .bytes (Tools.utf8 text)
  | v => v

/-- `if "User-Password" in pkt: del pkt["User-Password"]` -/
def dropUserPassword : PacketMethod Unit := do
  if ← (← get).pkt.contains "User-Password" then Packet.delItem "User-Password"

/-- `prepare_chap_request(pkt, password, chap_id=chap_id, challenge=challenge)` -/
def prepareChapRequest (E : Env) (password : PyVal) (chapId : Option Int)
    (challenge : Option Bytes) : PacketMethod Unit := do
  let password := encodePassword password
  let chapId ← match chapId with
    | some chapId => pure chapId
    | none => do pure (Int.ofNat (← Packet.randrange 0 256))
  let challenge ← match challenge with
    | some challenge => pure challenge
    | none => tokenBytes 16
  dropUserPassword
  let chapPassword ← buildChapPassword E chapId password challenge
  Packet.setItem E "CHAP-Password" [.bytes chapPassword]
  Packet.setItem E "CHAP-Challenge" [.bytes challenge]

end Chap

namespace Packet

/-- `tools.decode_octets(self.get(3)[0])`, if that is of seventeen elements. A list of seventeen
values is as little bytes as `None` is. -/
def chapPassword? (p : Packet) : Except Exn (Option PyVal) :=
  match p.attrs.get? (.int 3) with
  | none => .error (.typeError "'NoneType' object is not subscriptable")
  | some (.vals []) => .error .indexError
  | some (.vals (v :: _)) => do return if (← v.len) = 17 then some v else none
  | some (.node m) =>
    match Assoc.get? 0 m with
    | none => .error .keyError
    | some stored => .ok (if stored.iterate.length = 17 then some .none else none)

/-- The challenge that `verify_chap_passwd` takes. -/
def chapChallenge (E : Env) : PacketMethod PyVal := do
  let p := (← get).pkt
  if p.radiusVersion = .v1_1 then
    if ← p.contains "CHAP-Challenge" then p.getFirst E "CHAP-Challenge"
    else throw (.packetError ("CHAP-Password in RADIUS/1.1 requires an explicit " ++
      "CHAP-Challenge attribute (RFC 9765 §5.1.2)"))
  else
    if (p.authenticator.getD []).isEmpty then
      let authenticator ← createAuthenticator
      modify fun s ↦ { s with pkt := { s.pkt with authenticator := some authenticator } }
    if ← p.contains "CHAP-Challenge" then p.getFirst E "CHAP-Challenge"
    else return .bytes ((← get).pkt.authenticator.getD [])

/-- `userpwd.strip().encode("utf-8")`, if the password is text. -/
def stripPassword : PyVal → PyVal
  | .str text => .bytes (Tools.utf8 (String.ofList (Tools.strip text.toList)))
  | v => v

/-- `verify_chap_passwd(userpwd)` -/
def verifyChapPasswd (E : Env) (userpwd : PyVal) : PacketMethod Bool := do
  let userpwd := stripPassword userpwd
  match ← (← get).pkt.chapPassword? with
  | none => return false
  | some chapPassword => do
    let challenge ← chapChallenge E
    let b ← chapPassword.asBytes
    return b.drop 1 == E.md5 (b.take 1 ++ (← userpwd.asBytes) ++ (← challenge.asBytes))

/-! ### What the client stores -/

/-- A packet that can be made a CHAP request: the dictionary declares both attributes as octets. -/
structure ChapReady (D : Dictionary) (p : Packet) : Prop where
  cls : p.cls = .auth
  dict : p.dict = some D
  password : D.DeclaresPlain "CHAP-Password" 3 .octets
  challenge : D.DeclaresPlain "CHAP-Challenge" 60 .octets

section

variable {D : Dictionary} {E : Env} {s : PacketState}

theorem partitionTag_chapPassword : partitionTag "CHAP-Password" = ("CHAP-Password", "") := by
  decide +kernel

theorem partitionTag_chapChallenge : partitionTag "CHAP-Challenge" = ("CHAP-Challenge", "") := by
  decide +kernel

/-- Assigning octets stores what the codec makes of them. -/
theorem run_setItem_octets {name : String} {code : Int} (hD : D.DeclaresPlain name code .octets)
    (htag : partitionTag name = (name, "")) (hdict : s.pkt.dict = some D) (b : Bytes) :
    (setItem E name [.bytes b]).run s = match Tools.encodeOctets (.bytes b) with
      | .ok v => .ok ()
        { s with pkt := { s.pkt with attrs := s.pkt.attrs.set (.int code) (.vals [v]) } }
      | .error e => .error e s := by
  have hencode : [PyVal.bytes b].mapM (Tools.encodeAttr E .octets) =
      (Tools.encodeOctets (.bytes b)).map fun v ↦ [v] := by
    rw [List.mapM_cons, List.mapM_nil]
    show (Tools.encodeOctets (.bytes b) >>= _) = _
    rcases Tools.encodeOctets (.bytes b) with e | v <;> rfl
  rw [run_setItem_of_plain hD htag hdict, hencode]
  rcases Tools.encodeOctets (.bytes b) with e | v <;> rfl

/-- A `User-Password` is deleted, and nothing is if there is none. -/
theorem exists_run_dropUserPassword (hdict : s.pkt.dict = some D) :
    ∃ attrs, (∀ key ∈ attrs.keys, key ∈ s.pkt.attrs.keys) ∧
      Chap.dropUserPassword.run s = .ok () { s with pkt := { s.pkt with attrs } } := by
  have hkey : s.pkt.encodeKey "User-Password" = D.encodeKey "User-Password" := by
    rw [encodeKey, theDict, hdict]
    rfl
  have hnothing (h : s.pkt.contains "User-Password" = .ok false) :
      Chap.dropUserPassword.run s = .ok () { s with pkt := { s.pkt with attrs := s.pkt.attrs } } := by
    rw [Chap.dropUserPassword, run_bind_of_ok (run_get s), h, run_bind_of_ok (run_liftM_ok _ s)]
    rfl
  rcases hencode : D.encodeKey "User-Password" with e | key
  · have he : e = .keyError := Dictionary.encodeKey_eq_error hencode
    exact ⟨_, fun _ h ↦ h, hnothing (by rw [contains, hkey, hencode, he])⟩
  have hcontains : s.pkt.contains "User-Password" = .ok (s.pkt.attrs.contains key) := by
    rw [contains, hkey, hencode]
  rcases hstored : s.pkt.attrs.contains key with - | -
  · exact ⟨_, fun _ h ↦ h, hnothing (by rw [hcontains, hstored])⟩
  · rw [hstored] at hcontains
    refine ⟨s.pkt.attrs.erase key, fun key' hkey' ↦ ?_, ?_⟩
    · rw [OrderedDict.keys_erase] at hkey'
      exact List.mem_of_mem_filter hkey'
    · rw [Chap.dropUserPassword, run_bind_of_ok (run_get s), hcontains,
        run_bind_of_ok (run_liftM_ok _ s), if_pos rfl, delItem, run_bind_of_ok (run_get s)]
      dsimp only
      rw [hkey, hencode, run_bind_of_ok (run_liftM_ok _ s), if_pos hstored]
      rfl

/-- The packet as a CHAP request: its attributes are some of those it had and the two of CHAP. -/
def Prepared (s : PacketState) (v w : PyVal) (s' : PacketState) : Prop :=
  ∃ attrs : Attrs PyVal, (∀ key ∈ attrs.keys, key ∈ s.pkt.attrs.keys) ∧
    s' = { s with pkt := { s.pkt with
      attrs := (attrs.set (.int 3) (.vals [v])).set (.int 60) (.vals [w]) } }

/-- **What `prepare_chap_request` does.** -/
theorem run_prepareChapRequest (hp : ChapReady D s.pkt) {password : PyVal} {b : Bytes}
    (hb : Chap.encodePassword password = .bytes b) (chapId : UInt8) (challenge : Bytes) :
    match Tools.encodeOctets (.bytes (chapId :: E.md5 (chapId :: (b ++ challenge)))),
        Tools.encodeOctets (.bytes challenge) with
      | .ok v, .ok w => ∃ s', (Chap.prepareChapRequest E password (some chapId.toNat)
          (some challenge)).run s = .ok () s' ∧ Prepared s v w s'
      | _, _ => ∃ e s', (Chap.prepareChapRequest E password (some chapId.toNat)
          (some challenge)).run s = .error e s' := by
  obtain ⟨attrs, hattrs, hdrop⟩ := exists_run_dropUserPassword hp.dict
  have hbuild : Chap.buildChapPassword E chapId.toNat (.bytes b) challenge =
      .ok (chapId :: E.md5 (chapId :: (b ++ challenge))) := by
    have hrange : 0 ≤ (chapId.toNat : Int) ∧ (chapId.toNat : Int) ≤ 0xff := by
      have := chapId.toNat_lt
      omega
    have hbyte : UInt8.ofNat (chapId.toNat : Int).toNat = chapId := by
      rw [Int.toNat_natCast, UInt8.ofNat_toNat]
    rw [Chap.buildChapPassword, if_neg (not_not.2 hrange), hbyte]
    rfl
  set t : PacketState := { s with pkt := { s.pkt with attrs } }
  have hprepare : (Chap.prepareChapRequest E password (some chapId.toNat) (some challenge)).run s =
      (setItem E "CHAP-Password" [.bytes (chapId :: E.md5 (chapId :: (b ++ challenge)))] >>= fun _ ↦
        setItem E "CHAP-Challenge" [.bytes challenge]).run t := by
    rw [Chap.prepareChapRequest, hb]
    show (Chap.dropUserPassword >>= fun _ ↦ _).run s = _
    rw [run_bind_of_ok hdrop, hbuild, run_bind_of_ok (run_liftM_ok _ t)]
  have hpassword := run_setItem_octets (E := E) hp.password partitionTag_chapPassword (s := t) hp.dict
    (chapId :: E.md5 (chapId :: (b ++ challenge)))
  rcases hv : Tools.encodeOctets (.bytes (chapId :: E.md5 (chapId :: (b ++ challenge)))) with e | v
  · rw [hv] at hpassword
    exact ⟨e, t, by rw [hprepare, run_bind_of_error hpassword]⟩
  set t' : PacketState := { t with pkt := { t.pkt with attrs := attrs.set (.int 3) (.vals [v]) } }
  have hchallenge := run_setItem_octets (E := E) hp.challenge partitionTag_chapChallenge (s := t')
    hp.dict challenge
  rw [hv] at hpassword
  rw [run_bind_of_ok hpassword] at hprepare
  rcases hw : Tools.encodeOctets (.bytes challenge) with e | w
  · rw [hw] at hchallenge
    exact ⟨e, t', by rw [hprepare, hchallenge]⟩
  · rw [hw] at hchallenge
    exact ⟨_, by rw [hprepare, hchallenge], attrs, hattrs, rfl⟩

/-! ### What the server checks -/

/-- A packet with these values of CHAP, to check. -/
structure HoldsChap (D : Dictionary) (p : Packet) (value challenge : Bytes) : Prop where
  dict : p.dict = some D
  password : p.attrs.get? (.int 3) = some (.vals [.bytes value])
  challenge : p.attrs.get? (.int 60) = some (.vals [.bytes challenge])

theorem exists_run_chapChallenge (hD : D.DeclaresPlain "CHAP-Challenge" 60 .octets)
    {value challenge : Bytes} (h : HoldsChap D s.pkt value challenge) :
    ∃ t, (chapChallenge E).run s = .ok (.bytes challenge) t := by
  have hcontains : s.pkt.contains "CHAP-Challenge" = .ok true := by
    rw [contains_of_plain hD h.dict, OrderedDict.contains, h.challenge]
    rfl
  have hread : s.pkt.getFirst E "CHAP-Challenge" = .ok (.bytes challenge) := by
    rw [getFirst, getItem_of_plain hD rfl h.dict h.challenge]
    rfl
  have htake (t : PacketState) : (do
      if ← s.pkt.contains "CHAP-Challenge" then s.pkt.getFirst E "CHAP-Challenge"
      else return .bytes ((← get).pkt.authenticator.getD []) : PacketMethod PyVal).run t =
        .ok (.bytes challenge) t := by
    rw [hcontains, run_bind_of_ok (run_liftM_ok _ t), if_pos rfl, hread]
    rfl
  rw [chapChallenge, run_bind_of_ok (run_get s)]
  dsimp only
  split
  · rw [hcontains, run_bind_of_ok (run_liftM_ok _ s), if_pos rfl, hread]
    exact ⟨s, rfl⟩
  · split
    · exact ⟨_, htake _⟩
    · exact ⟨s, htake s⟩

/-- **What `verify_chap_passwd` returns**: whether the digests agree. -/
theorem exists_run_verifyChapPasswd (hD : D.DeclaresPlain "CHAP-Challenge" 60 .octets)
    {chapId : UInt8} {digest challenge : Bytes} (hlength : digest.length = 16)
    (h : HoldsChap D s.pkt (chapId :: digest) challenge) {userpwd : PyVal} {b : Bytes}
    (hb : stripPassword userpwd = .bytes b) :
    ∃ t, (verifyChapPasswd E userpwd).run s =
      .ok (digest == E.md5 (chapId :: (b ++ challenge))) t := by
  have hpassword : s.pkt.chapPassword? = .ok (some (.bytes (chapId :: digest))) := by
    rw [chapPassword?, h.password]
    show Except.ok (if (chapId :: digest).length = 17 then _ else _) = _
    rw [if_pos (by rw [List.length_cons, hlength])]
  obtain ⟨t, hchallenge⟩ := exists_run_chapChallenge (E := E) hD h
  refine ⟨t, ?_⟩
  rw [verifyChapPasswd, run_bind_of_ok (run_get s), hpassword, run_bind_of_ok (run_liftM_ok _ s)]
  dsimp only
  rw [run_bind_of_ok hchallenge, hb]
  rfl

/-! ### Both sides -/

/-- The fields of an `AuthPacket` that is to be parsed with the dictionary and the version of `p`. -/
def receiver (p : Packet) (secret : Bytes) : Packet where
  cls := .auth
  secret
  dict := p.dict
  radiusVersion := p.radiusVersion

/-- Nothing else the packet holds goes out with the types of the two attributes. -/
def SoleChap (p : Packet) : Prop :=
  ∀ D, p.dict = some D → OnlySource D p 3 ∧ OnlySource D p 60

/-- The packet is made a CHAP request and the password is verified, on the packet itself and on one
that is parsed from its bytes. -/
structure ChapVerifies (E : Env) (s : PacketState) (password : PyVal) (chapId : UInt8)
    (challenge : Bytes) : Prop where
  exists_prepared : ∃ s', (Chap.prepareChapRequest E password (some chapId.toNat)
      (some challenge)).run s = .ok () s' ∧
    (∃ t, (verifyChapPasswd E password).run s' = .ok true t) ∧
    (s.pkt.SoleChap → ∀ raw t, (requestPacket E).run s' = .ok raw t → raw.length ≤ 8192 →
      ∀ secret w, ∃ q w', (construct E (s.pkt.receiver secret) (some raw) []).run w = .ok q w' ∧
        ∀ w, ∃ t, (verifyChapPasswd E password).run ⟨q, w⟩ = .ok true t)

/-- What CHAP is verified for: text without whitespace around it, and values that do not look like
hexadecimal digits. -/
structure ChapPlain (password : PyVal) (chapId : UInt8) (challenge : Bytes) : Prop where
  stripped : ∀ text, password = .str text → Tools.strip text.toList = text.toList
  chapId : chapId ≠ 0x30
  challenge : ∀ digits, challenge ≠ 0x30 :: 0x78 :: digits

theorem stripPassword_eq {password : PyVal}
    (h : ∀ text, password = .str text → Tools.strip text.toList = text.toList) :
    stripPassword password = Chap.encodePassword password := by
  rcases password with - | n | text | b
  iterate 2 rfl
  · show PyVal.bytes (Tools.utf8 (String.ofList (Tools.strip text.toList))) = _
    rw [h text rfl, String.ofList_toList]
    rfl
  · rfl

/-- Preparing keeps other sources away. -/
theorem OnlySource.of_prepared {code : Int} (h : OnlySource D s.pkt code)
    (h3 : wireType (some D) (.int 3) = 3) (h60 : wireType (some D) (.int 60) = 60) {v w : PyVal}
    (hcode : code = 3 ∨ code = 60) {s' : PacketState} (hs : Prepared s v w s') :
    OnlySource D s'.pkt code := by
  obtain ⟨attrs, hattrs, rfl⟩ := hs
  refine ⟨fun key hkey hne ↦ ?_, h.pending, h.mac⟩
  rcases Assoc.mem_keys_set.1 hkey with rfl | hkey
  · rcases hcode with rfl | rfl
    · rw [h60]
      decide
    · exact absurd rfl hne
  rcases Assoc.mem_keys_set.1 hkey with rfl | hkey
  · rcases hcode with rfl | rfl
    · exact absurd rfl hne
    · rw [h3]
      decide
  · exact h.stored key (hattrs key hkey) hne

theorem listKey_of_plain {name : String} {code : Int} {type : Datatype}
    (hD : D.DeclaresPlain name code type) (htype : type.isContainer = false) (h26 : code ≠ 26)
    (h80 : code ≠ 80) (version : RadiusVersion) : ListKey D version (.int code) where
  notTlv := by rw [hD.containerType_eq htype]; exact fun h ↦ by cases h
  notExtended := by rw [hD.containerType_eq htype]; exact fun h ↦ by cases h
  notLongExtended := by rw [hD.containerType_eq htype]; exact fun h ↦ by cases h
  notVendor := fun h ↦ h26 (Key.int.inj h)
  notDropped := fun h ↦ (h80 (Key.int.inj h)).elim
  notEvs := fun _ _ _ _ h ↦ by cases h

/-- The octets of an attribute that are sent are received. -/
theorem exists_run_decodePacket_octets {name : String} {code : Int} {version : RadiusVersion}
    (hD : D.DeclaresPlain name code .octets) (h26 : code ≠ 26) (h80 : code ≠ 80)
    (honly : OnlySource D s.pkt code) (hdict : s.pkt.dict = some D) {v raw : Bytes}
    (hv : s.pkt.attrs.get? (.int code) = some (.vals [.bytes v])) (hraw : Encodes E s raw)
    (hlength : raw.length ≤ 8192) {t : PacketState} (ht : t.pkt.dict = some D)
    (hversion : t.pkt.radiusVersion = version) :
    ∃ t', (decodePacket raw).run t = .ok () t' ∧
      t'.pkt.attrs.get? (.int code) = some (.vals [.bytes v]) ∧ t'.pkt.dict = some D ∧
        t'.pkt.radiusVersion = version := by
  obtain ⟨s₁, s₂, hs₁, hrun⟩ := hraw.exists_run
  have hdict₁ : s₁.pkt.dict = some D := by
    obtain ⟨id, authenticator, flag, attrs, hpkt, -⟩ := hs₁
    rw [hpkt]
    exact hdict
  have hstored : s₁.pkt.attrs.get? (.int code) = some (.vals ([v].map PyVal.bytes)) :=
    (honly.get?_of_refreshes hD rfl hdict hs₁).trans hv
  obtain ⟨l, hl, hvalues⟩ := exists_avps_encodeAttributes (honly.of_refreshes hdict hs₁) hD rfl
    hdict₁ hstored hrun
  exact exists_run_decodePacket_plain (listKey_of_plain hD rfl h26 h80 version)
    hD.isConcatAttribute_eq hD.isArrayAttribute_eq ⟨hraw.header, hraw.length_eq.symm, hlength⟩ hl
    (List.cons_ne_nil v []) hvalues ht hversion

/-- **CHAP is verified** for plain values. -/
theorem chapVerifies_of_plain (E : Env) (hp : ChapReady D s.pkt) {password : PyVal} {b : Bytes}
    (hb : Chap.encodePassword password = .bytes b) {chapId : UInt8} {challenge : Bytes}
    (h : ChapPlain password chapId challenge) : ChapVerifies E s password chapId challenge := by
  set digest := E.md5 (chapId :: (b ++ challenge)) with hdigest
  have hlength : digest.length = 16 := E.md5_length _
  have hvalue : Tools.encodeOctets (.bytes (chapId :: digest)) = .ok (.bytes (chapId :: digest)) :=
    Tools.encodeOctets_of_ne fun digits heq ↦ h.chapId (List.cons.inj heq).1
  have hchallenge : Tools.encodeOctets (.bytes challenge) = .ok (.bytes challenge) :=
    Tools.encodeOctets_of_ne h.challenge
  have hprepare := run_prepareChapRequest (E := E) hp hb chapId challenge
  rw [← hdigest, hvalue, hchallenge] at hprepare
  obtain ⟨s', hrun, hprepared⟩ := hprepare
  have hholds : HoldsChap D s'.pkt (chapId :: digest) challenge := by
    obtain ⟨attrs, -, rfl⟩ := hprepared
    have hne : Key.int 3 ≠ .int 60 := by decide
    refine ⟨hp.dict, ?_, OrderedDict.get?_set_self ..⟩
    exact (OrderedDict.get?_set_ne _ hne _).trans (OrderedDict.get?_set_self ..)
  have hbytes : stripPassword password = .bytes b := (stripPassword_eq h.stripped).trans hb
  have hverifies {t : PacketState} (ht : HoldsChap D t.pkt (chapId :: digest) challenge) :
      ∃ t', (verifyChapPasswd E password).run t = .ok true t' := by
    obtain ⟨t', ht'⟩ := exists_run_verifyChapPasswd (E := E) hp.challenge hlength ht hbytes
    rw [← hdigest, beq_self_eq_true] at ht'
    exact ⟨t', ht'⟩
  refine ⟨s', hrun, hverifies hholds, fun hsole raw t hraw hle secret w ↦ ?_⟩
  -- on the wire and back
  have hencodes : Encodes E s' raw := (encodes_requestPacket s').of_run_eq_ok hraw
  have h3 := wireType_of_plain hp.password rfl
  have h60 := wireType_of_plain hp.challenge rfl
  have honly3 := (hsole D hp.dict).1.of_prepared h3 h60 (.inl rfl) hprepared
  have honly60 := (hsole D hp.dict).2.of_prepared h3 h60 (.inr rfl) hprepared
  have hversion : (s.pkt.receiver secret).radiusVersion = s.pkt.radiusVersion := rfl
  have hdecode (id : Option ℕ) (w : World) : ∃ t', (decodePacket raw).run
      ⟨{ s.pkt.receiver secret with id, rawPacket := some raw }, w⟩ = .ok () t' ∧
        HoldsChap D t'.pkt (chapId :: digest) challenge := by
    obtain ⟨t₁, ht₁, hpassword, hdict, -⟩ := exists_run_decodePacket_octets hp.password
      (by decide) (by decide) honly3 hholds.dict hholds.password hencodes hle
      (t := ⟨{ s.pkt.receiver secret with id, rawPacket := some raw }, w⟩) hp.dict hversion
    obtain ⟨t₂, ht₂, hchallenge, -⟩ := exists_run_decodePacket_octets hp.challenge
      (by decide) (by decide) honly60 hholds.dict hholds.challenge hencodes hle
      (t := ⟨{ s.pkt.receiver secret with id, rawPacket := some raw }, w⟩) hp.dict hversion
    cases ht₁.symm.trans ht₂
    exact ⟨t₁, ht₁, hdict, hpassword, hchallenge⟩
  obtain ⟨q, w', hq, hholdsq⟩ := exists_run_construct_of_decode (E := E)
    (Q := fun q ↦ HoldsChap D q (chapId :: digest) challenge) hdecode w
  exact ⟨q, w', hq, fun w ↦ hverifies hholdsq⟩

/-- A digest of the letter `x` makes the password of identifier `0x30` a hexadecimal literal. -/
theorem encodeOctets_x :
    ∃ e, Tools.encodeOctets (.bytes (0x30 :: List.replicate 16 0x78)) = .error e := ⟨_, rfl⟩

/-- The bytes of a stripped password are no more than those of the password. -/
theorem exists_stripPassword_eq {password : PyVal} {b : Bytes}
    (hb : Chap.encodePassword password = .bytes b) :
    ∃ b', stripPassword password = .bytes b' ∧ b'.length ≤ b.length ∧
      (b' = b → ∀ text, password = .str text → Tools.strip text.toList = text.toList) := by
  rcases password with - | n | text | c
  · cases hb
  · cases hb
  · cases hb
    refine ⟨_, rfl, Tools.length_utf8_strip_le text, fun h text' htext ↦ ?_⟩
    cases htext
    have hlist := congrArg String.toList (Tools.utf8_injective h)
    rwa [String.toList_ofList] at hlist
  · cases hb
    exact ⟨_, rfl, le_rfl, fun _ text h ↦ by cases h⟩

/-- **When CHAP is verified**, whatever the digests are: exactly for text without whitespace around
it, an identifier that is not the digit zero, and a challenge that does not begin with `0x`. -/
theorem chapVerifies_iff (hp : ChapReady D s.pkt) {password : PyVal} {b : Bytes}
    (hb : Chap.encodePassword password = .bytes b) (chapId : UInt8) (challenge : Bytes) :
    (∀ E, ChapVerifies E s password chapId challenge) ↔ ChapPlain password chapId challenge := by
  refine ⟨fun h ↦ ?_, fun h E ↦ chapVerifies_of_plain E hp hb h⟩
  have hid : chapId ≠ 0x30 := by
    rintro rfl
    obtain ⟨s', hrun, -⟩ := (h (Env.ofByte (fun _ ↦ 0x78) fun _ _ ↦ 0)).exists_prepared
    obtain ⟨e, he⟩ := encodeOctets_x
    have hprepare := run_prepareChapRequest (E := Env.ofByte (fun _ ↦ 0x78) fun _ _ ↦ 0) hp hb 0x30
      challenge
    rw [show (0x30 : UInt8) :: (Env.ofByte (fun _ ↦ 0x78) fun _ _ ↦ 0).md5
      (0x30 :: (b ++ challenge)) = 0x30 :: List.replicate 16 0x78 from rfl, he] at hprepare
    obtain ⟨e', t, herror⟩ := hprepare
    cases hrun.symm.trans herror
  -- a digest that tells the input of the client from every other
  set E := markedEnv (chapId :: (b ++ challenge))
  have hmarked : E.md5 (chapId :: (b ++ challenge)) = List.replicate 16 0 := by
    show List.replicate 16 (if _ = _ then (0 : UInt8) else 255) = _
    rw [if_pos rfl]
  obtain ⟨s', hrun, ⟨t, hverify⟩, -⟩ := (h E).exists_prepared
  have hvalue : Tools.encodeOctets (.bytes (chapId :: List.replicate 16 0)) =
      .ok (.bytes (chapId :: List.replicate 16 0)) :=
    Tools.encodeOctets_of_ne fun digits heq ↦ hid (List.cons.inj heq).1
  have hprepare := run_prepareChapRequest (E := E) hp hb chapId challenge
  rw [hmarked, hvalue] at hprepare
  rcases hchallenge : Tools.encodeOctets (.bytes challenge) with e | w
  · rw [hchallenge] at hprepare
    obtain ⟨e', t, herror⟩ := hprepare
    cases hrun.symm.trans herror
  rw [hchallenge] at hprepare
  obtain ⟨s₁, hrun₁, attrs, -, hs₁⟩ := hprepare
  cases hrun.symm.trans hrun₁
  obtain ⟨c, rfl, hc⟩ := Tools.encodeOctets_bytes_eq_ok hchallenge
  obtain ⟨b', hb', hle, hstripped⟩ := exists_stripPassword_eq hb
  have hholds : HoldsChap D s'.pkt (chapId :: List.replicate 16 0) c := by
    have hne : Key.int 3 ≠ .int 60 := by decide
    rw [hs₁]
    refine ⟨hp.dict, ?_, OrderedDict.get?_set_self ..⟩
    exact (OrderedDict.get?_set_ne _ hne _).trans (OrderedDict.get?_set_self ..)
  obtain ⟨t', ht'⟩ := exists_run_verifyChapPasswd (E := E) hp.challenge (by simp) hholds hb'
  have heq : chapId :: (b' ++ c) = chapId :: (b ++ challenge) := by
    by_contra hne
    have hother : E.md5 (chapId :: (b' ++ c)) = List.replicate 16 255 := by
      show List.replicate 16 (if _ = _ then (0 : UInt8) else 255) = _
      rw [if_neg hne]
    rw [hother] at ht'
    cases hverify.symm.trans ht'
  have happend : b' ++ c = b ++ challenge := (List.cons.inj heq).2
  have hlengths := congrArg List.length happend
  rw [List.length_append, List.length_append] at hlengths
  rcases hc with ⟨-, hlt⟩ | ⟨hne, rfl⟩
  · omega
  · exact ⟨hstripped (List.append_cancel_right happend), hid, hne⟩

end

/-- A dictionary that declares the two attributes. -/
def chapDictionary : Dictionary where
  heap := [{ name := "CHAP-Password", code := 3, type := .octets },
    { name := "CHAP-Challenge", code := 60, type := .octets }]
  attributes := (OrderedDict.set ∅ "CHAP-Password" 0).set "CHAP-Challenge" 1
  attrindex := (BiDict.empty.add "CHAP-Password" (.int 3)).add "CHAP-Challenge" (.int 60)
  vendors := BiDict.empty.add "" 0
  vendorFormats := ∅

/-- An empty request. -/
def chapRequest : PacketState where
  pkt := { cls := .auth, code := PacketType.accessRequest, dict := some chapDictionary }
  world := { rng := ⟨fun _ ↦ 0⟩ }

theorem chapVerifies_iff_chapRequest :
    (∀ E, ChapVerifies E chapRequest (.str "abc") 7 [1, 2]) ↔ ChapPlain (.str "abc") 7 [1, 2] :=
  chapVerifies_iff (D := chapDictionary) (s := chapRequest) {
    cls := rfl
    dict := rfl
    password := ⟨by decide, _, rfl, rfl, rfl, rfl, rfl, rfl, rfl, rfl, rfl, rfl⟩
    challenge := ⟨by decide, _, rfl, rfl, rfl, rfl, rfl, rfl, rfl, rfl, rfl, rfl⟩ } rfl 7 [1, 2]

/-- A password in text that begins with a space is not verified, nor is any password against a
challenge that begins with `0x`. -/
theorem not_chapVerifies_space :
    ¬ ChapVerifies (markedEnv [7, 32, 97, 1]) chapRequest (.str " a") 7 [1] ∧
      ¬ ChapVerifies (markedEnv [7, 97, 48, 120, 52, 49]) chapRequest (.bytes [97]) 7
        [48, 120, 52, 49] := by
  have hfails {E : Env} {password : PyVal} {challenge : Bytes}
      (h : ¬ Ensures (Chap.prepareChapRequest E password (some (7 : UInt8).toNat) (some challenge) >>=
        fun _ ↦ verifyChapPasswd E password) chapRequest (fun verified _ ↦ verified = true)
          fun _ _ ↦ False) : ¬ ChapVerifies E chapRequest password 7 challenge := by
    rintro ⟨s', hrun, ⟨t, hverify⟩, -⟩
    exact h (ensures_bind.2 (.of_ok hrun (.of_ok hverify rfl)))
  exact ⟨hfails (by decide +kernel), hfails (by decide +kernel)⟩

end Packet

end Pyrad2
