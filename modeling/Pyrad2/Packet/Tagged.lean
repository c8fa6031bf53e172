import Pyrad2.Packet.Deferred
import Pyrad2.Packet.Salt

/-!
# Tagged encrypted values

What becomes of a salt-encrypted value that is assigned under `Name:tag`.

The tag is put in front of the encrypted value, that is in front of the salt, and the receiver takes
the first two bytes for the salt. What it decrypts is then one byte too long and keyed wrongly: with
the right digest it is any bytes at all. In an integer the tag takes the place of the first byte of
the salt, so there the value comes back if the two happen to be equal.
-/

namespace Pyrad2

/-- The environment with another MD5. -/
def Env.withMd5 (E : Env) (f : Bytes → Bytes) (h : ∀ b, (f b).length = 16) : Env :=
  { E with md5 := f, md5_length := h }

namespace Packet

open Bytes EStateM

/-! ### Opening -/

section

variable {E : Env} {secret a : Bytes}

/-- What `salt_decrypt` makes of a value under the secret and the authenticator. -/
def opened (E : Env) (secret a value : Bytes) : Except Exn Bytes :=
  match saltBlocks E secret (a ++ value.take 2) (chunksOf 16 (value.drop 2)) with
  | [] => .error .indexError
  | length :: rest => .ok (rest.take length.toNat)

theorem saltDecrypt_eq_opened {r : Packet} (ha : r.saltAuthenticator = some a) (value : Bytes) :
    saltDecrypt E r value = opened E r.secret a value := by
  rw [saltDecrypt, saltEnDecrypt, ha]
  rfl

/-- The only block of a short value, encrypted. -/
def sealedBlock (E : Env) (secret a salt b : Bytes) : Bytes :=
  md5KeystreamXor E secret (a ++ salt) (saltPadded b)

/-- The tag and the encrypted value, as they are stored. -/
def taggedBytes (type : Datatype) (t : UInt8) (salt block : Bytes) : Bytes :=
  t :: if type = .integer then (salt ++ block).drop 1 else salt ++ block

variable {b : Bytes} (hb : b.length ≤ 15)

include hb

theorem length_sealedBlock (salt : Bytes) : (sealedBlock E secret a salt b).length = 16 :=
  length_md5KeystreamXor (saltPadded_of_length_le hb) ..

/-- Where the tag replaces a byte of the salt, one block is opened under the changed salt. -/
theorem opened_integer {s₀ s₁ t : UInt8} :
    opened E secret a (taggedBytes .integer t [s₀, s₁] (sealedBlock E secret a [s₀, s₁] b)) =
      match md5KeystreamXor E secret (a ++ [t, s₁]) (sealedBlock E secret a [s₀, s₁] b) with
      | [] => .error .indexError
      | length :: rest => .ok (rest.take length.toNat) := by
  have hlength : (sealedBlock E secret a [s₀, s₁] b).length = 16 := length_sealedBlock hb _
  have hne : sealedBlock E secret a [s₀, s₁] b ≠ [] := by
    rw [← List.length_pos_iff, hlength]
    omega
  show (match saltBlocks E secret (a ++ [t, s₁]) (chunksOf 16 (sealedBlock E secret a [s₀, s₁] b)) with
    | [] => _
    | length :: rest => _) = _
  rw [chunksOf_of_length_le hne hlength.le, saltBlocks, saltBlocks, List.append_nil]

/-- In any other value the last byte of the salt is opened with the block, and the last byte of the
block on its own. -/
theorem opened_other {type : Datatype} (htype : type ≠ .integer) {s₀ s₁ t : UInt8} :
    opened E secret a (taggedBytes type t [s₀, s₁] (sealedBlock E secret a [s₀, s₁] b)) =
      match md5KeystreamXor E secret (a ++ [t, s₀])
          (s₁ :: (sealedBlock E secret a [s₀, s₁] b).take 15) ++
        md5KeystreamXor E secret (md5KeystreamXor E secret (a ++ [t, s₀])
          (s₁ :: (sealedBlock E secret a [s₀, s₁] b).take 15))
          ((sealedBlock E secret a [s₀, s₁] b).drop 15) with
      | [] => .error .indexError
      | length :: rest => .ok (rest.take length.toNat) := by
  have hlength : (sealedBlock E secret a [s₀, s₁] b).length = 16 := length_sealedBlock hb _
  have hdrop : ((sealedBlock E secret a [s₀, s₁] b).drop 15).length = 1 := by
    rw [List.length_drop, hlength]
  have hne : (sealedBlock E secret a [s₀, s₁] b).drop 15 ≠ [] := by
    rw [← List.length_pos_iff, hdrop]
    omega
  have hfirst : (s₁ :: (sealedBlock E secret a [s₀, s₁] b).take 15).length = 16 := by
    rw [List.length_cons, List.length_take, hlength]
    rfl
  have hsplit : s₁ :: sealedBlock E secret a [s₀, s₁] b =
      (s₁ :: (sealedBlock E secret a [s₀, s₁] b).take 15) ++
        (sealedBlock E secret a [s₀, s₁] b).drop 15 := by
    rw [List.cons_append, List.take_append_drop]
  have hvalue : taggedBytes type t [s₀, s₁] (sealedBlock E secret a [s₀, s₁] b) =
      t :: s₀ :: s₁ :: sealedBlock E secret a [s₀, s₁] b := by
    rw [taggedBytes, if_neg htype]
    rfl
  rw [opened, hvalue]
  show (match saltBlocks E secret (a ++ [t, s₀])
      (chunksOf 16 (s₁ :: sealedBlock E secret a [s₀, s₁] b)) with
    | [] => _
    | length :: rest => _) = _
  rw [hsplit, chunksOf_append (by omega) hfirst, chunksOf_of_length_le hne (by omega), saltBlocks,
    saltBlocks, saltBlocks, List.append_nil]

end

/-! ### Any bytes are opened -/

/-- A mask that, applied to what it masked, shifted by one byte, gives the target. -/
theorem exists_mask (target plain : Bytes) (x : UInt8) (h : plain.length + 1 = target.length) :
    ∃ mask, mask.length = target.length ∧ Bytes.xor mask (x :: Bytes.xor mask plain) = target := by
  induction plain generalizing target x with
  | nil =>
    obtain ⟨y, rfl⟩ := List.length_eq_one_iff.1 h.symm
    refine ⟨[y ^^^ x], rfl, ?_⟩
    show [(y ^^^ x) ^^^ x] = _
    rw [UInt8.xor_assoc, UInt8.xor_self, UInt8.xor_zero]
  | cons p plain ih =>
    rcases target with - | ⟨y, target⟩
    · cases h
    obtain ⟨mask, hlength, hmask⟩ := ih target (y ^^^ x ^^^ p) (by simpa using h)
    refine ⟨(y ^^^ x) :: mask, by rw [List.length_cons, hlength, List.length_cons], ?_⟩
    show ((y ^^^ x) ^^^ x) :: Bytes.xor mask ((y ^^^ x ^^^ p) :: Bytes.xor mask plain) = _
    rw [hmask, UInt8.xor_assoc, UInt8.xor_self, UInt8.xor_zero]

/-- The text of `opened`: its length, itself and what fills the blocks. -/
theorem take_of_framed {y : Bytes} (h : y.length < 256) (rest : Bytes) :
    (y ++ rest).take (UInt8.ofNat y.length).toNat = y := by
  have hbyte : (UInt8.ofNat y.length).toNat = y.length := by
    rw [UInt8.toNat_ofNat']
    omega
  rw [hbyte, List.take_left' rfl]

section

variable {E : Env} {secret a b y : Bytes} {s₀ s₁ t : UInt8}

/-- Under the right digest the receiver of an integer opens any short bytes, unless the tag is the byte
it replaces. -/
theorem exists_opened_integer (hb : b.length ≤ 15) (ht : t ≠ s₀) (hy : y.length ≤ 15) :
    ∃ f h, opened (E.withMd5 f h) secret a
      (taggedBytes .integer t [s₀, s₁] (sealedBlock (E.withMd5 f h) secret a [s₀, s₁] b)) = .ok y := by
  have hpb := saltPadded_of_length_le hb
  have hpy := saltPadded_of_length_le hy
  let f : Bytes → Bytes := fun key ↦
    if key = secret ++ (a ++ [t, s₁]) then Bytes.xor (saltPadded b) (saltPadded y)
    else List.replicate 16 0
  have hf (key : Bytes) : (f key).length = 16 := by
    show (if _ then _ else _ : Bytes).length = 16
    split
    · rw [length_xor, hpb, hpy, min_self]
    · exact List.length_replicate
  refine ⟨f, hf, ?_⟩
  have hne : secret ++ (a ++ [s₀, s₁]) ≠ secret ++ (a ++ [t, s₁]) := by
    intro heq
    have hsalts := List.append_cancel_left (List.append_cancel_left heq)
    injection hsalts with hfirst
    exact ht hfirst.symm
  have hsealed : sealedBlock (E.withMd5 f hf) secret a [s₀, s₁] b = saltPadded b := by
    rw [sealedBlock, md5KeystreamXor_of_length hpb]
    show Bytes.xor (if _ then _ else _) _ = _
    rw [if_neg hne, xor_replicate_zero hpb.le]
  rw [opened_integer hb, hsealed, md5KeystreamXor_of_length hpb]
  have hopen : Bytes.xor ((E.withMd5 f hf).md5 (secret ++ (a ++ [t, s₁]))) (saltPadded b) =
      saltPadded y := by
    show Bytes.xor (if _ then _ else _) _ = _
    rw [if_pos rfl, Bytes.xor_comm, xor_xor_cancel (by rw [hpb, hpy])]
  rw [hopen]
  exact congrArg Except.ok (take_of_framed (by omega) _)

/-- Under the right digest the receiver of any other value opens any bytes that fit two blocks. -/
theorem exists_opened_other {type : Datatype} (htype : type ≠ .integer) (ha : a.length = 16)
    (hb : b.length ≤ 15) (hy : y.length ≤ 31) :
    ∃ f h, opened (E.withMd5 f h) secret a
      (taggedBytes type t [s₀, s₁] (sealedBlock (E.withMd5 f h) secret a [s₀, s₁] b)) = .ok y := by
  have hpb := saltPadded_of_length_le hb
  let target : Bytes := UInt8.ofNat y.length :: (y ++ List.replicate (31 - y.length) 0)
  have htarget : target.length = 32 := by
    show (UInt8.ofNat y.length :: (y ++ List.replicate (31 - y.length) 0)).length = 32
    rw [List.length_cons, List.length_append, List.length_replicate]
    omega
  have hfirst : (target.take 16).length = 16 := by
    rw [List.length_take, htarget]
    rfl
  obtain ⟨mask, hmask, hopen⟩ := exists_mask (target.take 16) ((saltPadded b).take 15) s₁ (by
    rw [List.length_take, hpb, hfirst]
    rfl)
  have hlast : (List.replicate 15 0 ++ (Bytes.xor mask (saltPadded b)).drop 15).length = 16 := by
    rw [List.length_append, List.length_replicate, List.length_drop, length_xor, hmask, hfirst, hpb]
    rfl
  let f : Bytes → Bytes := fun key ↦
    if key = secret ++ target.take 16 then
      Bytes.xor (List.replicate 15 0 ++ (Bytes.xor mask (saltPadded b)).drop 15) (target.drop 16)
    else mask
  have hf (key : Bytes) : (f key).length = 16 := by
    show (if _ then _ else _ : Bytes).length = 16
    split
    · rw [length_xor, hlast, List.length_drop, htarget]
      rfl
    · rw [hmask, hfirst]
  refine ⟨f, hf, ?_⟩
  have hkey (salt : Bytes) (hsalt : salt.length = 2) : (E.withMd5 f hf).md5 (secret ++ (a ++ salt)) =
      mask := by
    refine if_neg fun heq ↦ ?_
    have hlengths := congrArg List.length (List.append_cancel_left heq)
    rw [List.length_append, ha, hsalt, hfirst] at hlengths
    omega
  have hsealed : sealedBlock (E.withMd5 f hf) secret a [s₀, s₁] b = Bytes.xor mask (saltPadded b) := by
    rw [sealedBlock, md5KeystreamXor_of_length hpb, hkey _ rfl]
  have hsealedLength : (Bytes.xor mask (saltPadded b)).length = 16 := by
    rw [length_xor, hmask, hfirst, hpb]
    rfl
  have hblock : (s₁ :: (Bytes.xor mask (saltPadded b)).take 15).length = 16 := by
    rw [List.length_cons, List.length_take, hsealedLength]
    rfl
  have hone : md5KeystreamXor (E.withMd5 f hf) secret (a ++ [t, s₀])
      (s₁ :: (Bytes.xor mask (saltPadded b)).take 15) = target.take 16 := by
    rw [md5KeystreamXor_of_length hblock, hkey _ rfl, take_xor, hopen]
  have htwo : md5KeystreamXor (E.withMd5 f hf) secret (target.take 16)
      ((Bytes.xor mask (saltPadded b)).drop 15) = target.drop 16 := by
    have hpad : 16 - ((Bytes.xor mask (saltPadded b)).drop 15).length = 15 := by
      rw [List.length_drop, hsealedLength]
    rw [md5KeystreamXor, hpad]
    show Bytes.xor (if _ then _ else _) _ = _
    rw [if_pos rfl, Bytes.xor_comm, xor_xor_cancel]
    rw [List.length_drop, htarget, hlast]
  rw [opened_other hb htype, hsealed, hone, htwo, List.take_append_drop]
  exact congrArg Except.ok (take_of_framed (by omega) _)

end

/-! ### Assigning and reading -/

/-- The bytes `salt_crypt` takes a value for. -/
def saltInput : PyVal → Except Exn Bytes
  | .str s => .ok (Tools.utf8 s)
  | v => v.asBytes

/-- The bytes of a value before they are encrypted. -/
def plainBytes (E : Env) (attr : Attribute) (v : PyVal) : Except Exn Bytes :=
  match namedValue? attr v with
  | some encoded => saltInput encoded
  | none => Tools.encodeAttr E attr.type v >>= saltInput

/-- What an attribute makes of bytes that have been decrypted. -/
def plainReading (E : Env) (attr : Attribute) (b : Bytes) : Except Exn PyVal :=
  match attr.values.backward.get? (.bytes b) with
  | some name => .ok (.str name)
  | none => Tools.decodeAttr E attr.type b

/-- The name is that of a salt-encrypted attribute with a tag, and the value is one that the attribute
reads back and that fits one block. -/
structure TaggedValue (E : Env) (D : Dictionary) (attr : Attribute) (name : String) (key : Key)
    (t : UInt8) (v : PyVal) (b : Bytes) : Prop where
  lookup : D.lookup (partitionTag name).1 = .ok attr
  encodeKey : D.encodeKey (partitionTag name).1 = .ok key
  encrypt : attr.encrypt = 2
  leaf : attr.type.isContainer = false
  tagged : (partitionTag name).2 ≠ ""
  tag : Tools.int (.str (partitionTag name).2) = .ok (t.toNat : Int)
  plain : plainBytes E attr v = .ok b
  reads : plainReading E attr b = .ok v
  fits : b.length ≤ 15

/-- The value is assigned under the name, and whoever receives what is stored, with the same secret and
authenticator, reads the value, alone or behind the tag. -/
def ReadsTagged (E : Env) (D : Dictionary) (attr : Attribute) (name : String) (key : Key) (t : UInt8)
    (v : PyVal) (b : Bytes) (s : PacketState) : Prop :=
  ∃ s', (setItem E name [v]).run s = .ok () s' ∧ ∀ r : Packet, r.dict = some D →
    r.radiusVersion = .v1_0 → r.secret = s'.pkt.secret →
    r.saltAuthenticator = s'.pkt.saltAuthenticator → r.attrs.get? key = s'.pkt.attrs.get? key →
    ∃ x, r.getItem E (partitionTag name).1 = .ok (.vals [x]) ∧
      (x = v ∨ plainReading E attr (t :: b) = .ok x)

/-- The bytes are read as the value, or as the value behind its tag. -/
def Acceptable (E : Env) (attr : Attribute) (t : UInt8) (v : PyVal) (b y : Bytes) : Prop :=
  ∃ x, plainReading E attr y = .ok x ∧ (x = v ∨ plainReading E attr (t :: b) = .ok x)

section

variable {E : Env} {D : Dictionary} {attr : Attribute} {name : String} {key : Key} {t : UInt8}
  {v : PyVal} {b a : Bytes} {s : PacketState}

/-- A value is encrypted by what it is encoded to, text by its bytes. -/
theorem run_encodeValue_of_plainBytes (hencrypt : attr.encrypt = 2)
    (hplain : plainBytes E attr v = .ok b) (hversion : s.pkt.radiusVersion = .v1_0) :
    (encodeValue E attr v).run s =
      (saltCrypt E (.bytes b) >>= fun c ↦ pure (PyVal.bytes c) : PacketMethod PyVal).run s := by
  have hcrypt (result : PyVal) (hresult : saltInput result = .ok b) : (do
        if attr.encrypt = 2 ∧ (← get).pkt.radiusVersion ≠ .v1_1 then
          return .bytes (← saltCrypt E result)
        return result : PacketMethod PyVal).run s =
      (saltCrypt E (.bytes b) >>= fun c ↦ pure (PyVal.bytes c) : PacketMethod PyVal).run s := by
    have hsame : saltCrypt E result = saltCrypt E (.bytes b) := by
      rcases result with - | i | text | bytes
      · cases hresult
      · cases hresult
      · cases hresult
        rfl
      · cases hresult
        rfl
    rw [run_bind, run_get]
    dsimp only
    rw [if_pos ⟨hencrypt, by rw [hversion]; decide⟩, hsame]
  rw [plainBytes] at hplain
  rw [encodeValue]
  rcases hname : namedValue? attr v with - | encoded
  · rw [hname] at hplain
    obtain ⟨result, hencoded, hresult⟩ := Except.bind_eq_ok_iff.1 hplain
    rw [hencoded]
    exact hcrypt result hresult
  · rw [hname] at hplain
    exact hcrypt encoded hplain

/-- What is stored under the name. -/
theorem run_setItem_tagged (h : TaggedValue E D attr name key t v b) (hdict : s.pkt.dict = some D)
    (hversion : s.pkt.radiusVersion = .v1_0) (ha : (seeded s).pkt.saltAuthenticator = some a) :
    (setItem E name [v]).run s = .ok () { salted s with
      pkt := { (salted s).pkt with attrs := (salted s).pkt.attrs.set key (.vals [.bytes
        (taggedBytes attr.type t (drawnSalt s) (sealedBlock E s.pkt.secret a (drawnSalt s) b))]) } } := by
  have hpb := saltPadded_of_length_le h.fits
  have hne : saltPadded b ≠ [] := by
    rw [← List.length_pos_iff, hpb]
    omega
  have hsealed : saltBlocks E s.pkt.secret (a ++ drawnSalt s) (chunksOf 16 (saltPadded b)) =
      sealedBlock E s.pkt.secret a (drawnSalt s) b := by
    rw [chunksOf_of_length_le hne hpb.le, saltBlocks, saltBlocks, List.append_nil]
    rfl
  have hfits := h.fits
  have hcrypt := run_saltCrypt (v := b) ha (by omega) E
  rw [hsealed] at hcrypt
  have hencoded : (encodeValue E attr v).run s =
      .ok (.bytes (drawnSalt s ++ sealedBlock E s.pkt.secret a (drawnSalt s) b)) (salted s) := by
    rw [run_encodeValue_of_plainBytes h.encrypt h.plain hversion, run_bind_of_ok hcrypt]
    rfl
  have hprepend : prependTag attr (partitionTag name).2
      (.bytes (drawnSalt s ++ sealedBlock E s.pkt.secret a (drawnSalt s) b)) =
      .ok (.bytes (taggedBytes attr.type t (drawnSalt s)
        (sealedBlock E s.pkt.secret a (drawnSalt s) b))) := by
    have hbyte : packUnsigned 1 (t.toNat : Int) = .ok [t] := by
      rw [packUnsigned_one t.toNat_lt]
      simp
    rw [prependTag, h.tag]
    simp only [Except.bind_of_ok, hbyte, PyVal.asBytes_bytes]
    rfl
  have htagged : (encodeTagged E attr (partitionTag name).2 v).run s =
      .ok (.bytes (taggedBytes attr.type t (drawnSalt s)
        (sealedBlock E s.pkt.secret a (drawnSalt s) b))) (salted s) := by
    rw [encodeTagged, run_bind_of_ok hencoded, if_neg h.tagged, hprepend]
    rfl
  have hvalues := run_encodeKeyValues (E := E) hdict h.lookup h.encodeKey [v]
  have hall : ([v].mapM (encodeTagged E attr (partitionTag name).2)).run s = .ok
      [.bytes (taggedBytes attr.type t (drawnSalt s)
        (sealedBlock E s.pkt.secret a (drawnSalt s) b))] (salted s) := by
    rw [List.mapM_cons, run_bind_of_ok htagged]
    rfl
  rw [run_bind_of_ok hall] at hvalues
  have hset : setItem E name [v] = encodeKeyValues E name [v] >>=
      fun kv ↦ store kv.1 (.vals kv.2) := rfl
  rw [hset, run_bind_of_ok hvalues]
  rfl

/-- What is read under the name of an encrypted attribute. -/
theorem getItem_encrypted (h : TaggedValue E D attr name key t v b) {r : Packet}
    (hdict : r.dict = some D) (hversion : r.radiusVersion = .v1_0) {w : Bytes}
    (hw : r.attrs.get? key = some (.vals [.bytes w])) :
    r.getItem E (partitionTag name).1 =
      (saltDecrypt E r w >>= plainReading E attr).map fun x ↦ .vals [x] := by
  have hdecode : r.decodeValue E attr (.bytes w) = saltDecrypt E r w >>= plainReading E attr := by
    rw [decodeValue, if_pos ⟨h.encrypt, by rw [hversion]; decide⟩]
    rcases hopen : saltDecrypt E r w with e | y
    · simp only [PyVal.asBytes_bytes, Except.bind_of_ok, hopen]
      rfl
    · simp only [PyVal.asBytes_bytes, Except.bind_of_ok, hopen]
      rfl
  rw [getItem, theDict, hdict]
  simp only [Except.bind_of_ok, h.encodeKey, hw, h.lookup, h.leaf, List.mapM_cons, List.mapM_nil,
    hdecode]
  rcases saltDecrypt E r w >>= plainReading E attr with e | x
  · rfl
  · rfl

/-- What is read under the name is what the receiver opens of the tagged bytes. -/
theorem readsTagged_iff (h : TaggedValue E D attr name key t v b) (hdict : s.pkt.dict = some D)
    (hversion : s.pkt.radiusVersion = .v1_0) (ha : (seeded s).pkt.saltAuthenticator = some a) :
    ReadsTagged E D attr name key t v b s ↔ ∃ y, opened E s.pkt.secret a
      (taggedBytes attr.type t (drawnSalt s) (sealedBlock E s.pkt.secret a (drawnSalt s) b)) = .ok y ∧
        Acceptable E attr t v b y := by
  have hrun := run_setItem_tagged h hdict hversion ha
  have hseeded : (seeded s).pkt.dict = some D ∧ (seeded s).pkt.radiusVersion = .v1_0 := by
    rw [seeded]
    split
    · exact ⟨hdict, hversion⟩
    · exact ⟨hdict, hversion⟩
  have hitem {r : Packet} (hrdict : r.dict = some D) (hrversion : r.radiusVersion = .v1_0)
      (hsecret : r.secret = (seeded s).pkt.secret)
      (hauth : r.saltAuthenticator = (seeded s).pkt.saltAuthenticator) {w : Bytes}
      (hw : r.attrs.get? key = some (.vals [.bytes w])) : r.getItem E (partitionTag name).1 =
        (opened E s.pkt.secret a w >>= plainReading E attr).map fun x ↦ .vals [x] := by
    rw [getItem_encrypted h hrdict hrversion hw, saltDecrypt_eq_opened (hauth.trans ha), hsecret,
      secret_seeded]
  constructor
  · rintro ⟨s', hs', hread⟩
    rw [hrun] at hs'
    cases hs'
    -- the sender itself is one of the receivers
    let q : Packet := { (salted s).pkt with attrs := (salted s).pkt.attrs.set key (.vals [.bytes
      (taggedBytes attr.type t (drawnSalt s) (sealedBlock E s.pkt.secret a (drawnSalt s) b))]) }
    obtain ⟨x, hx, haccept⟩ := hread q hseeded.1 hseeded.2 rfl rfl rfl
    have hown := hitem (r := q) hseeded.1 hseeded.2 rfl rfl (OrderedDict.get?_set_self _ _ _)
    rw [hown] at hx
    rcases hopen : opened E s.pkt.secret a (taggedBytes attr.type t (drawnSalt s)
      (sealedBlock E s.pkt.secret a (drawnSalt s) b)) with e | y
    · rw [hopen] at hx
      cases hx
    · rw [hopen, Except.bind_of_ok] at hx
      rcases hreading : plainReading E attr y with e | x'
      · rw [hreading] at hx
        cases hx
      · rw [hreading] at hx
        cases hx
        exact ⟨y, rfl, x, hreading, haccept⟩
  · rintro ⟨y, hopen, x, hreading, haccept⟩
    refine ⟨_, hrun, fun r hrdict hrversion hsecret hauth hattrs ↦ ⟨x, ?_, haccept⟩⟩
    rw [hitem hrdict hrversion hsecret hauth (hattrs.trans (OrderedDict.get?_set_self _ _ _)), hopen,
      Except.bind_of_ok, hreading]
    rfl

end

/-! ### When a tagged value is read -/

section

variable {E : Env} {D : Dictionary} {attr : Attribute} {name : String} {key : Key} {t : UInt8}
  {v : PyVal} {b a : Bytes} {s : PacketState}

theorem encodeAttr_withMd5 (f : Bytes → Bytes) (hf : ∀ b, (f b).length = 16) (type : Datatype)
    (v : PyVal) : Tools.encodeAttr (E.withMd5 f hf) type v = Tools.encodeAttr E type v := by
  cases type <;> rfl

theorem plainReading_withMd5 (f : Bytes → Bytes) (hf : ∀ b, (f b).length = 16) (attr : Attribute)
    (b : Bytes) : plainReading (E.withMd5 f hf) attr b = plainReading E attr b := by
  rw [plainReading, plainReading]
  rcases attr.values.backward.get? (.bytes b) with - | name
  · cases attr.type <;> rfl
  · rfl

/-- The digest has no part in what is encrypted. -/
theorem TaggedValue.withMd5 (h : TaggedValue E D attr name key t v b) (f : Bytes → Bytes)
    (hf : ∀ b, (f b).length = 16) : TaggedValue (E.withMd5 f hf) D attr name key t v b where
  lookup := h.lookup
  encodeKey := h.encodeKey
  encrypt := h.encrypt
  leaf := h.leaf
  tagged := h.tagged
  tag := h.tag
  plain := by
    rw [plainBytes, encodeAttr_withMd5]
    exact h.plain
  reads := by
    rw [plainReading_withMd5]
    exact h.reads
  fits := h.fits

theorem acceptable_withMd5 (f : Bytes → Bytes) (hf : ∀ b, (f b).length = 16) (y : Bytes) :
    Acceptable (E.withMd5 f hf) attr t v b y ↔ Acceptable E attr t v b y := by
  simp only [Acceptable, plainReading_withMd5]

/-- How many bytes a receiver can open of a tagged value of one block. -/
def openable (type : Datatype) : ℕ := if type = .integer then 15 else 31

/-- Something is opened in any case. -/
theorem exists_opened (hb : b.length ≤ 15) (type : Datatype) {secret : Bytes} {s₀ s₁ : UInt8} :
    ∃ y, opened E secret a (taggedBytes type t [s₀, s₁] (sealedBlock E secret a [s₀, s₁] b)) = .ok y ∧
      y.length ≤ openable type := by
  have hframed (l : Bytes) (hl : l.length = openable type + 1) : ∃ y, (match l with
      | [] => Except.error Exn.indexError
      | length :: rest => .ok (rest.take length.toNat)) = .ok y ∧ y.length ≤ openable type := by
    rcases l with - | ⟨length, rest⟩
    · cases hl
    · refine ⟨rest.take length.toNat, rfl, ?_⟩
      rw [List.length_cons] at hl
      rw [List.length_take]
      omega
  have hsealed : (sealedBlock E secret a [s₀, s₁] b).length = 16 := length_sealedBlock hb _
  by_cases htype : type = .integer
  · subst htype
    rw [opened_integer hb]
    exact hframed _ (length_md5KeystreamXor hsealed ..)
  · rw [opened_other hb htype]
    refine hframed _ ?_
    have hblock : (s₁ :: (sealedBlock E secret a [s₀, s₁] b).take 15).length = 16 := by
      rw [List.length_cons, List.length_take, hsealed]
      rfl
    rw [List.length_append, length_md5KeystreamXor hblock, md5KeystreamXor, length_xor, E.md5_length,
      List.length_append, List.length_replicate, List.length_drop, hsealed, openable, if_neg htype]
    rfl

/-- Where the tag is the byte it replaces, nothing has been changed. -/
theorem opened_integer_of_eq (hb : b.length ≤ 15) {secret : Bytes} {s₀ s₁ : UInt8} :
    opened E secret a (taggedBytes .integer s₀ [s₀, s₁] (sealedBlock E secret a [s₀, s₁] b)) =
      .ok b := by
  have hpb := saltPadded_of_length_le hb
  rw [opened_integer hb, sealedBlock, md5KeystreamXor_cancel hpb]
  exact congrArg Except.ok (take_of_framed (by omega) _)

theorem readsTagged_withMd5_iff (h : TaggedValue E D attr name key t v b)
    (hdict : s.pkt.dict = some D) (hversion : s.pkt.radiusVersion = .v1_0)
    (ha : (seeded s).pkt.saltAuthenticator = some a) (f : Bytes → Bytes)
    (hf : ∀ b, (f b).length = 16) :
    ReadsTagged (E.withMd5 f hf) D attr name key t v b s ↔
      ∃ y, opened (E.withMd5 f hf) s.pkt.secret a (taggedBytes attr.type t (drawnSalt s)
        (sealedBlock (E.withMd5 f hf) s.pkt.secret a (drawnSalt s) b)) = .ok y ∧
          Acceptable E attr t v b y := by
  rw [readsTagged_iff (h.withMd5 f hf) hdict hversion ha]
  simp only [acceptable_withMd5]

/-- Whatever the receiver would not accept, it opens under some digest, unless the tag is the byte it
replaces. -/
theorem exists_not_readsTagged (h : TaggedValue E D attr name key t v b)
    (hdict : s.pkt.dict = some D) (hversion : s.pkt.radiusVersion = .v1_0)
    (hs : ∀ a ∈ s.pkt.saltAuthenticator, a.length = 16)
    (hkept : ¬ (attr.type = .integer ∧ (drawnSalt s).head? = some t)) {y : Bytes}
    (hy : y.length ≤ openable attr.type) (hbad : ¬ Acceptable E attr t v b y) :
    ∃ f hf, ¬ ReadsTagged (E.withMd5 f hf) D attr name key t v b s := by
  obtain ⟨a, ha, halen⟩ := saltAuthenticator_seeded hs
  obtain ⟨s₀, s₁, hsalt⟩ := List.length_eq_two.1 (length_drawnSalt s)
  rw [hsalt, List.head?_cons, Option.some.injEq] at hkept
  obtain ⟨f, hf, hopen⟩ : ∃ f hf, opened (E.withMd5 f hf) s.pkt.secret a (taggedBytes attr.type t
      [s₀, s₁] (sealedBlock (E.withMd5 f hf) s.pkt.secret a [s₀, s₁] b)) = .ok y := by
    by_cases htype : attr.type = .integer
    · rw [openable, if_pos htype] at hy
      rw [htype]
      exact exists_opened_integer h.fits (fun heq ↦ hkept ⟨htype, heq.symm⟩) hy
    · rw [openable, if_neg htype] at hy
      exact exists_opened_other htype halen h.fits hy
  refine ⟨f, hf, fun hread ↦ ?_⟩
  rw [readsTagged_withMd5_iff h hdict hversion ha, hsalt] at hread
  obtain ⟨y', hopen', hgood⟩ := hread
  rw [hopen] at hopen'
  cases hopen'
  exact hbad hgood

/-- **A tagged value is read back** under every digest exactly if the attribute is an integer and the
tag is the byte of the salt that it replaces, or if the attribute reads whatever can be opened as the
value. -/
theorem forall_readsTagged_iff (h : TaggedValue E D attr name key t v b)
    (hdict : s.pkt.dict = some D) (hversion : s.pkt.radiusVersion = .v1_0)
    (hs : ∀ a ∈ s.pkt.saltAuthenticator, a.length = 16) :
    (∀ f hf, ReadsTagged (E.withMd5 f hf) D attr name key t v b s) ↔
      attr.type = .integer ∧ (drawnSalt s).head? = some t ∨
        ∀ y : Bytes, y.length ≤ openable attr.type → Acceptable E attr t v b y := by
  constructor
  · intro hall
    by_contra hnot
    obtain ⟨hkept, hsome⟩ := not_or.1 hnot
    push Not at hsome
    obtain ⟨y, hy, hbad⟩ := hsome
    obtain ⟨f, hf, hlost⟩ := exists_not_readsTagged h hdict hversion hs hkept hy hbad
    exact hlost (hall f hf)
  · obtain ⟨a, ha, -⟩ := saltAuthenticator_seeded hs
    obtain ⟨s₀, s₁, hsalt⟩ := List.length_eq_two.1 (length_drawnSalt s)
    rintro (⟨htype, hhead⟩ | hall) f hf
    · rw [hsalt, List.head?_cons, Option.some.injEq] at hhead
      subst hhead
      rw [readsTagged_withMd5_iff h hdict hversion ha, hsalt, htype]
      exact ⟨b, opened_integer_of_eq h.fits, v, h.reads, .inl rfl⟩
    · obtain ⟨y, hopen, hy⟩ : ∃ y, opened (E.withMd5 f hf) s.pkt.secret a (taggedBytes attr.type t
          [s₀, s₁] (sealedBlock (E.withMd5 f hf) s.pkt.secret a [s₀, s₁] b)) = .ok y ∧
            y.length ≤ openable attr.type := exists_opened h.fits attr.type
      rw [readsTagged_withMd5_iff h hdict hversion ha, hsalt]
      exact ⟨y, hopen, hall y hy⟩

theorem utf8_of_utf8? {c : Bytes} {text : String} (h : Tools.utf8? c = some text) :
    Tools.utf8 text = c := by
  rw [Tools.utf8?, String.fromUTF8?] at h
  split at h
  · cases h
    rfl
  · cases h

/-- Text that is read as nothing is nothing. -/
theorem eq_nil_of_decodeString {c : Bytes} (h : Tools.decodeString c = .str "") : c = [] := by
  rw [Tools.decodeString] at h
  rcases htext : Tools.utf8? c with - | text
  · rw [htext] at h
    rcases c with - | ⟨x, c⟩
    · rfl
    · have hhex := congrArg String.toList (PyVal.str.inj h)
      rw [Tools.hex, String.toList_ofList, List.flatMap_cons, Tools.hexByte] at hhex
      cases hhex
  · rw [htext] at h
    cases h
    exact (utf8_of_utf8? htext).symm

/-- One byte is never read as three characters. -/
theorem decodeString_singleton_ne (x : UInt8) :
    Tools.decodeString [x] ≠ Tools.decodeString [1, 1, 1] := by
  intro h
  have hthree : Tools.decodeString [1, 1, 1] = .str "\x01\x01\x01" := by decide +kernel
  rw [hthree, Tools.decodeString] at h
  rcases htext : Tools.utf8? [x] with - | text
  · rw [htext] at h
    have hhex := congrArg (fun s ↦ s.toList.length) (PyVal.str.inj h)
    simp [Tools.hex, Tools.hexByte] at hhex
  · rw [htext] at h
    cases h
    have hbytes := congrArg List.length (utf8_of_utf8? htext)
    rw [List.length_singleton] at hbytes
    exact absurd hbytes (by decide +kernel)

/-- An attribute of text or octets without named values does not read everything as the value. -/
theorem exists_not_acceptable (htype : attr.type = .string ∨ attr.type = .octets)
    (hnames : ∀ y, attr.values.backward.get? (.bytes y) = none) (hreads : plainReading E attr b = .ok v) :
    ∃ y : Bytes, y.length ≤ openable attr.type ∧ ¬ Acceptable E attr t v b y := by
  have hplain (y : Bytes) : plainReading E attr y = Tools.decodeAttr E attr.type y := by
    rw [plainReading, hnames]
  rw [hplain] at hreads
  rcases eq_or_ne b [] with rfl | hb
  · -- three bytes are neither nothing nor one byte
    refine ⟨[1, 1, 1], by rw [openable]; split <;> decide, fun ⟨x, hx, haccept⟩ ↦ ?_⟩
    rw [hplain] at hx haccept
    rcases htype with htype | htype
    · rw [htype] at hreads hx haccept
      cases hreads
      cases hx
      rcases haccept with heq | heq
      · exact absurd (heq : Tools.decodeString [1, 1, 1] = Tools.decodeString []) (by decide +kernel)
      · exact decodeString_singleton_ne t (Except.ok.inj heq)
    · rw [htype] at hreads hx haccept
      cases hreads
      cases hx
      rcases haccept with heq | heq
      · cases heq
      · cases heq
  · -- nothing is neither the value nor the value behind its tag
    refine ⟨[], Nat.zero_le _, fun ⟨x, hx, haccept⟩ ↦ ?_⟩
    rw [hplain] at hx haccept
    have hnone : Tools.decodeString [] = .str "" := by decide +kernel
    rcases htype with htype | htype
    · rw [htype] at hreads hx haccept
      cases hreads
      cases hx
      rcases haccept with heq | heq
      · exact hb (eq_nil_of_decodeString (heq.symm.trans hnone))
      · exact List.cons_ne_nil _ _ (eq_nil_of_decodeString ((Except.ok.inj heq).trans hnone))
    · rw [htype] at hreads hx haccept
      cases hreads
      cases hx
      rcases haccept with heq | heq
      · exact hb (PyVal.bytes.inj heq).symm
      · cases heq

/-- **A tagged text is lost** under some digest. -/
theorem exists_not_readsTagged_of_text (h : TaggedValue E D attr name key t v b)
    (hdict : s.pkt.dict = some D) (hversion : s.pkt.radiusVersion = .v1_0)
    (hs : ∀ a ∈ s.pkt.saltAuthenticator, a.length = 16)
    (htype : attr.type = .string ∨ attr.type = .octets)
    (hnames : ∀ y, attr.values.backward.get? (.bytes y) = none) :
    ∃ f hf, ¬ ReadsTagged (E.withMd5 f hf) D attr name key t v b s := by
  obtain ⟨y, hy, hbad⟩ := exists_not_acceptable (t := t) htype hnames h.reads
  refine exists_not_readsTagged h hdict hversion hs (fun hkept ↦ ?_) hy hbad
  rcases htype with htype | htype
  · exact absurd (htype.symm.trans hkept.1) (by decide)
  · exact absurd (htype.symm.trans hkept.1) (by decide)

end

/-- A dictionary with a tagged string and a tagged integer, both salt-encrypted. -/
def tunnelDictionary : Dictionary where
  heap := [{ name := "Tunnel-Password", code := 69, type := .string, encrypt := 2 },
    { name := "Tunnel-Preference", code := 83, type := .integer, encrypt := 2 }]
  attributes := (OrderedDict.set ∅ "Tunnel-Password" 0).set "Tunnel-Preference" 1
  attrindex := (BiDict.empty.add "Tunnel-Password" (.int 69)).add "Tunnel-Preference" (.int 83)
  vendors := BiDict.empty.add "" 0
  vendorFormats := ∅

/-- A sender that has its authenticator and draws the salt `80 00`. -/
def tunnelSender : PacketState :=
  ⟨{ secret := [115], authenticator := some (List.replicate 16 1), dict := some tunnelDictionary },
    { rng := ⟨fun _ ↦ 0⟩ }⟩

/-- Digests of zeros. -/
def unmaskedEnv : Env := Env.ofByte (fun _ ↦ 0) fun _ _ ↦ 0

theorem taggedValue_tunnelPreference :
    TaggedValue unmaskedEnv tunnelDictionary tunnelDictionary.heap[1] "Tunnel-Preference:128"
      (.int 83) 128 (.int 7) [0, 0, 0, 7] where
  lookup := by
    rw [show (partitionTag "Tunnel-Preference:128").1 = "Tunnel-Preference" by decide +kernel]
    rfl
  encodeKey := by decide +kernel
  encrypt := rfl
  leaf := rfl
  tagged := by decide +kernel
  tag := by decide +kernel
  plain := by decide +kernel
  reads := by decide +kernel
  fits := by decide

theorem forall_readsTagged_iff_tunnelPreference :
    (∀ f hf, ReadsTagged (unmaskedEnv.withMd5 f hf) tunnelDictionary tunnelDictionary.heap[1]
      "Tunnel-Preference:128" (.int 83) 128 (.int 7) [0, 0, 0, 7] tunnelSender) ↔
      tunnelDictionary.heap[1].type = .integer ∧ (drawnSalt tunnelSender).head? = some 128 ∨
        ∀ y : Bytes, y.length ≤ openable tunnelDictionary.heap[1].type →
          Acceptable unmaskedEnv tunnelDictionary.heap[1] 128 (.int 7) [0, 0, 0, 7] y :=
  forall_readsTagged_iff taggedValue_tunnelPreference rfl rfl (by
    simp [tunnelSender, saltAuthenticator])

/-- A tagged text is not read. -/
theorem not_readsTagged_tunnelPassword :
    TaggedValue unmaskedEnv tunnelDictionary tunnelDictionary.heap[0] "Tunnel-Password:1" (.int 69) 1
        (.str "pw") [112, 119] ∧
      ¬ ReadsTagged unmaskedEnv tunnelDictionary tunnelDictionary.heap[0] "Tunnel-Password:1" (.int 69)
        1 (.str "pw") [112, 119] tunnelSender := by
  have hvalue : TaggedValue unmaskedEnv tunnelDictionary tunnelDictionary.heap[0] "Tunnel-Password:1"
      (.int 69) 1 (.str "pw") [112, 119] := by
    refine ⟨?_, by decide +kernel, rfl, rfl, by decide +kernel, by decide +kernel,
      by decide +kernel, by decide +kernel, by decide⟩
    rw [show (partitionTag "Tunnel-Password:1").1 = "Tunnel-Password" by decide +kernel]
    rfl
  refine ⟨hvalue, fun hread ↦ ?_⟩
  obtain ⟨y, hopen, x, hx, haccept⟩ := (readsTagged_iff (a := List.replicate 16 1) hvalue rfl rfl
    rfl).1 hread
  have hnothing : opened unmaskedEnv tunnelSender.pkt.secret (List.replicate 16 1)
      (taggedBytes tunnelDictionary.heap[0].type 1 (drawnSalt tunnelSender) (sealedBlock unmaskedEnv
        tunnelSender.pkt.secret (List.replicate 16 1) (drawnSalt tunnelSender) [112, 119])) = .ok [] := by
    decide +kernel
  rw [hnothing] at hopen
  cases hopen
  have hempty : plainReading unmaskedEnv tunnelDictionary.heap[0] [] = .ok (.str "") := by
    decide +kernel
  have hbehind : plainReading unmaskedEnv tunnelDictionary.heap[0] [1, 112, 119] ≠ .ok (.str "") := by
    decide +kernel
  rw [hempty] at hx
  cases hx
  rcases haccept with heq | htagged
  · exact absurd heq (by decide)
  · exact hbehind htagged

end Packet

end Pyrad2
