import Pyrad2.Packet.PlainWire

/-!
# Octets by name

What becomes of a byte string that is assigned by name to an attribute of octets.

The encoder of octets takes text in hexadecimal, `0x` and the digits, and it does the same for bytes
that begin with these two characters: it stores what the digits spell, which is shorter, or raises.
All other bytes are stored, read and sent as they are, as far as the dictionary and the vendor's format
leave room for them.
-/

namespace Pyrad2

open EStateM Except

namespace Packet

/-- The name is that of a top-level or vendor attribute of octets, without encryption, tag or named
values. -/
structure NamesOctets (D : Dictionary) (attr : Attribute) (name : String) (key : Key) : Prop where
  lookup : D.lookup name = .ok attr
  encodeKey : D.encodeKey name = .ok key
  type : attr.type = .octets
  isSubAttribute : attr.isSubAttribute = false
  encrypt : attr.encrypt = 0
  values : attr.values = BiDict.empty
  untagged : partitionTag name = (name, "")

/-- An attribute on the wire carries a piece of a value: as its value, or behind the number of the
vendor and the header in the vendor's format. -/
def HoldsPiece (D : Dictionary) : Key → Bytes → Avp → Prop
  | .int code, piece, a => IsCode code a.code ∧ a.value = piece
  | .tup [vendor, vsaType], piece, a =>
    a.code = 26 ∧ ∃ continuation : Option UInt8,
      continuation.isSome = (D.vendorFormat vendor).hasContinuation ∧
      a.value = Bytes.ofNatBE 4 vendor.toNat ++
        Bytes.ofNatBE (D.vendorFormat vendor).typeLen vsaType.toNat ++
        Bytes.ofNatBE (D.vendorFormat vendor).lenLen
          (vsaLength (D.vendorFormat vendor) continuation piece.length) ++
        continuation.toList ++ piece
  | .tup _, _, _ => False

/-- The bytes are attributes of the key that carry the value, in one piece or in several. -/
def CarriesPieces (D : Dictionary) (key : Key) (b raw : Bytes) : Prop :=
  ∃ pieces l, pieces ≠ [] ∧ pieces.flatten = b ∧ raw = Avp.join l ∧
    List.Forall₂ (HoldsPiece D key) pieces l

/-- **Octets are transparent**: the bytes are assigned, stored, read and sent as they are. -/
def Transparent (E : Env) (D : Dictionary) (name : String) (key : Key) (b : Bytes)
    (s : PacketState) : Prop :=
  ∃ s', (setItem E name [.bytes b]).run s = .ok () s' ∧
    s'.pkt.attrs.get? key = some (.vals [.bytes b]) ∧
    s'.pkt.getItem E name = .ok (.vals [.bytes b]) ∧
    ∃ raw, s'.pkt.encodeEntry [] (key, .vals [.bytes b]) = .ok raw ∧ CarriesPieces D key b raw

/-- The bytes do not begin with `0x`. -/
def NotHexLiteral (b : Bytes) : Prop := ∀ digits, b ≠ 0x30 :: 0x78 :: digits

/-- The dictionary has a place on the wire for the key, and there is room for the bytes. -/
structure RoomFor (D : Dictionary) (key : Key) (b : Bytes) : Prop where
  notVirtual : D.isVirtualAttribute key = false
  notContainer : D.containerType key = none
  fits : AttributeFits (some D) key b.length

/-! ### On the wire -/

section

variable {D : Dictionary} {p : Packet} {key : Key} {b : Bytes}

theorem map_fst_withMore (more : UInt8) (l : List PyVal) : (withMore more l).map Prod.fst = l := by
  induction l with
  | nil => rfl
  | cons v l ih =>
    rcases l with - | ⟨w, l⟩
    · rfl
    · rw [withMore, List.map_cons, ih]

theorem ofNatBE_of_packUnsigned {w : ℕ} {n : Int} {field : Bytes}
    (h : packUnsigned w n = .ok field) : field = Bytes.ofNatBE w n.toNat := by
  rw [packUnsigned] at h
  split at h
  · exact (Except.ok.inj h).symm
  · cases h

/-- One fragment of a vendor attribute. -/
theorem exists_avp_of_packVsa {vendor vsaType : Int} {continuation : Option UInt8} {piece out : Bytes}
    (hcont : continuation.isSome = (D.vendorFormat vendor).hasContinuation)
    (h : packVsaInner vsaType (.bytes piece) (D.vendorFormat vendor) continuation >>= packVsa vendor =
      .ok out) :
    ∃ a : Avp, out = a.bytes ∧ HoldsPiece D (.tup [vendor, vsaType]) piece a := by
  obtain ⟨inner, hinner, h⟩ := Except.bind_eq_ok_iff.1 h
  obtain ⟨field, hfield, h⟩ := Except.bind_eq_ok_iff.1 h
  obtain ⟨a, rfl, hcode, hvalue⟩ := exists_avp_of_packItem h
  refine ⟨a, rfl, UInt8.toNat_inj.1 (Int.ofNat_inj.1 hcode), continuation, hcont, ?_⟩
  rw [packVsaInner_eq] at hinner
  obtain ⟨typeField, htype, hinner⟩ := Except.bind_eq_ok_iff.1 hinner
  obtain ⟨lenField, hlen, hinner⟩ := Except.bind_eq_ok_iff.1 hinner
  cases hinner
  have hlenField : lenField = Bytes.ofNatBE (D.vendorFormat vendor).lenLen
      (vsaLength (D.vendorFormat vendor) continuation piece.length) := by
    rw [packVsaLength] at hlen
    split at hlen
    · next h0 =>
      rw [h0]
      exact (Except.ok.inj hlen).symm
    · exact ofNatBE_of_packUnsigned hlen
  rw [hvalue, ofNatBE_of_packUnsigned hfield, ofNatBE_of_packUnsigned htype, hlenField]
  simp only [List.append_assoc]

/-- The fragments of a vendor attribute that may be continued. -/
theorem carries_of_encodeContinuationVsa {vendor vsaType : Int} {out : Bytes}
    (hcont : (D.vendorFormat vendor).hasContinuation = true)
    (h : encodeContinuationVsa vendor vsaType (.bytes b) (D.vendorFormat vendor) = .ok out) :
    CarriesPieces D (.tup [vendor, vsaType]) b out := by
  have htype := (D.vendorFormat vendor).typeLen_mem
  have hlen := (D.vendorFormat vendor).lenLen_le
  have hmax : 0 < 255 - 2 - 4 - (D.vendorFormat vendor).typeLen - (D.vendorFormat vendor).lenLen - 1 :=
    by omega
  obtain ⟨pieces, hpieces, hne, hflatten, -⟩ := exists_splitIntoChunks hmax b
  rw [encodeContinuationVsa, hpieces] at h
  obtain ⟨l, hl, hall⟩ := exists_avps_forall₂
    (F := fun e a ↦ ∃ piece, e.1 = .bytes piece ∧ HoldsPiece D (.tup [vendor, vsaType]) piece a)
    (fun e he out hout ↦ by
      obtain ⟨piece, -, hpiece⟩ := List.mem_map.1 (mem_of_mem_withMore he)
      obtain ⟨v, flag⟩ := e
      cases hpiece
      have hsome : (some flag).isSome = (D.vendorFormat vendor).hasContinuation := hcont.symm
      obtain ⟨a, ha, hholds⟩ := exists_avp_of_packVsa hsome hout
      exact ⟨a, ha, piece, rfl, hholds⟩) h
  refine ⟨pieces, l, hne, hflatten, hl, ?_⟩
  -- the flags aside, the fragments are the pieces
  rw [← List.forall₂_map_left_iff (R := fun v a ↦ ∃ piece, v = PyVal.bytes piece ∧
    HoldsPiece D (.tup [vendor, vsaType]) piece a), map_fst_withMore,
    List.forall₂_map_left_iff] at hall
  refine hall.imp fun piece a hpiece ↦ ?_
  obtain ⟨piece', heq, hholds⟩ := hpiece
  cases heq
  exact hholds

/-- **What goes out under the key of an attribute** carries the value. -/
theorem carries_of_encodeAttribute (hdict : p.dict = some D) {out : Bytes}
    (h : p.encodeAttribute key (.bytes b) = .ok out) : CarriesPieces D key b out := by
  rcases key with code | (- | ⟨vendor, - | ⟨vsaType, - | ⟨c, l⟩⟩⟩)
  · obtain ⟨a, rfl, hcode, hvalue⟩ := exists_avp_of_packItem h
    exact ⟨[b], [a], by simp, by simp, by simp, .cons ⟨hcode, hvalue⟩ .nil⟩
  · cases h
  · cases h
  · have hformat : p.vendorFormat vendor = D.vendorFormat vendor := by
      rw [vendorFormat, hdict]
    rw [encodeAttribute, hformat] at h
    split at h
    · next hcont => exact carries_of_encodeContinuationVsa hcont h
    · next hcont =>
      have hnone : (none : Option UInt8).isSome = (D.vendorFormat vendor).hasContinuation := by
        rw [Bool.not_eq_true] at hcont
        exact hcont.symm
      obtain ⟨a, rfl, hholds⟩ := exists_avp_of_packVsa hnone h
      exact ⟨[b], [a], by simp, by simp, by simp, .cons hholds .nil⟩
  · cases h

/-- **A single value of at most 253 bytes goes out exactly if there is room for it.** -/
theorem succeeds_single_iff (hdict : p.dict = some D) (hkey : ∀ a b c d, key ≠ .tup [a, b, c, d])
    (hb : b.length ≤ 253) : Succeeds (p.encodeAvpGroup key (.vals [.bytes b])) ↔
      D.containerType key = none ∧ AttributeFits (some D) key b.length := by
  have hmap : MapBelongs p.dict key (.vals [b]) := fun m hm ↦ by cases hm
  have hgroup := succeeds_encodeAvpGroup_iff p hmap
  have hplain : PlainFits (some D) key [b] ↔ AttributeFits (some D) key b.length := by
    have hmin : min b.length 253 = b.length := Nat.min_eq_left hb
    rw [PlainFits, if_neg (by simp), List.forall_mem_singleton, hmin, ite_self]
  rw [groupFits_of_ne hkey, hdict, Option.bind_some] at hgroup
  refine hgroup.trans ?_
  rcases htype : D.containerType key with - | type
  · rw [← hplain]
    exact (and_iff_right rfl).symm
  · have hcontainer := D.isContainer_of_containerType htype
    rcases type <;> try cases hcontainer
    -- a container takes no list
    all_goals exact iff_of_false not_false fun h ↦ by cases h.1

/-- One value under a key that calls for no container is one attribute, or its fragments. -/
theorem encodeAvpGroup_single (hdict : p.dict = some D) (hkey : ∀ a b c d, key ≠ .tup [a, b, c, d])
    (hb : b.length ≤ 253) (hcontainer : D.containerType key = none) :
    p.encodeAvpGroup key (.vals [.bytes b]) = p.encodeAttribute key (.bytes b) := by
  have hnone : p.containerType key = none := by
    rw [containerType, hdict]
    exact hcontainer
  have hplain : p.encodePlain key (.bytes b) = p.encodeAttribute key (.bytes b) := by
    rw [encodePlain]
    split
    · rw [PyVal.len_bytes, bind_of_ok, if_neg (by omega)]
    · rfl
  rw [encodeAvpGroup_of_ne p hkey, hnone]
  dsimp only [Stored.iterate]
  rw [if_neg (by simp), List.mapM_cons, List.mapM_nil, hplain]
  rcases p.encodeAttribute key (.bytes b) with e | out
  · rfl
  · show Except.ok [out].flatten = _
    rw [List.flatten_singleton]

/-- **The value is on the wire exactly if there is room for it.** -/
theorem exists_carries_iff (hdict : p.dict = some D) (hkey : ∀ a b c d, key ≠ .tup [a, b, c, d])
    (hb : b.length ≤ 253) :
    (∃ raw, p.encodeEntry [] (key, .vals [.bytes b]) = .ok raw ∧ CarriesPieces D key b raw) ↔
      RoomFor D key b := by
  have hvirtual : p.isVirtualAttribute key = D.isVirtualAttribute key := by
    rw [isVirtualAttribute, hdict]
    rfl
  have hsingle := succeeds_single_iff hdict hkey hb
  constructor
  · rintro ⟨raw, hraw, pieces, l, hne, -, hl, hall⟩
    rw [encodeEntry] at hraw
    split at hraw
    · -- nothing goes out, and that carries nothing
      cases hraw
      rcases hall with - | ⟨-, -⟩
      · exact absurd rfl hne
      · simp [Avp.bytes] at hl
    · next hgoes =>
      obtain ⟨hcontainer, hfits⟩ := hsingle.1 ⟨raw, hraw⟩
      refine ⟨?_, hcontainer, hfits⟩
      rw [← hvirtual, ← Bool.not_eq_true]
      exact fun h ↦ hgoes (.inr h)
  · intro h
    obtain ⟨raw, hraw⟩ := hsingle.2 ⟨h.notContainer, h.fits⟩
    refine ⟨raw, ?_, ?_⟩
    · rw [encodeEntry, if_neg (by simp [hvirtual, h.notVirtual])]
      exact hraw
    · rw [encodeAvpGroup_single hdict hkey hb h.notContainer] at hraw
      exact carries_of_encodeAttribute hdict hraw

end

/-! ### Assigning and reading -/

section

variable {E : Env} {D : Dictionary} {attr : Attribute} {name : String} {key : Key} {b : Bytes}
  {s : PacketState}

/-- Such an attribute stands under its code or under those of its vendor. -/
theorem NamesOctets.key_ne (h : NamesOctets D attr name key) :
    ∀ a b c d, key ≠ .tup [a, b, c, d] := by
  intro a b c d heq
  have hkey := h.encodeKey
  rw [Dictionary.encodeKey, h.lookup, bind_of_ok, h.isSubAttribute] at hkey
  subst heq
  simp only [Bool.false_and, Bool.false_eq_true, if_false] at hkey
  split at hkey
  · split at hkey <;> cases hkey
  · cases hkey

/-- **Assigning** stores what the codec makes of the bytes. -/
theorem run_setItem_of_namesOctets (h : NamesOctets D attr name key) (hdict : s.pkt.dict = some D) :
    (setItem E name [.bytes b]).run s = match Tools.encodeOctets (.bytes b) with
      | .ok v => .ok () { s with pkt := { s.pkt with attrs := s.pkt.attrs.set key (.vals [v]) } }
      | .error e => .error e s := by
  have hencode : encodeValue E attr (.bytes b) = liftM (Tools.encodeOctets (.bytes b)) := by
    rw [encodeValue_of_plain h.encrypt h.values, h.type]
    rfl
  have hvalues : (encodeKeyValues E name [.bytes b]).run s =
      (liftM (Tools.encodeOctets (.bytes b)) >>= fun v ↦ pure (key, [v]) :
        PacketMethod (Key × List PyVal)).run s := by
    rw [encodeKeyValues, h.untagged]
    simp only [run_bind, run_get, theDict, hdict, run_liftM_ok, h.lookup, h.encodeKey]
    rw [if_neg (by simp), List.mapM_cons, List.mapM_nil, hencode]
    rcases Tools.encodeOctets (.bytes b) with e | v <;> rfl
  rw [setItem, run_bind, hvalues]
  rcases Tools.encodeOctets (.bytes b) with e | v <;> rfl

/-- **Reading** gives what is stored. -/
theorem getItem_of_namesOctets (h : NamesOctets D attr name key) {p : Packet} (hdict : p.dict = some D)
    (hstored : p.attrs.get? key = some (.vals [.bytes b])) :
    p.getItem E name = .ok (.vals [.bytes b]) := by
  have hdecode : p.decodeValue E attr (.bytes b) = .ok (.bytes b) := by
    rw [decodeValue_of_plain h.encrypt h.values, h.type]
    rfl
  have hleaf : attr.type.isContainer = false := by rw [h.type]; rfl
  rw [getItem, theDict, hdict]
  simp only [bind_of_ok, h.encodeKey, hstored, h.lookup, hleaf, List.mapM_cons, List.mapM_nil, hdecode]
  rfl

/-- **Bytes assigned by name** to an attribute of octets are stored, read and sent as they are exactly
if they do not begin with `0x` and there is room for them on the wire. -/
theorem transparent_iff (h : NamesOctets D attr name key) (hdict : s.pkt.dict = some D)
    (hb : b.length ≤ 253) : Transparent E D name key b s ↔ NotHexLiteral b ∧ RoomFor D key b := by
  have hrun := run_setItem_of_namesOctets (E := E) (b := b) h hdict
  constructor
  · rintro ⟨s', hs', hstored, -, hwire⟩
    rcases hencode : Tools.encodeOctets (.bytes b) with e | v
    · rw [hencode] at hrun
      cases hrun.symm.trans hs'
    · rw [hencode] at hrun
      cases hrun.symm.trans hs'
      rw [OrderedDict.get?_set_self] at hstored
      cases hstored
      obtain ⟨c, hc, hcases⟩ := Tools.encodeOctets_bytes_eq_ok hencode
      cases hc
      rcases hcases with ⟨-, hlt⟩ | ⟨hliteral, -⟩
      · exact absurd hlt (lt_irrefl _)
      · exact ⟨hliteral, (exists_carries_iff hdict h.key_ne hb).1 hwire⟩
  · rintro ⟨hliteral, hroom⟩
    rw [Tools.encodeOctets_of_ne hliteral] at hrun
    have hstored := OrderedDict.get?_set_self s.pkt.attrs key (.vals [.bytes b])
    exact ⟨_, hrun, hstored, getItem_of_namesOctets h hdict hstored,
      (exists_carries_iff hdict h.key_ne hb).2 hroom⟩

end

/-- A packet whose dictionary declares the Message-Authenticator and nothing else. -/
def digestHolder : PacketState :=
  ⟨{ dict := some .messageAuthenticatorOnly }, { rng := ⟨fun _ ↦ 0⟩ }⟩

theorem namesOctets_messageAuthenticator :
    NamesOctets .messageAuthenticatorOnly Dictionary.messageAuthenticatorOnly.heap[0]
      "Message-Authenticator" (.int 80) where
  lookup := rfl
  encodeKey := by decide +kernel
  type := rfl
  isSubAttribute := rfl
  encrypt := rfl
  values := rfl
  untagged := by decide +kernel

theorem transparent_iff_messageAuthenticator :
    Transparent (Env.ofByte (fun _ ↦ 0) fun _ _ ↦ 0) .messageAuthenticatorOnly
        "Message-Authenticator" (.int 80) (List.replicate 16 7) digestHolder ↔
      NotHexLiteral (List.replicate 16 7) ∧
        RoomFor .messageAuthenticatorOnly (.int 80) (List.replicate 16 7) :=
  transparent_iff namesOctets_messageAuthenticator rfl (by decide)

/-- A digest that begins with `0x` is not stored. -/
theorem not_transparent_hexDigest :
    NamesOctets .messageAuthenticatorOnly Dictionary.messageAuthenticatorOnly.heap[0]
        "Message-Authenticator" (.int 80) ∧
      ¬ Transparent (Env.ofByte (fun _ ↦ 0) fun _ _ ↦ 0) .messageAuthenticatorOnly
        "Message-Authenticator" (.int 80) (0x30 :: 0x78 :: List.replicate 14 0) digestHolder := by
  refine ⟨namesOctets_messageAuthenticator, ?_⟩
  rintro ⟨s', hrun, -⟩
  have hraises : Tools.encodeOctets (.bytes (0x30 :: 0x78 :: List.replicate 14 0)) =
      .error (.valueError "Non-hexadecimal digit found") := by decide +kernel
  rw [run_setItem_of_namesOctets namesOctets_messageAuthenticator rfl, hraises] at hrun
  cases hrun

end Packet

end Pyrad2
