import Pyrad2.Foundations.Sized
import Pyrad2.Packet.Encode

/-!
# What fits on the wire

When stored byte strings can be serialized.

The encoder raises where a number does not fit its field, where an inner encoding is too long for the
length byte around it, and where an entry is not of the kind its key calls for. The predicates here
say so for one attribute, for a TLV chain, for a group and for all the attributes of a packet, in
terms of codes and lengths alone; each comes with the theorem that the encoder succeeds exactly then.

The length byte of an attribute leaves 253 bytes for its value. What the inner headers of a vendor or
an extended attribute take up is no longer available.
-/

namespace Pyrad2

open Except

/-- The number fits one unsigned byte. -/
def IsOctet (n : Int) : Prop := 0 ≤ n ∧ n < 256

/-- The number fits an unsigned field of `w` bytes. -/
def IsUnsigned (w : ℕ) (n : Int) : Prop := 0 ≤ n ∧ n < 256 ^ w

theorem sized_packOctets (fields : List Int) :
    Sized (packOctets fields) (∀ n ∈ fields, IsOctet n) fields.length := by
  rw [packOctets]
  split
  · next h => exact ⟨fun _ ↦ ⟨_, rfl, List.length_map _⟩, fun _ _ ↦ h⟩
  · next h => exact ⟨fun h' ↦ absurd h' h, fun _ hl ↦ by cases hl⟩

theorem sized_packUnsigned (w : ℕ) (n : Int) : Sized (packUnsigned w n) (IsUnsigned w n) w := by
  rw [packUnsigned]
  split
  · next h => exact ⟨fun _ ↦ ⟨_, rfl, Bytes.length_ofNatBE ..⟩, fun _ _ ↦ h⟩
  · next h => exact ⟨fun h' ↦ absurd h' h, fun _ hl ↦ by cases hl⟩

namespace Packet

/-! ### Single attributes -/

/-- A code and a value, with a length byte that covers both header bytes. -/
theorem sized_packItem (code : Int) (value : Bytes) :
    Sized (packItem code (.bytes value)) (IsOctet code ∧ value.length ≤ 253) (value.length + 2) := by
  have hpack : packItem code (.bytes value) =
      packOctets [code, (value.length : Int) + 2] >>= fun header ↦ .ok (header ++ value) := rfl
  rw [hpack]
  refine ((sized_packOctets _).bind (Q := True) (m := value.length + 2) fun header hheader ↦ ?_).congr
    ?_ fun _ ↦ rfl
  · refine (sized_ok (header ++ value)).congr Iff.rfl fun _ ↦ ?_
    rw [List.length_append, hheader, List.length_cons, List.length_singleton, Nat.add_comm]
  · simp only [List.mem_cons, List.not_mem_nil, or_false, forall_eq_or_imp, forall_eq, and_true,
      IsOctet]
    omega

/-- The vendor format of a dictionary that may be missing. -/
def formatOf (D : Option Dictionary) (vendor : Int) : VendorFormat :=
  match D with
  | some D => D.vendorFormat vendor
  | none => vendorFormatDefault

/-- A value of `n` bytes fits an attribute under the key. Four bytes of a vendor attribute are the
vendor id; a value that may be continued is cut into fragments that fit. -/
def AttributeFits (D : Option Dictionary) : Key → ℕ → Prop
  | .int code, n => IsOctet code ∧ n ≤ 253
  | .tup [vendor, vsaType], n =>
    IsUnsigned 4 vendor ∧ IsUnsigned (formatOf D vendor).typeLen vsaType ∧
      ((formatOf D vendor).hasContinuation = true ∨
        (formatOf D vendor).typeLen + (formatOf D vendor).lenLen + n ≤ 249)
  | .tup _, _ => False

/-- The length that the length field of a vendor attribute covers: inner headers, continuation byte
and value. -/
def vsaLength (format : VendorFormat) (continuation : Option UInt8) (n : ℕ) : ℕ :=
  format.typeLen + format.lenLen + continuation.toList.length + n

/-- The length field of a vendor attribute. -/
def packVsaLength (format : VendorFormat) (continuation : Option UInt8) (n : ℕ) :
    Except Exn Bytes :=
  if format.lenLen = 0 then .ok []
  else packUnsigned format.lenLen (vsaLength format continuation n)

theorem packVsaInner_eq (format : VendorFormat) (vsaType : Int) (value : Bytes)
    (continuation : Option UInt8) :
    packVsaInner vsaType (.bytes value) format continuation =
      packUnsigned format.typeLen vsaType >>= fun typeField ↦
        packVsaLength format continuation value.length >>= fun lenField ↦
          .ok (typeField ++ lenField ++ continuation.toList ++ value) := by
  have heq : ((format.typeLen : Int) + format.lenLen + (if continuation.isSome then 1 else 0) +
      value.length) = vsaLength format continuation value.length := by
    rcases continuation <;> simp [vsaLength]
  rw [packVsaInner, packVsaLength]
  rcases packUnsigned format.typeLen vsaType with e | typeField
  · rfl
  · by_cases h0 : format.lenLen = 0
    · rw [if_pos h0]
      simp [h0]
    · rw [if_neg h0]
      simp [h0, heq]

theorem sized_packVsaLength (format : VendorFormat) (continuation : Option UInt8) (n : ℕ) :
    Sized (packVsaLength format continuation n)
      (format.lenLen = 0 ∨ IsUnsigned format.lenLen (vsaLength format continuation n))
      format.lenLen := by
  rw [packVsaLength]
  split
  · next h0 => exact (sized_ok []).congr (by simp [h0]) fun _ ↦ h0.symm
  · next h0 => exact (sized_packUnsigned _ _).congr (by simp [h0]) fun _ ↦ rfl

theorem sized_packVsaInner (format : VendorFormat) (vsaType : Int) (value : Bytes)
    (continuation : Option UInt8) :
    Sized (packVsaInner vsaType (.bytes value) format continuation)
      (IsUnsigned format.typeLen vsaType ∧
        (format.lenLen = 0 ∨
          IsUnsigned format.lenLen (vsaLength format continuation value.length)))
      (vsaLength format continuation value.length) := by
  rw [packVsaInner_eq]
  refine (sized_packUnsigned _ _).bind fun typeField htype ↦ ?_
  have hrest := (sized_packVsaLength format continuation value.length).bind (Q := True)
    (f := fun lenField ↦ .ok (typeField ++ lenField ++ continuation.toList ++ value))
    (m := vsaLength format continuation value.length) fun lenField hlen ↦
    (sized_ok _).congr Iff.rfl fun _ ↦ by simp only [List.length_append, htype, hlen, vsaLength]
  exact hrest.congr (by rw [and_true]) fun _ ↦ rfl

/-- A length that fits the attribute fits the length field inside it. -/
theorem isUnsigned_of_le {w n : ℕ} (hw : w ≠ 0) (hn : n ≤ 249) : IsUnsigned w n := by
  refine ⟨by omega, ?_⟩
  have h256 : 256 ^ 1 ≤ 256 ^ w := Nat.pow_le_pow_right (by norm_num) (Nat.pos_of_ne_zero hw)
  have hlt : n < 256 ^ w := by omega
  exact_mod_cast hlt

theorem sized_packVsa (vendor : Int) (inner : Bytes) :
    Sized (packVsa vendor inner) (IsUnsigned 4 vendor ∧ inner.length ≤ 249) (inner.length + 6) := by
  have hitem (vendorField : Bytes) (hvendor : vendorField.length = 4) :
      Sized (packItem 26 (.bytes (vendorField ++ inner))) (inner.length ≤ 249)
        (inner.length + 6) := by
    refine (sized_packItem 26 (vendorField ++ inner)).congr ?_ fun _ ↦ ?_
    · rw [List.length_append, hvendor, IsOctet]
      omega
    · rw [List.length_append, hvendor]
      omega
  exact (sized_packUnsigned 4 vendor).bind hitem

/-- A vendor attribute with its inner header: the attribute is the narrower of the two. -/
theorem sized_packVsa_inner (vendor : Int) (format : VendorFormat) (vsaType : Int) (value : Bytes)
    (continuation : Option UInt8) :
    Sized (do packVsa vendor (← packVsaInner vsaType (.bytes value) format continuation))
      (IsUnsigned 4 vendor ∧ IsUnsigned format.typeLen vsaType ∧
        vsaLength format continuation value.length ≤ 249)
      (vsaLength format continuation value.length + 6) := by
  have hinner := sized_packVsaInner format vsaType value continuation
  refine (hinner.bind (Q := IsUnsigned 4 vendor ∧
    vsaLength format continuation value.length ≤ 249)
    (m := vsaLength format continuation value.length + 6) fun inner hlength ↦ ?_).congr ?_ fun _ ↦ rfl
  · rw [← hlength]
    exact sized_packVsa vendor inner
  · constructor
    · rintro ⟨⟨htype, -⟩, hvendor, hle⟩
      exact ⟨hvendor, htype, hle⟩
    · rintro ⟨hvendor, htype, hle⟩
      refine ⟨⟨htype, ?_⟩, hvendor, hle⟩
      exact (eq_or_ne format.lenLen 0).imp_right fun h0 ↦ isUnsigned_of_le h0 hle

theorem mem_of_mem_withMore {more flag : UInt8} {l : List PyVal} {v : PyVal}
    (h : (v, flag) ∈ withMore more l) : v ∈ l := by
  induction l with
  | nil => exact (List.not_mem_nil h).elim
  | cons a l ih =>
    rcases l with - | ⟨b, l⟩
    · obtain rfl : v = a := congrArg Prod.fst (List.mem_singleton.1 h)
      exact List.mem_singleton_self v
    · rcases List.mem_cons.1 h with heq | h
      · cases heq
        exact List.mem_cons_self
      · exact List.mem_cons_of_mem a (ih h)

theorem withMore_ne_nil {more : UInt8} {l : List PyVal} (h : l ≠ []) : withMore more l ≠ [] := by
  rcases l with - | ⟨a, - | ⟨b, l⟩⟩
  · exact absurd rfl h
  · exact List.cons_ne_nil _ _
  · exact List.cons_ne_nil _ _

/-- The pieces of a byte string: at least one, none too long. -/
theorem exists_splitIntoChunks {max : ℕ} (hmax : 0 < max) (b : Bytes) :
    ∃ pieces, splitIntoChunks max (.bytes b) = .ok (pieces.map .bytes) ∧ pieces ≠ [] ∧
      pieces.flatten = b ∧ ∀ piece ∈ pieces, piece.length ≤ max := by
  rw [splitIntoChunks]
  split
  · next hb => exact ⟨[[]], rfl, by simp, by simp [hb], by simp⟩
  · next hb =>
    refine ⟨Bytes.chunksOf max b, rfl, ?_, Bytes.flatten_chunksOf hmax b,
      fun _ h ↦ Bytes.length_le_of_mem_chunksOf h⟩
    rw [Bytes.chunksOf_of_ne_nil hmax hb]
    exact List.cons_ne_nil _ _

/-- **Fragments.** A value that is cut into pieces is encoded if its pieces are; there is at least
one, and none is longer than the bound. -/
theorem succeeds_fragments_iff {max : ℕ} (hmax : 0 < max) (more : UInt8) (b : Bytes)
    {f : PyVal → UInt8 → Except Exn Bytes} {P : Prop}
    (hf : ∀ piece flag, piece.length ≤ max → (Succeeds (f (.bytes piece) flag) ↔ P)) :
    Succeeds (do
      let chunks ← splitIntoChunks max (.bytes b)
      let avps ← (withMore more chunks).mapM fun (chunk, flag) ↦ f chunk flag
      return avps.flatten) ↔ P := by
  obtain ⟨pieces, hpieces, hne, -, hle⟩ := exists_splitIntoChunks hmax b
  have hbytes {v : PyVal} {flag : UInt8} (h : (v, flag) ∈ withMore more (pieces.map .bytes)) :
      Succeeds (f v flag) ↔ P := by
    obtain ⟨piece, hmem, rfl⟩ := List.mem_map.1 (mem_of_mem_withMore h)
    exact hf piece flag (hle piece hmem)
  rw [hpieces, bind_of_ok, succeeds_flatten_mapM_iff]
  constructor
  · intro h
    have hfragments : withMore more (pieces.map .bytes) ≠ [] := withMore_ne_nil (by simpa using hne)
    obtain ⟨⟨v, flag⟩, hmem⟩ := List.exists_mem_of_ne_nil _ hfragments
    exact (hbytes hmem).1 (h _ hmem)
  · rintro hP ⟨v, flag⟩ hmem
    exact (hbytes hmem).2 hP

theorem succeeds_encodeContinuationVsa_iff (vendor vsaType : Int) (b : Bytes)
    (format : VendorFormat) :
    Succeeds (encodeContinuationVsa vendor vsaType (.bytes b) format) ↔
      IsUnsigned 4 vendor ∧ IsUnsigned format.typeLen vsaType := by
  have htype := format.typeLen_mem
  have hlen := format.lenLen_le
  have hmax : 0 < 255 - 2 - 4 - format.typeLen - format.lenLen - 1 := by omega
  refine succeeds_fragments_iff hmax vsaContinuationMore b
    (f := fun chunk more ↦ packVsaInner vsaType chunk format (some more) >>= packVsa vendor)
    fun piece flag hpiece ↦ ?_
  rw [(sized_packVsa_inner vendor format vsaType piece (some flag)).succeeds_iff]
  have hle : vsaLength format (some flag) piece.length ≤ 249 := by
    simp only [vsaLength, Option.toList_some, List.length_singleton]
    omega
  simp only [hle, and_true]

theorem succeeds_encodeAttribute_iff (p : Packet) (key : Key) (value : Bytes) :
    Succeeds (p.encodeAttribute key (.bytes value)) ↔ AttributeFits p.dict key value.length := by
  rcases key with code | (- | ⟨vendor, - | ⟨vsaType, - | ⟨a, l⟩⟩⟩)
  · exact (sized_packItem code value).succeeds_iff
  · exact iff_of_false (not_succeeds_error _) not_false
  · exact iff_of_false (not_succeeds_error _) not_false
  · have hencode : p.encodeAttribute (.tup [vendor, vsaType]) (.bytes value) =
        if (formatOf p.dict vendor).hasContinuation then
          encodeContinuationVsa vendor vsaType (.bytes value) (formatOf p.dict vendor)
        else packVsaInner vsaType (.bytes value) (formatOf p.dict vendor) none >>=
          packVsa vendor := rfl
    rw [hencode, AttributeFits]
    split
    · next hcont =>
      rw [succeeds_encodeContinuationVsa_iff]
      simp [hcont]
    · next hcont =>
      have hinner := sized_packVsa_inner vendor (formatOf p.dict vendor) vsaType value none
      rw [show Succeeds _ ↔ _ from hinner.succeeds_iff]
      simp [hcont, vsaLength]
  · exact iff_of_false (not_succeeds_error _) not_false

/-! ### TLV chains -/

mutual

/-- The length of a TLV chain. -/
def chainSize : SubMap Bytes → ℕ
  | [] => 0
  | (_, stored) :: rest => itemSize stored + chainSize rest
  termination_by structural l => l

/-- The length of the items one code stands for. -/
def itemSize : Stored Bytes → ℕ
  | .node m => chainSize m + 2
  | .vals vs => (vs.map fun v ↦ v.length + 2).sum
  termination_by structural s => s

end

mutual

/-- Every item of a TLV chain fits. -/
def ChainFits : SubMap Bytes → Prop
  | [] => True
  | (code, stored) :: rest => ItemFits code stored ∧ ChainFits rest
  termination_by structural l => l

/-- The items one code stands for fit: the code is a byte, and so is every length. -/
def ItemFits (code : Int) : Stored Bytes → Prop
  | .node m => ChainFits m ∧ IsOctet code ∧ chainSize m ≤ 253
  | .vals vs => ∀ v ∈ vs, IsOctet code ∧ v.length ≤ 253
  termination_by structural s => s

end

theorem mapM_map_bytes (vs : List Bytes) (f : PyVal → Except Exn Bytes) :
    (vs.map .bytes).mapM f = vs.mapM fun v ↦ f (.bytes v) := by
  rw [List.mapM_map]
  rfl

mutual

theorem sized_encodeTlvChain (m : SubMap Bytes) :
    Sized (encodeTlvChain (Stored.mapSub .bytes m)) (ChainFits m) (chainSize m) := by
  match m with
  | [] => exact sized_ok []
  | (code, stored) :: rest =>
    rw [Stored.mapSub, encodeTlvChain, ChainFits, chainSize]
    exact (sized_encodeTlvChainItem code stored).bind_append (sized_encodeTlvChain rest)
  termination_by structural m

theorem sized_encodeTlvChainItem (code : Int) (stored : Stored Bytes) :
    Sized (encodeTlvChainItem code (stored.map .bytes)) (ItemFits code stored)
      (itemSize stored) := by
  match stored with
  | .node m =>
    rw [Stored.map, encodeTlvChainItem, ItemFits, itemSize]
    refine (sized_encodeTlvChain m).bind fun chain hchain ↦ ?_
    rw [← hchain]
    exact sized_packItem code chain
  | .vals vs =>
    rw [Stored.map, encodeTlvChainItem, ItemFits, itemSize, mapM_map_bytes]
    exact sized_mapM fun v _ ↦ sized_packItem code v
  termination_by structural stored

end

/-! ### TLV attributes -/

/-- What a slot contributes to the length of round `i`. -/
def slotSize (i : ℕ) : Stored Bytes → ℕ
  | .node m => if i > 0 then 0 else chainSize m + 2
  | .vals vs => match vs[i]? with
    | some v => v.length + 2
    | none => 0

/-- What a slot contributes to round `i` fits. -/
def SlotFits (i : ℕ) (code : Int) : Stored Bytes → Prop
  | .node m => ¬ i > 0 → ItemFits code (.node m)
  | .vals vs => ∀ v, vs[i]? = some v → IsOctet code ∧ v.length ≤ 253

theorem sized_encodeTlvSlot (p : Packet) (i : ℕ) (code : Int) (stored : Stored Bytes) :
    Sized (p.encodeTlvSlot i code (stored.map .bytes)) (SlotFits i code stored)
      (slotSize i stored) := by
  rcases stored with vs | m
  · rw [Stored.map, encodeTlvSlot, SlotFits, slotSize, List.getElem?_map]
    rcases vs[i]? with - | v
    · exact (sized_ok []).congr (by simp) fun _ ↦ rfl
    · exact (sized_packItem code v).congr (by simp) fun _ ↦ rfl
  · rw [Stored.map, encodeTlvSlot, SlotFits, slotSize]
    split
    · next hi => exact (sized_ok []).congr (by simp [hi]) fun _ ↦ rfl
    · next hi =>
      rw [ItemFits]
      refine ((sized_encodeTlvChain m).bind (Q := IsOctet code ∧ chainSize m ≤ 253)
        (m := chainSize m + 2) fun chain hchain ↦ ?_).congr (by simp [hi]) fun _ ↦ rfl
      rw [← hchain]
      exact sized_packItem code chain

theorem mapSub_eq_map {α β : Type} (f : α → β) (m : SubMap α) :
    Stored.mapSub f m = m.map fun e ↦ (e.1, e.2.map f) := by
  induction m with
  | nil => rfl
  | cons e m ih => rw [Stored.mapSub, ih, List.map_cons]

theorem sized_encodeTlvRound (p : Packet) (m : SubMap Bytes) (i : ℕ) :
    Sized (p.encodeTlvRound (Stored.mapSub .bytes m) i) (∀ e ∈ m, SlotFits i e.1 e.2)
      (m.map fun e ↦ slotSize i e.2).sum := by
  have hround : p.encodeTlvRound (Stored.mapSub .bytes m) i = (do
      return (← m.mapM fun e ↦ p.encodeTlvSlot i e.1 (e.2.map .bytes)).flatten) := by
    rw [encodeTlvRound, mapSub_eq_map, List.mapM_map]
    rfl
  rw [hround]
  exact sized_mapM fun e _ ↦ sized_encodeTlvSlot p i e.1 e.2

/-- How many rounds a TLV takes. -/
def roundCount (m : SubMap Bytes) : ℕ :=
  (m.map fun e ↦ match e.2 with
    | .node _ => 1
    | .vals vs => vs.length).foldl max 0

/-- The lengths of its rounds. -/
def roundSizes (m : SubMap Bytes) : List ℕ :=
  (List.range (roundCount m)).map fun i ↦ (m.map fun e ↦ slotSize i e.2).sum

/-- The lengths of the instances that rounds of these lengths are gathered into. -/
def gatherSizes : List ℕ → ℕ → List ℕ
  | [], curr => [curr]
  | n :: rest, curr =>
    if n + curr < 245 then gatherSizes rest (curr + n) else curr :: gatherSizes rest n

theorem map_length_gatherRounds (rounds : List Bytes) (curr : Bytes) :
    (gatherRounds rounds curr).map List.length =
      gatherSizes (rounds.map List.length) curr.length := by
  induction rounds generalizing curr with
  | nil => rfl
  | cons round rest ih =>
    rw [gatherRounds, List.map_cons, gatherSizes]
    split
    · rw [ih, List.length_append]
    · rw [List.map_cons, ih]

theorem roundCount_eq (m : SubMap Bytes) :
    ((Stored.mapSub PyVal.bytes m).map fun e ↦ rounds e.2).foldl max 0 = roundCount m := by
  rw [roundCount, mapSub_eq_map, List.map_map]
  refine congrArg (List.foldl max 0) (List.map_congr_left fun e _ ↦ ?_)
  rcases e with ⟨code, vs | m⟩
  · exact List.length_map ..
  · rfl

theorem le_foldl_max (l : List ℕ) (a : ℕ) : a ≤ l.foldl max a ∧ ∀ n ∈ l, n ≤ l.foldl max a := by
  induction l generalizing a with
  | nil => exact ⟨le_rfl, fun n hn ↦ (List.not_mem_nil hn).elim⟩
  | cons b l ih =>
    obtain ⟨hle, hmem⟩ := ih (max a b)
    rw [List.foldl_cons, List.forall_mem_cons]
    exact ⟨(le_max_left a b).trans hle, (le_max_right a b).trans hle, hmem⟩

/-- Everything a slot holds goes out in some round. -/
theorem forall_slotFits_iff (m : SubMap Bytes) :
    (∀ i ∈ List.range (roundCount m), ∀ e ∈ m, SlotFits i e.1 e.2) ↔
      ∀ e ∈ m, ItemFits e.1 e.2 := by
  constructor
  · rintro h ⟨code, vs | n⟩ he
    · rw [ItemFits]
      intro v hv
      obtain ⟨i, hi, hget⟩ := List.getElem_of_mem hv
      have hle : vs.length ≤ roundCount m :=
        (le_foldl_max _ 0).2 _ (List.mem_map.2 ⟨(code, .vals vs), he, rfl⟩)
      exact h i (List.mem_range.2 (hi.trans_le hle)) _ he v
        (by rw [List.getElem?_eq_getElem hi, hget])
    · have hle : 1 ≤ roundCount m :=
        (le_foldl_max _ 0).2 _ (List.mem_map.2 ⟨(code, .node n), he, rfl⟩)
      exact h 0 (List.mem_range.2 hle) _ he (lt_irrefl 0)
  · rintro h i - ⟨code, vs | n⟩ he
    · have hitem := h _ he
      rw [ItemFits] at hitem
      exact fun v hv ↦ hitem v (List.mem_of_getElem? hv)
    · exact fun _ ↦ h _ he

/-- The lengths of the instances a TLV goes out in. -/
def instanceSizes (m : SubMap Bytes) : List ℕ := gatherSizes (roundSizes m) 0

/-- A TLV fits: it has a slot, its items fit, and every instance fits an attribute under the declared
code, or under a vendor that is known. -/
def TlvFits (D : Option Dictionary) (key : Key) (m : SubMap Bytes) : Prop :=
  ∃ D' ∈ D, ∃ attr, D'.attributeAt? key = some attr ∧ m ≠ [] ∧ (∀ e ∈ m, ItemFits e.1 e.2) ∧
    IsOctet attr.code ∧ (∀ n ∈ instanceSizes m, n ≤ 253) ∧
    (attr.vendor = "" ∨ ∃ vendor, D'.vendors.forward.get? attr.vendor = some vendor ∧
      IsUnsigned 4 vendor ∧ ∀ n ∈ instanceSizes m, n ≤ 247)

theorem gatherSizes_ne_nil (l : List ℕ) (curr : ℕ) : gatherSizes l curr ≠ [] := by
  induction l generalizing curr with
  | nil => exact List.cons_ne_nil _ _
  | cons n l ih =>
    rw [gatherSizes]
    split
    · exact ih _
    · exact List.cons_ne_nil _ _

/-- What `_pkt_encode_tlv` does with the rounds once it has them. -/
def packInstances (p : Packet) (attr : Attribute) (encoded : List Bytes) : Except Exn Bytes := do
  let avps ← (gatherRounds encoded []).mapM fun avp ↦ packItem attr.code (.bytes avp)
  if attr.vendor = "" then return avps.flatten
  let some vendor := (← p.theDict).vendors.forward.get? attr.vendor | throw .keyError
  return (← avps.mapM (packVendorTlv vendor)).flatten

theorem succeeds_packVendorTlv_iff (vendor : Int) (avp : Bytes) :
    Succeeds (packVendorTlv vendor avp) ↔ avp.length ≤ 249 ∧ IsUnsigned 4 vendor := by
  have hpack : packVendorTlv vendor avp =
      packOctets [26, (avp.length : Int) + 6] >>= fun header ↦
        packUnsigned 4 vendor >>= fun vendorField ↦ .ok (header ++ vendorField ++ avp) := rfl
  have hlength : (∀ n ∈ [26, (avp.length : Int) + 6], IsOctet n) ↔ avp.length ≤ 249 := by
    simp only [List.mem_cons, List.not_mem_nil, or_false, forall_eq_or_imp, forall_eq, IsOctet]
    omega
  rw [hpack, succeeds_bind_iff fun header ↦ succeeds_bind_ok_iff,
    (sized_packOctets _).succeeds_iff, (sized_packUnsigned 4 vendor).succeeds_iff, hlength]

theorem succeeds_packInstances_iff {p : Packet} {D : Dictionary} (hdict : p.dict = some D)
    (attr : Attribute) {encoded : List Bytes} {sizes : List ℕ}
    (hsizes : encoded.map List.length = sizes) :
    Succeeds (p.packInstances attr encoded) ↔
      IsOctet attr.code ∧ (∀ n ∈ gatherSizes sizes 0, n ≤ 253) ∧
        (attr.vendor = "" ∨ ∃ vendor, D.vendors.forward.get? attr.vendor = some vendor ∧
          IsUnsigned 4 vendor ∧ ∀ n ∈ gatherSizes sizes 0, n ≤ 247) := by
  have hgather : (gatherRounds encoded []).map List.length = gatherSizes sizes 0 := by
    rw [map_length_gatherRounds, hsizes, List.length_nil]
  have hitems : (∃ avps, (gatherRounds encoded []).mapM
      (fun avp ↦ packItem attr.code (.bytes avp)) = .ok avps) ↔
        IsOctet attr.code ∧ ∀ n ∈ gatherSizes sizes 0, n ≤ 253 := by
    rw [exists_mapM_eq_ok_iff, ← hgather]
    simp only [show ∀ avp, (∃ b, packItem attr.code (.bytes avp) = .ok b) ↔ _ from fun avp ↦
      (sized_packItem attr.code avp).succeeds_iff, List.forall_mem_map]
    constructor
    · intro h
      obtain ⟨n, hn⟩ := List.exists_mem_of_ne_nil _ (hgather ▸ gatherSizes_ne_nil sizes 0)
      obtain ⟨avp, havp, -⟩ := List.mem_map.1 hn
      exact ⟨(h avp havp).1, fun avp havp ↦ (h avp havp).2⟩
    · exact fun h avp havp ↦ ⟨h.1, h.2 avp havp⟩
  rw [← and_assoc, ← hitems, packInstances]
  rcases havps : (gatherRounds encoded []).mapM (fun avp ↦ packItem attr.code (.bytes avp)) with
    e | avps
  · exact iff_of_false (not_succeeds_error e) (by simp)
  · have hlengths : avps.map List.length = (gatherSizes sizes 0).map (· + 2) := by
      rw [map_length_of_mapM (fun avp ↦ sized_packItem attr.code avp) havps, ← hgather,
        List.map_map]
      rfl
    rw [bind_of_ok]
    by_cases hvendor : attr.vendor = ""
    · rw [if_pos hvendor]
      exact iff_of_true (succeeds_ok _) ⟨⟨avps, rfl⟩, .inl hvendor⟩
    · rw [if_neg hvendor]
      have hdict' : p.theDict = .ok D := by rw [theDict, hdict]
      rcases hget : D.vendors.forward.get? attr.vendor with - | vendor
      · simp only [hdict', bind_of_ok, hget]
        exact iff_of_false (not_succeeds_error _) (by simp [hvendor])
      · simp only [hdict', bind_of_ok, hget]
        rw [succeeds_flatten_mapM_iff]
        simp only [succeeds_packVendorTlv_iff, hvendor, false_or, Option.some.injEq,
          exists_eq_left']
        have hbound : (∀ avp ∈ avps, avp.length ≤ 249) ↔ ∀ n ∈ gatherSizes sizes 0, n ≤ 247 := by
          have hmap : (∀ n ∈ avps.map List.length, n ≤ 249) ↔ ∀ avp ∈ avps, avp.length ≤ 249 :=
            List.forall_mem_map
          rw [← hmap, hlengths, List.forall_mem_map]
          exact forall₂_congr fun n _ ↦ by omega
        have hne : avps ≠ [] := by
          rintro rfl
          have hnil := List.map_eq_nil_iff.1 hlengths.symm
          exact gatherSizes_ne_nil _ _ hnil
        rw [← hbound]
        constructor
        · intro h
          obtain ⟨avp, havp⟩ := List.exists_mem_of_ne_nil _ hne
          exact ⟨⟨avps, rfl⟩, (h avp havp).2, fun avp havp ↦ (h avp havp).1⟩
        · exact fun h avp havp ↦ ⟨h.2.2 avp havp, h.2.1⟩

theorem succeeds_encodeTlv_iff (p : Packet) (key : Key) (m : SubMap Bytes) :
    Succeeds (p.encodeTlv key ((Stored.node m).map .bytes)) ↔ TlvFits p.dict key m := by
  rw [encodeTlv, attributeNamed, TlvFits]
  rcases hdict : p.dict with - | D
  · exact iff_of_false (not_succeeds_error _) (by simp)
  rcases hattr : D.attributeAt? key with - | attr
  · simp only [Option.bind_some, hattr]
    exact iff_of_false (not_succeeds_error _) (by simp [hattr])
  simp only [Option.bind_some, hattr, bind_of_ok, Stored.map, Stored.items, Option.mem_some_iff,
    exists_eq_left', Option.some.injEq]
  rcases hm : m with - | ⟨e, m'⟩
  · exact iff_of_false (not_succeeds_error _) (by simp)
  rw [← hm]
  have hne : m ≠ [] := hm ▸ List.cons_ne_nil e m'
  have hne' : Stored.mapSub PyVal.bytes m ≠ [] := by
    rw [mapSub_eq_map]
    simpa using hne
  rw [if_neg hne', roundCount_eq]
  have hrounds : (∃ encoded, (List.range (roundCount m)).mapM
      (p.encodeTlvRound (Stored.mapSub .bytes m)) = .ok encoded) ↔ ∀ e ∈ m, ItemFits e.1 e.2 := by
    rw [exists_mapM_eq_ok_iff, ← forall_slotFits_iff]
    exact forall₂_congr fun i _ ↦ (sized_encodeTlvRound p m i).succeeds_iff
  rcases hencoded : (List.range (roundCount m)).mapM (p.encodeTlvRound (Stored.mapSub .bytes m)) with
    err | encoded
  · rw [hencoded] at hrounds
    exact iff_of_false (not_succeeds_error _) fun h ↦
      not_succeeds_error err (hrounds.2 h.2.1)
  · rw [hencoded] at hrounds
    have hsizes : encoded.map List.length = roundSizes m :=
      map_length_of_mapM (sized_encodeTlvRound p m) hencoded
    have hpack := succeeds_packInstances_iff hdict attr hsizes
    rw [packInstances] at hpack
    rw [bind_of_ok]
    refine hpack.trans ?_
    have hitems : ∀ e ∈ m, ItemFits e.1 e.2 := hrounds.1 ⟨encoded, rfl⟩
    exact ⟨fun h ↦ ⟨hne, hitems, h⟩, fun h ↦ h.2.2⟩

/-! ### Extended attributes -/

/-- The slots of an extended wrapper fit: both codes are bytes, and no value is longer than the bound,
if there is one. -/
def SlotsFit (bound : Option ℕ) (field : Int) (m : SubMap Bytes) : Prop :=
  ∀ e ∈ m, match e.2 with
    | .node n => ChainFits n ∧ IsOctet field ∧ IsOctet e.1 ∧ ∀ b ∈ bound, chainSize n ≤ b
    | .vals vs => ∀ v ∈ vs, IsOctet field ∧ IsOctet e.1 ∧ ∀ b ∈ bound, v.length ≤ b

theorem packExtended_bytes (parent extType : Int) (value : Bytes) :
    packExtended parent extType (.bytes value) =
      if value.length > 252 then
        .error (.valueError ("Extended attribute value too long; declare the " ++
          "parent as long-extended to enable fragmentation"))
      else packOctets [parent, 3 + (value.length : Int), extType] >>= fun header ↦
        .ok (header ++ value) := by
  rw [packExtended]
  simp only [PyVal.len_bytes, bind_of_ok]
  split <;> rfl

theorem succeeds_packExtended_iff (field extType : Int) (value : Bytes) :
    Succeeds (packExtended field extType (.bytes value)) ↔
      IsOctet field ∧ IsOctet extType ∧ ∀ b ∈ some 252, value.length ≤ b := by
  rw [packExtended_bytes]
  split
  · next hlong =>
    refine iff_of_false (not_succeeds_error _) fun h ↦ ?_
    have hle := h.2.2 252 rfl
    omega
  · next hle =>
    rw [succeeds_bind_ok_iff, (sized_packOctets _).succeeds_iff]
    simp only [List.mem_cons, List.not_mem_nil, or_false, forall_eq_or_imp, forall_eq, IsOctet,
      Option.mem_some_iff, forall_eq']
    omega

theorem succeeds_packLongExtended_iff (field extType : Int) (value : Bytes) :
    Succeeds (packLongExtended field extType (.bytes value)) ↔
      IsOctet field ∧ IsOctet extType ∧ ∀ b ∈ (none : Option ℕ), value.length ≤ b := by
  have hmax : 0 < 251 := by omega
  refine succeeds_fragments_iff hmax longExtendedMoreFlag value
    (f := fun chunk more ↦ do
      let header ← packOctets [field, 4 + (← chunk.len), extType, more.toNat]
      return header ++ (← chunk.asBytes)) fun piece flag hpiece ↦ ?_
  have hpack : (do
      let header ← packOctets [field, 4 + (← (PyVal.bytes piece).len), extType, flag.toNat]
      return header ++ (← (PyVal.bytes piece).asBytes)) =
      packOctets [field, 4 + (piece.length : Int), extType, flag.toNat] >>= fun header ↦
        .ok (header ++ piece) := rfl
  have hflag := flag.toNat_lt
  rw [hpack, succeeds_bind_ok_iff, (sized_packOctets _).succeeds_iff]
  simp only [List.mem_cons, List.not_mem_nil, or_false, forall_eq_or_imp, forall_eq, IsOctet,
    Option.not_mem_none, false_imp_iff, implies_true, and_true]
  omega

/-- The slots of a wrapper are encoded one by one, by `pack` for each value. -/
theorem succeeds_slots_iff {pack : Int → Int → PyVal → Except Exn Bytes} {bound : Option ℕ}
    (hpack : ∀ field extType value, Succeeds (pack field extType (.bytes value)) ↔
      IsOctet field ∧ IsOctet extType ∧ ∀ b ∈ bound, value.length ≤ b)
    (field : Int) (m : SubMap Bytes) :
    Succeeds (do
      let slots ← (← ((Stored.node m).map PyVal.bytes).items).mapM fun (extType, values) ↦
        match values with
        | .node n => do pack field extType (.bytes (← encodeTlvChain n))
        | .vals vs => return (← vs.mapM (pack field extType)).flatten
      return slots.flatten) ↔ SlotsFit bound field m := by
  rw [Stored.map, Stored.items, bind_of_ok, succeeds_flatten_mapM_iff, mapSub_eq_map,
    List.forall_mem_map, SlotsFit]
  refine forall₂_congr fun e _ ↦ ?_
  rcases e with ⟨extType, vs | n⟩
  · simp only [Stored.map]
    rw [mapM_map_bytes, succeeds_flatten_mapM_iff]
    exact forall₂_congr fun v _ ↦ hpack field extType v
  · simp only [Stored.map]
    have hchain := sized_encodeTlvChain n
    rcases hrun : encodeTlvChain (Stored.mapSub .bytes n) with err | chain
    · refine iff_of_false (not_succeeds_error err) fun h ↦ ?_
      exact not_succeeds_error err (hrun ▸ hchain.succeeds_iff.2 h.1)
    · rw [bind_of_ok, hpack, hchain.length_eq hrun]
      exact ⟨fun h ↦ ⟨hchain.of_ok chain hrun, h⟩, And.right⟩

/-- An extended vendor attribute fits: every part of its header does, and the value is not too long
for a wrapper that has no fragments. -/
def EvsFits (parent extType vendor vsaType : Int) (n : ℕ) : Prop :=
  IsUnsigned 4 vendor ∧ IsUnsigned 1 vsaType ∧ IsOctet parent ∧ IsOctet extType ∧
    (parent ∈ longExtendedAttributeTypes ∨ n ≤ 247)

/-- What `_pkt_encode_evs` puts out after the vendor header. -/
def packEvs (parent extType : Int) (evsHeader : Bytes) (value : PyVal) : Except Exn Bytes := do
  if parent ∈ longExtendedAttributeTypes then
    let chunks ← splitIntoChunks 246 value
    let avps ← (withMore longExtendedMoreFlag chunks).mapM fun (chunk, more) ↦ do
      let header ← packOctets [parent, 9 + (← chunk.len), extType, more.toNat]
      return header ++ evsHeader ++ (← chunk.asBytes)
    return avps.flatten
  let n ← value.len
  if n > 247 then
    .error (.valueError ("EVS value too large for extended wrapper; declare the " ++
      "wrapper as long-extended to enable fragmentation"))
  let header ← packOctets [parent, 8 + n, extType]
  return header ++ evsHeader ++ (← value.asBytes)

/-- The vendor attribute in one piece. -/
theorem packEvs_bytes {parent : Int} (hshort : parent ∉ longExtendedAttributeTypes) (extType : Int)
    (evsHeader value : Bytes) : packEvs parent extType evsHeader (.bytes value) =
      if value.length > 247 then
        .error (.valueError ("EVS value too large for extended wrapper; declare the " ++
          "wrapper as long-extended to enable fragmentation"))
      else packOctets [parent, 8 + (value.length : Int), extType] >>= fun header ↦
        .ok (header ++ evsHeader ++ value) := by
  rw [packEvs, if_neg hshort]
  simp only [PyVal.len_bytes, bind_of_ok]
  split <;> rfl

theorem succeeds_packEvs_iff (parent extType : Int) (evsHeader value : Bytes) :
    Succeeds (packEvs parent extType evsHeader (.bytes value)) ↔
      IsOctet parent ∧ IsOctet extType ∧
        (parent ∈ longExtendedAttributeTypes ∨ value.length ≤ 247) := by
  by_cases hlong : parent ∈ longExtendedAttributeTypes
  · rw [packEvs, if_pos hlong]
    have hmax : 0 < 246 := by omega
    refine (succeeds_fragments_iff hmax longExtendedMoreFlag value
      (f := fun chunk more ↦ do
        let header ← packOctets [parent, 9 + (← chunk.len), extType, more.toNat]
        return header ++ evsHeader ++ (← chunk.asBytes))
      (P := IsOctet parent ∧ IsOctet extType) fun piece flag hpiece ↦ ?_).trans (by simp [hlong])
    have hpack : (do
        let header ← packOctets [parent, 9 + (← (PyVal.bytes piece).len), extType, flag.toNat]
        return header ++ evsHeader ++ (← (PyVal.bytes piece).asBytes)) =
        packOctets [parent, 9 + (piece.length : Int), extType, flag.toNat] >>= fun header ↦
          .ok (header ++ evsHeader ++ piece) := rfl
    have hflag := flag.toNat_lt
    rw [hpack, succeeds_bind_ok_iff, (sized_packOctets _).succeeds_iff]
    simp only [List.mem_cons, List.not_mem_nil, or_false, forall_eq_or_imp, forall_eq, IsOctet]
    omega
  · rw [packEvs_bytes hlong]
    split
    · next hover =>
      refine iff_of_false (not_succeeds_error _) fun h ↦ ?_
      rcases h.2.2 with hmem | hle
      · exact hlong hmem
      · omega
    · next hle =>
      rw [succeeds_bind_ok_iff, (sized_packOctets _).succeeds_iff]
      simp only [List.mem_cons, List.not_mem_nil, or_false, forall_eq_or_imp, forall_eq, IsOctet,
        hlong, false_or]
      omega

theorem succeeds_encodeEvs_iff (parent extType vendor vsaType : Int) (value : Bytes) :
    Succeeds (encodeEvs parent extType vendor vsaType (.bytes value)) ↔
      EvsFits parent extType vendor vsaType value.length := by
  have hencode : encodeEvs parent extType vendor vsaType (.bytes value) =
      packUnsigned 4 vendor >>= fun vendorField ↦ packUnsigned 1 vsaType >>= fun typeField ↦
        packEvs parent extType (vendorField ++ typeField) (.bytes value) := rfl
  rw [hencode, succeeds_bind_iff fun vendorField ↦ succeeds_bind_iff fun typeField ↦
      succeeds_packEvs_iff parent extType (vendorField ++ typeField) value,
    (sized_packUnsigned 4 vendor).succeeds_iff, (sized_packUnsigned 1 vsaType).succeeds_iff, EvsFits]

/-! ### Groups -/

theorem AttributeFits.mono {D : Option Dictionary} {key : Key} {n n' : ℕ}
    (h : AttributeFits D key n) (hle : n' ≤ n) : AttributeFits D key n' := by
  rcases key with code | (- | ⟨vendor, - | ⟨vsaType, - | ⟨a, l⟩⟩⟩)
  · exact ⟨h.1, hle.trans h.2⟩
  · exact h
  · exact h
  · exact ⟨h.1, h.2.1, h.2.2.imp_right fun hfits ↦ by omega⟩
  · exact h

/-- The values of a plain group fit: packed into one if the attribute is an array, else each by itself,
a long `concat` value in pieces of 253 bytes. -/
def PlainFits (D : Option Dictionary) (key : Key) (vs : List Bytes) : Prop :=
  if D.any (·.isArrayAttribute key) = true ∧ vs.length > 1 then
    AttributeFits D key vs.flatten.length
  else ∀ v ∈ vs, AttributeFits D key
    (if D.any (·.isConcatAttribute key) = true then min v.length 253 else v.length)

theorem succeeds_encodePlain_iff (p : Packet) (key : Key) (value : Bytes) :
    Succeeds (p.encodePlain key (.bytes value)) ↔ AttributeFits p.dict key
      (if p.dict.any (·.isConcatAttribute key) = true then min value.length 253
        else value.length) := by
  have hplain : p.encodePlain key (.bytes value) =
      if p.isConcatAttribute key = true ∧ value.length > 253 then
        splitIntoChunks 253 (.bytes value) >>= fun chunks ↦ do
          return (← chunks.mapM (p.encodeAttribute key)).flatten
      else p.encodeAttribute key (.bytes value) := by
    rw [encodePlain]
    by_cases hconcat : p.isConcatAttribute key = true
    · by_cases hlong : value.length > 253
      · simp [hconcat, hlong]
      · simp [hconcat, hlong]
    · simp [hconcat]
  rw [hplain]
  by_cases hconcat : p.dict.any (·.isConcatAttribute key) = true
  · rw [if_pos hconcat]
    by_cases hlong : value.length > 253
    · have hne : value ≠ [] := List.ne_nil_of_length_pos (by omega)
      have hchunks : splitIntoChunks 253 (.bytes value) =
          .ok ((Bytes.chunksOf 253 value).map .bytes) := by rw [splitIntoChunks, if_neg hne]
      rw [if_pos ⟨hconcat, hlong⟩, hchunks, bind_of_ok, mapM_map_bytes, succeeds_flatten_mapM_iff,
        Nat.min_eq_right (by omega)]
      simp only [succeeds_encodeAttribute_iff]
      constructor
      · -- the first piece is a full one
        intro h
        have hfirst := h (value.take 253)
          (by rw [Bytes.chunksOf_of_ne_nil (by omega) hne]; exact List.mem_cons_self)
        rwa [List.length_take, Nat.min_eq_left (by omega)] at hfirst
      · exact fun h piece hpiece ↦ h.mono (Bytes.length_le_of_mem_chunksOf hpiece)
    · rw [if_neg fun h ↦ hlong h.2, succeeds_encodeAttribute_iff, Nat.min_eq_left (by omega)]
  · rw [if_neg hconcat, if_neg fun h ↦ hconcat h.1, succeeds_encodeAttribute_iff]

/-- The values of an attribute under a key that calls for no container. -/
theorem succeeds_plainGroup_iff (p : Packet) (key : Key) (vs : List Bytes) :
    Succeeds (do
      let datalst := vs.map PyVal.bytes
      if p.isArrayAttribute key && datalst.length > 1 then
        let packed ← datalst.mapM PyVal.asBytes
        return ← p.encodeAttribute key (.bytes packed.flatten)
      return (← datalst.mapM (p.encodePlain key)).flatten) ↔ PlainFits p.dict key vs := by
  have hcond : (p.isArrayAttribute key && decide ((vs.map PyVal.bytes).length > 1)) = true ↔
      p.dict.any (·.isArrayAttribute key) = true ∧ vs.length > 1 := by
    rw [Bool.and_eq_true, decide_eq_true_iff, List.length_map]
    rfl
  rw [PlainFits]
  by_cases harray : p.dict.any (·.isArrayAttribute key) = true ∧ vs.length > 1
  · have hpacked : (vs.map PyVal.bytes).mapM PyVal.asBytes = .ok vs := by
      have hall := mapM_eq_ok (f := fun v ↦ (PyVal.bytes v).asBytes) (g := fun v ↦ v) (l := vs)
        fun v _ ↦ rfl
      rw [mapM_map_bytes, hall, List.map_id']
    rw [if_pos harray]
    dsimp only
    rw [if_pos (hcond.2 harray), hpacked, bind_of_ok, succeeds_encodeAttribute_iff]
  · rw [if_neg harray]
    dsimp only
    rw [if_neg fun h ↦ harray (hcond.1 h), mapM_map_bytes, succeeds_flatten_mapM_iff]
    exact forall₂_congr fun v _ ↦ succeeds_encodePlain_iff p key v

/-- **A group fits.** The values of an extended vendor attribute each fit; a TLV, an extended and a
long-extended container hold a map whose contents fit; everything else is a list of values. -/
def GroupFits (D : Option Dictionary) : Key → Stored Bytes → Prop
  | .tup [parent, extType, vendor, vsaType], .vals vs =>
    ∀ v ∈ vs, EvsFits parent extType vendor vsaType v.length
  | .tup [_, _, _, _], .node _ => False
  | key, stored =>
    match D.bind fun D ↦ D.containerType key, stored with
    | some .tlv, .node m => TlvFits D key m
    | some .extended, .node m => SlotsFit (some 252) key.field m
    | some .longExtended, .node m => SlotsFit none key.field m
    | some .tlv, .vals _ | some .extended, .vals _ | some .longExtended, .vals _ => False
    | _, .vals vs => PlainFits D key vs
    | _, .node _ => False

/-- A map stands only under a key that calls for one. -/
def MapBelongs (D : Option Dictionary) (key : Key) (stored : Stored Bytes) : Prop :=
  ∀ m, stored = .node m → (D.bind fun D ↦ D.containerType key).isSome = true ∧
    ∀ a b c d, key ≠ .tup [a, b, c, d]

theorem encodeAvpGroup_of_ne (p : Packet) {key : Key} (hkey : ∀ a b c d, key ≠ .tup [a, b, c, d])
    (stored : Stored PyVal) :
    p.encodeAvpGroup key stored = match p.containerType key with
      | some .tlv => p.encodeTlv key stored
      | some .extended => encodeExtended key.field stored
      | some .longExtended => encodeLongExtended key.field stored
      | _ => do
        let datalst := stored.iterate
        if p.isArrayAttribute key && datalst.length > 1 then
          let packed ← datalst.mapM PyVal.asBytes
          return ← p.encodeAttribute key (.bytes packed.flatten)
        return (← datalst.mapM (p.encodePlain key)).flatten := by
  rcases key with n | (- | ⟨a, - | ⟨b, - | ⟨c, - | ⟨d, - | ⟨e, l⟩⟩⟩⟩⟩) <;>
    first | exact absurd rfl (hkey _ _ _ _) | rfl

theorem groupFits_of_ne {D : Option Dictionary} {key : Key}
    (hkey : ∀ a b c d, key ≠ .tup [a, b, c, d]) (stored : Stored Bytes) :
    GroupFits D key stored ↔ match D.bind fun D ↦ D.containerType key, stored with
      | some .tlv, .node m => TlvFits D key m
      | some .extended, .node m => SlotsFit (some 252) key.field m
      | some .longExtended, .node m => SlotsFit none key.field m
      | some .tlv, .vals _ | some .extended, .vals _ | some .longExtended, .vals _ => False
      | _, .vals vs => PlainFits D key vs
      | _, .node _ => False := by
  rcases key with n | (- | ⟨a, - | ⟨b, - | ⟨c, - | ⟨d, - | ⟨e, l⟩⟩⟩⟩⟩) <;>
    first | exact absurd rfl (hkey _ _ _ _) | (rcases stored <;> exact Iff.rfl)

/-- **A group is encoded exactly if it fits.** -/
theorem succeeds_encodeAvpGroup_iff (p : Packet) {key : Key} {stored : Stored Bytes}
    (hmap : MapBelongs p.dict key stored) :
    Succeeds (p.encodeAvpGroup key (stored.map .bytes)) ↔ GroupFits p.dict key stored := by
  by_cases hkey : ∃ a b c d, key = .tup [a, b, c, d]
  · obtain ⟨a, b, c, d, rfl⟩ := hkey
    rcases stored with vs | m
    · have hencode : p.encodeAvpGroup (.tup [a, b, c, d]) ((Stored.vals vs).map .bytes) = (do
          return (← (vs.map PyVal.bytes).mapM (encodeEvs a b c d)).flatten) := rfl
      rw [hencode, mapM_map_bytes, succeeds_flatten_mapM_iff]
      exact forall₂_congr fun v _ ↦ succeeds_encodeEvs_iff a b c d v
    · exact absurd rfl ((hmap m rfl).2 a b c d)
  · have hne : ∀ a b c d, key ≠ .tup [a, b, c, d] := fun a b c d h ↦ hkey ⟨a, b, c, d, h⟩
    rw [encodeAvpGroup_of_ne p hne, groupFits_of_ne hne]
    have hcontainer : p.containerType key = p.dict.bind fun D ↦ D.containerType key := rfl
    rw [hcontainer]
    rcases stored with vs | m
    · -- a list under a container has no items
      have hitems {β : Type} (f : SubMap PyVal → Except Exn β) :
          ¬ Succeeds ((Stored.vals (vs.map PyVal.bytes)).items >>= f) := not_succeeds_error _
      have hplain := succeeds_plainGroup_iff p key vs
      rcases htype : p.dict.bind fun D ↦ D.containerType key with - | type
      · exact hplain
      · rcases type <;> try exact hplain
        · refine iff_of_false (fun hok ↦ ?_) not_false
          rw [encodeTlv] at hok
          rcases hattr : p.attributeNamed key with e | attr
          · rw [hattr] at hok
            exact not_succeeds_error e hok
          · rw [hattr, bind_of_ok] at hok
            exact hitems _ hok
        · exact iff_of_false (hitems _) not_false
        · exact iff_of_false (hitems _) not_false
    · have hsome := (hmap m rfl).1
      rcases htype : p.dict.bind fun D ↦ D.containerType key with - | type
      · rw [htype] at hsome
        cases hsome
      · obtain ⟨D, -, hD⟩ := Option.bind_eq_some_iff.1 htype
        have hcontainer := D.isContainer_of_containerType hD
        rcases type <;> try cases hcontainer
        · exact succeeds_encodeTlv_iff p key m
        · exact succeeds_slots_iff succeeds_packExtended_iff key.field m
        · exact succeeds_slots_iff succeeds_packLongExtended_iff key.field m

/-- **All attributes fit**, those aside that are declared virtual and never go out. -/
def AttrsFit (D : Option Dictionary) (attrs : Attrs Bytes) : Prop :=
  ∀ e ∈ attrs.entries, D.any (·.isVirtualAttribute e.1) = true ∨ GroupFits D e.1 e.2

/-- **Stored attributes are encoded exactly if they fit.** -/
theorem succeeds_encodeStored_iff {p : Packet} {attrs : Attrs Bytes}
    (hattrs : p.attrs = attrs.mapValues fun _ ↦ Stored.map PyVal.bytes)
    (hmap : ∀ e ∈ attrs.entries, MapBelongs p.dict e.1 e.2) :
    Succeeds (p.encodeStored []) ↔ AttrsFit p.dict attrs := by
  have hentries : p.attrs.entries = attrs.entries.map fun e ↦ (e.1, e.2.map .bytes) := by
    rw [hattrs]
    rfl
  rw [encodeStored, succeeds_flatten_mapM_iff, hentries, List.forall_mem_map, AttrsFit]
  refine forall₂_congr fun e he ↦ ?_
  dsimp only
  split
  · next hskip =>
    have hvirtual : p.isVirtualAttribute e.1 = true := by simpa using hskip
    exact iff_of_true (succeeds_ok _) (.inl hvirtual)
  · next hgoes =>
    have hvirtual : ¬ p.isVirtualAttribute e.1 = true := by simpa using hgoes
    exact (succeeds_encodeAvpGroup_iff p (hmap e he)).trans (or_iff_right hvirtual).symm

end Packet

end Pyrad2
