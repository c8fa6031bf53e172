import Pyrad2.Foundations.InStep
import Pyrad2.Packet.EncodeSize

/-!
# What the encoder sees of a value

Whether a value can be encoded, and to how many bytes, rests on the shape of the value: on its kind
and, of a byte string, on the length. So encryption may draw what it likes: a packet can be serialized
with all draws or with none, to one length.
-/

namespace Pyrad2

open Except EStateM

/-- The shape of a value: zeros for its bytes. -/
def PyVal.shape : PyVal → PyVal
  | .bytes b => .bytes (b.map fun _ ↦ 0)
  | v => v

namespace Stored

/-- What is run through has the shapes of what is run through. -/
theorem iterate_map_shape (stored : Stored PyVal) :
    (stored.map PyVal.shape).iterate = stored.iterate.map PyVal.shape := by
  rcases stored with vs | m
  · rfl
  · show (mapSub PyVal.shape m).map (fun e ↦ PyVal.int e.1) = (m.map fun e ↦ PyVal.int e.1).map _
    rw [Packet.mapSub_eq_map, List.map_map, List.map_map]
    rfl

end Stored

namespace Packet

/-! ### Single attributes -/

section

variable {a b : Bytes}

/-- A function of values that is in step on byte strings of one length. -/
theorem sameLength_shape {f : PyVal → Except Exn Bytes}
    (h : ∀ a b : Bytes, a.length = b.length → SameLength (f (.bytes a)) (f (.bytes b))) (v : PyVal) :
    SameLength (f v) (f v.shape) := by
  rcases v with - | n | s | b
  · exact .refl _
  · exact .refl _
  · exact .refl _
  · exact h b _ (List.length_map ..).symm

theorem shape_bytes (hab : a.length = b.length) : (PyVal.bytes a).shape = (PyVal.bytes b).shape := by
  rw [PyVal.shape, PyVal.shape, List.map_const', List.map_const', hab]

/-- What is in step with itself on shapes is in step on whatever has one shape. -/
theorem sameLength_of_shape_eq {α : Type} {f : α → Except Exn Bytes} {shape : α → α}
    (h : ∀ v, SameLength (f v) (f (shape v))) {v w : α} (hvw : shape v = shape w) :
    SameLength (f v) (f w) := by
  have hv := h v
  rw [hvw] at hv
  exact hv.trans (fun _ _ _ h h' ↦ h.trans h') ((h w).symm fun _ _ h ↦ h.symm)

theorem sameLength_append {x : Except Exn Bytes} (f : Bytes → Bytes) (hab : a.length = b.length) :
    SameLength (x >>= fun header ↦ .ok (f header ++ a))
      (x >>= fun header ↦ .ok (f header ++ b)) :=
  inStep_bind x fun header ↦ .ok (by rw [List.length_append, List.length_append, hab])

theorem sameLength_packItem_bytes (code : Int) (hab : a.length = b.length) :
    SameLength (packItem code (.bytes a)) (packItem code (.bytes b)) := by
  have hpack (c : Bytes) : packItem code (.bytes c) =
      packOctets [code, (c.length : Int) + 2] >>= fun header ↦ .ok (header ++ c) := rfl
  rw [hpack, hpack, hab]
  exact sameLength_append (fun header ↦ header) hab

theorem sameLength_packItem (code : Int) (v : PyVal) :
    SameLength (packItem code v) (packItem code v.shape) :=
  sameLength_shape (fun _ _ ↦ sameLength_packItem_bytes code) v

theorem sameLength_packVsaInner (vsaType : Int) (format : VendorFormat)
    (continuation : Option UInt8) (v : PyVal) :
    SameLength (packVsaInner vsaType v format continuation)
      (packVsaInner vsaType v.shape format continuation) := by
  refine sameLength_shape (f := fun v ↦ packVsaInner vsaType v format continuation)
    (fun a b hab ↦ ?_) v
  rw [packVsaInner_eq, packVsaInner_eq, hab]
  refine inStep_bind _ fun typeField ↦ ?_
  exact sameLength_append (fun lenField ↦ typeField ++ lenField ++ continuation.toList) hab

theorem sameLength_packVsa (vendor : Int) (hab : a.length = b.length) :
    SameLength (packVsa vendor a) (packVsa vendor b) :=
  inStep_bind _ fun header ↦
    sameLength_packItem_bytes 26 (by rw [List.length_append, List.length_append, hab])

end

/-! ### Pieces -/

theorem map_chunksOf (n : ℕ) (f : UInt8 → UInt8) (b : Bytes) :
    Bytes.chunksOf n (b.map f) = (Bytes.chunksOf n b).map (List.map f) := by
  rw [Bytes.chunksOf, Bytes.chunksOf, List.map_map, List.length_map]
  refine List.map_congr_left fun i _ ↦ ?_
  rw [Function.comp, List.map_take, List.map_drop]

theorem inStep_splitIntoChunks (max : ℕ) (v : PyVal) :
    InStep (fun vs ws ↦ ws = vs.map PyVal.shape) (splitIntoChunks max v)
      (splitIntoChunks max v.shape) := by
  rcases v with - | n | s | b
  · exact .ok rfl
  · show InStep _ (splitIntoChunks max (.int n)) (splitIntoChunks max (.int n))
    rw [splitIntoChunks]
    split
    · exact .ok rfl
    · exact .error _
  · refine .ok ?_
    split <;> rfl
  · refine .ok ?_
    by_cases hb : b = []
    · rw [hb]
      rfl
    · rw [if_neg hb, if_neg (by simpa using hb), map_chunksOf, List.map_map, List.map_map]
      rfl

theorem withMore_map (more : UInt8) (f : PyVal → PyVal) (vs : List PyVal) :
    withMore more (vs.map f) = (withMore more vs).map fun e ↦ (f e.1, e.2) := by
  induction vs with
  | nil => rfl
  | cons v vs ih =>
    rcases vs with - | ⟨w, vs⟩
    · rfl
    · rw [List.map_cons, List.map_cons, withMore, withMore, List.map_cons, ← ih, List.map_cons]

/-- The fragments of a value. -/
theorem sameLength_fragments (max : ℕ) (more : UInt8) {f : PyVal → UInt8 → Except Exn Bytes}
    (hf : ∀ v flag, SameLength (f v flag) (f v.shape flag)) (v : PyVal) :
    SameLength
      (do
        let chunks ← splitIntoChunks max v
        let avps ← (withMore more chunks).mapM fun (chunk, flag) ↦ f chunk flag
        return avps.flatten)
      (do
        let chunks ← splitIntoChunks max v.shape
        let avps ← (withMore more chunks).mapM fun (chunk, flag) ↦ f chunk flag
        return avps.flatten) := by
  refine (inStep_splitIntoChunks max v).bind fun vs ws hws ↦ ?_
  rw [hws, withMore_map]
  refine sameLength_flatten ?_
  exact inStep_mapM_map (fun e : PyVal × UInt8 ↦ (e.1.shape, e.2)) fun e _ ↦ hf e.1 e.2

theorem sameLength_encodeAttribute (p : Packet) (key : Key) (v : PyVal) :
    SameLength (p.encodeAttribute key v) (p.encodeAttribute key v.shape) := by
  have hvsa (vendor vsaType : Int) (continuation : Option UInt8) (v : PyVal) : SameLength
      (packVsaInner vsaType v (p.vendorFormat vendor) continuation >>= packVsa vendor)
      (packVsaInner vsaType v.shape (p.vendorFormat vendor) continuation >>= packVsa vendor) :=
    (sameLength_packVsaInner vsaType _ continuation v).bind fun _ _ ↦ sameLength_packVsa vendor
  rcases key with code | (- | ⟨vendor, - | ⟨vsaType, - | ⟨c, l⟩⟩⟩)
  · exact sameLength_packItem code v
  · exact .error _
  · exact .error _
  · have hencode (v : PyVal) : p.encodeAttribute (.tup [vendor, vsaType]) v =
        if (p.vendorFormat vendor).hasContinuation then
          encodeContinuationVsa vendor vsaType v (p.vendorFormat vendor)
        else packVsaInner vsaType v (p.vendorFormat vendor) none >>= packVsa vendor := rfl
    rw [hencode, hencode]
    split
    · exact sameLength_fragments _ vsaContinuationMore
        (f := fun chunk more ↦ packVsaInner vsaType chunk (p.vendorFormat vendor) (some more) >>=
          packVsa vendor) (fun v flag ↦ hvsa vendor vsaType (some flag) v) v
    · exact hvsa vendor vsaType none v
  · exact .error _

/-! ### Containers -/

mutual

theorem sameLength_encodeTlvChain (m : SubMap PyVal) :
    SameLength (encodeTlvChain m) (encodeTlvChain (Stored.mapSub PyVal.shape m)) := by
  match m with
  | [] => exact .refl _
  | (code, stored) :: rest =>
    rw [Stored.mapSub, encodeTlvChain, encodeTlvChain]
    refine (sameLength_encodeTlvChainItem code stored).bind fun item item' hitem ↦
      (sameLength_encodeTlvChain rest).bind fun chain chain' hchain ↦ .ok ?_
    rw [List.length_append, List.length_append, hitem, hchain]
  termination_by structural m

theorem sameLength_encodeTlvChainItem (code : Int) (stored : Stored PyVal) :
    SameLength (encodeTlvChainItem code stored)
      (encodeTlvChainItem code (stored.map PyVal.shape)) := by
  match stored with
  | .node m =>
    rw [Stored.map, encodeTlvChainItem, encodeTlvChainItem]
    exact (sameLength_encodeTlvChain m).bind fun _ _ ↦ sameLength_packItem_bytes code
  | .vals vs =>
    rw [Stored.map, encodeTlvChainItem, encodeTlvChainItem]
    exact sameLength_flatten (inStep_mapM_map PyVal.shape fun v _ ↦ sameLength_packItem code v)
  termination_by structural stored

end

theorem rounds_map (f : PyVal → PyVal) (stored : Stored PyVal) :
    rounds (stored.map f) = rounds stored := by
  rcases stored with vs | m
  · exact List.length_map ..
  · rfl

theorem sameLength_encodeTlvSlot (p : Packet) (i : ℕ) (code : Int) (stored : Stored PyVal) :
    SameLength (p.encodeTlvSlot i code stored)
      (p.encodeTlvSlot i code (stored.map PyVal.shape)) := by
  rcases stored with vs | m
  · rw [Stored.map, encodeTlvSlot, encodeTlvSlot, List.getElem?_map]
    rcases vs[i]? with - | v
    · exact .refl _
    · exact sameLength_encodeAttribute p (.int code) v
  · rw [Stored.map, encodeTlvSlot, encodeTlvSlot]
    split
    · exact .refl _
    · exact (sameLength_encodeTlvChain m).bind fun _ _ ↦ sameLength_packItem_bytes code

theorem sameLength_encodeTlvRound (p : Packet) (m : SubMap PyVal) (i : ℕ) :
    SameLength (p.encodeTlvRound m i) (p.encodeTlvRound (Stored.mapSub PyVal.shape m) i) := by
  rw [encodeTlvRound, encodeTlvRound, mapSub_eq_map]
  refine sameLength_flatten ?_
  exact inStep_mapM_map (fun e : Int × Stored PyVal ↦ (e.1, e.2.map PyVal.shape))
    fun e _ ↦ sameLength_encodeTlvSlot p i e.1 e.2

/-- Rounds of equal lengths are gathered alike. -/
theorem gatherRounds_sameLength {l k : List Bytes}
    (h : List.Forall₂ (fun a b ↦ a.length = b.length) l k) {a b : Bytes} (hab : a.length = b.length) :
    List.Forall₂ (fun a b ↦ a.length = b.length) (gatherRounds l a) (gatherRounds k b) := by
  induction h generalizing a b with
  | nil => exact .cons hab .nil
  | cons hcd _ ih =>
    rw [gatherRounds, gatherRounds, hcd, hab]
    split
    · exact ih (by rw [List.length_append, List.length_append, hcd, hab])
    · exact .cons hab (ih hcd)

theorem sameLength_packVendorTlv (vendor : Int) {a b : Bytes} (hab : a.length = b.length) :
    SameLength (packVendorTlv vendor a) (packVendorTlv vendor b) := by
  rw [packVendorTlv, packVendorTlv, hab]
  refine inStep_bind _ fun header ↦ inStep_bind _ fun field ↦ .ok ?_
  simp only [List.length_append, hab]

theorem sameLength_packInstances (p : Packet) (attr : Attribute) {l k : List Bytes}
    (h : List.Forall₂ (fun a b ↦ a.length = b.length) l k) :
    SameLength (p.packInstances attr l) (p.packInstances attr k) := by
  have hgather := gatherRounds_sameLength h (rfl : ([] : Bytes).length = ([] : Bytes).length)
  refine (inStep_mapM (hgather.imp fun _ _ ↦ sameLength_packItem_bytes attr.code)).bind
    fun avps avps' havps ↦ ?_
  split
  · exact .ok (length_flatten_eq havps)
  · refine inStep_bind _ fun D ↦ ?_
    split
    · exact sameLength_flatten (inStep_mapM (havps.imp fun _ _ ↦ sameLength_packVendorTlv _))
    · exact .error _

theorem sameLength_encodeTlv (p : Packet) (key : Key) (stored : Stored PyVal) :
    SameLength (p.encodeTlv key stored) (p.encodeTlv key (stored.map PyVal.shape)) := by
  rw [encodeTlv, encodeTlv]
  refine inStep_bind _ fun attr ↦ ?_
  rcases stored with vs | m
  · exact .error _
  have hitems : ((Stored.node m).map PyVal.shape).items = .ok (Stored.mapSub PyVal.shape m) := rfl
  have hcount : (Stored.mapSub PyVal.shape m).map (fun e ↦ rounds e.2) = m.map fun e ↦ rounds e.2 := by
    rw [mapSub_eq_map, List.map_map]
    exact List.map_congr_left fun e _ ↦ rounds_map _ e.2
  have hnil : Stored.mapSub PyVal.shape m = [] ↔ m = [] := by
    rw [mapSub_eq_map, List.map_eq_nil_iff]
  have hrounds : InStep (List.Forall₂ fun a b ↦ a.length = b.length)
      ((List.range ((m.map fun e ↦ rounds e.2).foldl max 0)).mapM (p.encodeTlvRound m))
      ((List.range ((m.map fun e ↦ rounds e.2).foldl max 0)).mapM
        (p.encodeTlvRound (Stored.mapSub PyVal.shape m))) :=
    inStep_mapM (List.forall₂_same.2 fun i _ ↦ sameLength_encodeTlvRound p m i)
  rw [hitems]
  show SameLength (Stored.items (.node m) >>= _) _
  rw [Stored.items, bind_of_ok, bind_of_ok, hcount]
  by_cases hm : m = []
  · rw [if_pos hm, if_pos (hnil.2 hm)]
    exact .error _
  · rw [if_neg hm, if_neg (mt hnil.1 hm)]
    exact hrounds.bind fun _ _ ↦ sameLength_packInstances p attr

theorem sameLength_packExtended (parent extType : Int) (v : PyVal) :
    SameLength (packExtended parent extType v) (packExtended parent extType v.shape) := by
  refine sameLength_shape (f := packExtended parent extType) (fun a b hab ↦ ?_) v
  rw [packExtended_bytes, packExtended_bytes, hab]
  split
  · exact .error _
  · exact sameLength_append (fun header ↦ header) hab

theorem sameLength_packLongExtended (parent extType : Int) (v : PyVal) :
    SameLength (packLongExtended parent extType v) (packLongExtended parent extType v.shape) := by
  refine sameLength_fragments 251 longExtendedMoreFlag
    (f := fun chunk more ↦ do
      let header ← packOctets [parent, 4 + (← chunk.len), extType, more.toNat]
      return header ++ (← chunk.asBytes)) (fun v flag ↦ ?_) v
  refine sameLength_shape (f := fun chunk ↦ do
    let header ← packOctets [parent, 4 + (← chunk.len), extType, flag.toNat]
    return header ++ (← chunk.asBytes)) (fun a b hab ↦ ?_) v
  simp only [PyVal.len_bytes, PyVal.asBytes_bytes, bind_of_ok, hab]
  exact sameLength_append (fun header ↦ header) hab

/-- The slots of a wrapper, by `pack` for each value. -/
theorem sameLength_slots {pack : Int → Int → PyVal → Except Exn Bytes}
    (hpack : ∀ field extType v, SameLength (pack field extType v) (pack field extType v.shape))
    (field : Int) (stored : Stored PyVal) :
    SameLength
      (do
        let slots ← (← stored.items).mapM fun (extType, values) ↦
          match values with
          | .node n => do pack field extType (.bytes (← encodeTlvChain n))
          | .vals vs => return (← vs.mapM (pack field extType)).flatten
        return slots.flatten)
      (do
        let slots ← (← (stored.map PyVal.shape).items).mapM fun (extType, values) ↦
          match values with
          | .node n => do pack field extType (.bytes (← encodeTlvChain n))
          | .vals vs => return (← vs.mapM (pack field extType)).flatten
        return slots.flatten) := by
  rcases stored with vs | m
  · exact .error _
  rw [Stored.map, Stored.items, Stored.items, bind_of_ok, bind_of_ok, mapSub_eq_map]
  refine sameLength_flatten ?_
  refine inStep_mapM_map (fun e : Int × Stored PyVal ↦ (e.1, e.2.map PyVal.shape)) fun e _ ↦ ?_
  rcases e with ⟨extType, vs | n⟩
  · exact sameLength_flatten (inStep_mapM_map PyVal.shape fun v _ ↦ hpack field extType v)
  · exact (sameLength_encodeTlvChain n).bind fun a b hab ↦
      sameLength_of_shape_eq (hpack field extType) (shape_bytes hab)

theorem sameLength_packEvs (parent extType : Int) (evsHeader : Bytes) (v : PyVal) :
    SameLength (packEvs parent extType evsHeader v) (packEvs parent extType evsHeader v.shape) := by
  by_cases hlong : parent ∈ longExtendedAttributeTypes
  · rw [packEvs, packEvs, if_pos hlong, if_pos hlong]
    refine sameLength_fragments 246 longExtendedMoreFlag
      (f := fun chunk more ↦ do
        let header ← packOctets [parent, 9 + (← chunk.len), extType, more.toNat]
        return header ++ evsHeader ++ (← chunk.asBytes)) (fun v flag ↦ ?_) v
    refine sameLength_shape (f := fun chunk ↦ do
      let header ← packOctets [parent, 9 + (← chunk.len), extType, flag.toNat]
      return header ++ evsHeader ++ (← chunk.asBytes)) (fun a b hab ↦ ?_) v
    simp only [PyVal.len_bytes, PyVal.asBytes_bytes, bind_of_ok, hab]
    exact sameLength_append (fun header ↦ header ++ evsHeader) hab
  · refine sameLength_shape (f := packEvs parent extType evsHeader) (fun a b hab ↦ ?_) v
    rw [packEvs_bytes hlong, packEvs_bytes hlong, hab]
    split
    · exact .error _
    · exact sameLength_append (fun header ↦ header ++ evsHeader) hab

theorem sameLength_encodeEvs (parent extType vendor vsaType : Int) (v : PyVal) :
    SameLength (encodeEvs parent extType vendor vsaType v)
      (encodeEvs parent extType vendor vsaType v.shape) := by
  have hencode (v : PyVal) : encodeEvs parent extType vendor vsaType v =
      packUnsigned 4 vendor >>= fun vendorField ↦ packUnsigned 1 vsaType >>= fun typeField ↦
        packEvs parent extType (vendorField ++ typeField) v := rfl
  rw [hencode, hencode]
  exact inStep_bind _ fun _ ↦ inStep_bind _ fun _ ↦ sameLength_packEvs _ _ _ v

/-! ### Groups -/

theorem len_shape (v : PyVal) : v.shape.len = v.len := by
  rcases v with - | n | s | b
  · rfl
  · rfl
  · rfl
  · show Except.ok (b.map fun _ ↦ (0 : UInt8)).length = _
    rw [List.length_map]
    rfl

theorem sameLength_encodePlain (p : Packet) (key : Key) (v : PyVal) :
    SameLength (p.encodePlain key v) (p.encodePlain key v.shape) := by
  have hone := sameLength_encodeAttribute p key v
  have hmany : SameLength
      (do return (← (← splitIntoChunks 253 v).mapM (p.encodeAttribute key)).flatten)
      (do return (← (← splitIntoChunks 253 v.shape).mapM (p.encodeAttribute key)).flatten) := by
    refine (inStep_splitIntoChunks 253 v).bind fun vs ws hws ↦ ?_
    rw [hws]
    exact sameLength_flatten
      (inStep_mapM_map PyVal.shape fun v _ ↦ sameLength_encodeAttribute p key v)
  rw [encodePlain, encodePlain, len_shape]
  split
  · refine inStep_bind _ fun n ↦ ?_
    split
    · exact hmany
    · exact hone
  · exact hone

/-- The values of an array attribute, packed into one. -/
theorem inStep_packed (vs : List PyVal) :
    InStep (fun a b ↦ a.flatten.length = b.flatten.length) (vs.mapM PyVal.asBytes)
      ((vs.map PyVal.shape).mapM PyVal.asBytes) := by
  have hall : InStep (List.Forall₂ fun a b ↦ a.length = b.length) (vs.mapM PyVal.asBytes)
      ((vs.map PyVal.shape).mapM PyVal.asBytes) :=
    inStep_mapM_map PyVal.shape fun v _ ↦
      sameLength_shape (f := PyVal.asBytes) (fun _ _ hab ↦ .ok hab) v
  exact hall.mono fun _ _ ↦ length_flatten_eq

/-- **A group is encoded by its shape.** -/
theorem sameLength_encodeAvpGroup (p : Packet) (key : Key) (stored : Stored PyVal) :
    SameLength (p.encodeAvpGroup key stored) (p.encodeAvpGroup key (stored.map PyVal.shape)) := by
  by_cases hkey : ∃ a b c d, key = .tup [a, b, c, d]
  · obtain ⟨a, b, c, d, rfl⟩ := hkey
    rw [encodeAvpGroup, encodeAvpGroup, Stored.iterate_map_shape]
    exact sameLength_flatten
      (inStep_mapM_map PyVal.shape fun v _ ↦ sameLength_encodeEvs a b c d v)
  have hne : ∀ a b c d, key ≠ .tup [a, b, c, d] := fun a b c d h ↦ hkey ⟨a, b, c, d, h⟩
  rw [encodeAvpGroup_of_ne p hne, encodeAvpGroup_of_ne p hne]
  split
  · exact sameLength_encodeTlv p key stored
  · exact sameLength_slots sameLength_packExtended key.field stored
  · exact sameLength_slots sameLength_packLongExtended key.field stored
  · rw [Stored.iterate_map_shape]
    dsimp only
    rw [List.length_map]
    split
    · exact (inStep_packed stored.iterate).bind fun a b hab ↦
        sameLength_of_shape_eq (sameLength_encodeAttribute p key) (shape_bytes hab)
    · exact sameLength_flatten
        (inStep_mapM_map PyVal.shape fun v _ ↦ sameLength_encodePlain p key v)

end Packet

end Pyrad2
