import Pyrad2.Packet.Cells
import Pyrad2.Packet.DecodeShape
import Pyrad2.Packet.Written

/-!
# Where a group is read back

The places of the decoder's state that the attributes of a group touch, for every group the encoder
writes.

A value of a vendor is read back under its own key, and so is an extended vendor attribute in a slot
that is declared for it. Other attributes may touch every place for their type.
-/

namespace Pyrad2

open EStateM

namespace Packet

/-! ### Attributes that touch few places -/

/-- What the decoder has stored is in shape. -/
def InShape (D : Dictionary) (st : DecodeState) : Prop :=
  ∃ macs flag, Shaped (some D) (macEntry macs) flag st

/-- Decoding the attribute reads and writes these places only, as long as the state is in shape. -/
structure ReadsInto (D : Dictionary) (version : RadiusVersion) (Z : Set Cell) (a : Avp) : Prop where
  exists_touches : ∃ m : DecodeMethod Unit, Touches Z m ∧ ∀ st, InShape D st →
    (decodeAvp (some D) version a.code a.value).run st = m.run st

section

variable {D : Dictionary} {version : RadiusVersion} {Z Z' : Set Cell} {a : Avp}

theorem readsInto_of_touches (h : Touches Z (decodeAvp (some D) version a.code a.value)) :
    ReadsInto D version Z a := ⟨_, h, fun _ _ ↦ rfl⟩

theorem ReadsInto.mono (h : ReadsInto D version Z a) (hle : Z ⊆ Z') :
    ReadsInto D version Z' a := by
  obtain ⟨m, hm, hrun⟩ := h.exists_touches
  exact ⟨m, Within.mono hm hle, hrun⟩

/-- Any attribute touches the places for its type. -/
theorem readsInto_zone {n : Int} (h : IsCode n a.code) : ReadsInto D version (zone n) a := by
  have htouches := touches_decodeAvp (some D) version a.code a.value
  rw [IsCode] at h
  rw [h] at htouches
  exact readsInto_of_touches htouches

theorem inShape_initial (D : Dictionary) (flag : Option Bool) :
    InShape D { messageAuthenticator := flag } := ⟨[], flag, shaped_initial (some D) flag⟩

/-- Decoding keeps the state in shape, and raises nothing. -/
theorem exists_run_decodeAvp {st : DecodeState} (h : InShape D st) (version : RadiusVersion)
    (a : Avp) : ∃ st', (decodeAvp (some D) version a.code a.value).run st = .ok () st' ∧
      InShape D st' := by
  obtain ⟨macs, flag, h⟩ := h
  have hensures := ensures_decodeAvp_any h version a.code a.value
  rcases hrun : (decodeAvp (some D) version a.code a.value).run st with ⟨⟨⟩, st'⟩ | ⟨e, st'⟩
  · exact ⟨st', rfl, hensures.of_run_eq_ok hrun⟩
  · exact (hensures.of_run_eq_error hrun).elim

/-! ### Vendor attributes -/

/-- The places of a value under a key of a vendor. -/
def vendorPlaces (vendor vsaType : Int) : Set Cell :=
  { c | c = .key (.tup [vendor, vsaType]) ∨ c = .continuation (vendor, vsaType) }

/-- A value that is not a TLV is listed under its key. -/
theorem storeVendor_of_value {vendor vsaType : Int}
    (hkey : D.isTlvAttribute (.tup [vendor, vsaType]) = false) (raw payload : Bytes) :
    storeVendor D vendor vsaType raw payload = pure [(.tup [vendor, vsaType], payload)] := by
  rw [storeVendor, decodeVendorPayload, hkey]
  rfl

theorem touches_takeVendor {vendor vsaType : Int}
    (hkey : D.isTlvAttribute (.tup [vendor, vsaType]) = false) (continuation : Option UInt8)
    (raw payload : Bytes) :
    Touches (vendorPlaces vendor vsaType) (do
      (← takeVendor D vendor vsaType continuation raw payload).forM
        fun (key, value) ↦ appendTop key value) := by
  have happend (payload : Bytes) : Touches (vendorPlaces vendor vsaType)
      (storeVendor D vendor vsaType raw payload >>= fun listed ↦
        listed.forM fun (key, value) ↦ appendTop key value) := by
    rw [storeVendor_of_value hkey, pure_bind]
    refine within_forM fun e he ↦ ?_
    rw [List.mem_singleton.1 he]
    exact touches_appendTop (show Cell.key _ ∈ vendorPlaces vendor vsaType from .inl rfl) payload
  rcases continuation with - | more
  · exact happend payload
  · have hbuffer := touches_bufferContinuation
      (show Cell.continuation _ ∈ vendorPlaces vendor vsaType from .inr rfl)
      (more &&& vsaContinuationMore ≠ 0) payload
    show Touches _ ((bufferContinuation _ _ _ >>= _) >>= _)
    rw [bind_assoc]
    refine hbuffer.bind fun payload? ↦ ?_
    rcases payload? with - | payload
    · exact within_pure _
    · exact happend payload

/-- The attributes of a value under a key of a vendor. -/
theorem readsInto_vendor {vendor vsaType : Int} {field inner payload : Bytes}
    {continuation : Option UInt8} (hkey : D.isTlvAttribute (.tup [vendor, vsaType]) = false)
    (hcode : a.code = 26) (hfield : packUnsigned 4 vendor = .ok field)
    (hcont : continuation.isSome = (D.vendorFormat vendor).hasContinuation)
    (hinner : packVsaInner vsaType (.bytes payload) (D.vendorFormat vendor) continuation = .ok inner)
    (hvalue : a.value = field ++ inner) :
    ReadsInto D version (vendorPlaces vendor vsaType) a := by
  refine readsInto_of_touches ?_
  have hdecode : decodeAvp (some D) version a.code a.value = (do
      (← takeVendor D vendor vsaType continuation a.value payload).forM
        fun (key, value) ↦ appendTop key value) := by
    rw [hcode, hvalue, ← decodeVendorAttribute_packed hcont hinner hfield]
    rfl
  rw [hdecode]
  exact touches_takeVendor hkey continuation a.value payload

/-- The default format, whatever the proofs that come with it. -/
def IsDefaultFormat (format : VendorFormat) : Prop :=
  format.typeLen = 1 ∧ format.lenLen = 1 ∧ format.hasContinuation = false

instance (format : VendorFormat) : Decidable (IsDefaultFormat format) :=
  inferInstanceAs (Decidable (_ ∧ _ ∧ _))

/-- A code whose attributes are decoded as those of a wrapper of this type. -/
structure WrapperAt (D : Dictionary) (parent : Int) (type : Datatype) : Prop where
  not_vendor : parent ≠ 26
  not_mac : parent ≠ 80
  containerType : D.containerType (.int parent) = some type

instance (parent : Int) (type : Datatype) : Decidable (WrapperAt D parent type) :=
  decidable_of_iff (parent ≠ 26 ∧ parent ≠ 80 ∧ D.containerType (.int parent) = some type)
    ⟨fun h ↦ ⟨h.1, h.2.1, h.2.2⟩, fun h ↦ ⟨h.1, h.2, h.3⟩⟩

theorem WrapperAt.decodeAvp_eq {parent : Int} {type : Datatype} (h : WrapperAt D parent type)
    (hcode : IsCode parent a.code) :
    decodeAvp (some D) version a.code a.value =
      match some type with
      | some .tlv => decodeTlvAttribute D (.int parent) a.value
      | some .extended => decodeExtended D parent a.value
      | some .longExtended => decodeLongExtendedFragment D parent a.value
      | _ => appendTop (.int parent) a.value := by
  rw [IsCode] at hcode
  have h26 : a.code ≠ 26 := fun heq ↦ h.not_vendor (by rw [← hcode, heq]; rfl)
  have h80 : a.code ≠ 80 := fun heq ↦ h.not_mac (by rw [← hcode, heq]; rfl)
  have htype := h.containerType
  rcases type <;> simp [decodeAvp, h26, h80, hcode, htype]

/-- The places of the attributes in an extended vendor slot. -/
def evsPlaces (parent extType vendor vsaType : Int) : Set Cell :=
  { c | c = .key (.tup [parent, extType, vendor, vsaType]) ∨
    c = .long [parent, extType, vendor, vsaType] }

/-- The places of a container of slots and of the fragments for its slots. -/
def slotPlaces (parent : Int) : Set Cell :=
  { c | c = .key (.int parent) ∨ ∃ extType, c = .long [parent, extType] }

section

variable {parent extType vendor vsaType : Int} {slot flags : UInt8} {payload field typeField : Bytes}

end

end

/-! ### Groups -/

/-- The type of a wrapper whose extended vendor attributes the encoder writes so that they are read
back. -/
def evsWrapper (parent : Int) : Datatype :=
  if parent ∈ longExtendedAttributeTypes then .longExtended else .extended

/-- The places of a TLV. It goes out under the code that is declared for it. -/
def tlvPlaces (D : Dictionary) (attr : Attribute) : Set Cell :=
  if attr.vendor = "" then zone attr.code
  else
    match D.vendors.forward.get? attr.vendor with
    | some vendor =>
      if IsDefaultFormat (D.vendorFormat vendor) ∧ D.isTlvAttribute (.tup [vendor, attr.code]) then
        {Cell.key (.tup [vendor, attr.code])}
      else zone 26
    | none => zone 26

/-- The places of a plain group. -/
def plainPlaces : Key → Set Cell
  | .tup [vendor, vsaType] => vendorPlaces vendor vsaType
  | key => zone (plainType key)

/-- Does something stored lie in a slot for extended vendor attributes? -/
def usesEvsSlot (D : Dictionary) (parent : Int) : Stored PyVal → Bool
  | .vals _ => false
  | .node m => m.any fun e ↦ D.isEvsSlot parent e.1

/-- The places of the slots of a wrapper. A slot for extended vendor attributes makes the decoder
take any long value in it for one. -/
def wrapperPlaces (D : Dictionary) (type : Datatype) (parent : Int)
    (stored : Stored PyVal) : Set Cell :=
  if WrapperAt D parent type ∧ usesEvsSlot D parent stored = false then slotPlaces parent
  else zone parent

/-- The places that the attributes of a group are read back into. -/
def places (D : Dictionary) (key : Key) (stored : Stored PyVal) : Set Cell :=
  match key with
  | .tup [parent, extType, vendor, vsaType] =>
    if WrapperAt D parent (evsWrapper parent) ∧ D.isEvsSlot parent extType then
      evsPlaces parent extType vendor vsaType
    else zone parent
  | key =>
    match D.attributeAt? key with
    | some attr =>
      match attr.type with
      | .tlv => tlvPlaces D attr
      | .extended => wrapperPlaces D .extended key.field stored
      | .longExtended => wrapperPlaces D .longExtended key.field stored
      | _ => plainPlaces key
    | none => plainPlaces key

section

variable {D : Dictionary} {version : RadiusVersion} {p : Packet}

end

end Packet

end Pyrad2
