import Pyrad2.Packet.DecodeShape
import Pyrad2.Packet.EncodeSize

/-!
# Reading single attributes back

What the decoder makes of an attribute that was encoded under a key.

The headers inside an attribute are read back as they were written. What is then done with the value
depends on the dictionary alone: it is appended to a list, buffered as a fragment, or decoded as a
TLV.
-/

namespace Pyrad2

open EStateM

theorem toNatBE_of_packUnsigned {w : ℕ} {n : Int} {b : Bytes} (h : packUnsigned w n = .ok b) :
    b.length = w ∧ (Bytes.toNatBE b : Int) = n := by
  rw [packUnsigned] at h
  split at h
  · next hn =>
    cases h
    have hlt : n.toNat < 256 ^ w := by
      have hint : (n.toNat : Int) < 256 ^ w := by
        rw [Int.toNat_of_nonneg hn.1]
        exact hn.2
      exact_mod_cast hint
    rw [Bytes.toNatBE_ofNatBE hlt]
    exact ⟨Bytes.length_ofNatBE .., Int.toNat_of_nonneg hn.1⟩
  · cases h

namespace Packet

/-! ### Vendor attributes -/

/-- What becomes of a complete value under a key of a vendor. -/
def storeVendor (D : Dictionary) (vendor vsaType : Int) (raw payload : Bytes) :
    DecodeMethod (List (Key × Bytes)) := do
  let listed ← Method.catchException
    (do return some (← decodeVendorPayload (some D) (.tup [vendor, vsaType]) payload)) (return none)
  return listed.getD [(.int 26, raw)]

/-- What becomes of a value, or of a fragment, under a key of a vendor. -/
def takeVendor (D : Dictionary) (vendor vsaType : Int) (continuation : Option UInt8)
    (raw payload : Bytes) : DecodeMethod (List (Key × Bytes)) := do
  let payload? ← match continuation with
    | some more =>
      bufferContinuation (vendor, vsaType) (more &&& vsaContinuationMore ≠ 0) payload
    | none => pure (some payload)
  match payload? with
  | some payload => storeVendor D vendor vsaType raw payload
  | none => return []

section

variable {D : Dictionary} {vendor vsaType : Int}

/-- The end of the attribute. -/
theorem decodeVendorLoop_nil (D : Option Dictionary) (vendor : Int) (format : VendorFormat)
    (fuel : ℕ) (tlvs : List (Key × Bytes)) :
    decodeVendorLoop D vendor format fuel [] tlvs = pure (some tlvs) := by
  have htype := format.typeLen_mem
  have hshort : ([] : Bytes).length < format.typeLen + format.lenLen := by
    rw [List.length_nil]
    omega
  rcases fuel with - | fuel
  · rw [decodeVendorLoop, if_pos hshort, if_pos rfl]
  · rw [decodeVendorLoop, if_pos hshort, if_pos rfl]

/-- The loop ends after the value, whether the format has a length field or not. -/
theorem decodeVendorRest_nil (format : VendorFormat) (fuel : ℕ) (raw payload : Bytes) :
    (decodeVendorRest (some D) vendor format fuel [] [] vsaType payload >>= fun listed ↦
      pure (listed.getD [(.int 26, raw)])) = storeVendor D vendor vsaType raw payload := by
  rw [decodeVendorRest, storeVendor, bind_assoc]
  refine congrArg _ (funext fun listed ↦ ?_)
  rcases listed with - | listed
  · rfl
  · dsimp only
    rw [decodeVendorLoop_nil, ite_self]
    rfl

/-- The loop over the one value that was encoded with the format. -/
theorem decodeVendorLoop_packed {format : VendorFormat} {continuation : Option UInt8}
    {payload inner : Bytes} (hcont : continuation.isSome = format.hasContinuation)
    (hinner : packVsaInner vsaType (.bytes payload) format continuation = .ok inner) (fuel : ℕ)
    (raw : Bytes) :
    (decodeVendorLoop (some D) vendor format (fuel + 1) inner [] >>= fun listed ↦
      pure (listed.getD [(.int 26, raw)])) =
      takeVendor D vendor vsaType continuation raw payload := by
  rw [packVsaInner_eq] at hinner
  obtain ⟨typeField, htype, hinner⟩ := Except.bind_eq_ok_iff.1 hinner
  obtain ⟨lenField, hlen, hinner⟩ := Except.bind_eq_ok_iff.1 hinner
  cases hinner
  obtain ⟨htypeLength, htypeValue⟩ := toNatBE_of_packUnsigned htype
  have hlenLength : lenField.length = format.lenLen :=
    (sized_packVsaLength format continuation payload.length).length_eq hlen
  have hinnerLength : (typeField ++ lenField ++ continuation.toList ++ payload).length =
      vsaLength format continuation payload.length := by
    simp only [List.length_append, htypeLength, hlenLength, vsaLength]
  have hshort : ¬ (typeField ++ lenField ++ continuation.toList ++ payload).length <
      format.typeLen + format.lenLen := by
    rw [hinnerLength, vsaLength]
    omega
  have hlengthValue : (if format.lenLen = 0 then
      (typeField ++ lenField ++ continuation.toList ++ payload).length
      else Bytes.toNatBE (((typeField ++ lenField ++ continuation.toList ++ payload).drop
        format.typeLen).take format.lenLen)) =
      (typeField ++ lenField ++ continuation.toList ++ payload).length := by
    split
    · rfl
    · next h0 =>
      rw [packVsaLength, if_neg h0] at hlen
      have hvalue := (toNatBE_of_packUnsigned hlen).2
      rw [List.append_assoc, List.append_assoc, List.drop_left' htypeLength,
        List.take_left' hlenLength, ← List.append_assoc, ← List.append_assoc, hinnerLength]
      exact_mod_cast hvalue
  have hfront : (typeField ++ lenField ++ continuation.toList ++ payload).take format.typeLen =
      typeField := by
    rw [List.append_assoc, List.append_assoc, List.take_left' htypeLength]
  have hpayload : (typeField ++ lenField ++ continuation.toList ++ payload).drop
      (format.typeLen + format.lenLen) = continuation.toList ++ payload := by
    rw [List.append_assoc (typeField ++ lenField)]
    refine List.drop_left' ?_
    rw [List.length_append, htypeLength, hlenLength]
  rw [decodeVendorLoop, if_neg hshort]
  dsimp only
  rw [hlengthValue, hfront, htypeValue, List.take_length, hpayload, List.drop_length,
    if_neg (not_or.2 ⟨hshort, lt_irrefl _⟩)]
  rcases continuation with - | more
  · rw [if_neg (by rw [← hcont]; decide), pure_bind]
    exact decodeVendorRest_nil format fuel raw payload
  · have hformat : format.hasContinuation = true := hcont.symm
    rw [if_pos hformat, takeVendor]
    show (bufferContinuation _ _ _ >>= _) >>= _ = bufferContinuation _ _ _ >>= _
    rw [bind_assoc]
    refine congrArg _ (funext fun payload? ↦ ?_)
    rcases payload? with - | payload
    · dsimp only
      rw [decodeVendorLoop_nil]
      rfl
    · exact decodeVendorRest_nil format fuel raw payload

/-- **A vendor attribute** that was encoded with the format of its vendor. -/
theorem decodeVendorAttribute_packed {continuation : Option UInt8} {payload inner field : Bytes}
    (hcont : continuation.isSome = (D.vendorFormat vendor).hasContinuation)
    (hinner : packVsaInner vsaType (.bytes payload) (D.vendorFormat vendor) continuation = .ok inner)
    (hfield : packUnsigned 4 vendor = .ok field) :
    decodeVendorAttribute (some D) (field ++ inner) =
      takeVendor D vendor vsaType continuation (field ++ inner) payload := by
  obtain ⟨hfieldLength, hvalue⟩ := toNatBE_of_packUnsigned hfield
  have hlength : inner.length = vsaLength (D.vendorFormat vendor) continuation payload.length :=
    (sized_packVsaInner _ vsaType payload continuation).length_eq hinner
  have htype := (D.vendorFormat vendor).typeLen_mem
  obtain ⟨fuel, hfuel⟩ : ∃ fuel, inner.length = fuel + 1 := by
    refine ⟨inner.length - 1, ?_⟩
    rw [hlength, vsaLength]
    omega
  have hlong : ¬ (field ++ inner).length < 4 := by
    rw [List.length_append, hfieldLength]
    omega
  have hwide : ¬ inner.length < (D.vendorFormat vendor).typeLen + (D.vendorFormat vendor).lenLen := by
    rw [hlength, vsaLength]
    omega
  rw [decodeVendorAttribute, if_neg hlong, List.take_left' hfieldLength,
    List.drop_left' hfieldLength, hvalue]
  dsimp only
  rw [if_neg hwide, hfuel]
  exact decodeVendorLoop_packed hcont hinner fuel (field ++ inner)

end

/-! ### Extended vendor attributes -/

section

variable {D : Dictionary} {parent extType vendor vsaType : Int}

/-- The header of an extended vendor attribute is read back. -/
theorem evsParts_packed {field typeField : Bytes} (hfield : packUnsigned 4 vendor = .ok field)
    (htype : packUnsigned 1 vsaType = .ok typeField) (value : Bytes) :
    evsParts (field ++ typeField ++ value) = (vendor, vsaType, value) := by
  obtain ⟨hfieldLength, hvendor⟩ := toNatBE_of_packUnsigned hfield
  obtain ⟨htypeLength, hvsaType⟩ := toNatBE_of_packUnsigned htype
  have hheader : (field ++ typeField).length = 5 := by
    rw [List.length_append, hfieldLength, htypeLength]
  rw [evsParts, List.drop_left' hheader, List.append_assoc, List.take_left' hfieldLength,
    List.drop_left' hfieldLength, List.take_left' htypeLength, hvendor, hvsaType]

/-- An extended vendor attribute. -/
theorem decodeExtended_evs {slot : UInt8} (hslot : D.isEvsSlot parent slot.toNat = true)
    {field typeField : Bytes} (hfield : packUnsigned 4 vendor = .ok field)
    (htype : packUnsigned 1 vsaType = .ok typeField) (value : Bytes) :
    decodeExtended D parent (slot :: (field ++ typeField ++ value)) =
      appendTop (.tup [parent, slot.toNat, vendor, vsaType]) value := by
  have hlong : 5 ≤ (field ++ typeField ++ value).length := by
    rw [List.length_append, List.length_append, (toNatBE_of_packUnsigned hfield).1,
      (toNatBE_of_packUnsigned htype).1]
    omega
  rw [decodeExtended]
  dsimp only
  have hcond : (decide ((field ++ typeField ++ value).length ≥ 5) && true) = true := by
    rw [decide_eq_true hlong]
    rfl
  rw [evsParts_packed hfield htype, hslot, hcond]
  rfl

/-- A fragment of a long-extended vendor attribute. -/
theorem decodeLongExtendedFragment_evs {slot : UInt8}
    (hslot : D.isEvsSlot parent slot.toNat = true) {field typeField : Bytes}
    (hfield : packUnsigned 4 vendor = .ok field) (htype : packUnsigned 1 vsaType = .ok typeField)
    (flags : UInt8) (chunk : Bytes) :
    decodeLongExtendedFragment D parent (slot :: flags :: (field ++ typeField ++ chunk)) =
      bufferLongExtended [parent, slot.toNat, vendor, vsaType] flags chunk
        (appendTop (.tup [parent, slot.toNat, vendor, vsaType])) := by
  have hlong : 5 ≤ (field ++ typeField ++ chunk).length := by
    rw [List.length_append, List.length_append, (toNatBE_of_packUnsigned hfield).1,
      (toNatBE_of_packUnsigned htype).1]
    omega
  rw [decodeLongExtendedFragment]
  dsimp only
  have hcond : (decide ((field ++ typeField ++ chunk).length ≥ 5) && true) = true := by
    rw [decide_eq_true hlong]
    rfl
  rw [evsParts_packed hfield htype, hslot, hcond]
  rfl

/-! ### Slots -/

/-- A value that is not one of an extended vendor attribute. -/
theorem decodeExtended_slot {slot : UInt8} {payload : Bytes}
    (hslot : D.isEvsSlot parent slot.toNat = false ∨ payload.length < 5) :
    decodeExtended D parent (slot :: payload) = storeInSlot D parent slot.toNat payload := by
  have hcond : (decide (payload.length ≥ 5) && D.isEvsSlot parent slot.toNat) = false := by
    rcases hslot with h | h
    · rw [h, Bool.and_false]
    · rw [decide_eq_false (not_le.2 h), Bool.false_and]
  rw [decodeExtended]
  dsimp only
  rw [hcond]
  rfl

/-- A fragment of a value that is not one of an extended vendor attribute. -/
theorem decodeLongExtendedFragment_slot {slot : UInt8} {chunk : Bytes}
    (hslot : D.isEvsSlot parent slot.toNat = false ∨ chunk.length < 5) (flags : UInt8) :
    decodeLongExtendedFragment D parent (slot :: flags :: chunk) =
      bufferLongExtended [parent, slot.toNat] flags chunk
        (storeInSlot D parent slot.toNat) := by
  have hcond : (decide (chunk.length ≥ 5) && D.isEvsSlot parent slot.toNat) = false := by
    rcases hslot with h | h
    · rw [h, Bool.and_false]
    · rw [decide_eq_false (not_le.2 h), Bool.false_and]
  rw [decodeLongExtendedFragment]
  dsimp only
  rw [hcond]
  rfl

end

end Packet

end Pyrad2
