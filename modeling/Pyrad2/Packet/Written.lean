import Pyrad2.Packet.Emitted
import Pyrad2.Packet.ReadBack

/-!
# The attributes a group becomes

The code and value of every attribute that the encoder writes for a value.

A value of a vendor stands behind the vendor's number and a header in the vendor's format, a value
of an extended wrapper behind the number of its slot. What holds of all attributes of such a form
holds of all attributes that are sent for the value.
-/

namespace Pyrad2

open Except

namespace Packet

/-! ### Headers -/

/-- A number that was packed as a single byte is the number of that byte. -/
theorem isCode_of_packOctets {fields : List Int} {header : Bytes}
    (h : packOctets fields = .ok header) {n : Int} (hn : n ∈ fields) :
    IsCode n (UInt8.ofNat n.toNat) := by
  rw [packOctets] at h
  split at h
  · next hfit =>
    have hn := hfit n hn
    rw [IsCode, UInt8.toNat_ofNat']
    omega
  · cases h

theorem bytes_of_asBytes {v : PyVal} {b : Bytes} (h : v.asBytes = .ok b) : v = .bytes b := by
  rcases v with - | n | s | b'
  · cases h
  · cases h
  · cases h
  · cases h
    rfl

section

variable {P : Avp → Prop}

/-- The attribute of a value in an extended slot. -/
theorem exists_avp_of_packExtended {parent extType : Int} {v : PyVal} {out : Bytes}
    (h : packExtended parent extType v = .ok out) :
    ∃ (a : Avp) (slot : UInt8) (payload : Bytes), v = .bytes payload ∧ out = a.bytes ∧
      IsCode parent a.code ∧ IsCode extType slot ∧ a.value = slot :: payload := by
  obtain ⟨n, hn, hout⟩ := bind_eq_ok_iff.1 h
  dsimp only at hout
  split at hout
  · cases hout
  · obtain ⟨header, hheader, hout⟩ := bind_eq_ok_iff.1 hout
    obtain ⟨payload, hpayload, heq⟩ := bind_eq_ok_iff.1 hout
    cases heq
    obtain rfl := bytes_of_asBytes hpayload
    cases hn
    obtain ⟨a, ha, hcode, hvalue⟩ := exists_avp_of_packOctets hheader payload (by
      rw [List.length_singleton]
      omega)
    exact ⟨a, _, payload, rfl, ha, hcode, isCode_of_packOctets hheader (by simp), hvalue⟩

/-- A fragment, behind the number of the slot, the flags and possibly the header of an extended
vendor attribute. -/
theorem exists_avp_of_fragment {parent extType : Int} {n : ℕ → Int} {evsHeader : Bytes}
    (hn : ∀ k : ℕ, n k = evsHeader.length + k + 4) {chunk : PyVal} {flags : UInt8} {out : Bytes}
    (h : (do
      let header ← packOctets [parent, n (← chunk.len), extType, flags.toNat]
      return header ++ evsHeader ++ (← chunk.asBytes)) = .ok out) :
    ∃ (a : Avp) (slot : UInt8) (payload : Bytes), chunk = .bytes payload ∧ out = a.bytes ∧
      IsCode parent a.code ∧ IsCode extType slot ∧
        a.value = slot :: flags :: (evsHeader ++ payload) := by
  obtain ⟨k, hk, hout⟩ := bind_eq_ok_iff.1 h
  obtain ⟨header, hheader, hout⟩ := bind_eq_ok_iff.1 hout
  obtain ⟨payload, hpayload, heq⟩ := bind_eq_ok_iff.1 hout
  cases heq
  obtain rfl := bytes_of_asBytes hpayload
  cases hk
  obtain ⟨a, ha, hcode, hvalue⟩ := exists_avp_of_packOctets hheader (evsHeader ++ payload) (by
    rw [hn, List.length_append, List.length_cons, List.length_singleton]
    omega)
  have hflags : UInt8.ofNat ((flags.toNat : Int)).toNat = flags := by simp
  refine ⟨a, _, payload, rfl, by rw [List.append_assoc, ha], hcode,
    isCode_of_packOctets hheader (by simp), ?_⟩
  rw [hvalue, List.map_cons, List.map_cons, List.map_nil, hflags]
  rfl

/-- The attribute of an extended vendor attribute that has no fragments. -/
theorem exists_avp_of_wholeEvs {parent extType : Int} {evsHeader : Bytes}
    (hlength : evsHeader.length = 5) {v : PyVal} {out : Bytes}
    (h : (do
      let n ← v.len
      if n > 247 then
        .error (.valueError ("EVS value too large for extended wrapper; declare the " ++
          "wrapper as long-extended to enable fragmentation"))
      let header ← packOctets [parent, 8 + n, extType]
      return header ++ evsHeader ++ (← v.asBytes)) = .ok out) :
    ∃ (a : Avp) (slot : UInt8) (payload : Bytes), v = .bytes payload ∧ out = a.bytes ∧
      IsCode parent a.code ∧ IsCode extType slot ∧ a.value = slot :: (evsHeader ++ payload) := by
  obtain ⟨n, hn, hout⟩ := bind_eq_ok_iff.1 h
  dsimp only at hout
  split at hout
  · cases hout
  · obtain ⟨header, hheader, hout⟩ := bind_eq_ok_iff.1 hout
    obtain ⟨payload, hpayload, heq⟩ := bind_eq_ok_iff.1 hout
    cases heq
    obtain rfl := bytes_of_asBytes hpayload
    cases hn
    obtain ⟨a, ha, hcode, hvalue⟩ := exists_avp_of_packOctets hheader (evsHeader ++ payload) (by
      rw [List.length_append, hlength, List.length_singleton]
      omega)
    exact ⟨a, _, payload, rfl, by rw [List.append_assoc, ha], hcode,
      isCode_of_packOctets hheader (by simp), hvalue⟩

end

end Packet

end Pyrad2
