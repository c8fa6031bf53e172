import Pyrad2.Packet.Avps
import Pyrad2.Packet.EncodeSize

/-!
# What goes out under a key

Every group of attributes is encoded as a sequence of attributes of one type, which the key and the
dictionary decide.

For a plain attribute it is the code and for an extended one the code of the wrapper; what belongs to
a vendor goes out as type 26. A TLV goes out under the code that is declared for it, whatever key it
is stored under.
-/

namespace Pyrad2

open Except

/-! ### Sequences of attributes -/

/-- What is returned, if anything, is a sequence of attributes for which `P` holds. -/
structure Sends (P : Avp → Prop) (x : Except Exn Bytes) : Prop where
  exists_avps : ∀ b, x = .ok b → ∃ l, b = Avp.join l ∧ ∀ a ∈ l, P a

section

variable {P Q : Avp → Prop} {x : Except Exn Bytes}

theorem sends_error (e : Exn) : Sends P (.error e) := ⟨fun _ h ↦ by cases h⟩

theorem Sends.imp (h : Sends P x) (hPQ : ∀ a, P a → Q a) : Sends Q x := by
  refine ⟨fun b hb ↦ ?_⟩
  obtain ⟨l, hl, hall⟩ := h.exists_avps b hb
  exact ⟨l, hl, fun a ha ↦ hPQ a (hall a ha)⟩

theorem sends_bind {α : Type} {x : Except Exn α} {f : α → Except Exn Bytes}
    (h : ∀ a, x = .ok a → Sends P (f a)) : Sends P (x >>= f) := by
  rcases x with e | a
  · exact sends_error e
  · exact h a rfl

theorem exists_avps_flatten {l : List Bytes}
    (h : ∀ b ∈ l, ∃ avps, b = Avp.join avps ∧ ∀ a ∈ avps, P a) :
    ∃ avps, l.flatten = Avp.join avps ∧ ∀ a ∈ avps, P a := by
  induction l with
  | nil => exact ⟨[], rfl, fun a ha ↦ (List.not_mem_nil ha).elim⟩
  | cons b l ih =>
    obtain ⟨first, rfl, hfirst⟩ := h b (by simp)
    obtain ⟨rest, hrest, hall⟩ := ih fun b hb ↦ h b (by simp [hb])
    refine ⟨first ++ rest, by rw [List.flatten_cons, hrest, Avp.join_append], fun a ha ↦ ?_⟩
    exact (List.mem_append.1 ha).elim (hfirst a) (hall a)

/-- The encodings of all elements, one after the other. -/
theorem sends_flatten_mapM {β : Type} {l : List β} {f : β → Except Exn Bytes}
    (h : ∀ b ∈ l, Sends P (f b)) : Sends P (do return (← l.mapM f).flatten) := by
  refine ⟨fun b hb ↦ ?_⟩
  rcases hmap : l.mapM f with e | parts
  · rw [hmap] at hb
    cases hb
  · rw [hmap] at hb
    cases hb
    refine exists_avps_flatten fun part hpart ↦ ?_
    obtain ⟨b, hb, hpart⟩ := exists_of_mem_mapM hmap hpart
    exact (h b hb).exists_avps part hpart

end

/-! ### Attributes of one type -/

/-- What is returned, if anything, is a sequence of attributes with codes in `P`. -/
structure Emits (P : UInt8 → Prop) (x : Except Exn Bytes) : Prop where
  exists_avps : ∀ b, x = .ok b → ∃ l, b = Avp.join l ∧ ∀ a ∈ l, P a.code

/-- The byte is the number. -/
def IsCode (n : Int) (code : UInt8) : Prop := (code.toNat : Int) = n

section

variable {P : UInt8 → Prop} {x : Except Exn Bytes}

theorem emits_iff_sends : Emits P x ↔ Sends (fun a ↦ P a.code) x := ⟨fun h ↦ ⟨h.1⟩, fun h ↦ ⟨h.1⟩⟩

theorem emits_error (e : Exn) : Emits P (.error e) := emits_iff_sends.2 (sends_error e)

theorem emits_nil : Emits P (.ok []) := by
  refine ⟨fun b hb ↦ ?_⟩
  cases hb
  exact ⟨[], rfl, fun a ha ↦ (List.not_mem_nil ha).elim⟩

theorem emits_bind {α : Type} {x : Except Exn α} {f : α → Except Exn Bytes}
    (h : ∀ a, x = .ok a → Emits P (f a)) : Emits P (x >>= f) :=
  emits_iff_sends.2 (sends_bind fun a ha ↦ emits_iff_sends.1 (h a ha))

/-- The encodings of all elements, one after the other. -/
theorem emits_flatten_mapM {β : Type} {l : List β} {f : β → Except Exn Bytes}
    (h : ∀ b ∈ l, Emits P (f b)) : Emits P (do return (← l.mapM f).flatten) :=
  emits_iff_sends.2 (sends_flatten_mapM fun b hb ↦ emits_iff_sends.1 (h b hb))

/-! ### Headers -/

/-- A header of single bytes, of which the second gives the length of the whole. -/
theorem exists_avp_of_packOctets {code n : Int} {fields : List Int} {header : Bytes}
    (h : packOctets (code :: n :: fields) = .ok header) (body : Bytes)
    (hn : n = fields.length + body.length + 2) :
    ∃ a : Avp, header ++ body = a.bytes ∧ IsCode code a.code ∧
      a.value = fields.map (fun n ↦ UInt8.ofNat n.toNat) ++ body := by
  rw [packOctets] at h
  split at h
  · next hfit =>
    cases h
    have hcode := hfit code (by simp)
    have hlen := hfit n (by simp)
    refine ⟨⟨UInt8.ofNat code.toNat, fields.map (fun n ↦ UInt8.ofNat n.toNat) ++ body, ?_⟩, ?_, ?_,
      rfl⟩
    · rw [List.length_append, List.length_map]
      omega
    · have hnat : n.toNat = (fields.map (fun n ↦ UInt8.ofNat n.toNat) ++ body).length + 2 := by
        rw [List.length_append, List.length_map]
        omega
      rw [Avp.bytes, ← hnat]
      rfl
    · rw [IsCode, UInt8.toNat_ofNat']
      omega
  · cases h

theorem emits_packOctets {code n : Int} {fields : List Int} {body : Bytes}
    (hn : n = fields.length + body.length + 2) :
    Emits (IsCode code) (do return (← packOctets (code :: n :: fields)) ++ body) := by
  refine ⟨fun b hb ↦ ?_⟩
  obtain ⟨header, hheader, heq⟩ := bind_eq_ok_iff.1 hb
  cases heq
  obtain ⟨a, ha, hcode, -⟩ := exists_avp_of_packOctets hheader body hn
  refine ⟨[a], by rw [ha, Avp.join_cons, Avp.join_nil, List.append_nil], fun a' ha' ↦ ?_⟩
  rw [List.mem_singleton.1 ha']
  exact hcode

/-- A header in front of what is returned. -/
theorem emits_packOctets_bind {code n : Int} {fields : List Int} {x : Except Exn Bytes}
    (hn : ∀ body, x = .ok body → n = fields.length + body.length + 2) :
    Emits (IsCode code) (do
      let header ← packOctets (code :: n :: fields)
      return header ++ (← x)) := by
  rcases x with e | body
  · exact emits_bind fun _ _ ↦ emits_error e
  · exact emits_packOctets (hn body rfl)

end

namespace Packet

/-! ### Single attributes -/

theorem emits_packItem (code : Int) (v : PyVal) : Emits (IsCode code) (packItem code v) := by
  rcases v with - | n | s | b
  · exact emits_error _
  · exact emits_error _
  · exact emits_packOctets_bind (x := .error _) fun body hbody ↦ by cases hbody
  · refine emits_packOctets ?_
    simp

theorem emits_packVsa (vendor : Int) (inner : Bytes) :
    Emits (IsCode 26) (packVsa vendor inner) :=
  emits_bind fun _ _ ↦ emits_packItem 26 _

/-- The type of an attribute under a key that calls for no container. -/
def plainType : Key → Int
  | .int n => n
  | .tup _ => 26

theorem emits_encodeAttribute (p : Packet) (key : Key) (v : PyVal) :
    Emits (IsCode (plainType key)) (p.encodeAttribute key v) := by
  rcases key with n | (- | ⟨vendor, - | ⟨vsaType, - | ⟨c, l⟩⟩⟩)
  · exact emits_packItem n v
  · exact emits_error _
  · exact emits_error _
  · rw [encodeAttribute]
    split
    · exact emits_bind fun chunks _ ↦ emits_flatten_mapM fun chunk _ ↦ emits_bind fun _ _ ↦
        emits_packVsa _ _
    · exact emits_bind fun _ _ ↦ emits_packVsa _ _
  · exact emits_error _

/-! ### Containers -/

theorem emits_packVendorTlv (vendor : Int) (avp : Bytes) :
    Emits (IsCode 26) (packVendorTlv vendor avp) := by
  have hpack : packVendorTlv vendor avp = (do
      let header ← packOctets [26, avp.length + 6]
      return header ++ (← (do return (← packUnsigned 4 vendor) ++ avp : Except Exn Bytes))) := by
    rw [packVendorTlv]
    rcases packOctets [26, avp.length + 6] with e | header
    · rfl
    · rcases packUnsigned 4 vendor with e | v
      · rfl
      · exact congrArg Except.ok (List.append_assoc ..)
  rw [hpack]
  refine emits_packOctets_bind fun body hbody ↦ ?_
  obtain ⟨v, hv, heq⟩ := bind_eq_ok_iff.1 hbody
  cases heq
  have hlength : v.length = 4 := (sized_packUnsigned 4 vendor).length_eq hv
  rw [List.length_append, hlength, List.length_nil]
  omega

/-- The type a TLV goes out as: its declared code, or that of a vendor attribute. -/
def tlvType (attr : Attribute) : Int := if attr.vendor = "" then attr.code else 26

/-- The instances of a TLV, gathered round by round. -/
theorem emits_tlvRounds (p : Packet) (attr : Attribute) (m : List (Int × Stored PyVal)) :
    Emits (IsCode (tlvType attr)) (do
      let encoded ← (List.range ((m.map fun e ↦ rounds e.2).foldl max 0)).mapM (p.encodeTlvRound m)
      let avps ← (gatherRounds encoded []).mapM fun avp ↦ packItem attr.code (.bytes avp)
      if attr.vendor = "" then return avps.flatten
      let some vendor := (← p.theDict).vendors.forward.get? attr.vendor | throw .keyError
      return (← avps.mapM (packVendorTlv vendor)).flatten) := by
  refine emits_bind fun encoded _ ↦ ?_
  rw [tlvType]
  split
  · exact emits_flatten_mapM fun avp _ ↦ emits_packItem attr.code _
  · refine emits_bind fun avps _ ↦ emits_bind fun D _ ↦ ?_
    split
    · exact emits_flatten_mapM fun avp _ ↦ emits_packVendorTlv _ avp
    · exact emits_error _

theorem emits_encodeTlv (p : Packet) {key : Key} {attr : Attribute}
    (hattr : p.attributeNamed key = .ok attr) (stored : Stored PyVal) :
    Emits (IsCode (tlvType attr)) (p.encodeTlv key stored) := by
  rw [encodeTlv, hattr, bind_of_ok]
  refine emits_bind fun m _ ↦ ?_
  dsimp only
  split
  · exact emits_error _
  · exact emits_tlvRounds p attr m

theorem emits_packExtended (parent extType : Int) (v : PyVal) :
    Emits (IsCode parent) (packExtended parent extType v) := by
  refine emits_bind fun n hn ↦ ?_
  dsimp only
  split
  · exact emits_error _
  · refine emits_packOctets_bind fun body hbody ↦ ?_
    rcases v with - | k | s | b <;> cases hbody
    cases hn
    simp only [List.length_singleton]
    omega

theorem emits_withMore (parent extType : Int) (more : UInt8) {n : ℕ → Int} {evsHeader : Bytes}
    (hn : ∀ k : ℕ, n k = evsHeader.length + k + 4) (chunks : List PyVal) :
    Emits (IsCode parent) (do
      let avps ← (withMore more chunks).mapM fun (chunk, more) ↦ do
        let header ← packOctets [parent, n (← chunk.len), extType, more.toNat]
        return header ++ evsHeader ++ (← chunk.asBytes)
      return avps.flatten) := by
  refine emits_flatten_mapM fun e _ ↦ ?_
  obtain ⟨v, flag⟩ := e
  rcases v with - | k | s | b
  · exact emits_error _
  · exact emits_error _
  · exact emits_bind fun _ _ ↦ emits_bind fun _ _ ↦ emits_error _
  · refine ⟨fun out hout ↦ ?_⟩
    change (packOctets [parent, n b.length, extType, flag.toNat] >>= fun header ↦
      .ok (header ++ evsHeader ++ b)) = .ok out at hout
    obtain ⟨header, hheader, heq⟩ := bind_eq_ok_iff.1 hout
    cases heq
    obtain ⟨a, ha, hcode, -⟩ := exists_avp_of_packOctets hheader (evsHeader ++ b) (by
      rw [hn, List.length_append, List.length_cons, List.length_singleton]
      omega)
    refine ⟨[a], ?_, fun a' ha' ↦ by rwa [List.mem_singleton.1 ha']⟩
    rw [List.append_assoc, ha, Avp.join_cons, Avp.join_nil, List.append_nil]

theorem emits_packLongExtended (parent extType : Int) (v : PyVal) :
    Emits (IsCode parent) (packLongExtended parent extType v) := by
  refine emits_bind fun chunks _ ↦ ?_
  have hn (k : ℕ) : (4 + k : Int) = ([] : Bytes).length + k + 4 := by simp [add_comm]
  have h := emits_withMore parent extType longExtendedMoreFlag hn chunks
  simpa only [List.append_nil] using h

theorem emits_slots {pack : Int → Int → PyVal → Except Exn Bytes} {parent : Int}
    (hpack : ∀ extType v, Emits (IsCode parent) (pack parent extType v)) (stored : Stored PyVal) :
    Emits (IsCode parent) (do
      let slots ← (← stored.items).mapM fun (extType, values) ↦
        match values with
        | .node m => do pack parent extType (.bytes (← encodeTlvChain m))
        | .vals vs => return (← vs.mapM (pack parent extType)).flatten
      return slots.flatten) := by
  refine emits_bind fun m _ ↦ emits_flatten_mapM fun e _ ↦ ?_
  obtain ⟨extType, vs | m⟩ := e
  · exact emits_flatten_mapM fun v _ ↦ hpack extType v
  · exact emits_bind fun b _ ↦ hpack extType _

theorem emits_encodeEvs (parent extType vendor vsaType : Int) (v : PyVal) :
    Emits (IsCode parent) (encodeEvs parent extType vendor vsaType v) := by
  refine emits_bind fun first hfirst ↦ emits_bind fun second hsecond ↦ ?_
  have hlength : (first ++ second).length = 5 := by
    rw [List.length_append, (sized_packUnsigned 4 vendor).length_eq hfirst,
      (sized_packUnsigned 1 vsaType).length_eq hsecond]
  dsimp only
  split
  · refine emits_bind fun chunks _ ↦ ?_
    have hn (k : ℕ) : (9 + k : Int) = (first ++ second).length + k + 4 := by
      rw [hlength]
      omega
    exact emits_withMore parent extType longExtendedMoreFlag hn chunks
  · refine emits_bind fun n hn ↦ ?_
    split
    · exact emits_error _
    · rcases v with - | k | s | b
      · cases hn
      · cases hn
      · exact emits_bind fun _ _ ↦ emits_error _
      · cases hn
        refine ⟨fun out hout ↦ ?_⟩
        obtain ⟨header, hheader, heq⟩ := bind_eq_ok_iff.1 hout
        cases heq
        obtain ⟨a, ha, hcode, -⟩ := exists_avp_of_packOctets hheader (first ++ second ++ b) (by
          rw [List.length_append, hlength, List.length_singleton]
          omega)
        refine ⟨[a], ?_, fun a' ha' ↦ by rwa [List.mem_singleton.1 ha']⟩
        rw [List.append_assoc, ha, Avp.join_cons, Avp.join_nil, List.append_nil]

/-! ### Groups -/

/-- The type that a group of attributes goes out as. -/
def wireType (D : Option Dictionary) : Key → Int
  | .tup [parent, _, _, _] => parent
  | key =>
    match D.bind fun D ↦ D.attributeAt? key with
    | some attr =>
      match attr.type with
      | .tlv => tlvType attr
      | .extended => key.field
      | .longExtended => key.field
      | _ => plainType key
    | none => plainType key

theorem emits_encodePlain (p : Packet) (key : Key) (v : PyVal) :
    Emits (IsCode (plainType key)) (p.encodePlain key v) := by
  rw [encodePlain]
  split
  · refine emits_bind fun n _ ↦ ?_
    split
    · exact emits_bind fun chunks _ ↦ emits_flatten_mapM fun chunk _ ↦ emits_encodeAttribute p key _
    · exact emits_encodeAttribute p key v
  · exact emits_encodeAttribute p key v

theorem emits_plainGroup (p : Packet) (key : Key) (stored : Stored PyVal) :
    Emits (IsCode (plainType key)) (do
      let datalst := stored.iterate
      if p.isArrayAttribute key && datalst.length > 1 then
        let packed ← datalst.mapM PyVal.asBytes
        return ← p.encodeAttribute key (.bytes packed.flatten)
      return (← datalst.mapM (p.encodePlain key)).flatten) := by
  dsimp only
  split
  · exact emits_bind fun packed _ ↦ emits_encodeAttribute p key _
  · exact emits_flatten_mapM fun v _ ↦ emits_encodePlain p key v

/-- **What a group becomes**: attributes of the type of its key. -/
theorem emits_encodeAvpGroup (p : Packet) (key : Key) (stored : Stored PyVal) :
    Emits (IsCode (wireType p.dict key)) (p.encodeAvpGroup key stored) := by
  by_cases hkey : ∃ a b c d, key = .tup [a, b, c, d]
  · obtain ⟨a, b, c, d, rfl⟩ := hkey
    exact emits_flatten_mapM fun v _ ↦ emits_encodeEvs a b c d v
  · have hne : ∀ a b c d, key ≠ .tup [a, b, c, d] := fun a b c d h ↦ hkey ⟨a, b, c, d, h⟩
    have hwire : wireType p.dict key = match p.dict.bind fun D ↦ D.attributeAt? key with
        | some attr =>
          match attr.type with
          | .tlv => tlvType attr
          | .extended => key.field
          | .longExtended => key.field
          | _ => plainType key
        | none => plainType key := by
      rcases key with n | (- | ⟨a, - | ⟨b, - | ⟨c, - | ⟨d, - | ⟨e, l⟩⟩⟩⟩⟩) <;>
        first | exact absurd rfl (hne _ _ _ _) | rfl
    have hcontainer : p.containerType key = (p.dict.bind fun D ↦ D.attributeAt? key).bind
        fun attr ↦ if attr.type.isContainer then some attr.type else none := by
      rw [containerType]
      rcases p.dict with - | D
      · rfl
      · change D.containerType key = _
        rw [Dictionary.containerType]
        dsimp only [Option.bind_some]
        rcases D.attributeAt? key with - | attr <;> rfl
    rw [encodeAvpGroup_of_ne p hne, hwire, hcontainer]
    have hplain := emits_plainGroup p key stored
    rcases hattr : p.dict.bind fun D ↦ D.attributeAt? key with - | attr
    · exact hplain
    · have hnamed : p.attributeNamed key = .ok attr := by rw [attributeNamed, hattr]
      have htlv := emits_encodeTlv p hnamed stored
      dsimp only [Option.bind_some]
      rcases attr.type <;> try exact hplain
      · exact htlv
      · exact emits_slots (fun extType v ↦ emits_packExtended key.field extType v) stored
      · exact emits_slots (fun extType v ↦ emits_packLongExtended key.field extType v) stored

end Packet

end Pyrad2
