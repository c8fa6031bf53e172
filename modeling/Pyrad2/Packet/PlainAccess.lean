import Pyrad2.Packet.Frame

/-!
# Attributes that are declared plainly

Reading, assigning and deleting an attribute by a name that the dictionary declares at top level,
without encryption, flags or named values. The name and the code then stand for each other, and an
access is one at the code with the codec of the datatype.
-/

namespace Pyrad2

open EStateM

namespace Dictionary

/-- The name is declared with this code and this datatype, at top level, without encryption, flags
or named values, and the index gives the code that name. -/
structure DeclaresPlain (D : Dictionary) (name : String) (code : Int) (type : Datatype) : Prop where
  index : D.attrindex.backward.get? (.int code) = some name
  declared : ∃ attr, D.attribute? name = some attr ∧ attr.code = code ∧ attr.type = type ∧
    attr.vendor = "" ∧ attr.isSubAttribute = false ∧ attr.encrypt = 0 ∧ attr.concat = false ∧
    attr.virtual = false ∧ attr.array = false ∧ attr.values = BiDict.empty

/-- A name without a key is a missing key. -/
theorem encodeKey_eq_error {D : Dictionary} {name : String} {e : Exn}
    (h : D.encodeKey name = .error e) : e = .keyError := by
  have hlookup : Except.OnlyRaises (· = Exn.keyError) (D.lookup name) := by
    rw [lookup]
    split
    · exact Except.onlyRaises_ok _
    · exact Except.onlyRaises_error rfl
  have hkey : Except.OnlyRaises (· = Exn.keyError) (D.encodeKey name) := by
    refine hlookup.bind fun attr ↦ ?_
    dsimp only
    split
    · split
      · exact Except.onlyRaises_ok _
      · exact Except.onlyRaises_error rfl
    · split
      · split
        · exact Except.onlyRaises_ok _
        · exact Except.onlyRaises_error rfl
      · exact Except.onlyRaises_ok _
  exact hkey.of_error e h

namespace DeclaresPlain

variable {D : Dictionary} {name : String} {code : Int} {type : Datatype}
  (h : D.DeclaresPlain name code type)

include h

theorem encodeKey_eq : D.encodeKey name = .ok (.int code) := by
  obtain ⟨attr, hattr, hcode, -, hvendor, hsub, -⟩ := h.declared
  rw [encodeKey, lookup, hattr]
  simp [hsub, hvendor, hcode]
  rfl

theorem exists_attributeAt? : ∃ attr, D.attributeAt? (.int code) = some attr ∧
    attr.type = type ∧ attr.concat = false ∧ attr.virtual = false ∧ attr.array = false := by
  obtain ⟨attr, hattr, -, htype, -, -, -, hconcat, hvirtual, harray, -⟩ := h.declared
  exact ⟨attr, by rw [attributeAt?, h.index]; exact hattr, htype, hconcat, hvirtual, harray⟩

theorem containerType_eq (htype : type.isContainer = false) : D.containerType (.int code) = none := by
  obtain ⟨attr, hattr, rfl, -⟩ := h.exists_attributeAt?
  rw [containerType, hattr]
  simp [htype]

theorem isConcatAttribute_eq : D.isConcatAttribute (.int code) = false := by
  obtain ⟨attr, hattr, -, hconcat, -⟩ := h.exists_attributeAt?
  rw [isConcatAttribute, flagAt, hattr]
  exact hconcat

theorem isVirtualAttribute_eq : D.isVirtualAttribute (.int code) = false := by
  obtain ⟨attr, hattr, -, -, hvirtual, -⟩ := h.exists_attributeAt?
  rw [isVirtualAttribute, flagAt, hattr]
  exact hvirtual

theorem isArrayAttribute_eq : D.isArrayAttribute (.int code) = false := by
  obtain ⟨attr, hattr, -, -, -, harray⟩ := h.exists_attributeAt?
  rw [isArrayAttribute, flagAt, hattr]
  exact harray

end DeclaresPlain

end Dictionary

namespace Packet

section

variable {D : Dictionary} {name : String} {code : Int} {type : Datatype} {p : Packet} {s : PacketState}
  {E : Env}

/-! ### Reading -/

theorem contains_of_plain (h : D.DeclaresPlain name code type) (hdict : p.dict = some D) :
    p.contains name = .ok (p.attrs.contains (.int code)) := by
  rw [contains, encodeKey, theDict, hdict, Except.bind_of_ok, h.encodeKey_eq]

/-- A value without encryption and without a name is read by the codec. -/
theorem decodeValue_of_plain {attr : Attribute} (hencrypt : attr.encrypt = 0)
    (hvalues : attr.values = BiDict.empty) (E : Env) (p : Packet) (v : PyVal) :
    p.decodeValue E attr v = decodeStoredAttr E attr.type v := by
  rw [decodeValue, if_neg (by simp [hencrypt]), Except.bind_of_ok, hvalues]
  rfl

theorem getItem_of_plain (h : D.DeclaresPlain name code type) (htype : type.isContainer = false)
    (hdict : p.dict = some D) {vs : List PyVal}
    (hvs : p.attrs.get? (.int code) = some (.vals vs)) :
    p.getItem E name = (vs.mapM (decodeStoredAttr E type)).map .vals := by
  obtain ⟨attr, hattr, -, rfl, -, -, hencrypt, -, -, -, hvalues⟩ := h.declared
  have hlookup : D.lookup name = .ok attr := by rw [Dictionary.lookup, hattr]
  have hdecode : p.decodeValue E attr = decodeStoredAttr E attr.type :=
    funext (decodeValue_of_plain hencrypt hvalues E p)
  rw [getItem, theDict, hdict]
  simp only [Except.bind_of_ok, h.encodeKey_eq, hvs, hlookup, htype, hdecode]
  rcases vs.mapM (decodeStoredAttr E attr.type) with e | vs' <;> rfl

/-- Iterating over a map yields its codes. -/
theorem getItem_of_plain_node (h : D.DeclaresPlain name code type) (htype : type.isContainer = false)
    (hdict : p.dict = some D) {m : SubMap PyVal}
    (hm : p.attrs.get? (.int code) = some (.node m)) :
    p.getItem E name = (m.mapM fun e ↦ decodeStoredAttr E type (.int e.1)).map .vals := by
  obtain ⟨attr, hattr, -, rfl, -, -, hencrypt, -, -, -, hvalues⟩ := h.declared
  have hlookup : D.lookup name = .ok attr := by rw [Dictionary.lookup, hattr]
  have hdecode : p.decodeValue E attr = decodeStoredAttr E attr.type :=
    funext (decodeValue_of_plain hencrypt hvalues E p)
  rw [getItem, theDict, hdict]
  simp only [Except.bind_of_ok, h.encodeKey_eq, hm, hlookup, htype, hdecode]
  rcases m.mapM fun e ↦ decodeStoredAttr E attr.type (.int e.1) with e | vs' <;> rfl

/-! ### Assigning and deleting -/

/-- A value without encryption and without a name is encoded by the codec. -/
theorem encodeValue_of_plain {attr : Attribute} (hencrypt : attr.encrypt = 0)
    (hvalues : attr.values = BiDict.empty) (E : Env) (v : PyVal) :
    encodeValue E attr v = liftM (Tools.encodeAttr E attr.type v) := by
  have hname : namedValue? attr v = none := by
    rcases v with - | n | t | b
    · rfl
    · rfl
    · rw [namedValue?, hvalues]
      rfl
    · rfl
  rw [encodeValue, hname]
  refine funext fun s ↦ ?_
  show (liftM (Tools.encodeAttr E attr.type v) >>= _ : PacketMethod PyVal).run s =
    (liftM (Tools.encodeAttr E attr.type v) : PacketMethod PyVal).run s
  rcases Tools.encodeAttr E attr.type v with e | encoded
  · rfl
  · rw [run_bind_of_ok (run_liftM_ok encoded s), run_bind_of_ok (run_get s), if_neg (by simp [hencrypt])]
    rfl

/-- **Assigning** stores what the codec makes of the values. -/
theorem run_setItem_of_plain (h : D.DeclaresPlain name code type)
    (htag : partitionTag name = (name, "")) (hdict : s.pkt.dict = some D) (values : List PyVal) :
    (setItem E name values).run s = match values.mapM (Tools.encodeAttr E type) with
      | .ok vs => .ok ()
        { s with pkt := { s.pkt with attrs := s.pkt.attrs.set (.int code) (.vals vs) } }
      | .error e => .error e s := by
  obtain ⟨attr, hattr, -, rfl, -, -, hencrypt, -, -, -, hvalues⟩ := h.declared
  have hlookup : D.lookup name = .ok attr := by rw [Dictionary.lookup, hattr]
  have hencode : encodeValue E attr = fun v ↦ liftM (Tools.encodeAttr E attr.type v) :=
    funext (encodeValue_of_plain hencrypt hvalues E)
  have hkeyValues : (encodeKeyValues E name values).run s =
      match values.mapM (Tools.encodeAttr E attr.type) with
      | .ok vs => .ok (.int code, vs) s
      | .error e => .error e s := by
    rw [encodeKeyValues, htag]
    simp only [run_bind, run_get, theDict, hdict, run_liftM_ok, hlookup, h.encodeKey_eq, hencode]
    rw [if_neg (by simp), mapM_liftM]
    rcases values.mapM (Tools.encodeAttr E attr.type) with e | vs <;> rfl
  rw [setItem]
  rcases hmap : values.mapM (Tools.encodeAttr E attr.type) with e | vs
  · rw [hmap] at hkeyValues
    exact run_bind_of_error hkeyValues
  · rw [hmap] at hkeyValues
    rw [run_bind_of_ok hkeyValues]
    rfl

/-! ### On the wire -/

/-- A plain attribute goes out as one item for each of its values. -/
theorem encodeAvpGroup_of_plain (h : D.DeclaresPlain name code type) (htype : type.isContainer = false)
    (hdict : p.dict = some D) (vs : List PyVal) :
    p.encodeAvpGroup (.int code) (.vals vs) = do return (← vs.mapM (packItem code)).flatten := by
  have hcontainer : p.containerType (.int code) = none := by
    rw [containerType, hdict]
    exact h.containerType_eq htype
  have harray : p.isArrayAttribute (.int code) = false := by
    rw [isArrayAttribute, hdict]
    exact h.isArrayAttribute_eq
  have hconcat : p.isConcatAttribute (.int code) = false := by
    rw [isConcatAttribute, hdict]
    exact h.isConcatAttribute_eq
  have hplain : p.encodePlain (.int code) = packItem code := by
    funext v
    rw [encodePlain, if_neg (by rw [hconcat]; decide), encodeAttribute]
  rw [encodeAvpGroup]
  · simp only [hcontainer, harray, Stored.iterate, hplain]
    rfl
  · exact fun a b c d hkey ↦ by cases hkey

end

end Packet

end Pyrad2
