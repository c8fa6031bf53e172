import Pyrad2.Foundations.OrderedDict
import Pyrad2.Tools

/-!
# Dictionaries

The attribute definitions a packet consults.

Attributes are objects that other attributes refer to, and a redefinition replaces the object a name
stands for without touching the references to the old one. A dictionary therefore keeps its
attributes in a heap and refers to them by position. The two directions of a `BiDict` are updated
independently, so they are two independent maps here as well.
-/

namespace Pyrad2

/-- A key of the attribute index or of a packet: a bare code or a tuple of numbers. -/
inductive Key where
  | int (n : Int)
  | tup (l : List Int)
  deriving DecidableEq, Repr

/-- A two-way dictionary. Nothing keeps the two directions inverse to each other. -/
structure BiDict (α β : Type) where
  forward : OrderedDict α β
  backward : OrderedDict β α

namespace BiDict

variable {α β : Type}

/-- `BiDict()` -/
def empty : BiDict α β := ⟨∅, ∅⟩

/-- `BiDict.add` -/
def add [DecidableEq α] [DecidableEq β] (d : BiDict α β) (one : α) (two : β) : BiDict α β :=
  ⟨d.forward.set one two, d.backward.set two one⟩

end BiDict

/-- The wire format of a vendor's attributes: widths of the type and length fields, and whether a
continuation byte follows them. Only the widths the dictionary parser accepts can be stated. -/
structure VendorFormat where
  typeLen : ℕ
  lenLen : ℕ
  hasContinuation : Bool
  typeLen_mem : typeLen = 1 ∨ typeLen = 2 ∨ typeLen = 4
  lenLen_le : lenLen ≤ 2

/-- `VENDOR_FORMAT_DEFAULT` -/
def vendorFormatDefault : VendorFormat := ⟨1, 1, false, by simp, by simp⟩

/-- A dictionary attribute. `parent` is a position in the dictionary's heap. -/
structure Attribute where
  name : String
  code : Int
  type : Datatype
  isSubAttribute : Bool := false
  vendor : String := ""
  encrypt : ℕ := 0
  concat : Bool := false
  virtual : Bool := false
  array : Bool := false
  values : BiDict String PyVal := BiDict.empty
  subAttributes : OrderedDict Int String := ∅
  parent : Option ℕ := none

/-- A dictionary. -/
structure Dictionary where
  heap : List Attribute
  attributes : OrderedDict String ℕ
  attrindex : BiDict String Key
  vendors : BiDict String Int
  vendorFormats : OrderedDict Int VendorFormat

namespace Dictionary

variable (D : Dictionary)

/-- `Dictionary()` -/
def empty : Dictionary :=
  ⟨[], ∅, BiDict.empty, BiDict.empty.add "" 0, ∅⟩

/-- `dictionary.attributes.get(name)` -/
def attribute? (name : String) : Option Attribute :=
  (D.attributes.get? name).bind fun ref ↦ D.heap[ref]?

/-- `dictionary.attributes[name]` -/
def lookup (name : String) : Except Exn Attribute :=
  match D.attribute? name with
  | some attr => .ok attr
  | none => .error .keyError

/-- `dictionary.attributes.get(pkt._decode_key(key))`: a key that the index does not name stays as
it is, and no attribute is called by it. -/
def attributeAt? (key : Key) : Option Attribute :=
  (D.attrindex.backward.get? key).bind D.attribute?

/-- The attribute a parent link leads to. -/
def parentOf (attr : Attribute) : Option Attribute :=
  attr.parent.bind fun ref ↦ D.heap[ref]?

/-- `dictionary.vendor_format(vendor_id)` -/
def vendorFormat (vendor : Int) : VendorFormat :=
  (D.vendorFormats.get? vendor).getD vendorFormatDefault

/-- `attr.parent and attr.parent.type == "evs"` -/
def hasEvsParent (attr : Attribute) : Bool :=
  match D.parentOf attr with
  | some parent => parent.type == .evs
  | none => false

/-- `_is_tlv_sub_attribute(attr)` -/
def isTlvSubAttribute (attr : Attribute) : Bool :=
  attr.isSubAttribute && !D.hasEvsParent attr

/-- `_encode_key(name)` -/
def encodeKey (name : String) : Except Exn Key := do
  let attr ← D.lookup name
  if attr.isSubAttribute && D.hasEvsParent attr then
    match D.attrindex.forward.get? name with
    | some key => return key
    | none => throw .keyError
  if attr.vendor ≠ "" && !attr.isSubAttribute then
    match D.vendors.forward.get? attr.vendor with
    | some vendor => return .tup [vendor, attr.code]
    | none => throw .keyError
  return .int attr.code

/-- `_container_type(key)` -/
def containerType (key : Key) : Option Datatype :=
  match D.attributeAt? key with
  | some attr => if attr.type.isContainer then some attr.type else none
  | none => none

theorem isContainer_of_containerType {D : Dictionary} {key : Key} {type : Datatype}
    (h : D.containerType key = some type) : type.isContainer = true := by
  rw [containerType] at h
  split at h
  · split at h
    · next hc =>
      cases h
      exact hc
    · cases h
  · cases h

/-- A flag of the attribute a key names; unset for a key that names none. -/
def flagAt (flag : Attribute → Bool) (key : Key) : Bool :=
  match D.attributeAt? key with
  | some attr => flag attr
  | none => false

/-- `_is_concat_attribute(key)` -/
def isConcatAttribute (key : Key) : Bool := D.flagAt Attribute.concat key

/-- `_is_virtual_attribute(key)` -/
def isVirtualAttribute (key : Key) : Bool := D.flagAt Attribute.virtual key

/-- `_is_array_attribute(key)` -/
def isArrayAttribute (key : Key) : Bool := D.flagAt Attribute.array key

/-- `_tlv_child_attr(parent_attr, child_code)` -/
def tlvChildAttr (parentAttr : Option Attribute) (childCode : Int) : Option Attribute :=
  match parentAttr with
  | none => none
  | some parent => (parent.subAttributes.get? childCode).bind D.attribute?

/-- Is the slot `ext_type` of the wrapper `parent_code` declared with datatype `type`? -/
def isSlotOfType (type : Datatype) (parentCode extType : Int) : Bool :=
  match D.tlvChildAttr (D.attributeAt? (.int parentCode)) extType with
  | some sub => sub.type == type
  | none => false

/-- `_is_tlv_extended_slot(parent_code, ext_type)` -/
def isTlvExtendedSlot (parentCode extType : Int) : Bool := D.isSlotOfType .tlv parentCode extType

/-- `_is_evs_slot(parent_code, ext_type)` -/
def isEvsSlot (parentCode extType : Int) : Bool := D.isSlotOfType .evs parentCode extType

/-- `_pkt_is_tlv_attribute(key)` -/
def isTlvAttribute (key : Key) : Bool :=
  match D.attributeAt? key with
  | some attr => attr.type == .tlv
  | none => false

/-! ### A dictionary that declares Message-Authenticator -/

/-- `Message-Authenticator` is declared as plain octets with code 80: at top level, without
encryption, flags or named values, and the index gives code 80 that name. -/
structure DeclaresMessageAuthenticator : Prop where
  index : D.attrindex.backward.get? (.int 80) = some "Message-Authenticator"
  declared : ∃ attr, D.attribute? "Message-Authenticator" = some attr ∧
    attr.code = 80 ∧ attr.type = .octets ∧ attr.vendor = "" ∧ attr.isSubAttribute = false ∧
    attr.encrypt = 0 ∧ attr.concat = false ∧ attr.virtual = false ∧ attr.array = false ∧
    attr.values = BiDict.empty

/-- A dictionary that declares nothing else. -/
def messageAuthenticatorOnly : Dictionary where
  heap := [{ name := "Message-Authenticator", code := 80, type := .octets }]
  attributes := OrderedDict.set ∅ "Message-Authenticator" 0
  attrindex := BiDict.empty.add "Message-Authenticator" (.int 80)
  vendors := BiDict.empty.add "" 0
  vendorFormats := ∅

theorem declares_messageAuthenticatorOnly :
    messageAuthenticatorOnly.DeclaresMessageAuthenticator where
  index := by decide
  declared := ⟨_, rfl, rfl, rfl, rfl, rfl, rfl, rfl, rfl, rfl, rfl⟩

end Dictionary

end Pyrad2
