import Mathlib.Data.Nat.Notation

/-!
# Protocol constants

Packet codes, attribute codes, protocol versions and attribute datatypes.
-/

namespace Pyrad2

/-! ### Packet codes -/

namespace PacketType

abbrev accessRequest : ℕ := 1
abbrev accessAccept : ℕ := 2
abbrev accessReject : ℕ := 3
abbrev accountingRequest : ℕ := 4
abbrev accountingResponse : ℕ := 5
abbrev accessChallenge : ℕ := 11
abbrev statusServer : ℕ := 12
abbrev disconnectRequest : ℕ := 40
abbrev disconnectACK : ℕ := 41
abbrev disconnectNAK : ℕ := 42
abbrev coaRequest : ℕ := 43
abbrev coaACK : ℕ := 44
abbrev coaNAK : ℕ := 45

end PacketType

/-! ### Attribute codes -/

/-- Attribute codes of long-extended wrappers; their second header byte carries the More flag. -/
def longExtendedAttributeTypes : List Int := [245, 246]

/-- The More flag of a long-extended fragment. -/
abbrev longExtendedMoreFlag : UInt8 := 0x80

/-- The More flag of a vendor continuation fragment. -/
abbrev vsaContinuationMore : UInt8 := 0x80

/-! ### Versions and datatypes -/

/-- Protocol version negotiated for a packet. -/
inductive RadiusVersion where
  | v1_0
  | v1_1
  deriving DecidableEq, Repr

/-- The datatypes of dictionary attributes. -/
inductive Datatype where
  | string | ipaddr | integer | date | octets | abinary | ipv6addr | ipv6Prefix | short | byte
  | signed | ifid | ether | tlv | integer64 | extended | longExtended | evs | vsa | ipv4Prefix
  | comboIp
  deriving DecidableEq, Repr

namespace Datatype

/-- Datatypes whose attributes are stored as a map from sub-attribute codes. -/
def isContainer : Datatype → Bool
  | tlv => true
  | extended => true
  | longExtended => true
  | _ => false

end Datatype

/-- Which kind of listener a packet arrived on. -/
inductive ServerType where
  | auth
  | acct
  | coa
  deriving DecidableEq, Repr

end Pyrad2
