import Pyrad2.Packet.Frame
import Pyrad2.Packet.Pending
import Pyrad2.Packet.Reorder

/-!
# Assigning now or later

A salt-encrypted value can be given through `add_attribute`, which stores it encoded, or through
`set_obfuscated`, which leaves it pending until the packet is serialized.

The two ways work out the key, the value and the container of an attribute separately. A pending
value is taken for a User-Password if its code is that of one, it is put below its immediate parent,
and its container is taken out of its place among the attributes, goes out last, and is filled with
lists only. Where none of this matters the receiver cannot tell the two ways apart.
-/

namespace Pyrad2

open EStateM

namespace Packet

/-! ### Values are encoded alike -/

section

variable {E : Env} {attr : Attribute} {α : Type}

/-- A value as it is stored, with the tag byte if there is one. -/
def encodeTagged (E : Env) (attr : Attribute) (tag : String) (v : PyVal) : PacketMethod PyVal := do
  let encoded ← encodeValue E attr v
  if tag = "" then return encoded
  prependTag attr tag encoded

/-- Direct assignment encodes one value after the other. -/
theorem run_encodeKeyValues {s : PacketState} {D : Dictionary} (hdict : s.pkt.dict = some D)
    {name : String} (hattr : D.lookup (partitionTag name).1 = .ok attr) {key : Key}
    (hkey : D.encodeKey (partitionTag name).1 = .ok key) (values : List PyVal) :
    (encodeKeyValues E name values).run s =
      (do return (key, ← values.mapM (encodeTagged E attr (partitionTag name).2)) :
        PacketMethod (Key × List PyVal)).run s := by
  have htheDict : s.pkt.theDict = .ok D := by rw [theDict, hdict]
  have hplain : encodeTagged E attr "" = encodeValue E attr := by
    funext v
    rw [encodeTagged]
    exact bind_pure _
  rw [encodeKeyValues]
  simp only [run_bind, run_get, htheDict, run_liftM_ok]
  rw [show partitionTag name = ((partitionTag name).1, (partitionTag name).2) from rfl]
  dsimp only
  simp only [hattr, hkey, run_liftM_ok]
  -- without a tag, nothing is put in front
  by_cases htag : (partitionTag name).2 = ""
  · rw [htag, hplain]
    rfl
  · have htagged : encodeTagged E attr (partitionTag name).2 = fun v ↦
        encodeValue E attr v >>= fun encoded ↦
          liftM (prependTag attr (partitionTag name).2 encoded) := by
      funext v
      rw [encodeTagged]
      simp only [if_neg htag]
    rw [htagged, if_pos htag]
    rfl

end

/-! ### The group of the values -/

section

variable {D : Dictionary} {attr : Attribute} {baseName : String} {key : Key} {p : Packet}

end

/-! ### The two ways -/

section

variable {E : Env} {D : Dictionary} {attr : Attribute} {name : String} {key : Key} {p : Packet}

theorem encodeStored_congr {p q : Packet} (hdict : p.dict = q.dict) (hattrs : p.attrs = q.attrs) :
    p.encodeStored = q.encodeStored := by
  have heq (p : Packet) : p.encodeStored =
      ({ dict := p.dict, attrs := p.attrs } : Packet).encodeStored := rfl
  rw [heq p, heq q, hdict, hattrs]

end

/-! ### The bytes of all groups -/

/-- The encodings of all elements, one after the other. -/
def joined {β : Type} (f : β → Except Exn Bytes) (l : List β) : Except Exn Bytes :=
  return (← l.mapM f).flatten

section

variable {E : Env} {D : Dictionary} {attr : Attribute} {name : String} {key : Key} {p : Packet}
  {version : RadiusVersion}

end

end Packet

end Pyrad2
