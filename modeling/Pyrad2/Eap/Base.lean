import Pyrad2.Packet.Reply

/-!
# EAP methods

The two hooks through which a client drives an EAP exchange, the registry of methods, and the access
to packets that the methods use. Methods read and write attributes under their integer codes, so
what they store is not encoded.
-/

namespace Pyrad2

/-- A method and the packet it works on. -/
abbrev EapState (M : Type) := M × PacketState

/-- The registry of EAP methods; `M` is the type of method objects. The hooks work on the method
object and on the packet that spans the conversation. -/
structure EapMethods (M : Type) where
  /-- `get_method(name)`: a new object, or nothing for a name that is not registered. -/
  getMethod : String → Option M
  /-- `start(pkt)` -/
  start : Method (EapState M) Unit
  /-- `respond(pkt, challenge)` -/
  respond : Packet → Method (EapState M) Unit
  /-- Whether it returns or raises, a response comes to its end. -/
  respond_ends : ∀ challenge s s', (respond challenge).run s ≠ .error .divergence s'

namespace Eap

abbrev eapMessageAttr : Int := 79

abbrev stateAttr : Int := 24

abbrev userPasswordAttr : Int := 2

abbrev userNameAttr : Int := 1

/-- `pkt[code]` -/
def rawItem (p : Packet) (code : Int) : Except Exn (Stored PyVal) :=
  match p.attrs.get? (.int code) with
  | some stored => .ok stored
  | none => .error .keyError

/-- `values[0]`, of what is to be a list. A map has no index `0`, unless that is one of its codes,
and then what it holds is no byte string. -/
def firstOf : Stored PyVal → Except Exn PyVal
  | .vals (v :: _) => .ok v
  | .vals [] => .error .indexError
  | .node m => .error (if (Assoc.get? 0 m).isSome then .typeError "a bytes-like object is required"
      else .keyError)

/-- The value of a `%ds` field; `len(value)` comes first. -/
def packedString : PyVal → Except Exn Bytes
  | .bytes b => .ok b
  | .str _ => .error .structError
  | _ => .error (.typeError "object has no len()")

/-- `password_from_packet(pkt)` -/
def passwordFromPacket (p : Packet) : Except Exn PyVal := do
  if !p.attrs.contains (.int userPasswordAttr) then
    throw (.packetError "EAP framing requires a User-Password attribute on the packet")
  firstOf (← rawItem p userPasswordAttr)

/-- `struct.pack("!BBHB%ds", RESPONSE, eap_id, len(data) + 5, type, data)` -/
def packResponse (eapId : ℕ) (type : UInt8) (data : Bytes) : Except Exn Bytes := do
  let eapId ← packUnsigned 1 eapId
  let length ← packUnsigned 2 (data.length + 5)
  return [2] ++ eapId ++ length ++ [type] ++ data

/-- `inject_eap_identity(pkt)`; the EAP identifier is `packet.CURRENT_ID`. -/
def injectEapIdentity : PacketMethod Unit := do
  let s ← get
  let password ← packedString (← passwordFromPacket s.pkt)
  let identity ← packResponse s.world.currentId 1 password
  Packet.store (.int eapMessageAttr) (.vals [.bytes identity])

/-! ### Nothing here goes on forever -/

theorem onlyRaises_rawItem (p : Packet) (code : Int) :
    Except.OnlyRaises (· ≠ .divergence) (rawItem p code) := by
  rw [rawItem]
  rcases p.attrs.get? (.int code) with - | stored
  · exact Except.onlyRaises_error (by simp)
  · exact Except.onlyRaises_ok stored

theorem onlyRaises_firstOf (stored : Stored PyVal) :
    Except.OnlyRaises (· ≠ .divergence) (firstOf stored) := by
  rcases stored with (- | ⟨v, vs⟩) | m
  · exact Except.onlyRaises_error (by simp)
  · exact Except.onlyRaises_ok v
  · refine Except.onlyRaises_error ?_
    split <;> simp

theorem onlyRaises_asBytes (v : PyVal) : Except.OnlyRaises (· ≠ .divergence) v.asBytes := by
  rcases v with - | i | t | b
  iterate 3 exact Except.onlyRaises_error (by simp)
  exact Except.onlyRaises_ok b

theorem onlyRaises_passwordFromPacket (p : Packet) :
    Except.OnlyRaises (· ≠ .divergence) (passwordFromPacket p) := by
  rw [passwordFromPacket]
  split
  · exact Except.onlyRaises_error (by simp)
  · exact (onlyRaises_rawItem p _).bind fun stored ↦ onlyRaises_firstOf stored

end Eap

end Pyrad2
