import Pyrad2.Packet.Authenticator

/-!
# Constructing packets

The packet constructor, `parse_packet`, and the replies to a request.

A constructor is handed the fields of the object and then fills in the rest: it draws an identifier
when it was given none, decodes raw bytes, and adds attributes by name. What it can change besides
the new object is the process it runs in, so constructors are methods of the `World`.
-/

namespace Pyrad2

namespace Packet

/-- Run a method of a packet; a raised exception leaves only the process behind. -/
def run {α : Type} (p : Packet) (m : PacketMethod α) : Method World (α × Packet) := fun w ↦
  match EStateM.run m ⟨p, w⟩ with
  | .ok a s => .ok (a, s.pkt) s.world
  | .error e s => .error e s.world

theorem run_run_of_ok {α : Type} {p : Packet} {m : PacketMethod α} {a : α} {w : World}
    {s : PacketState} (h : m.run ⟨p, w⟩ = .ok a s) : (p.run m).run w = .ok (a, s.pkt) s.world := by
  change Packet.run p m w = _
  rw [Packet.run, h]

/-- Attributes given to a constructor by name; in a keyword, underscores stand for hyphens. -/
abbrev KwAttributes := List (String × List PyVal)

/-- `key.replace("_", "-")` -/
def attributeName (key : String) : String :=
  String.ofList (key.toList.map fun c ↦ if c = '_' then '-' else c)

/-- `__init__` of a packet class, from an object whose plain fields are set. -/
def init (E : Env) (packet : Option Bytes) (attributes : KwAttributes) : PacketMethod Unit := do
  if (← get).pkt.id.isNone then
    modify fun s ↦ ⟨{ s.pkt with id := some s.world.createId.1 }, s.world.createId.2⟩
  if let some raw := packet then
    modify fun s ↦ { s with pkt := { s.pkt with rawPacket := some raw } }
    decodePacket raw
  attributes.forM fun (key, values) ↦ addAttribute E (attributeName key) values

/-- A new packet object. -/
def construct (E : Env) (fields : Packet) (packet : Option Bytes) (attributes : KwAttributes) :
    Method World Packet := do
  let ((), p) ← fields.run (init E packet attributes)
  return p

/-- The class `parse_packet` picks for a code byte. -/
def classFor (code : ℕ) : PacketClass :=
  if code = PacketType.accessRequest then .auth
  else if code = PacketType.statusServer then .status
  else if code = PacketType.accountingRequest ∨ code = PacketType.accountingResponse then .acct
  else if code = PacketType.coaRequest ∨ code = PacketType.disconnectRequest then .coa
  else .packet

/-- `parse_packet(data, secret, dictionary, radius_version)` -/
def parsePacket (E : Env) (data secret : Bytes) (dictionary : Option Dictionary)
    (radiusVersion : RadiusVersion) : Method World Packet :=
  match data with
  | [] => throw .indexError
  | code :: _ =>
    construct E { cls := classFor code.toNat, secret, dict := dictionary, radiusVersion }
      (some data) []

/-! ### Replies -/

/-- `_set_reply_context(reply)` -/
def setReplyContext (request reply : Packet) : Packet :=
  { reply with originalCode := some request.code, token := request.token }

/-- `_make_reply(cls, code, extra_kwargs, ...)`; only an `AuthPacket` carries an `auth_type`. -/
def makeReply (E : Env) (p : Packet) (cls : PacketClass) (code : ℕ) (packet : Option Bytes)
    (attributes : KwAttributes) : Method World Packet := do
  let authType := if cls = .auth then p.authType else "pap"
  let reply ← construct E
    { cls, code, id := p.id, secret := p.secret, authenticator := p.authenticator,
      radiusVersion := p.radiusVersion, dict := p.dict, authType }
    packet attributes
  return p.setReplyContext reply

/-- The error of passing `code` to a class that chooses the code itself. -/
def multipleValues : Exn := .typeError "got multiple values for argument 'code'"

/-- `create_reply(...)` of the class of the request. -/
def createReply (E : Env) (p : Packet) (code : Option ℕ) (packet : Option Bytes)
    (attributes : KwAttributes) : Method World Packet :=
  match p.cls, code with
  | .packet, code => makeReply E p .packet (code.getD 0) packet attributes
  | .status, code => makeReply E p .packet (code.getD PacketType.accessAccept) packet attributes
  | .auth, none => makeReply E p .auth PacketType.accessAccept packet attributes
  | .acct, none => makeReply E p .acct PacketType.accountingResponse packet attributes
  | .coa, none => makeReply E p .coa PacketType.coaACK packet attributes
  | _, some _ => throw multipleValues

end Packet

end Pyrad2
