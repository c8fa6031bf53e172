import Pyrad2.Packet.Stored

/-!
# Packets and their attributes

The state of a `Packet` object and the typed access to its stored attributes.

A packet stores wire values under wire keys: a list of values under a plain attribute, a map from
sub-attribute codes under a container. Access by name goes through the dictionary, which gives both
the key and the value codec. Methods run in `PacketMethod`, whose state is the object together with
the process around it; a raised exception keeps the state reached when it was raised.
-/

namespace Pyrad2

/-- The packet classes; they differ in how they serialize a request and build a reply. -/
inductive PacketClass where
  | packet
  | status
  | auth
  | acct
  | coa
  deriving DecidableEq, Repr

/-- A source address and port. -/
abbrev Address := String × ℕ

/-- The duplicate-detection key of a request. -/
structure DedupKey where
  srcIp : String
  srcPort : ℕ
  code : ℕ
  identifier : ℕ
  requestAuthenticator : Bytes
  deriving DecidableEq, Repr

/-- A packet object. -/
structure Packet where
  cls : PacketClass := .packet
  radiusVersion : RadiusVersion := .v1_0
  /-- Values assigned through `set_obfuscated`, encoded only at serialization. -/
  deferredObfuscated : OrderedDict String (List PyVal) := ∅
  code : ℕ := 0
  id : Option ℕ := none
  secret : Bytes := []
  authenticator : Option Bytes := none
  token : Option Bytes := none
  requestAuthenticator : Option Bytes := none
  originalCode : Option ℕ := none
  messageAuthenticator : Option Bool := none
  rawPacket : Option Bytes := none
  source : Option Address := none
  dict : Option Dictionary := none
  authType : String := "pap"
  dedupKey : Option DedupKey := none
  /-- The stored attributes. -/
  attrs : Attrs PyVal := ∅

/-- A packet object and the process around it. -/
structure PacketState where
  pkt : Packet
  world : World

/-- A method of a packet. -/
abbrev PacketMethod (α : Type) := Method PacketState α

namespace Packet

/-! ### Salt encryption -/

/-- One round of the keystream: `MD5(secret + prev) XOR block`. The exclusive or is taken of the
two byte strings as integers, so a short block stands at the right. -/
def md5KeystreamXor (E : Env) (secret prev block : Bytes) : Bytes :=
  Bytes.xor (E.md5 (secret ++ prev)) (List.replicate (16 - block.length) 0 ++ block)

/-- The block loop of `_salt_en_decrypt`: every block is keyed by the block put out before it. -/
def saltBlocks (E : Env) (secret : Bytes) : Bytes → List Bytes → Bytes
  | _, [] => []
  | last, data :: rest =>
    let block := md5KeystreamXor E secret last data
    block ++ saltBlocks E secret block rest

/-- The authenticator that keys salt encryption. -/
def saltAuthenticator (p : Packet) : Option Bytes :=
  match p.requestAuthenticator with
  | some a => some a
  | none => p.authenticator

def saltEnDecrypt (E : Env) (p : Packet) (data salt : Bytes) : Except Exn Bytes :=
  match p.saltAuthenticator with
  | some a => .ok (saltBlocks E p.secret (a ++ salt) (Bytes.chunksOf 16 data))
  | none => .error (.typeError "unsupported operand type(s) for +: 'NoneType' and 'bytes'")

/-- `create_authenticator()` -/
def createAuthenticator : PacketMethod Bytes := fun s ↦
  .ok (s.world.bytes 16).1 { s with world := (s.world.bytes 16).2 }

/-- `if self.authenticator is None: self.authenticator = self.create_authenticator()` -/
def ensureAuthenticator : PacketMethod Unit := do
  if (← get).pkt.authenticator.isNone then
    let auth ← createAuthenticator
    modify fun s ↦ { s with pkt := { s.pkt with authenticator := some auth } }

/-- `random_generator.randrange(lo, hi)` -/
def randrange (lo hi : ℕ) : PacketMethod ℕ := fun s ↦
  .ok (s.world.randrange lo hi).1 { s with world := (s.world.randrange lo hi).2 }

/-- The plaintext of `salt_crypt`: length byte, value, zero padding to whole blocks. -/
def saltPlaintext (value : Bytes) : Except Exn Bytes := do
  let length ← packUnsigned 1 value.length
  let value := length ++ value
  if value.length % 16 ≠ 0 then .ok (value ++ List.replicate (16 - value.length % 16) 0)
  else .ok value

def saltCrypt (E : Env) (value : PyVal) : PacketMethod Bytes := do
  let value ← match value with
    | .str s => pure (Tools.utf8 s)
    | v => v.asBytes
  ensureAuthenticator
  let randomValue ← randrange 0 32767
  let salt := Bytes.ofNatBE 2 (32768 + randomValue)
  let value ← saltPlaintext value
  let crypted ← saltEnDecrypt E (← get).pkt value salt
  return salt ++ crypted

def saltDecrypt (E : Env) (p : Packet) (value : Bytes) : Except Exn Bytes := do
  let salt := value.take 2
  match ← saltEnDecrypt E p (value.drop 2) salt with
  | [] => .error .indexError
  | length :: rest => .ok (rest.take length.toNat)

/-! ### Values -/

/-- `str(ip_address(value))` of a number or a text. -/
def printAddress (E : Env) : PyVal → Except Exn PyVal
  | .int n =>
    if 0 ≤ n ∧ n < 256 ^ 4 then .ok (.str (E.ip.printV4 (Bytes.ofNatBE 4 n.toNat)))
    else if 0 ≤ n ∧ n < 256 ^ 16 then .ok (.str (E.ip.printV6 (Bytes.ofNatBE 16 n.toNat)))
    else .error (.valueError "does not appear to be an IPv4 or IPv6 address")
  | .str s =>
    match E.ip.parseV4 s, E.ip.parseV6 s with
    | some a, _ => .ok (.str (E.ip.printV4 a))
    | none, some a => .ok (.str (E.ip.printV6 a))
    | none, none => .error (.valueError "does not appear to be an IPv4 or IPv6 address")
  | _ => .error (.valueError "does not appear to be an IPv4 or IPv6 address")

/-- `tools.decode_attr` of a value that is not `bytes`. Octets are passed through, an address may be
a number or a text, and for the other types the first operation on the value raises. -/
def decodeOther (E : Env) (type : Datatype) (v : PyVal) : Except Exn PyVal :=
  match type with
  | .octets | .abinary => .ok v
  | .string => .error .attributeError
  | .ipaddr => printAddress E v
  | .ipv4Prefix => do
    if (← v.len) < 2 then .error (.valueError "ipv4prefix value must be at least 2 bytes")
    .error (.typeError "string argument without an encoding")
  | .comboIp => do
    if (← v.len) ≠ 4 ∧ (← v.len) ≠ 16 then
      .error (.valueError "combo-ip value must be 4 (IPv4) or 16 (IPv6) bytes")
    .error (.typeError "string argument without an encoding")
  | .ifid => do
    if (← v.len) ≠ 8 then .error (.valueError "Interface-Id must be 8 bytes")
    .error (.typeError "cannot convert 'str' object to bytes")
  | .ether => do
    if (← v.len) ≠ 6 then .error (.valueError "Ethernet address must be 6 bytes")
    .error (.valueError "Unknown format code 'x' for object of type 'str'")
  | .tlv | .extended | .longExtended | .evs | .vsa => .error (.valueError "Unknown attribute type")
  | .integer | .signed | .short | .byte | .date | .integer64 | .ipv6Prefix | .ipv6addr =>
    .error (.typeError "a bytes-like object is required")

/-- `tools.decode_attr` of a stored value, which need not be `bytes`. -/
def decodeStoredAttr (E : Env) (type : Datatype) : PyVal → Except Exn PyVal
  | .bytes b => Tools.decodeAttr E type b
  | v => decodeOther E type v

def decodeValue (E : Env) (p : Packet) (attr : Attribute) (value : PyVal) : Except Exn PyVal := do
  let value ←
    if attr.encrypt = 2 ∧ p.radiusVersion ≠ .v1_1 then
      (saltDecrypt E p (← value.asBytes)).map .bytes
    else .ok value
  match attr.values.backward.get? value with
  | some name => .ok (.str name)
  | none => decodeStoredAttr E attr.type value

/-- The named value a Python value stands for; only text names one. -/
def namedValue? (attr : Attribute) : PyVal → Option PyVal
  | .str s => attr.values.forward.get? s
  | _ => none

def encodeValue (E : Env) (attr : Attribute) (value : PyVal) : PacketMethod PyVal := do
  let result ← match namedValue? attr value with
    | some encoded => pure encoded
    | none => Tools.encodeAttr E attr.type value
  if attr.encrypt = 2 ∧ (← get).pkt.radiusVersion ≠ .v1_1 then
    return .bytes (← saltCrypt E result)
  return result

/-! ### Keys -/

/-- `key.partition(":")`, without the separator. -/
def partitionTag (key : String) : String × String :=
  let cs := key.toList
  (String.ofList (cs.takeWhile (· ≠ ':')), String.ofList ((cs.dropWhile (· ≠ ':')).drop 1))

/-- `self.dict`, for an expression that reads a field of it. -/
def theDict (p : Packet) : Except Exn Dictionary :=
  match p.dict with
  | some D => .ok D
  | none => .error .attributeError

def encodeKey (p : Packet) (name : String) : Except Exn Key := do
  (← p.theDict).encodeKey name

/-- Put the tag byte of `Name:tag` in front of an encoded value; an integer gives up its first byte
for it. -/
def prependTag (attr : Attribute) (tag : String) (encoded : PyVal) : Except Exn PyVal := do
  let tagByte ← packUnsigned 1 (← Tools.int (.str tag))
  let encoded ← encoded.asBytes
  return .bytes (tagByte ++ if attr.type = .integer then encoded.drop 1 else encoded)

/-- `_encode_key_values` of a name. -/
def encodeKeyValues (E : Env) (name : String) (values : List PyVal) :
    PacketMethod (Key × List PyVal) := do
  let D ← (← get).pkt.theDict
  let (base, tag) := partitionTag name
  let attr ← D.lookup base
  let key ← D.encodeKey base
  if tag ≠ "" then
    return (key, ← values.mapM fun v ↦ do prependTag attr tag (← encodeValue E attr v))
  return (key, ← values.mapM (encodeValue E attr))

/-! ### Reading by name -/

/-- The result of reading a name: decoded values, or a map of a container's sub-attributes. -/
inductive ItemView where
  | vals (vs : List PyVal)
  | map (m : List (String × ItemView))

mutual

/-- `_decode_container_values`, continuing the map `result`. -/
def decodeContainerValues (E : Env) (p : Packet) (D : Dictionary) (container : Attribute) :
    SubMap PyVal → List (String × ItemView) → Except Exn (List (String × ItemView))
  | [], result => .ok result
  | (code, stored) :: rest, result => do
    let result ← decodeContainerEntry E p D container code stored result
    decodeContainerValues E p D container rest result
  termination_by structural l => l

/-- One sub-attribute of a container. -/
def decodeContainerEntry (E : Env) (p : Packet) (D : Dictionary) (container : Attribute)
    (code : Int) : Stored PyVal → List (String × ItemView) → Except Exn (List (String × ItemView))
  | .node m, result => do
    let some name := container.subAttributes.get? code | throw .keyError
    let sub ← D.lookup name
    return Assoc.set name (.map (← decodeContainerValues E p D sub m [])) result
  | .vals vs, result => do
    let some name := container.subAttributes.get? code | throw .keyError
    let sub ← D.lookup name
    vs.foldlM (fun result v ↦ do
      let decoded ← decodeValue E p sub v
      match Assoc.get? name result with
      | none => return Assoc.set name (.vals [decoded]) result
      | some (.vals old) => return Assoc.set name (.vals (old ++ [decoded])) result
      | some (.map _) => throw .attributeError) result
  termination_by structural s => s

end

/-- `pkt[name]` -/
def getItem (E : Env) (p : Packet) (name : String) : Except Exn ItemView := do
  let D ← p.theDict
  let key ← D.encodeKey name
  let some stored := p.attrs.get? key | throw .keyError
  let attr ← D.lookup name
  if attr.type.isContainer then
    match stored with
    | .node m => return .map (← decodeContainerValues E p D attr m [])
    | .vals _ => throw .attributeError
  else
    match stored with
    | .vals vs => return .vals (← vs.mapM (decodeValue E p attr))
    -- iterating over a map yields its codes
    | .node m => return .vals (← m.mapM fun e ↦ decodeValue E p attr (.int e.1))

/-- `pkt[name][0]` -/
def getFirst (E : Env) (p : Packet) (name : String) : Except Exn PyVal := do
  match ← p.getItem E name with
  | .vals (v :: _) => .ok v
  | .vals [] => .error .indexError
  | .map _ => .error .keyError

/-- `name in pkt` -/
def contains (p : Packet) (name : String) : Except Exn Bool :=
  match p.encodeKey name with
  | .ok key => .ok (p.attrs.contains key)
  | .error .keyError => .ok false
  | .error e => .error e

/-- `del pkt[name]` -/
def delItem (name : String) : PacketMethod Unit := do
  let p := (← get).pkt
  let key ← p.encodeKey name
  if p.attrs.contains key then
    modify fun s ↦ { s with pkt := { s.pkt with attrs := s.pkt.attrs.erase key } }
  else throw .keyError

/-- `_has_attribute(name, code)` -/
def hasAttribute (p : Packet) (name : String) (code : Int) : Bool :=
  match p.contains name with
  | .ok true => true
  | _ => p.attrs.contains (.int code)

/-- `has_message_authenticator()` -/
def hasMessageAuthenticator (p : Packet) : Bool :=
  p.messageAuthenticator = some true || p.hasAttribute "Message-Authenticator" 80

/-- `has_eap_message()` -/
def hasEapMessage (p : Packet) : Bool := p.hasAttribute "EAP-Message" 79

/-! ### Writing by name -/

/-- `OrderedDict.__setitem__` -/
def store (key : Key) (stored : Stored PyVal) : PacketMethod Unit :=
  modify fun s ↦ { s with pkt := { s.pkt with attrs := s.pkt.attrs.set key stored } }

/-- `pkt[name] = values` -/
def setItem (E : Env) (name : String) (values : List PyVal) : PacketMethod Unit := do
  let (key, values) ← encodeKeyValues E name values
  store key (.vals values)

/-- The attributes above `attr`, innermost first. The heap bounds the number of parents unless the
links run in a circle. -/
def parentChain (D : Dictionary) : ℕ → Option Attribute → Except Exn (List Attribute)
  | _, none => .ok []
  | 0, some _ => .error .divergence
  | fuel + 1, some cur => do
    let rest ← parentChain D fuel (if cur.isSubAttribute then D.parentOf cur else none)
    return cur :: rest

/-- `_tlv_storage_for(attr)` and the extension of the leaf list it returns the map of. A level that
is not a map exists already, so a failure leaves nothing behind. -/
def extendTlv (D : Dictionary) (attr : Attribute) (key : Key) (vs : List PyVal)
    (attrs : Attrs PyVal) : Except Exn (Attrs PyVal) := do
  let chain ← parentChain D (D.heap.length + 1) (D.parentOf attr)
  match chain.reverse with
  | [] => extendTop key vs attrs
  | top :: levels =>
    let levelKey ← D.encodeKey top.name
    let path := levels.map Attribute.code
    match attrs.get? levelKey with
    | none => return attrs.set levelKey (.node (← extendPath attr.code vs path []))
    | some (.node sub) => return attrs.set levelKey (.node (← extendPath attr.code vs path sub))
    | some (.vals _) => .error (notTlvMap levelKey)

/-- `add_attribute(name, values)` -/
def addAttribute (E : Env) (name : String) (values : List PyVal) : PacketMethod Unit := do
  let D ← (← get).pkt.theDict
  let attr ← D.lookup (partitionTag name).1
  let (key, values) ← encodeKeyValues E name values
  let attrs := (← get).pkt.attrs
  let attrs ←
    if D.isTlvSubAttribute attr then extendTlv D attr key values attrs
    else extendTop key values attrs
  modify fun s ↦ { s with pkt := { s.pkt with attrs } }

end Packet

end Pyrad2
