import Pyrad2.Packet.Basic

/-!
# Serialization of attributes

`_pkt_encode_attributes` and everything below it.

One stored entry is a group of attributes under one key. What the group becomes on the wire depends
on the shape of the key (a four-tuple is an extended vendor attribute) and on the datatype the
dictionary declares for it (TLV, extended and long-extended containers); all other groups are plain
attributes, possibly split (`concat`) or packed into one (`array`).

A stored group need not have the shape its key calls for: callers may assign anything under a
numeric key. Every function therefore works on `Stored` and raises what Python raises.
-/

namespace Pyrad2

/-- The number `struct.pack` is given for a key. A tuple fits no field, as a negative number. -/
def Key.field : Key → Int
  | .int n => n
  | .tup _ => -1

/-- `struct.pack` of unsigned single-byte fields. -/
def packOctets (fields : List Int) : Except Exn Bytes :=
  if ∀ n ∈ fields, 0 ≤ n ∧ n < 256 then .ok (fields.map fun n ↦ UInt8.ofNat n.toNat)
  else .error .structError

namespace Stored

/-- What `for data in stored` runs through: the values of a list, the codes of a map. -/
def iterate : Stored PyVal → List PyVal
  | vals vs => vs
  | node m => m.map fun e ↦ .int e.1

end Stored

namespace Packet

/-! ### The dictionary a packet may lack -/

/-- `_vendor_format(vendor_id)` -/
def vendorFormat (p : Packet) (vendorId : Int) : VendorFormat :=
  match p.dict with
  | some D => D.vendorFormat vendorId
  | none => vendorFormatDefault

/-- `_container_type(code)` -/
def containerType (p : Packet) (key : Key) : Option Datatype :=
  p.dict.bind fun D ↦ D.containerType key

/-- `_is_concat_attribute(code)` -/
def isConcatAttribute (p : Packet) (key : Key) : Bool := p.dict.any (·.isConcatAttribute key)

/-- `_is_virtual_attribute(code)` -/
def isVirtualAttribute (p : Packet) (key : Key) : Bool := p.dict.any (·.isVirtualAttribute key)

/-- `_is_array_attribute(code)` -/
def isArrayAttribute (p : Packet) (key : Key) : Bool := p.dict.any (·.isArrayAttribute key)

/-! ### Single attributes -/

/-- `struct.pack("!BB", code, len(value) + 2) + value` -/
def packItem (code : Int) (value : PyVal) : Except Exn Bytes := do
  let header ← packOctets [code, (← value.len) + 2]
  return header ++ (← value.asBytes)

/-- `_split_into_chunks(data, max_chunk)`. Text is cut as bytes are, but a caller already fails when
it joins the first piece to bytes, so only that one is given. -/
def splitIntoChunks (maxChunk : ℕ) : PyVal → Except Exn (List PyVal)
  | .none => .ok [.bytes []]
  | .int n => if n = 0 then .ok [.bytes []] else .error (.typeError "object has no len()")
  | .str s => .ok [if s = "" then .bytes [] else .str (String.ofList (s.toList.take maxChunk))]
  | .bytes b => .ok (if b = [] then [.bytes []] else (Bytes.chunksOf maxChunk b).map .bytes)

/-- The pieces of a fragmented value with the flag that more follow: set on all but the last. -/
def withMore (more : UInt8) : List PyVal → List (PyVal × UInt8)
  | [] => []
  | [v] => [(v, 0)]
  | v :: w :: rest => (v, more) :: withMore more (w :: rest)

/-- `_pack_vsa_inner(vsa_type, value, type_len, len_len, continuation)` -/
def packVsaInner (vsaType : Int) (value : PyVal) (format : VendorFormat)
    (continuation : Option UInt8) : Except Exn Bytes := do
  let typeField ← packUnsigned format.typeLen vsaType
  let lenField ←
    if format.lenLen = 0 then pure []
    else
      let contSize := if continuation.isSome then 1 else 0
      packUnsigned format.lenLen (format.typeLen + format.lenLen + contSize + (← value.len))
  return typeField ++ lenField ++ continuation.toList ++ (← value.asBytes)

/-- One vendor-specific attribute around an inner header and value. -/
def packVsa (vendorId : Int) (inner : Bytes) : Except Exn Bytes := do
  packItem 26 (.bytes ((← packUnsigned 4 vendorId) ++ inner))

/-- `_pkt_encode_continuation_vsa`. Every vendor format leaves room for a payload. -/
def encodeContinuationVsa (vendorId vsaType : Int) (value : PyVal) (format : VendorFormat) :
    Except Exn Bytes := do
  let perFragmentMax := 255 - 2 - 4 - format.typeLen - format.lenLen - 1
  let chunks ← splitIntoChunks perFragmentMax value
  let avps ← (withMore vsaContinuationMore chunks).mapM fun (chunk, more) ↦ do
    packVsa vendorId (← packVsaInner vsaType chunk format (some more))
  return avps.flatten

/-- `_pkt_encode_attribute(key, value)` -/
def encodeAttribute (p : Packet) (key : Key) (value : PyVal) : Except Exn Bytes :=
  match key with
  | .int code => packItem code value
  | .tup [vendorId, vsaType] => do
    let format := p.vendorFormat vendorId
    if format.hasContinuation then encodeContinuationVsa vendorId vsaType value format
    else packVsa vendorId (← packVsaInner vsaType value format none)
  | .tup _ => .error (.valueError "too many values to unpack")

/-! ### Containers -/

mutual

/-- `_encode_tlv_chain(mapping)` -/
def encodeTlvChain : SubMap PyVal → Except Exn Bytes
  | [] => .ok []
  | (code, stored) :: rest => do
    let item ← encodeTlvChainItem code stored
    return item ++ (← encodeTlvChain rest)
  termination_by structural l => l

/-- The items one code of a TLV chain stands for. -/
def encodeTlvChainItem (code : Int) : Stored PyVal → Except Exn Bytes
  | .node m => do packItem code (.bytes (← encodeTlvChain m))
  | .vals vs => return (← vs.mapM (packItem code)).flatten
  termination_by structural s => s

end

/-- The attribute a key certainly names; callers have looked it up before. -/
def attributeNamed (p : Packet) (key : Key) : Except Exn Attribute :=
  match p.dict.bind fun D ↦ D.attributeAt? key with
  | some attr => .ok attr
  | none => .error .keyError

/-- How many rounds a slot of a TLV takes part in; a nested map goes out once. -/
def rounds : Stored PyVal → ℕ
  | .node _ => 1
  | .vals vs => vs.length

/-- What one slot of a TLV contributes to round `i`. -/
def encodeTlvSlot (p : Packet) (i : ℕ) (code : Int) : Stored PyVal → Except Exn Bytes
  | .node m => do
    if i > 0 then return []
    packItem code (.bytes (← encodeTlvChain m))
  | .vals vs =>
    match vs[i]? with
    | some v => p.encodeAttribute (.int code) v
    | none => .ok []

/-- Round `i` of a TLV: the `i`-th value of every slot. -/
def encodeTlvRound (p : Packet) (m : SubMap PyVal) (i : ℕ) : Except Exn Bytes :=
  return (← m.mapM fun (code, stored) ↦ p.encodeTlvSlot i code stored).flatten

/-- Gather rounds into instances of the container: a new instance starts when the open one would
reach 245 bytes. -/
def gatherRounds : List Bytes → Bytes → List Bytes
  | [], currAvp => [currAvp]
  | round :: rest, currAvp =>
    if round.length + currAvp.length < 245 then gatherRounds rest (currAvp ++ round)
    else currAvp :: gatherRounds rest round

/-- Wrap one instance of a vendor TLV: `struct.pack("!BBL", 26, len(avp) + 6, vendor) + avp` -/
def packVendorTlv (vendor : Int) (avp : Bytes) : Except Exn Bytes := do
  let header ← packOctets [26, avp.length + 6]
  return header ++ (← packUnsigned 4 vendor) ++ avp

/-- `_pkt_encode_tlv(tlv_key, tlv_value)` -/
def encodeTlv (p : Packet) (key : Key) (stored : Stored PyVal) : Except Exn Bytes := do
  let attr ← p.attributeNamed key
  let m ← stored.items
  if m = [] then .error (.valueError "max() arg is an empty sequence")
  let encoded ← (List.range ((m.map fun e ↦ rounds e.2).foldl max 0)).mapM (p.encodeTlvRound m)
  let avps ← (gatherRounds encoded []).mapM fun avp ↦ packItem attr.code (.bytes avp)
  if attr.vendor = "" then return avps.flatten
  let some vendor := (← p.theDict).vendors.forward.get? attr.vendor | throw .keyError
  return (← avps.mapM (packVendorTlv vendor)).flatten

/-- One extended attribute: `struct.pack("!BBB", parent, 3 + len(value), ext_type) + value` -/
def packExtended (parent extType : Int) (value : PyVal) : Except Exn Bytes := do
  let n ← value.len
  if n > 252 then
    .error (.valueError ("Extended attribute value too long; declare the " ++
      "parent as long-extended to enable fragmentation"))
  let header ← packOctets [parent, 3 + n, extType]
  return header ++ (← value.asBytes)

/-- `_pkt_encode_extended(parent_code, sub_attributes)` -/
def encodeExtended (parent : Int) (stored : Stored PyVal) : Except Exn Bytes := do
  let slots ← (← stored.items).mapM fun (extType, values) ↦
    match values with
    | .node m => do packExtended parent extType (.bytes (← encodeTlvChain m))
    | .vals vs => return (← vs.mapM (packExtended parent extType)).flatten
  return slots.flatten

/-- The fragments of one long-extended value. -/
def packLongExtended (parent extType : Int) (value : PyVal) : Except Exn Bytes := do
  let chunks ← splitIntoChunks 251 value
  let avps ← (withMore longExtendedMoreFlag chunks).mapM fun (chunk, more) ↦ do
    let header ← packOctets [parent, 4 + (← chunk.len), extType, more.toNat]
    return header ++ (← chunk.asBytes)
  return avps.flatten

/-- `_pkt_encode_long_extended(parent_code, sub_attributes)` -/
def encodeLongExtended (parent : Int) (stored : Stored PyVal) : Except Exn Bytes := do
  let slots ← (← stored.items).mapM fun (extType, values) ↦
    match values with
    | .node m => do packLongExtended parent extType (.bytes (← encodeTlvChain m))
    | .vals vs => return (← vs.mapM (packLongExtended parent extType)).flatten
  return slots.flatten

/-- `_pkt_encode_evs(key, value)` -/
def encodeEvs (parent extType vendorId vsaType : Int) (value : PyVal) : Except Exn Bytes := do
  let evsHeader := (← packUnsigned 4 vendorId) ++ (← packUnsigned 1 vsaType)
  if parent ∈ longExtendedAttributeTypes then
    let chunks ← splitIntoChunks 246 value
    let avps ← (withMore longExtendedMoreFlag chunks).mapM fun (chunk, more) ↦ do
      let header ← packOctets [parent, 9 + (← chunk.len), extType, more.toNat]
      return header ++ evsHeader ++ (← chunk.asBytes)
    return avps.flatten
  let n ← value.len
  if n > 247 then
    .error (.valueError ("EVS value too large for extended wrapper; declare the " ++
      "wrapper as long-extended to enable fragmentation"))
  let header ← packOctets [parent, 8 + n, extType]
  return header ++ evsHeader ++ (← value.asBytes)

/-! ### Groups -/

/-- One value of a plain group; `concat` splits a value that exceeds one attribute. -/
def encodePlain (p : Packet) (key : Key) (value : PyVal) : Except Exn Bytes := do
  if p.isConcatAttribute key then
    if (← value.len) > 253 then
      return (← (← splitIntoChunks 253 value).mapM (p.encodeAttribute key)).flatten
  p.encodeAttribute key value

/-- `_encode_avp_group(code, datalst)` -/
def encodeAvpGroup (p : Packet) (key : Key) (stored : Stored PyVal) : Except Exn Bytes :=
  match key with
  | .tup [parent, extType, vendorId, vsaType] =>
    return (← stored.iterate.mapM (encodeEvs parent extType vendorId vsaType)).flatten
  | key =>
    match p.containerType key with
    | some .tlv => p.encodeTlv key stored
    | some .extended => encodeExtended key.field stored
    | some .longExtended => encodeLongExtended key.field stored
    | _ => do
      let datalst := stored.iterate
      if p.isArrayAttribute key && datalst.length > 1 then
        let packed ← datalst.mapM PyVal.asBytes
        return ← p.encodeAttribute key (.bytes packed.flatten)
      return (← datalst.mapM (p.encodePlain key)).flatten

/-! ### Deferred obfuscation -/

/-- `attr.parent.name` -/
def parentName (D : Dictionary) (attr : Attribute) : Except Exn String :=
  match D.parentOf attr with
  | some parent => .ok parent.name
  | none => .error .attributeError

/-- `_deferred_storage_key(base_name)` -/
def deferredStorageKey (D : Dictionary) (baseName : String) : Except Exn Key := do
  let attr ← D.lookup baseName
  if D.isTlvSubAttribute attr then D.encodeKey (← parentName D attr)
  else D.encodeKey baseName

/-- `_deferred_attribute_codes()` -/
def deferredAttributeCodes (p : Packet) : Except Exn (List Key) :=
  p.deferredObfuscated.keys.mapM fun name ↦ do
    deferredStorageKey (← p.theDict) (partitionTag name).1

/-- `pw_crypt(password)` of an `AuthPacket`. -/
def pwCrypt (E : Env) (password : PyVal) : PacketMethod PyVal := do
  let password := match password with
    | .str s => .bytes (Tools.utf8 s)
    | v => v
  if (← get).pkt.radiusVersion = .v1_1 then return password
  ensureAuthenticator
  let n ← password.len
  let buf := (← password.asBytes) ++
    (if n % 16 ≠ 0 then List.replicate (16 - n % 16) 0 else [])
  let p := (← get).pkt
  return .bytes (saltBlocks E p.secret (p.authenticator.getD []) (Bytes.chunksOf 16 buf))

/-- `_encode_deferred_value_list(attr, values, tag)` -/
def encodeDeferredValueList (E : Env) (attr : Attribute) (values : List PyVal) (tag : String) :
    PacketMethod (List PyVal) := do
  let p := (← get).pkt
  let needsPwCrypt := (attr.code = 2 ∨ attr.encrypt = 1) ∧ p.radiusVersion ≠ .v1_1
  values.mapM fun value ↦ do
    let encoded ←
      if needsPwCrypt then
        if p.cls ≠ .auth then
          throw (.packetError ("set_obfuscated requires an AuthPacket for " ++
            "User-Password obfuscation in RADIUS/1.0"))
        pwCrypt E value
      else encodeValue E attr value
    if tag = "" then return encoded
    prependTag attr tag encoded

/-- `_seed_parent_from_stored_siblings(parent_key, owned_sub_codes)`. `list(values)` of a nested map
is the list of its codes. -/
def seedParentFromStoredSiblings (p : Packet) (parentKey : Key) (owned : List Int) :
    Stored PyVal :=
  match p.attrs.get? parentKey with
  | some (.node m) =>
    .node ((m.filter fun e ↦ e.1 ∉ owned).map fun e ↦ (e.1, .vals e.2.iterate))
  | _ => .node []

/-- The sub-attribute codes that deferred values will write below each parent key. -/
def ownedSubCodes (D : Dictionary) (names : List String) :
    Except Exn (OrderedDict Key (List Int)) :=
  names.foldlM (fun owned name ↦ do
    let attr ← D.lookup (partitionTag name).1
    if D.isTlvSubAttribute attr then
      let parentKey ← D.encodeKey (← parentName D attr)
      return owned.set parentKey ((owned.get? parentKey).getD [] ++ [attr.code])
    return owned) ∅

/-- Add the encoded values of one deferred name to the pending groups. -/
def addPending (D : Dictionary) (attr : Attribute) (baseName : String) (encoded : List PyVal)
    (pending : Attrs PyVal) : Except Exn (Attrs PyVal) := do
  if D.isTlvSubAttribute attr then
    let parentKey ← D.encodeKey (← parentName D attr)
    match pending.get? parentKey with
    | some (.node m) => return pending.set parentKey (.node (← extendNode attr.code encoded m))
    | some (.vals _) => throw .attributeError
    | none => throw .keyError
  extendTop (← D.encodeKey baseName) encoded pending

/-- `_encode_deferred_obfuscated()` -/
def encodeDeferredObfuscated (E : Env) : PacketMethod Bytes := do
  let p := (← get).pkt
  if p.deferredObfuscated.entries = [] then return []
  let D ← p.theDict
  let owned ← ownedSubCodes D p.deferredObfuscated.keys
  let seeded : Attrs PyVal := owned.entries.foldl (fun pending e ↦
    pending.set e.1 (p.seedParentFromStoredSiblings e.1 e.2)) ∅
  let pending ← p.deferredObfuscated.entries.foldlM (fun pending (name, values) ↦ do
    let (baseName, tag) := partitionTag name
    let attr ← D.lookup baseName
    let encoded ← encodeDeferredValueList E attr values tag
    addPending D attr baseName encoded pending) seeded
  let groups ← pending.entries.mapM fun (key, stored) ↦ do
    p.encodeAvpGroup key stored
  return groups.flatten

/-! ### All attributes -/

/-- The stored attributes on the wire, without those `deferred` will emit and the virtual ones. -/
def encodeStored (p : Packet) (deferred : List Key) : Except Exn Bytes :=
  return (← p.attrs.entries.mapM fun (key, stored) ↦
    if key ∈ deferred ∨ p.isVirtualAttribute key then .ok []
    else p.encodeAvpGroup key stored).flatten

/-- `_pkt_encode_attributes()` -/
def encodeAttributes (E : Env) : PacketMethod Bytes := do
  let p := (← get).pkt
  let stored ← p.encodeStored (← p.deferredAttributeCodes)
  return stored ++ (← encodeDeferredObfuscated E)

end Packet

end Pyrad2
