import Pyrad2.Packet.Basic

/-!
# Parsing of attributes

`decode_packet` and everything below it.

The decoder works through the body one attribute at a time and stores what it finds. Vendor
attributes, TLVs and the extended wrappers have bodies of their own; fragments of long-extended and
of vendor continuation attributes wait in two buffers until the last one arrives. Two passes over
the finished map then join the values of `concat` attributes and split those of `array` attributes.

What the decoder owns is a `DecodeState`: the attribute map, the two buffers and the
Message-Authenticator flag. A `while` loop over a byte string recurses on fuel, and the length of
the string is always enough of it.
-/

namespace Pyrad2

/-- What `decode_packet` fills in. -/
structure DecodeState where
  attrs : Attrs Bytes := ∅
  messageAuthenticator : Option Bool := none
  /-- `_long_ext_buf`, by wrapper and slot, or by extended vendor key. -/
  longExtBuf : OrderedDict (List Int) Bytes := ∅
  /-- `_vsa_continuation_buf`, by vendor and vendor type. -/
  vsaContinuationBuf : OrderedDict (Int × Int) Bytes := ∅

/-- A step of the decoder. -/
abbrev DecodeMethod (α : Type) := Method DecodeState α

namespace Packet

/-! ### Storing -/

/-- `self.setdefault(key, []).append(value)` -/
def appendTop (key : Key) (value : Bytes) : DecodeMethod Unit :=
  EStateM.modifyM fun st ↦ do return { st with attrs := ← extendTop key [value] st.attrs }

/-- `target.setdefault(code, []).append(value)` -/
def appendNode (code : Int) (value : Bytes) : Method (SubMap Bytes) Unit :=
  EStateM.modifyM (extendNode code [value])

/-- Work below `nested = target.setdefault(code, {})`; anything else in its place is replaced. -/
def inNested (code : Int) (m : Method (SubMap Bytes) Unit) : Method (SubMap Bytes) Unit :=
  EStateM.onPart
    (fun target ↦ match Assoc.get? code target with
      | some (.node nested) => nested
      | _ => [])
    (fun nested target ↦ Assoc.set code (.node nested) target) m

/-- Work below `self.setdefault(key, {})`. Under such a key the decoder stores nothing but maps. -/
def inContainer (key : Key) (m : Method (SubMap Bytes) Unit) : DecodeMethod Unit := do
  match (← get).attrs.get? key with
  | some (.vals _) => throw .attributeError
  | _ =>
    EStateM.onPart
      (fun st ↦ match st.attrs.get? key with
        | some (.node target) => target
        | _ => [])
      (fun target st ↦ { st with attrs := st.attrs.set key (.node target) }) m

/-! ### TLV chains -/

/-- `_decode_tlv_chain_into(parent_attr, target, data)` -/
def decodeTlvChainInto (D : Dictionary) :
    ℕ → Option Attribute → Bytes → Method (SubMap Bytes) Unit
  | 0, _, _ :: _ :: _ => throw .divergence
  | fuel + 1, parentAttr, atype :: length :: rest => do
    if length < 2 then return
    -- a declared length beyond the data cuts the value short
    let inner := rest.take (length.toNat - 2)
    match D.tlvChildAttr parentAttr atype.toNat with
    | some childAttr =>
      if childAttr.type = .tlv then
        inNested atype.toNat (decodeTlvChainInto D fuel (some childAttr) inner)
      else appendNode atype.toNat inner
    | none => appendNode atype.toNat inner
    decodeTlvChainInto D fuel parentAttr (rest.drop (length.toNat - 2))
  | _, _, _ => return

/-- `_pkt_decode_tlv_attribute(code, data)` -/
def decodeTlvAttribute (D : Dictionary) (key : Key) (data : Bytes) : DecodeMethod Unit :=
  inContainer key (decodeTlvChainInto D data.length (D.attributeAt? key) data)

/-! ### Vendor attributes -/

/-- The `try` block of the vendor loop: a TLV is stored at once, any other payload is listed. -/
def decodeVendorPayload (D : Option Dictionary) (key : Key) (payload : Bytes) :
    DecodeMethod (List (Key × Bytes)) :=
  match D with
  -- `self.dict.attributes` of `None`
  | none => throw .attributeError
  | some D => do
    if D.isTlvAttribute key then
      decodeTlvAttribute D key payload
      return []
    return [(key, payload)]

/-- Buffer a continuation fragment; the joined value when no more follow. -/
def bufferContinuation (bufKey : Int × Int) (more : Bool) (payload : Bytes) :
    DecodeMethod (Option Bytes) := do
  let buf := ((← get).vsaContinuationBuf.get? bufKey).getD [] ++ payload
  if more then
    modify fun st ↦ { st with vsaContinuationBuf := st.vsaContinuationBuf.set bufKey buf }
    return none
  modify fun st ↦ { st with vsaContinuationBuf := st.vsaContinuationBuf.erase bufKey }
  return some buf

/-- The loop of `_pkt_decode_vendor_attribute` over `rest = inner[offset:]`. The result is `none`
where the source returns the raw attribute. -/
def decodeVendorLoop (D : Option Dictionary) (vendor : Int) (format : VendorFormat) :
    ℕ → Bytes → List (Key × Bytes) → DecodeMethod (Option (List (Key × Bytes)))
  | fuel, rest, tlvs => do
    let headerLen := format.typeLen + format.lenLen
    if rest.length < headerLen then
      return if rest = [] then some tlvs else none
    match fuel with
    | 0 => throw .divergence
    | fuel + 1 =>
      let atype : Int := Bytes.toNatBE (rest.take format.typeLen)
      let lengthValue :=
        if format.lenLen = 0 then rest.length
        else Bytes.toNatBE ((rest.drop format.typeLen).take format.lenLen)
      if lengthValue < headerLen ∨ rest.length < lengthValue then return none
      let payload := (rest.take lengthValue).drop headerLen
      let rest := rest.drop lengthValue
      let payload? ←
        if format.hasContinuation then
          match payload with
          | [] => return none
          | continuation :: payload =>
            bufferContinuation (vendor, atype) (continuation &&& vsaContinuationMore ≠ 0) payload
        else pure (some payload)
      match payload? with
      | none => decodeVendorLoop D vendor format fuel rest tlvs
      | some payload =>
        let listed ← Method.catchException
          (do return some (← decodeVendorPayload D (.tup [vendor, atype]) payload))
          (return none)
        match listed with
        | none => return none
        | some listed =>
          let tlvs := tlvs ++ listed
          if format.lenLen = 0 then return some tlvs
          decodeVendorLoop D vendor format fuel rest tlvs

/-- A pass of the loop from the complete payload of a sub-attribute on. -/
def decodeVendorRest (D : Option Dictionary) (vendor : Int) (format : VendorFormat) (fuel : ℕ)
    (rest : Bytes) (tlvs : List (Key × Bytes)) (atype : Int) (payload : Bytes) :
    DecodeMethod (Option (List (Key × Bytes))) := do
  let listed ← Method.catchException
    (do return some (← decodeVendorPayload D (.tup [vendor, atype]) payload)) (return none)
  match listed with
  | none => return none
  | some listed =>
    if format.lenLen = 0 then return some (tlvs ++ listed)
    decodeVendorLoop D vendor format fuel rest (tlvs ++ listed)

/-- `_pkt_decode_vendor_attribute(data)` -/
def decodeVendorAttribute (D : Option Dictionary) (data : Bytes) :
    DecodeMethod (List (Key × Bytes)) := do
  let raw : List (Key × Bytes) := [(.int 26, data)]
  if data.length < 4 then return raw
  let vendor : Int := Bytes.toNatBE (data.take 4)
  let format := match D with
    | some D => D.vendorFormat vendor
    | none => vendorFormatDefault
  let inner := data.drop 4
  if inner.length < format.typeLen + format.lenLen then return raw
  return (← decodeVendorLoop D vendor format inner.length inner []).getD raw

/-! ### Extended attributes -/

/-- The vendor id, vendor type and value of an extended vendor attribute. -/
def evsParts (payload : Bytes) : Int × Int × Bytes :=
  (Bytes.toNatBE (payload.take 4), Bytes.toNatBE ((payload.drop 4).take 1), payload.drop 5)

/-- Store a complete value under its slot of an extended wrapper. -/
def storeInSlot (D : Dictionary) (parent extType : Int) (payload : Bytes) : DecodeMethod Unit :=
  inContainer (.int parent) <|
    if D.isTlvExtendedSlot parent extType then
      inNested extType (decodeTlvChainInto D payload.length
        (D.tlvChildAttr (D.attributeAt? (.int parent)) extType) payload)
    else appendNode extType payload

/-- `_pkt_decode_extended(parent_code, value)` -/
def decodeExtended (D : Dictionary) (parent : Int) : Bytes → DecodeMethod Unit
  | [] => return
  | extType :: payload =>
    let extType : Int := extType.toNat
    if payload.length ≥ 5 && D.isEvsSlot parent extType then
      let (vendorId, vsaType, value) := evsParts payload
      appendTop (.tup [parent, extType, vendorId, vsaType]) value
    else storeInSlot D parent extType payload

/-- Add a fragment to a long-extended buffer; when the More flag is clear, hand the joined value on
and drop the buffer. -/
def bufferLongExtended (bufKey : List Int) (flags : UInt8) (chunk : Bytes)
    (finish : Bytes → DecodeMethod Unit) : DecodeMethod Unit := do
  let buf := ((← get).longExtBuf.get? bufKey).getD [] ++ chunk
  modify fun st ↦ { st with longExtBuf := st.longExtBuf.set bufKey buf }
  if flags &&& longExtendedMoreFlag = 0 then
    finish buf
    modify fun st ↦ { st with longExtBuf := st.longExtBuf.erase bufKey }

/-- `_pkt_decode_long_extended_fragment(parent_code, value)` -/
def decodeLongExtendedFragment (D : Dictionary) (parent : Int) : Bytes → DecodeMethod Unit
  | extType :: flags :: payload =>
    let extType : Int := extType.toNat
    if payload.length ≥ 5 && D.isEvsSlot parent extType then
      let (vendorId, vsaType, chunk) := evsParts payload
      let bufKey := [parent, extType, vendorId, vsaType]
      bufferLongExtended bufKey flags chunk (appendTop (.tup bufKey))
    else bufferLongExtended [parent, extType] flags payload (storeInSlot D parent extType)
  | _ => return

/-! ### The body -/

/-- One attribute of the body. -/
def decodeAvp (D : Option Dictionary) (version : RadiusVersion) (key : UInt8) (value : Bytes) :
    DecodeMethod Unit := do
  let code : Int := key.toNat
  if key = 26 then
    (← decodeVendorAttribute D value).forM fun (key, value) ↦ appendTop key value
  else if key = 80 then
    if version ≠ .v1_1 then
      modify fun st ↦ { st with messageAuthenticator := some true }
      appendTop (.int code) value
  else
    match D with
    | none => appendTop (.int code) value
    | some D =>
      match D.containerType (.int code) with
      | some .tlv => decodeTlvAttribute D (.int code) value
      | some .extended => decodeExtended D code value
      | some .longExtended => decodeLongExtendedFragment D code value
      | _ => appendTop (.int code) value

/-- The loop of `decode_packet`. -/
def decodeAvps (D : Option Dictionary) (version : RadiusVersion) : ℕ → Bytes → DecodeMethod Unit
  | _, [] => return
  | 0, _ :: _ => throw .divergence
  | _ + 1, [_] => throw (.packetError "Attribute header is corrupt")
  | fuel + 1, key :: attrlen :: rest => do
    if attrlen < 2 then
      throw (.packetError ("Attribute length is too small (" ++ toString attrlen.toNat ++ ")"))
    decodeAvp D version key (rest.take (attrlen.toNat - 2))
    decodeAvps D version fuel (rest.drop (attrlen.toNat - 2))

/-! ### Joining and splitting -/

/-- One step of `_merge_concat_attributes`. -/
def mergeConcat (D : Dictionary) (key : Key) (stored : Stored Bytes) : Stored Bytes :=
  match stored with
  | .vals chunks =>
    if D.isConcatAttribute key ∧ chunks.length > 1 then .vals [chunks.flatten] else stored
  | .node _ => stored

/-- `_ARRAY_TYPE_SIZE` -/
def arrayTypeSize : Datatype → Option ℕ
  | .byte => some 1
  | .short => some 2
  | .integer => some 4
  | .integer64 => some 8
  | .signed => some 4
  | .date => some 4
  | .ipaddr => some 4
  | .ipv6addr => some 16
  | .ifid => some 8
  | .ether => some 6
  | _ => none

/-- The elements of one packed value; a value that is no whole number of them stays as it is. -/
def splitPacked (chunkSize : ℕ) (packed : Bytes) : List Bytes :=
  if packed = [] ∨ packed.length % chunkSize ≠ 0 then [packed]
  else Bytes.chunksOf chunkSize packed

/-- One step of `_split_array_attributes`. -/
def splitArray (D : Dictionary) (key : Key) (stored : Stored Bytes) : Stored Bytes :=
  match D.attributeAt? key, stored with
  | some attr, .vals packed =>
    if attr.array then
      match arrayTypeSize attr.type with
      | some chunkSize => .vals (packed.flatMap (splitPacked chunkSize))
      | none => stored
    else stored
  | _, _ => stored

/-- `_merge_concat_attributes()` and `_split_array_attributes()`. Neither adds or removes a key. -/
def finishAttributes (D : Option Dictionary) (attrs : Attrs Bytes) : Attrs Bytes :=
  match D with
  | none => attrs
  | some D => (attrs.mapValues (mergeConcat D)).mapValues (splitArray D)

/-! ### The packet -/

/-- `decode_packet` from the header on: the body after it fills the attributes. -/
def decodeBody (body : Bytes) : PacketMethod Unit := fun s ↦
  let p := s.pkt
  let filled (attrs : Attrs Bytes) (st : DecodeState) : PacketState :=
    { s with pkt := { p with
        attrs := attrs.mapValues fun _ ↦ Stored.map PyVal.bytes
        messageAuthenticator := st.messageAuthenticator } }
  match (decodeAvps p.dict p.radiusVersion body.length body).run
      { messageAuthenticator := p.messageAuthenticator } with
  | .ok _ st => .ok () (filled (finishAttributes p.dict st.attrs) st)
  | .error e st => .error e (filled st.attrs st)

/-- The header fields as `decode_packet` assigns them. Under RADIUS/1.1 the Token stands where the
authenticator was, and the identifier means nothing. -/
def withHeader (p : Packet) (raw : Bytes) : Packet :=
  let p := { p with code := Bytes.toNatBE (raw.take 1) }
  let authenticator := (raw.drop 4).take 16
  match p.radiusVersion with
  | .v1_0 =>
    { p with id := some (Bytes.toNatBE ((raw.drop 1).take 1)), authenticator := some authenticator }
  | .v1_1 => { p with id := some 0, authenticator := none, token := some (authenticator.take 4) }

/-- `decode_packet(packet)` -/
def decodePacket (raw : Bytes) : PacketMethod Unit := do
  if raw.length < 20 then throw (.packetError "Packet header is corrupt")
  modify fun s ↦ { s with pkt := s.pkt.withHeader raw }
  let length := Bytes.toNatBE ((raw.drop 2).take 2)
  if raw.length ≠ length then throw (.packetError "Packet has invalid length")
  if length > 8192 then
    throw (.packetError ("Packet length is too long (" ++ toString length ++ ")"))
  decodeBody (raw.drop 20)

end Packet

end Pyrad2
