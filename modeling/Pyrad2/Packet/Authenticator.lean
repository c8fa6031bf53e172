import Pyrad2.Packet.Decode
import Pyrad2.Packet.Encode

/-!
# Authenticators and whole packets

Message-Authenticator handling, and the functions that put out and check whole packets.

Which authenticator enters which digest depends on the code of the packet. Sender and receiver
decide this in separate functions, so the decision is made twice here as well.
-/

namespace Pyrad2

/-- Sixteen zero bytes. -/
abbrev zeros16 : Bytes := List.replicate 16 0

/-- `struct.pack("!BBH", code, id, length)` -/
def packHeader (code : ℕ) (id : Option ℕ) (length : ℕ) : Except Exn Bytes :=
  match id with
  | some id =>
    if code < 256 ∧ id < 256 ∧ length < 65536 then
      .ok ([UInt8.ofNat code, UInt8.ofNat id] ++ Bytes.ofNatBE 2 length)
    else .error .structError
  | none => .error .structError

/-- The operand of a concatenation with `bytes`, for an authenticator that may be `None`. -/
def concatOperand : Option Bytes → Except Exn Bytes
  | some b => .ok b
  | none => .error (.typeError "can't concat NoneType to bytes")

/-- `_pack_v11_header(code, length, token)` -/
def packV11Header (code length : ℕ) (token : Option Bytes) : Except Exn Bytes :=
  match token with
  | none => .error (.packetError ("RADIUS/1.1 packet requires a Token (RFC 9765 §4.1). " ++
      "Set packet.token from a per-connection TokenCounter, or " ++
      "pass zero_token=True for a Protocol-Error reply."))
  | some token =>
    if token.length ≠ 4 then
      .error (.packetError ("RADIUS/1.1 Token must be exactly 4 bytes, got " ++
        toString token.length))
    else do
      let header ← packHeader code (some 0) length
      return header ++ token ++ List.replicate 12 0

namespace Packet

/-! ### Adding a Message-Authenticator -/

/-- `self["Message-Authenticator"] = value` -/
def setMessageAuthenticator (E : Env) (value : PyVal) : PacketMethod Unit :=
  setItem E "Message-Authenticator" [value]

/-- The authenticator `_refresh_message_authenticator` feeds to the HMAC. -/
def macAuthenticator (p : Packet) : Except Exn Bytes :=
  if p.code ∈ [PacketType.accountingRequest, PacketType.disconnectRequest,
      PacketType.coaRequest] then .ok zeros16
  else if p.code = PacketType.accountingResponse ∧
      p.originalCode ≠ some PacketType.statusServer then .ok zeros16
  else match p.authenticator with
    | none => .error (.exception "No authenticator found")
    | some authenticator => .ok authenticator

/-- `_refresh_message_authenticator()` -/
def refreshMessageAuthenticator (E : Env) : PacketMethod Unit := do
  -- the digest covers a zero value in the place of its own
  setMessageAuthenticator E (.bytes zeros16)
  let attr ← encodeAttributes E
  let p := (← get).pkt
  let header ← packHeader p.code p.id (20 + attr.length)
  let authenticator ← p.macAuthenticator
  setMessageAuthenticator E (.bytes (E.hmacMd5 p.secret (header ++ authenticator ++ attr)))

/-- `if self.id is None: self.id = self.create_id()` -/
def ensureId : PacketMethod Unit := do
  if (← get).pkt.id.isNone then
    let id ← randrange 0 256
    modify fun s ↦ { s with pkt := { s.pkt with id := some id } }

/-- `add_message_authenticator()` -/
def addMessageAuthenticator (E : Env) : PacketMethod Unit := do
  if (← get).pkt.radiusVersion = .v1_1 then return
  modify fun s ↦ { s with pkt := { s.pkt with messageAuthenticator := some true } }
  setMessageAuthenticator E (.bytes zeros16)
  ensureId
  let p := (← get).pkt
  if p.authenticator.isNone ∧
      p.code ∈ [PacketType.accessRequest, PacketType.statusServer] then
    ensureAuthenticator
    refreshMessageAuthenticator E

/-- `ensure_message_authenticator()` -/
def ensureMessageAuthenticator (E : Env) : PacketMethod Unit := do
  let p := (← get).pkt
  if p.radiusVersion = .v1_1 then return
  if p.hasAttribute "Message-Authenticator" 80 then
    modify fun s ↦ { s with pkt := { s.pkt with messageAuthenticator := some true } }
  else addMessageAuthenticator E

/-! ### Checking a Message-Authenticator -/

/-- The loop of `_zero_message_authenticator` over the attributes still to come: the zeroed bytes,
and how many Message-Authenticators there were. -/
def zeroWalk : ℕ → Bytes → Except Exn (Bytes × ℕ)
  | _, [] => .ok ([], 0)
  | 0, _ :: _ => .error .divergence
  | _ + 1, [_] => .error (.packetError "Attribute header is corrupt")
  | fuel + 1, key :: length :: rest => do
    if length < 2 then
      throw (.packetError ("Attribute length is too small (" ++ toString length.toNat ++ ")"))
    let n := length.toNat - 2
    if rest.length < n then throw (.packetError "Attribute length exceeds packet length")
    if key = 80 ∧ length ≠ 18 then throw (.packetError "Message-Authenticator must be 16 bytes")
    let (zeroed, found) ← zeroWalk fuel (rest.drop n)
    if key = 80 then return (key :: length :: zeros16 ++ zeroed, found + 1)
    return (key :: length :: rest.take n ++ zeroed, found)

/-- `_zero_message_authenticator(attr)` -/
def zeroMessageAuthenticator (attr : Bytes) : Except Exn Bytes := do
  let (zeroed, found) ← zeroWalk attr.length attr
  if found = 0 then throw (.packetError "No Message-Authenticator AVP present")
  if found > 1 then throw (.packetError "Multiple Message-Authenticator AVPs present")
  return zeroed

/-- `original_authenticator`, or the packet's own when that is not empty. -/
def originalOrOwn (p : Packet) (originalAuthenticator : Option Bytes) : Except Exn Bytes :=
  match originalAuthenticator with
  | some authenticator => .ok authenticator
  | none =>
    match p.authenticator with
    | none | some [] => .error (.exception "Missing original authenticator")
    | some authenticator => .ok authenticator

/-- The authenticator `verify_message_authenticator` feeds to the HMAC. -/
def verifyAuthenticator (p : Packet) (originalAuthenticator : Option Bytes)
    (originalCode : Option ℕ) : Except Exn Bytes :=
  if p.code ∈ [PacketType.accountingRequest, PacketType.disconnectRequest,
      PacketType.coaRequest] then .ok zeros16
  else if p.code = PacketType.accountingResponse then
    if originalCode = some PacketType.statusServer then p.originalOrOwn originalAuthenticator
    else .ok zeros16
  else if p.code ∈ [PacketType.accessAccept, PacketType.accessChallenge,
      PacketType.accessReject] then p.originalOrOwn originalAuthenticator
  else concatOperand p.authenticator

/-- The attributes `verify_message_authenticator` feeds to the HMAC: those of the raw packet, or the
stored ones encoded again. -/
def verifyAttributes (E : Env) : PacketMethod Bytes := do
  match (← get).pkt.rawPacket with
  | none | some [] => do
    setMessageAuthenticator E (.bytes zeros16)
    encodeAttributes E
  | some raw => zeroMessageAuthenticator (raw.drop 20)

/-- `prev_ma[0]` -/
def ItemView.first : ItemView → Except Exn PyVal
  | .vals (v :: _) => .ok v
  | .vals [] => .error .indexError
  | .map _ => .error .keyError

/-- `verify_message_authenticator(secret, original_authenticator, original_code)` -/
def verifyMessageAuthenticator (E : Env) (secret originalAuthenticator : Option Bytes)
    (originalCode : Option ℕ) : PacketMethod Bool := do
  let p := (← get).pkt
  if p.messageAuthenticator.isNone then
    throw (.exception "No Message-Authenticator AVP present")
  let prevMa ← p.getItem E "Message-Authenticator"
  let key := match secret with
    | none | some [] => p.secret
    | some secret => secret
  let attr ← verifyAttributes E
  let p := (← get).pkt
  let header ← packHeader p.code p.id (20 + attr.length)
  let authenticator ← p.verifyAuthenticator originalAuthenticator originalCode
  let prev ← prevMa.first
  setMessageAuthenticator E prev
  match prev with
  | .bytes prev => return prev = E.hmacMd5 key (header ++ authenticator ++ attr)
  | _ => throw (.typeError "unsupported operand types(s) or combination of types")

/-- `require_valid_message_authenticator(secret, original_authenticator, original_code)` -/
def requireValidMessageAuthenticator (E : Env) (secret originalAuthenticator : Option Bytes)
    (originalCode : Option ℕ) : PacketMethod Unit := do
  let invalid : Exn := .packetError "Message-Authenticator is invalid"
  let isValid ← Method.catchException
    (verifyMessageAuthenticator E secret originalAuthenticator originalCode) (throw invalid)
  unless isValid do throw invalid

/-- `validate_message_authenticator_policy(...)` -/
def validateMessageAuthenticatorPolicy (E : Env)
    (requireMessageAuthenticator requireEapMessageAuthenticator : Bool) : PacketMethod Unit := do
  let p := (← get).pkt
  if p.radiusVersion = .v1_1 then return
  if !p.hasMessageAuthenticator then
    if p.code = PacketType.statusServer then
      throw (.packetError "Status-Server requires Message-Authenticator")
    if requireMessageAuthenticator ∧ p.code = PacketType.accessRequest then
      throw (.packetError "Message-Authenticator attribute is required")
    if requireEapMessageAuthenticator && p.hasEapMessage then
      throw (.packetError "EAP-Message requires Message-Authenticator")
    return
  requireValidMessageAuthenticator E none none none

/-! ### Outgoing policy -/

/-- `prepare_request_message_authenticator(pkt, require_message_authenticator)` -/
def prepareRequestMessageAuthenticator (E : Env) (requireMessageAuthenticator : Bool) :
    PacketMethod Unit := do
  let p := (← get).pkt
  if p.radiusVersion = .v1_1 then return
  if p.code ∉ [PacketType.accessRequest, PacketType.statusServer] then return
  if p.code = PacketType.statusServer || requireMessageAuthenticator || p.hasEapMessage then
    ensureMessageAuthenticator E

/-- `prepare_reply_message_authenticator(request, reply, ...)`, a method of the reply. -/
def prepareReplyMessageAuthenticator (E : Env) (request : Packet)
    (requireMessageAuthenticator requireEapMessageAuthenticator : Bool) : PacketMethod Unit := do
  let reply := (← get).pkt
  if request.radiusVersion = .v1_1 ∨ reply.radiusVersion = .v1_1 then return
  if (requireMessageAuthenticator && request.code = PacketType.accessRequest) ||
      request.hasMessageAuthenticator ||
      (requireEapMessageAuthenticator && (request.hasEapMessage || reply.hasEapMessage)) then
    ensureMessageAuthenticator E

/-! ### Whole packets -/

/-- `_serialize_v11()` -/
def serializeV11 (E : Env) : PacketMethod Bytes := do
  let attr ← encodeAttributes E
  let p := (← get).pkt
  let header ← packV11Header p.code (20 + attr.length) p.token
  return header ++ attr

/-- `if self.message_authenticator: self._refresh_message_authenticator()` -/
def refreshIfCarried (E : Env) : PacketMethod Unit := do
  if (← get).pkt.messageAuthenticator = some true then refreshMessageAuthenticator E

/-- `_encode_v10_request_with_random_authenticator()` -/
def encodeV10RequestWithRandomAuthenticator (E : Env) : PacketMethod Bytes := do
  ensureAuthenticator
  refreshIfCarried E
  let attr ← encodeAttributes E
  let p := (← get).pkt
  let header ← packHeader p.code p.id (20 + attr.length)
  let authenticator ← concatOperand p.authenticator
  -- the field is `16s`: a shorter authenticator is padded, a longer one cut
  return header ++ (authenticator ++ zeros16).take 16 ++ attr

/-- `_encode_v10_request_with_body_md5_authenticator()` -/
def encodeV10RequestWithBodyMd5Authenticator (E : Env) : PacketMethod Bytes := do
  refreshIfCarried E
  let attr ← encodeAttributes E
  let p := (← get).pkt
  let header ← packHeader p.code p.id (20 + attr.length)
  let authenticator := E.md5 (header ++ zeros16 ++ attr ++ p.secret)
  modify fun s ↦ { s with pkt := { s.pkt with authenticator := some authenticator } }
  return header ++ authenticator ++ attr

/-- `request_packet()` of the class of the packet; `Packet` itself has none. -/
def requestPacket (E : Env) : PacketMethod Bytes := do
  let p := (← get).pkt
  if p.cls = .packet then throw .attributeError
  ensureId
  if p.radiusVersion = .v1_1 then return ← serializeV11 E
  match p.cls with
  | .status => do
    ensureAuthenticator
    prepareRequestMessageAuthenticator E false
    encodeV10RequestWithRandomAuthenticator E
  | .auth => encodeV10RequestWithRandomAuthenticator E
  | _ => encodeV10RequestWithBodyMd5Authenticator E

/-- `reply_packet()` -/
def replyPacket (E : Env) : PacketMethod Bytes := do
  let p := (← get).pkt
  if p.radiusVersion = .v1_1 then return ← serializeV11 E
  match p.authenticator with
  | none | some [] => throw .assertionError
  | some authenticator => do
    refreshIfCarried E
    let attr ← encodeAttributes E
    let p := (← get).pkt
    let header ← packHeader p.code p.id (20 + attr.length)
    return header ++ E.md5 (header ++ authenticator ++ attr ++ p.secret) ++ attr

/-- `verify_packet()` -/
def verifyPacket (E : Env) (p : Packet) : Except Exn Bool :=
  if p.radiusVersion = .v1_1 then .ok true
  else match p.rawPacket, p.authenticator with
    | some (b :: raw), some authenticator =>
      .ok (E.md5 ((b :: raw).take 4 ++ zeros16 ++ (b :: raw).drop 20 ++ p.secret) = authenticator)
    | _, _ => .error .assertionError

/-- `verify_auth_request()` -/
def verifyAuthRequest (p : Packet) : Except Exn Bool :=
  match p.rawPacket with
  | some (code :: _) =>
    if code.toNat ≠ PacketType.accessRequest then .ok false
    else if p.radiusVersion = .v1_1 then .ok true
    else .ok (p.authenticator ∉ [none, some [], some zeros16])
  | _ => .error (.valueError "Raw packet not present")

/-- `verify_reply(reply, rawreply, enforce_ma)` of the request `p`, a method of the reply. -/
def verifyReply (E : Env) (p : Packet) (rawreply : Option Bytes) (enforceMa : Bool) :
    PacketMethod Bool := do
  let reply := (← get).pkt
  if p.radiusVersion = .v1_1 then
    return p.token.isSome && reply.token.isSome && reply.token = p.token
  if reply.id ≠ p.id then return false
  let rawreply ← match rawreply with
    | some raw => pure raw
    | none => replyPacket E
  let _ ← encodeAttributes E
  let authenticator ← concatOperand p.authenticator
  let hash := E.md5 (rawreply.take 4 ++ authenticator ++ rawreply.drop 20 ++ p.secret)
  if hash ≠ (rawreply.drop 4).take 16 then return false
  if (← get).pkt.hasMessageAuthenticator then
    -- `except PacketError: return False`
    tryCatch
      (do
        requireValidMessageAuthenticator E (some p.secret) p.authenticator (some p.code)
        return true)
      fun e ↦ if e.isPacketError then return false else throw e
  else return !(enforceMa && p.code = PacketType.accessRequest)

end Packet

end Pyrad2
