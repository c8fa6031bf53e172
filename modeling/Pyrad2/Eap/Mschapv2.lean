import Pyrad2.Eap.Base
import Pyrad2.Mschap

/-!
# EAP-MSCHAPv2

The method object, which remembers the password and what it made of the last challenge. An object
whose `start` raises is dropped, so its fields are written at the end of `start`.
-/

namespace Pyrad2

/-- `MschapV2Method` -/
structure MschapV2Method where
  userName : Bytes := []
  password : String := ""
  authenticatorChallenge : Bytes := []
  peerChallenge : Bytes := []
  ntResponse : Bytes := []

namespace MschapV2Method

open Eap

/-- A method of the object, with the packet of the conversation. -/
abbrev Hook (α : Type) := Method (EapState MschapV2Method) α

abbrev eapTypeMschapv2 : UInt8 := 26

abbrev opChallenge : UInt8 := 1

abbrev opResponse : UInt8 := 2

abbrev opSuccess : UInt8 := 3

abbrev opFailure : UInt8 := 4

/-- `_user_name_from_packet(pkt)` -/
def userNameFromPacket (E : Env) (p : Packet) : Except Exn PyVal := do
  let raw ←
    if p.attrs.contains (.int userNameAttr) then firstOf (← rawItem p userNameAttr)
    else do
      if ← p.contains "User-Name" then p.getFirst E "User-Name"
      else throw (.packetError "EAP-MSCHAPv2 requires a User-Name attribute on the packet")
  match raw with
  | .str s => return .bytes (Tools.utf8 s)
  | raw => return raw

/-- `raw_password.decode("utf-8")` -/
def decodePassword : PyVal → Except Exn String
  | .bytes b =>
    match Tools.utf8? b with
    | some password => .ok password
    | none => .error (.valueError "'utf-8' codec can't decode bytes")
  | _ => .error .attributeError

/-- `start(pkt)`, for a packet and a process that it reads. -/
def startFrom (E : Env) (s : PacketState) : Hook Unit := do
  let userName ← userNameFromPacket E s.pkt
  let password ← decodePassword (← passwordFromPacket s.pkt)
  let userName ← packedString userName
  let identity ← packResponse s.world.currentId 1 userName
  modify fun t ↦ ({ t.1 with userName, password }, t.2)
  EStateM.onPart Prod.snd (fun s t ↦ (t.1, s))
    (Packet.store (.int eapMessageAttr) (.vals [.bytes identity]))

/-- `start(pkt)` -/
def start (E : Env) : Hook Unit := do startFrom E (← get).2

/-- `secrets.token_bytes(16)` -/
def tokenBytes : Hook Bytes := fun t ↦
  .ok (t.2.world.bytes 16).1 (t.1, { t.2 with world := (t.2.world.bytes 16).2 })

/-- `struct.pack("!BBHBB", RESPONSE, eap_id, length, EAP_TYPE_MSCHAPV2, op_code)` -/
def packMschapv2Header (eapId : UInt8) (length : ℕ) (opCode : UInt8) : Except Exn Bytes := do
  let length ← packUnsigned 2 length
  return [2, eapId] ++ length ++ [eapTypeMschapv2, opCode]

/-- `_build_response(eap_id, challenge_payload)` after the checks: the identifier and the challenge
have been read off the payload. -/
def answerChallenge (X : Mschap) (eapId mschapId : UInt8) (authenticatorChallenge : Bytes) :
    Hook Bytes := do
  modify fun t ↦ ({ t.1 with authenticatorChallenge }, t.2)
  let peerChallenge ← tokenBytes
  modify fun t ↦ ({ t.1 with peerChallenge }, t.2)
  let m := (← get).1
  let ntResponse ← X.generateNtResponse authenticatorChallenge peerChallenge m.userName m.password
  modify fun t ↦ ({ t.1 with ntResponse }, t.2)
  -- MS-Length spans from the op code to the end of the name
  let msLength := 1 + 1 + 2 + 1 + 49 + m.userName.length
  let header ← packMschapv2Header eapId (5 + msLength) opResponse
  let length ← packUnsigned 2 msLength
  return header ++ [mschapId] ++ length ++ [49] ++
    (peerChallenge ++ List.replicate 8 0 ++ ntResponse ++ [0]) ++ m.userName

/-- `_build_response(eap_id, challenge_payload)` -/
def buildResponse (X : Mschap) (eapId : UInt8) (challengePayload : Bytes) : Hook Bytes :=
  if challengePayload.length < 26 then
    throw (.valueError ("EAP-MSCHAPv2 Challenge body truncated: got " ++
      toString challengePayload.length ++ " bytes, need at least 26"))
  else match challengePayload.drop 6 with
    | mschapId :: _ :: _ :: valueSize :: body =>
      if valueSize ≠ 16 then
        throw (.valueError ("EAP-MSCHAPv2 Challenge Value-Size must be 16, got " ++
          toString valueSize.toNat))
      else answerChallenge X eapId mschapId (body.take 16)
    | _ => throw .indexError

/-- `_build_success_response(eap_id, success_payload)` -/
def buildSuccessResponse (X : Mschap) (eapId : UInt8) (successPayload : Bytes) : Hook Bytes := do
  let message := successPayload.drop 6
  let m := (← get).1
  if (Mschap.fromMarker message).isSome then do
    let valid ← X.verifyAuthenticatorResponse m.password m.ntResponse m.peerChallenge
      m.authenticatorChallenge m.userName message
    if valid then packMschapv2Header eapId 6 opSuccess
    else throw (.valueError "EAP-MSCHAPv2 server Authenticator Response failed verification")
  else packMschapv2Header eapId 6 opSuccess

/-- `_build_failure_response(eap_id)` -/
def buildFailureResponse (eapId : UInt8) : Hook Bytes := packMschapv2Header eapId 6 opFailure

/-- The response to a challenge by its op code. -/
def buildResponseTo (X : Mschap) (eapPayload : Bytes) (eapId opCode : UInt8) : Hook Bytes :=
  if opCode = opChallenge then buildResponse X eapId eapPayload
  else if opCode = opSuccess then buildSuccessResponse X eapId eapPayload
  else if opCode = opFailure then buildFailureResponse eapId
  else throw (.valueError ("Unknown EAP-MSCHAPv2 OpCode " ++ toString opCode.toNat))

/-- The parts of an EAP packet that say how to answer it: all its bytes, the identifier, the type
and the op code. Text has no type that is a number. -/
def unpackEapMschapv2 (payload : PyVal) : Except Exn (Bytes × UInt8 × UInt8) := do
  let length ← payload.len
  if length < 6 then
    throw (.valueError ("EAP-MSCHAPv2 header truncated: got " ++ toString length ++
      " bytes, need at least 6"))
  else match payload with
    | .bytes (code :: eapId :: l :: l' :: eapType :: opCode :: message) =>
      if eapType ≠ eapTypeMschapv2 then
        throw (.valueError ("Expected EAP-Type 26 (MS-CHAPv2), got " ++ toString eapType.toNat))
      else return (code :: eapId :: l :: l' :: eapType :: opCode :: message, eapId, opCode)
    | _ => throw (.valueError "Expected EAP-Type 26 (MS-CHAPv2)")

/-- `respond(pkt, challenge)` -/
def respond (X : Mschap) (challenge : Packet) : Hook Unit := do
  let eapPayload ← firstOf (← rawItem challenge eapMessageAttr)
  let (eapPayload, eapId, opCode) ← unpackEapMschapv2 eapPayload
  let responsePayload ← buildResponseTo X eapPayload eapId opCode
  let store key stored : Hook Unit :=
    EStateM.onPart Prod.snd (fun s t ↦ (t.1, s)) (Packet.store key stored)
  store (.int eapMessageAttr) (.vals [.bytes responsePayload])
  store (.int stateAttr) (← rawItem challenge stateAttr)

end MschapV2Method

end Pyrad2
