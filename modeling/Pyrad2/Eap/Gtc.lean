import Pyrad2.Eap.Base

/-!
# EAP-GTC

The response to a generic token card prompt, which is the password itself.
-/

namespace Pyrad2

namespace Eap

/-- The identifier of an EAP packet of at least `least` bytes; `what` names it in the error. Text
has characters where the identifier is to be packed as a number. -/
def eapIdentifier (what : String) (least : ℕ) (payload : PyVal) : Except Exn ℕ := do
  let length ← payload.len
  if length < least then
    throw (.valueError (what ++ " header truncated: got " ++ toString length ++
      " bytes, need at least " ++ toString least))
  else match payload with
    | .bytes (_ :: eapId :: _) => return eapId.toNat
    | _ => throw .structError

/-- `apply_eap_gtc_challenge(pkt, reply)` -/
def applyEapGtcChallenge (reply : Packet) : PacketMethod Unit := do
  let eapPayload ← firstOf (← rawItem reply eapMessageAttr)
  let eapId ← eapIdentifier "EAP-GTC challenge" 5 eapPayload
  let password ← packedString (← passwordFromPacket (← get).pkt)
  let response ← packResponse eapId 6 password
  Packet.store (.int eapMessageAttr) (.vals [.bytes response])
  Packet.store (.int stateAttr) (← rawItem reply stateAttr)

end Eap

end Pyrad2
