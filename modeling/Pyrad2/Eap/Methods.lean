import Pyrad2.Eap.Gtc
import Pyrad2.Eap.Md5
import Pyrad2.Eap.Mschapv2

/-!
# The registered EAP methods

The registry as `pyrad2.eap` leaves it: EAP-MD5 and EAP-GTC, which have no state, and EAP-MSCHAPv2.
-/

namespace Pyrad2

open EStateM

/-- An object of a registered method. -/
inductive EapMethod where
  | md5
  | gtc
  | mschapv2 (method : MschapV2Method)

namespace EapMethod

/-- `get_method(name)` -/
def getMethod (name : String) : Option EapMethod :=
  if name = "eap-md5" then some md5
  else if name = "eap-gtc" then some gtc
  else if name = "eap-mschapv2" then some (mschapv2 {})
  else none

/-- A hook of a method without a state. -/
def onPacket (m : PacketMethod Unit) : Method (EapState EapMethod) Unit :=
  onPart Prod.snd (fun s t ↦ (t.1, s)) m

/-- A hook of an EAP-MSCHAPv2 object. -/
def onMschapv2 (method : MschapV2Method) (m : MschapV2Method.Hook Unit) :
    Method (EapState EapMethod) Unit :=
  onPart (fun s ↦ (method, s.2)) (fun t _ ↦ (mschapv2 t.1, t.2)) m

/-- `method.start(pkt)` -/
def start (E : Env) : Method (EapState EapMethod) Unit := do
  match (← get).1 with
  | md5 => onPacket Eap.injectEapIdentity
  | gtc => onPacket Eap.injectEapIdentity
  | mschapv2 method => onMschapv2 method (MschapV2Method.start E)

/-- `method.respond(pkt, challenge)` -/
def respond (E : Env) (X : Mschap) (challenge : Packet) : Method (EapState EapMethod) Unit := do
  match (← get).1 with
  | md5 => onPacket (Eap.applyEapMd5Challenge E challenge)
  | gtc => onPacket (Eap.applyEapGtcChallenge challenge)
  | mschapv2 method => onMschapv2 method (MschapV2Method.respond X challenge)

/-! ### A response comes to its end -/

theorem onlyRaises_packedString (v : PyVal) :
    Except.OnlyRaises (· ≠ .divergence) (Eap.packedString v) := by
  rcases v with - | i | t | b
  iterate 3 exact Except.onlyRaises_error (by simp)
  exact Except.onlyRaises_ok b

theorem onlyRaises_onPart {σ τ α : Type} {get : σ → τ} {set : τ → σ → σ} {m : Method τ α}
    (h : OnlyRaises (· ≠ .divergence) m) : OnlyRaises (· ≠ .divergence) (onPart get set m) :=
  ⟨fun s ↦ ensures_onPart.2 (h.ensures (get s))⟩

theorem onlyRaises_len (v : PyVal) : Except.OnlyRaises (· ≠ .divergence) v.len := by
  rcases v with - | i | t | b
  · exact Except.onlyRaises_error (by simp)
  · exact Except.onlyRaises_error (by simp)
  · exact Except.onlyRaises_ok _
  · exact Except.onlyRaises_ok _

theorem onlyRaises_packUnsigned (w : ℕ) (n : Int) :
    Except.OnlyRaises (· ≠ .divergence) (packUnsigned w n) :=
  (Except.onlyRaises_ok _).ite (Except.onlyRaises_error (by simp))

theorem onlyRaises_packResponse (eapId : ℕ) (type : UInt8) (data : Bytes) :
    Except.OnlyRaises (· ≠ .divergence) (Eap.packResponse eapId type data) :=
  (onlyRaises_packUnsigned 1 _).bind fun _ ↦ (onlyRaises_packUnsigned 2 _).bind fun _ ↦
    Except.onlyRaises_ok _

theorem onlyRaises_eapIdentifier (what : String) (least : ℕ) (payload : PyVal) :
    Except.OnlyRaises (· ≠ .divergence) (Eap.eapIdentifier what least payload) := by
  refine (onlyRaises_len payload).bind fun length ↦ ?_
  split
  · exact Except.onlyRaises_error (by simp)
  · split
    · exact Except.onlyRaises_ok _
    · exact Except.onlyRaises_error (by simp)

theorem onlyRaises_applyEapGtcChallenge (reply : Packet) :
    OnlyRaises (· ≠ .divergence) (Eap.applyEapGtcChallenge reply) :=
  (onlyRaises_liftM (Eap.onlyRaises_rawItem reply _)).bind fun stored ↦
    (onlyRaises_liftM (Eap.onlyRaises_firstOf stored)).bind fun payload ↦
    (onlyRaises_liftM (onlyRaises_eapIdentifier _ 5 payload)).bind fun eapId ↦
    onlyRaises_get.bind fun s ↦
    (onlyRaises_liftM (Eap.onlyRaises_passwordFromPacket s.pkt)).bind fun password ↦
    (onlyRaises_liftM (onlyRaises_packedString password)).bind fun password ↦
    (onlyRaises_liftM (onlyRaises_packResponse eapId 6 password)).bind fun _ ↦
    (onlyRaises_modify _).bind fun _ ↦
    (onlyRaises_liftM (Eap.onlyRaises_rawItem reply _)).bind fun _ ↦ onlyRaises_modify _

theorem onlyRaises_challengeHash (X : Mschap) (peerChallenge authenticatorChallenge userName : Bytes) :
    Except.OnlyRaises (· ≠ .divergence)
      (X.challengeHash peerChallenge authenticatorChallenge userName) := by
  rw [Mschap.challengeHash]
  split
  · exact Except.onlyRaises_error (by simp [Mschap.badLength])
  · split
    · exact Except.onlyRaises_error (by simp [Mschap.badLength])
    · exact Except.onlyRaises_ok _

theorem onlyRaises_generateNtResponse (X : Mschap)
    (authenticatorChallenge peerChallenge userName : Bytes) (password : String) :
    Except.OnlyRaises (· ≠ .divergence)
      (X.generateNtResponse authenticatorChallenge peerChallenge userName password) := by
  refine (onlyRaises_challengeHash X _ _ _).bind fun challenge ↦ ?_
  rw [Mschap.challengeResponse]
  split
  · exact Except.onlyRaises_error (by simp [Mschap.badLength])
  · split
    · exact Except.onlyRaises_error (by simp [Mschap.badLength])
    · exact Except.onlyRaises_ok _

theorem onlyRaises_verifyAuthenticatorResponse (X : Mschap) (password : String)
    (ntResponse peerChallenge authenticatorChallenge userName received : Bytes) :
    Except.OnlyRaises (· ≠ .divergence) (X.verifyAuthenticatorResponse password ntResponse
      peerChallenge authenticatorChallenge userName received) := by
  have hhash (b : Bytes) : Except.OnlyRaises (· ≠ .divergence) (X.hashNtPasswordHash b) :=
    (Except.onlyRaises_error (by simp [Mschap.badLength])).ite (Except.onlyRaises_ok _)
  have hgenerate : Except.OnlyRaises (· ≠ .divergence) (X.generateAuthenticatorResponse password
      ntResponse peerChallenge authenticatorChallenge userName) := by
    rw [Mschap.generateAuthenticatorResponse]
    split
    · exact Except.onlyRaises_error (by simp [Mschap.badLength])
    · exact (hhash _).bind fun _ ↦ (onlyRaises_challengeHash X _ _ _).bind fun _ ↦
        Except.onlyRaises_ok _
  refine hgenerate.bind fun expected ↦ ?_
  split
  · exact Except.onlyRaises_ok _
  · exact Except.onlyRaises_ok _

theorem onlyRaises_packMschapv2Header (eapId : UInt8) (length : ℕ) (opCode : UInt8) :
    Except.OnlyRaises (· ≠ .divergence) (MschapV2Method.packMschapv2Header eapId length opCode) :=
  (onlyRaises_packUnsigned 2 _).bind fun _ ↦ Except.onlyRaises_ok _

theorem onlyRaises_tokenBytes : OnlyRaises (· ≠ .divergence) MschapV2Method.tokenBytes :=
  ⟨fun _ ↦ trivial⟩

theorem onlyRaises_answerChallenge (X : Mschap) (eapId mschapId : UInt8) (challenge : Bytes) :
    OnlyRaises (· ≠ .divergence) (MschapV2Method.answerChallenge X eapId mschapId challenge) :=
  (onlyRaises_modify _).bind fun _ ↦ onlyRaises_tokenBytes.bind fun peerChallenge ↦
    (onlyRaises_modify _).bind fun _ ↦ onlyRaises_get.bind fun _ ↦
    (onlyRaises_liftM (onlyRaises_generateNtResponse X challenge peerChallenge _ _)).bind fun _ ↦
    (onlyRaises_modify _).bind fun _ ↦
    (onlyRaises_liftM (onlyRaises_packMschapv2Header eapId _ _)).bind fun _ ↦
    (onlyRaises_liftM (onlyRaises_packUnsigned 2 _)).bind fun _ ↦ onlyRaises_pure _

theorem onlyRaises_buildResponse (X : Mschap) (eapId : UInt8) (challengePayload : Bytes) :
    OnlyRaises (· ≠ .divergence) (MschapV2Method.buildResponse X eapId challengePayload) := by
  rw [MschapV2Method.buildResponse]
  split
  · exact onlyRaises_throw (by simp)
  · split
    · split
      · exact onlyRaises_throw (by simp)
      · exact onlyRaises_answerChallenge X _ _ _
    · exact onlyRaises_throw (by simp)

theorem onlyRaises_buildSuccessResponse (X : Mschap) (eapId : UInt8) (successPayload : Bytes) :
    OnlyRaises (· ≠ .divergence) (MschapV2Method.buildSuccessResponse X eapId successPayload) := by
  refine onlyRaises_get.bind fun t ↦ ?_
  split
  · refine (onlyRaises_liftM (onlyRaises_verifyAuthenticatorResponse X _ _ _ _ _ _)).bind
      fun valid ↦ ?_
    split
    · exact onlyRaises_liftM (onlyRaises_packMschapv2Header eapId 6 _)
    · exact onlyRaises_throw (by simp)
  · exact onlyRaises_liftM (onlyRaises_packMschapv2Header eapId 6 _)

theorem onlyRaises_buildResponseTo (X : Mschap) (eapPayload : Bytes) (eapId opCode : UInt8) :
    OnlyRaises (· ≠ .divergence) (MschapV2Method.buildResponseTo X eapPayload eapId opCode) := by
  rw [MschapV2Method.buildResponseTo]
  split
  · exact onlyRaises_buildResponse X eapId eapPayload
  · split
    · exact onlyRaises_buildSuccessResponse X eapId eapPayload
    · split
      · exact onlyRaises_liftM (onlyRaises_packMschapv2Header eapId 6 _)
      · exact onlyRaises_throw (by simp)

theorem onlyRaises_respondMschapv2 (X : Mschap) (challenge : Packet) :
    OnlyRaises (· ≠ .divergence) (MschapV2Method.respond X challenge) := by
  have hunpack (v : PyVal) :
      Except.OnlyRaises (· ≠ .divergence) (MschapV2Method.unpackEapMschapv2 v) := by
    refine (onlyRaises_len v).bind fun length ↦ ?_
    split
    · exact Except.onlyRaises_error (by simp)
    · split
      · split
        · exact Except.onlyRaises_error (by simp)
        · exact Except.onlyRaises_ok _
      · exact Except.onlyRaises_error (by simp)
  exact (onlyRaises_liftM (Eap.onlyRaises_rawItem challenge _)).bind fun stored ↦
    (onlyRaises_liftM (Eap.onlyRaises_firstOf stored)).bind fun payload ↦
    (onlyRaises_liftM (hunpack payload)).bind fun parts ↦
    (onlyRaises_buildResponseTo X _ _ _).bind fun _ ↦ (onlyRaises_onPart (onlyRaises_modify _)).bind fun _ ↦
    (onlyRaises_liftM (Eap.onlyRaises_rawItem challenge _)).bind fun _ ↦
    onlyRaises_onPart (onlyRaises_modify _)

theorem onlyRaises_respond (E : Env) (X : Mschap) (challenge : Packet) :
    OnlyRaises (· ≠ .divergence) (respond E X challenge) := by
  refine onlyRaises_get.bind fun s ↦ ?_
  split
  · exact onlyRaises_onPart (Eap.onlyRaises_applyEapMd5Challenge E challenge)
  · exact onlyRaises_onPart (onlyRaises_applyEapGtcChallenge challenge)
  · exact onlyRaises_onPart (onlyRaises_respondMschapv2 X challenge)

/-- The registry that is filled when `pyrad2.eap` is imported. -/
def methods (E : Env) (X : Mschap) : EapMethods EapMethod where
  getMethod := getMethod
  start := start E
  respond := respond E X
  respond_ends := fun challenge s _ h ↦
    ((onlyRaises_respond E X challenge).ensures s).of_run_eq_error h rfl

end EapMethod

end Pyrad2
