import Pyrad2.Client
import Pyrad2.Eap.Methods
import Pyrad2.Packet.Alike

/-!
# What a conversation discloses of the password

EAP-MSCHAPv2 reads the clear password off the packet, and the client goes on to send that packet.

Of the password the method itself uses the NT hash alone. So what is put on the network depends on
no more than the hash, as long as the stored User-Password is not put out and nothing else is read
from where it is stored. The packets of a client put it out: the class that a caller of the method
uses serializes every stored attribute, and nobody removes this one.
-/

namespace Pyrad2

open EStateM Packet

theorem lockstep_tryFinally {σ τ α β : Type} {R : σ → τ → Prop} {Q : α → β → Prop}
    {m : Method σ α} {m' : Method τ β} {finalizer : Method σ Unit} {finalizer' : Method τ Unit}
    (hm : Lockstep R Q m m') (hfinalizer : Lockstep R Eq finalizer finalizer') :
    Lockstep R Q (Method.tryFinally m finalizer) (Method.tryFinally m' finalizer') := by
  refine ⟨fun s t hst ↦ ?_⟩
  rcases hm.run s t hst with ⟨a, s', b, t', hs, ht, hab, hst'⟩ | ⟨e, s', t', hs, ht, hst'⟩
  · rw [Method.run_tryFinally_of_ok hs, Method.run_tryFinally_of_ok ht]
    exact (hfinalizer.bind_eq fun _ ↦ lockstep_pure hab).run s' t' hst'
  · rcases eq_or_ne e .divergence with rfl | he
    · rw [Method.run_tryFinally_of_divergence hs, Method.run_tryFinally_of_divergence ht]
      exact .inr ⟨_, s', t', rfl, rfl, hst'⟩
    · rw [Method.run_tryFinally_of_error hs he, Method.run_tryFinally_of_error ht he]
      exact (hfinalizer.bind_eq fun _ ↦ lockstep_throw e).run s' t' hst'

/-! ### Calls in step -/

/-- The same call, of packets that are alike. -/
structure CallAlike (H : Set Key) (code : ℕ) (s t : CallState) : Prop where
  pkt : Alike H code s.pkt t.pkt
  world : s.world = t.world
  sent : s.sent = t.sent
  attempts : s.attempts = t.attempts

namespace Packet

section

variable {H : Set Key} {n : ℕ}

theorem Alike.createReply {p q : Packet} (h : Alike H n p q) (E : Env) (code : Option ℕ)
    (packet : Option Bytes) (attributes : KwAttributes) :
    q.createReply E code packet attributes = p.createReply E code packet attributes := by
  obtain ⟨source, attrs, rfl⟩ := h.exists_eq
  rfl

theorem Alike.verifyReply {p q : Packet} (h : Alike H n p q) (E : Env) (rawreply : Option Bytes)
    (enforceMa : Bool) :
    Packet.verifyReply E q rawreply enforceMa = Packet.verifyReply E p rawreply enforceMa := by
  obtain ⟨source, attrs, rfl⟩ := h.exists_eq
  rfl

/-- The delay of an accounting request is not hidden. -/
theorem blind_bumpAcctDelayTime (E : Env) (wait : Time) :
    Blind H PacketType.accountingRequest (bumpAcctDelayTime E wait) := by
  unfold bumpAcctDelayTime
  refine blind_get_bind fun p source attrs w h ↦ ?_
  dsimp only
  rw [h.contains]
  refine (lockstep_liftM _).bind_eq fun there ↦ ?_
  split
  · rw [show Packet.getFirst E { p with source, attrs } "Acct-Delay-Time" =
        p.getFirst E "Acct-Delay-Time" by
      rw [Packet.getFirst, Packet.getFirst, h.getItem E (h.acctDelay rfl)]]
    exact (lockstep_liftM _).bind_eq fun first ↦ (lockstep_liftM _).bind_eq fun value ↦
      blind_setItem E _ _
  · exact blind_setItem E _ _

theorem blind_restoreAcctDelay (E : Env) (original : Option (List PyVal)) :
    Blind H PacketType.accountingRequest (restoreAcctDelay E original) := by
  rcases original with - | values
  · refine blind_get_bind fun p source attrs w h ↦ ?_
    dsimp only
    rw [h.contains]
    refine (lockstep_liftM _).bind_eq fun there ↦ ?_
    split
    · refine blind_get_bind fun p source attrs w h ↦ ?_
      dsimp only
      refine (lockstep_liftM (p.encodeKey "Acct-Delay-Time")).bind_eq fun key ↦ ?_
      rw [show attrs.contains key = p.attrs.contains key from h.attrs.contains key]
      split
      · exact blind_modify fun _ _ _ _ h ↦
          ⟨⟨rfl, h.attrs.erase key, h.skips, h.code_eq, h.acctDelay⟩, rfl⟩
      · exact lockstep_throw _
    · exact lockstep_pure rfl
  · exact blind_setItem E _ values

end

end Packet

namespace Client

variable {H : Set Key} {n : ℕ} (c : Client) (E : Env)

theorem lockstep_onPacket {α : Type} {m : PacketMethod α} (h : Blind H n m) :
    Lockstep (CallAlike H n) Eq (onPacket m) (onPacket m) :=
  lockstep_onPart (fun _ _ hst ↦ ⟨hst.pkt, hst.world⟩)
    (fun _ _ _ _ hxy hst ↦ ⟨hxy.pkt, hxy.world, hst.sent, hst.attempts⟩) h

theorem lockstep_inWorld {α : Type} (m : Method World α) :
    Lockstep (CallAlike H n) Eq (inWorld m) (inWorld m) := by
  have hsame : Lockstep Eq Eq m m := by
    refine ⟨fun w w' hw ↦ ?_⟩
    subst hw
    rcases h : m.run w with ⟨a, w'⟩ | ⟨e, w'⟩
    · exact .inl ⟨a, w', a, w', rfl, rfl, rfl, rfl⟩
    · exact .inr ⟨e, w', w', rfl, rfl, rfl⟩
  exact lockstep_onPart (fun _ _ hst ↦ hst.world)
    (fun _ _ _ _ hxy hst ↦ ⟨hst.pkt, hxy, hst.sent, hst.attempts⟩) hsame

theorem lockstep_nextAttempt :
    Lockstep (CallAlike H n) Eq nextAttempt nextAttempt := by
  refine ⟨fun s t hst ↦ .inl ⟨_, _, _, _, rfl, rfl, ?_, ?_⟩⟩
  · rw [hst.attempts]
  · exact ⟨hst.pkt, hst.world, hst.sent, by rw [hst.attempts]⟩

theorem lockstep_sendto (port : ℕ) (raises : Option Exn) (raw : Bytes) :
    Lockstep (CallAlike H n) Eq (sendto port raises raw) (sendto port raises raw) := by
  rcases raises with - | e
  · exact lockstep_modify fun _ _ hst ↦ ⟨hst.pkt, hst.world, by rw [hst.sent], hst.attempts⟩
  · exact lockstep_throw e

theorem lockstep_replyFrom (rawreply : Bytes) :
    Lockstep (CallAlike H n) Eq (replyFrom c E rawreply) (replyFrom c E rawreply) := by
  refine lockstep_get_bind fun s t hst ↦ ?_
  dsimp only
  rw [hst.pkt.createReply, hst.pkt.verifyReply,
    show t.pkt.authenticator = s.pkt.authenticator by rw [hst.pkt.fields]]
  refine Lockstep.tryCatch ?_ fun e ↦ ?_
  · refine (lockstep_inWorld _).bind_eq fun reply ↦ (lockstep_inWorld _).bind_eq fun checked ↦ ?_
    split
    · exact lockstep_pure rfl
    · exact lockstep_pure rfl
  · split
    · exact lockstep_pure rfl
    · exact lockstep_throw e

theorem lockstep_receive (raises : Option Exn) (received : List Bytes) :
    Lockstep (CallAlike H n) Eq (receive c E raises received) (receive c E raises received) := by
  induction received with
  | nil =>
    rcases raises with - | e
    · exact lockstep_pure rfl
    · exact lockstep_throw e
  | cons rawreply rest ih =>
    rw [receive]
    split
    · exact ih
    · refine (lockstep_replyFrom c E _).bind_eq fun reply ↦ ?_
      split
      · exact lockstep_pure rfl
      · exact ih

theorem lockstep_awaitReply (wait : Time) (met : SendAttempt) :
    Lockstep (CallAlike H n) Eq (awaitReply c E wait met) (awaitReply c E wait met) := by
  rw [awaitReply]
  split
  · exact lockstep_receive c E _ _
  · exact lockstep_pure rfl

/-- One attempt, and what comes after it. -/
theorem lockstep_attemptThen (port attempt : ℕ) {rest : Time → ClientCall Packet}
    (hrest : ∀ wait, Lockstep (CallAlike H n) Eq (rest wait) (rest wait)) :
    Lockstep (CallAlike H n) Eq (attemptThen c E port attempt rest)
      (attemptThen c E port attempt rest) := by
  rw [attemptThen]
  refine lockstep_nextAttempt.bind_eq fun met ↦ (lockstep_liftM _).bind_eq fun wait ↦
    (lockstep_onPacket (blind_prepareRequestMessageAuthenticator E _)).bind_eq fun _ ↦
    (lockstep_onPacket (blind_requestPacket E)).bind_eq fun raw ↦
    (lockstep_sendto port _ raw).bind_eq fun _ ↦
    (lockstep_awaitReply c E wait met).bind_eq fun reply ↦ ?_
  split
  · exact lockstep_pure rfl
  · exact hrest wait

/-- **The attempts** of one call. -/
theorem lockstep_sendAttempts (port : ℕ) {isAcct : Bool}
    (hacct : isAcct = true → n = PacketType.accountingRequest) (left attempt : ℕ) (wait : Time) :
    Lockstep (CallAlike H n) Eq (sendAttempts c E port isAcct left attempt wait)
      (sendAttempts c E port isAcct left attempt wait) := by
  induction left generalizing attempt wait with
  | zero => exact lockstep_throw _
  | succ left ih =>
    have hrest := lockstep_attemptThen c E port attempt (ih (attempt + 1))
    rw [sendAttempts_succ]
    split
    · next h =>
      have hn := hacct (Bool.and_eq_true_iff.1 h).1
      subst hn
      exact (lockstep_onPacket (blind_bumpAcctDelayTime E wait)).bind_eq fun _ ↦ hrest
    · exact hrest

/-- **One call.** -/
theorem lockstep_sendPacketTo (port : ℕ) :
    Lockstep (CallAlike H n) Eq (sendPacketTo c E port) (sendPacketTo c E port) := by
  refine lockstep_get_bind fun s t hst ↦ ?_
  have hcode : t.pkt.code = s.pkt.code := by rw [hst.pkt.fields]
  dsimp only
  rw [hcode]
  split
  · next h =>
    have hn : n = PacketType.accountingRequest := by rw [← hst.pkt.code_eq, h]
    subst hn
    have horiginal : t.pkt.originalAcctDelay E = s.pkt.originalAcctDelay E := by
      rw [Packet.originalAcctDelay, Packet.originalAcctDelay, hst.pkt.contains,
        hst.pkt.getItem E (hst.pkt.acctDelay rfl)]
    rw [horiginal]
    exact (lockstep_liftM _).bind_eq fun original ↦
      lockstep_tryFinally (lockstep_sendAttempts c E port (fun _ ↦ rfl) _ _ _)
        (lockstep_onPacket (blind_restoreAcctDelay E original))
  · exact lockstep_sendAttempts c E port (fun h ↦ by cases h) _ _ _

/-- Hooks in step, of method objects that are related. -/
theorem lockstep_onMethod {M : Type} {r : M → M → Prop} {method method' : M}
    {m m' : Method (EapState M) Unit} (hr : r method method')
    (h : Lockstep (fun s t ↦ r s.1 t.1 ∧ StateAlike H n s.2 t.2) Eq m m') :
    Lockstep (CallAlike H n) r (onMethod method m) (onMethod method' m') := by
  refine ⟨fun s t hst ↦ ?_⟩
  change (∃ a s' b t', onMethod method m s = .ok a s' ∧ onMethod method' m' t = .ok b t' ∧ _) ∨
    ∃ e s' t', onMethod method m s = .error e s' ∧ onMethod method' m' t = .error e t' ∧ _
  rw [onMethod, onMethod]
  rcases h.run (method, ⟨s.pkt, s.world⟩) (method', ⟨t.pkt, t.world⟩) ⟨hr, hst.pkt, hst.world⟩ with
    ⟨_, s', _, t', hs, ht, -, hr', hst'⟩ | ⟨e, s', t', hs, ht, -, hst'⟩
  · rw [hs, ht]
    exact .inl ⟨_, _, _, _, rfl, rfl, hr', hst'.pkt, hst'.world, hst.sent, hst.attempts⟩
  · rw [hs, ht]
    exact .inr ⟨e, _, _, rfl, rfl, hst'.pkt, hst'.world, hst.sent, hst.attempts⟩

end Client

/-! ### The method -/

/-- The same object, up to a password with the same hash. -/
structure MschapV2Method.Alike (X : Mschap) (m m' : MschapV2Method) : Prop where
  fields : m' = { m with password := m'.password }
  hash : X.ntPasswordHash m'.password = X.ntPasswordHash m.password

/-- Objects of EAP-MSCHAPv2, up to a password with the same hash. -/
inductive EapMethod.Alike (X : Mschap) : EapMethod → EapMethod → Prop where
  | mschapv2 {m m' : MschapV2Method} (h : m.Alike X m') : Alike X (.mschapv2 m) (.mschapv2 m')

/-- The key of the stored password. -/
def passwordKey : Set Key := {.int Eap.userPasswordAttr}

namespace MschapV2Method

variable {X : Mschap} {n : ℕ}

/-- The objects and the packets are alike. -/
def HookAlike (X : Mschap) (n : ℕ) (s t : EapState MschapV2Method) : Prop :=
  s.1.Alike X t.1 ∧ StateAlike passwordKey n s.2 t.2

theorem lockstep_modifyMethod {f : MschapV2Method → MschapV2Method}
    (h : ∀ m m', m.Alike X m' → (f m).Alike X (f m')) :
    Lockstep (HookAlike X n) Eq (modify fun t ↦ (f t.1, t.2) : Hook PUnit)
      (modify fun t ↦ (f t.1, t.2)) :=
  lockstep_modify fun _ _ hst ↦ ⟨h _ _ hst.1, hst.2⟩

theorem lockstep_tokenBytes : Lockstep (HookAlike X n) Eq tokenBytes tokenBytes := by
  refine ⟨fun s t hst ↦ .inl ⟨_, _, _, _, rfl, rfl, ?_, hst.1, hst.2.pkt, ?_⟩⟩
  · rw [hst.2.world]
  · rw [hst.2.world]

theorem lockstep_answerChallenge (eapId mschapId : UInt8) (challenge : Bytes) :
    Lockstep (HookAlike X n) Eq (answerChallenge X eapId mschapId challenge)
      (answerChallenge X eapId mschapId challenge) := by
  have hchallenge : Lockstep (HookAlike X n) Eq _ _ := lockstep_modifyMethod (X := X) (n := n)
    (f := fun m ↦ { m with authenticatorChallenge := challenge })
    fun m m' h ↦ ⟨by rw [h.fields], h.hash⟩
  have hpeer (peerChallenge : Bytes) := lockstep_modifyMethod (X := X) (n := n)
    (f := fun m ↦ { m with peerChallenge }) fun m m' h ↦ ⟨by rw [h.fields], h.hash⟩
  have hresponse (ntResponse : Bytes) := lockstep_modifyMethod (X := X) (n := n)
    (f := fun m ↦ { m with ntResponse }) fun m m' h ↦ ⟨by rw [h.fields], h.hash⟩
  refine hchallenge.bind_eq fun _ ↦ lockstep_tokenBytes.bind_eq fun peerChallenge ↦
    (hpeer peerChallenge).bind_eq fun _ ↦ lockstep_get_bind fun s t hst ↦ ?_
  have huser : t.1.userName = s.1.userName := by rw [hst.1.fields]
  dsimp only
  rw [huser, Mschap.generateNtResponse_congr hst.1.hash]
  exact (lockstep_liftM _).bind_eq fun ntResponse ↦ (hresponse ntResponse).bind_eq fun _ ↦
    (lockstep_liftM _).bind_eq fun header ↦ (lockstep_liftM _).bind_eq fun length ↦
    lockstep_pure rfl

theorem lockstep_buildResponseTo (eapPayload : Bytes) (eapId opCode : UInt8) :
    Lockstep (HookAlike X n) Eq (buildResponseTo X eapPayload eapId opCode)
      (buildResponseTo X eapPayload eapId opCode) := by
  rw [buildResponseTo]
  split
  · rw [buildResponse]
    split
    · exact lockstep_throw _
    · split
      · split
        · exact lockstep_throw _
        · exact lockstep_answerChallenge eapId _ _
      · exact lockstep_throw _
  · split
    · refine lockstep_get_bind fun s t hst ↦ ?_
      obtain ⟨m, ps⟩ := s
      obtain ⟨m', ps'⟩ := t
      obtain ⟨hfields, hhash⟩ : m.Alike X m' := hst.1
      dsimp only
      split
      · rw [hfields]
        dsimp only
        rw [Mschap.verifyAuthenticatorResponse_congr hhash]
        refine (lockstep_liftM _).bind_eq fun valid ↦ ?_
        split
        · exact lockstep_liftM _
        · exact lockstep_throw _
      · exact lockstep_liftM _
    · split
      · exact lockstep_liftM _
      · exact lockstep_throw _

theorem lockstep_storeIn (key : Key) (stored : Stored PyVal) :
    Lockstep (HookAlike X n) Eq
      (onPart Prod.snd (fun s t ↦ (t.1, s)) (Packet.store key stored) : Hook Unit)
      (onPart Prod.snd (fun s t ↦ (t.1, s)) (Packet.store key stored)) :=
  lockstep_onPart (fun _ _ hst ↦ hst.2) (fun _ _ _ _ hxy hst ↦ ⟨hst.1, hxy⟩)
    (blind_store key stored)

/-- **A response** uses the hash of the password alone. -/
theorem lockstep_respond (challenge : Packet) :
    Lockstep (HookAlike X n) Eq (respond X challenge) (respond X challenge) :=
  (lockstep_liftM _).bind_eq fun _ ↦ (lockstep_liftM _).bind_eq fun _ ↦
    (lockstep_liftM _).bind_eq fun parts ↦
    (lockstep_buildResponseTo parts.1 parts.2.1 parts.2.2).bind_eq fun _ ↦
    (lockstep_storeIn _ _).bind_eq fun _ ↦ (lockstep_liftM _).bind_eq fun _ ↦ lockstep_storeIn _ _

/-- **The start**, from packets with passwords that have the same hash. -/
theorem lockstep_startFrom {E : Env} {s t : PacketState} (hworld : t.world = s.world)
    (huser : userNameFromPacket E t.pkt = userNameFromPacket E s.pkt) {password password' : String}
    (hs : (Eap.passwordFromPacket s.pkt >>= decodePassword) = .ok password)
    (ht : (Eap.passwordFromPacket t.pkt >>= decodePassword) = .ok password')
    (h : X.ntPasswordHash password' = X.ntPasswordHash password) :
    Lockstep (HookAlike X n) Eq (startFrom E s) (startFrom E t) := by
  obtain ⟨v, hv, hpassword⟩ := Except.bind_eq_ok_iff.1 hs
  obtain ⟨v', hv', hpassword'⟩ := Except.bind_eq_ok_iff.1 ht
  rw [startFrom, startFrom, huser, hworld, hv, hv']
  refine (lockstep_liftM _).bind_eq fun userName ↦ ?_
  change Lockstep _ Eq (liftM (decodePassword v) >>= _) (liftM (decodePassword v') >>= _)
  rw [hpassword, hpassword']
  refine (lockstep_liftM (Eap.packedString userName)).bind_eq fun userName ↦
    (lockstep_liftM _).bind_eq fun identity ↦
    Lockstep.bind_eq (lockstep_modify fun _ _ hst ↦ ⟨⟨?_, h⟩, hst.2⟩) fun _ ↦ lockstep_storeIn _ _
  rw [hst.1.fields]

end MschapV2Method

/-! ### Conversations -/

namespace Packet

/-- The packet with a password stored on it, and what else is stored there. -/
def withPassword (p : Packet) (password : Bytes) (others : List PyVal) : Packet :=
  { p with attrs := p.attrs.set (.int Eap.userPasswordAttr) (.vals (.bytes password :: others)) }

/-- A password that is stored on the packet is not put out, and neither the user name nor the delay
of an Accounting-Request is read where it is stored. -/
structure Withholds (p : Packet) : Prop where
  skips : p.Skips (.int Eap.userPasswordAttr)
  userName : p.attrs.contains (.int Eap.userNameAttr) = true ∨
    p.encodeKey "User-Name" ≠ .ok (.int Eap.userPasswordAttr)
  acctDelay : p.code = PacketType.accountingRequest →
    p.encodeKey "Acct-Delay-Time" ≠ .ok (.int Eap.userPasswordAttr)

theorem Withholds.alike {p : Packet} (h : p.Withholds) (password password' : Bytes)
    (others : List PyVal) :
    Alike passwordKey p.code (p.withPassword password others) (p.withPassword password' others) where
  fields := rfl
  attrs := by
    refine OrderedDict.Related.set (OrderedDict.related_refl (storedAlike_refl _) _) (.inr ?_)
    exact ⟨rfl, ⟨_, rfl⟩, _, rfl⟩
  skips := by
    rintro key rfl
    exact h.skips
  code_eq := rfl
  acctDelay := by
    rintro hcode key rfl
    exact h.acctDelay hcode

/-- The user name does not depend on the password. -/
theorem Withholds.userNameFromPacket {p : Packet} (h : p.Withholds) (E : Env)
    (password password' : Bytes) (others : List PyVal) :
    MschapV2Method.userNameFromPacket E (p.withPassword password' others) =
      MschapV2Method.userNameFromPacket E (p.withPassword password others) := by
  have halike := h.alike password password' others
  have hne : Key.int Eap.userNameAttr ≠ .int Eap.userPasswordAttr := by decide
  have hraw : Eap.rawItem (p.withPassword password' others) Eap.userNameAttr =
      Eap.rawItem (p.withPassword password others) Eap.userNameAttr := by
    rw [Eap.rawItem, Eap.rawItem, halike.get? hne]
  rw [MschapV2Method.userNameFromPacket, MschapV2Method.userNameFromPacket,
    halike.attrs.contains, halike.contains, hraw]
  split
  · rfl
  · next hcontains =>
    have hname : (p.withPassword password others).encodeKey "User-Name" ≠
        .ok (.int Eap.userPasswordAttr) := by
      refine h.userName.resolve_left fun hp ↦ hcontains ?_
      rwa [withPassword, OrderedDict.contains, OrderedDict.get?_set_ne _ hne]
    have hfirst : (p.withPassword password' others).getFirst E "User-Name" =
        (p.withPassword password others).getFirst E "User-Name" := by
      rw [Packet.getFirst, Packet.getFirst, halike.getItem E fun key hkey ↦ hkey ▸ hname]
    rw [hfirst]

theorem passwordFromPacket_withPassword (p : Packet) (password : Bytes) (others : List PyVal) :
    Eap.passwordFromPacket (p.withPassword password others) = .ok (.bytes password) := by
  have hget : (p.withPassword password others).attrs.get? (.int Eap.userPasswordAttr) =
      some (.vals (.bytes password :: others)) := OrderedDict.get?_set_self ..
  rw [Eap.passwordFromPacket, OrderedDict.contains, hget]
  dsimp only [Option.isSome_some]
  rw [Eap.rawItem, hget]
  rfl

end Packet

namespace EapMethod

variable {E : Env} {X : Mschap} {n : ℕ}

/-- A hook of two EAP-MSCHAPv2 objects. -/
theorem lockstep_onMschapv2 {method method' : MschapV2Method} (h : method.Alike X method')
    {m m' : MschapV2Method.Hook Unit} (hm : Lockstep (MschapV2Method.HookAlike X n) Eq m m') :
    Lockstep (fun s t ↦ s.1.Alike X t.1 ∧ StateAlike passwordKey n s.2 t.2) Eq
      (onMschapv2 method m) (onMschapv2 method' m') :=
  lockstep_onPart (fun _ _ hst ↦ ⟨h, hst.2⟩) (fun _ _ _ _ hxy _ ↦ ⟨.mschapv2 hxy.1, hxy.2⟩) hm

theorem lockstep_respond (challenge : Packet) :
    Lockstep (fun s t ↦ s.1.Alike X t.1 ∧ StateAlike passwordKey n s.2 t.2) Eq
      (respond E X challenge) (respond E X challenge) := by
  refine lockstep_get_bind fun s t hst ↦ ?_
  obtain ⟨method, ps⟩ := s
  obtain ⟨method', ps'⟩ := t
  obtain ⟨⟨h⟩, -⟩ := hst
  exact lockstep_onMschapv2 h (MschapV2Method.lockstep_respond challenge)

end EapMethod

namespace Client

variable (c : Client) (E : Env) {X : Mschap} {n : ℕ}

/-- **The challenges** of a conversation. -/
theorem lockstep_challengeLoop {method method' : EapMethod} (h : method.Alike X method')
    (rounds : ℕ) (reply : Packet) :
    Lockstep (CallAlike passwordKey n) Eq
      (challengeLoop c E (EapMethod.methods E X) rounds method reply)
      (challengeLoop c E (EapMethod.methods E X) rounds method' reply) := by
  induction rounds generalizing method method' reply with
  | zero =>
    rw [challengeLoop, challengeLoop]
    split
    · exact lockstep_throw _
    · exact lockstep_pure rfl
  | succ rounds ih =>
    rw [challengeLoop, challengeLoop]
    split
    · exact (lockstep_onMethod h (EapMethod.lockstep_respond reply)).bind fun method method' h ↦
        (lockstep_sendPacketTo c E c.authport).bind_eq fun reply ↦ ih h reply
    · exact lockstep_pure rfl

/-- **What is transmitted depends on the hash of the password alone**, if the packet withholds it. -/
theorem sent_eq_of_withholds {p : Packet} (hp : p.Withholds) (hmethod : p.authType = "eap-mschapv2")
    {password password' : Bytes} {text text' : String} (htext : Tools.utf8? password = some text)
    (htext' : Tools.utf8? password' = some text')
    (hhash : X.ntPasswordHash text' = X.ntPasswordHash text) (others : List PyVal) (world : World)
    (attempts : ℕ → SendAttempt) (rounds : ℕ) :
    (after (sendAuthPacket c E (EapMethod.methods E X) rounds)
        { pkt := p.withPassword password others, world, attempts }).sent =
      (after (sendAuthPacket c E (EapMethod.methods E X) rounds)
        { pkt := p.withPassword password' others, world, attempts }).sent := by
  have halike := hp.alike password password' others
  have hnew : MschapV2Method.Alike X {} {} := ⟨rfl, rfl⟩
  have hpassword {password : Bytes} {text : String} (h : Tools.utf8? password = some text) :
      (Eap.passwordFromPacket (p.withPassword password others) >>=
        MschapV2Method.decodePassword) = .ok text := by
    rw [passwordFromPacket_withPassword, Except.bind_of_ok, MschapV2Method.decodePassword, h]
  have hstart : Lockstep (fun s t ↦ s.1.Alike X t.1 ∧ StateAlike passwordKey p.code s.2 t.2) Eq
      (EapMethod.onMschapv2 {}
        (MschapV2Method.startFrom E ⟨p.withPassword password others, world⟩))
      (EapMethod.onMschapv2 {}
        (MschapV2Method.startFrom E ⟨p.withPassword password' others, world⟩)) :=
    EapMethod.lockstep_onMschapv2 hnew (MschapV2Method.lockstep_startFrom rfl
      (hp.userNameFromPacket E password password' others) (hpassword htext) (hpassword htext')
      hhash)
  have hrun (password : Bytes) : (sendAuthPacket c E (EapMethod.methods E X) rounds).run
        { pkt := p.withPassword password others, world, attempts } =
      (do
        let method ← onMethod (EapMethod.mschapv2 {}) (EapMethod.onMschapv2 {}
          (MschapV2Method.startFrom E ⟨p.withPassword password others, world⟩))
        let reply ← sendPacketTo c E c.authport
        challengeLoop c E (EapMethod.methods E X) rounds method reply).run
        { pkt := p.withPassword password others, world, attempts } := by
    have hget : (EapMethod.methods E X).getMethod (p.withPassword password others).authType =
        some (.mschapv2 {}) := by
      show EapMethod.getMethod p.authType = _
      rw [hmethod]
      rfl
    rw [sendAuthPacket, run_bind_of_ok (run_get _)]
    dsimp only
    rw [hget]
    rfl
  have hlock := (lockstep_onMethod (.mschapv2 hnew) hstart).bind fun method method' h ↦
    (lockstep_sendPacketTo c E c.authport).bind_eq fun reply ↦
      lockstep_challengeLoop c E h rounds reply
  have hafter := (hlock.after (s := { pkt := p.withPassword password others, world, attempts })
    (t := { pkt := p.withPassword password' others, world, attempts }) ⟨halike, rfl, rfl, rfl⟩).sent
  rw [after, hrun, after, hrun]
  exact hafter

/-- Digests that do not look at what is digested. -/
def constantMschap : Mschap where
  md4 := fun _ ↦ List.replicate 16 0
  sha1 := fun _ ↦ List.replicate 20 0
  desEncrypt := fun _ _ ↦ List.replicate 8 0

/-- A dictionary with a virtual User-Password. -/
def virtualPassword : Dictionary where
  heap := [{ name := "Message-Authenticator", code := 80, type := .octets },
    { name := "User-Password", code := 2, type := .octets, virtual := true }]
  attributes := OrderedDict.set (OrderedDict.set ∅ "Message-Authenticator" 0) "User-Password" 1
  attrindex := BiDict.add (BiDict.add BiDict.empty "Message-Authenticator" (.int 80))
    "User-Password" (.int 2)
  vendors := BiDict.empty
  vendorFormats := ∅

/-- An Access-Request with the user name `u`. -/
def mschapRequest (D : Dictionary) : Packet :=
  { cls := .auth, code := PacketType.accessRequest, id := some 7, secret := [115],
    authenticator := some (List.replicate 16 1), dict := some D, authType := "eap-mschapv2",
    attrs := OrderedDict.set ∅ (.int 1) (.vals [.bytes [117]]) }

/-- What a conversation with this password transmits to a server that does not answer. -/
def transcript (D : Dictionary) (password : Bytes) : List (ℕ × Bytes) :=
  (after (sendAuthPacket { retryPolicy := { retries := 1 } } (Env.ofByte (fun _ ↦ 0) fun _ _ ↦ 0)
      (EapMethod.methods (Env.ofByte (fun _ ↦ 0) fun _ _ ↦ 0) constantMschap) 0)
    { pkt := (mschapRequest D).withPassword password [], world := default,
      attempts := fun _ ↦ {} }).sent

theorem sent_eq_of_withholds_virtualPassword :
    (transcript virtualPassword [97]).length = 1 ∧
      transcript virtualPassword [97] = transcript virtualPassword [98] :=
  ⟨by decide +kernel,
    sent_eq_of_withholds (p := mschapRequest virtualPassword) (X := constantMschap) _ _
      { skips := .inl (by decide +kernel)
        userName := .inl (by decide +kernel)
        acctDelay := fun h ↦ by cases h } rfl
      (show Tools.utf8? [97] = some "a" by decide +kernel)
      (show Tools.utf8? [98] = some "b" by decide +kernel) rfl [] _ _ 0⟩

/-- The passwords `a` and `b` have the same hash, and the first datagrams differ. -/
theorem not_sent_eq_messageAuthenticatorOnly :
    constantMschap.ntPasswordHash "a" = constantMschap.ntPasswordHash "b" ∧
      transcript .messageAuthenticatorOnly [97] ≠ transcript .messageAuthenticatorOnly [98] :=
  ⟨rfl, by decide +kernel⟩

end Client

end Pyrad2
