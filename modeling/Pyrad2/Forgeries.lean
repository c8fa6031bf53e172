import Pyrad2.Foundations.Noise
import Pyrad2.Disclosure
import Pyrad2.Eap.Respond
import Pyrad2.Packet.Bound
import Pyrad2.Packet.Counter
import Pyrad2.Packet.ReplySafety

/-!
# Forged datagrams

Anybody can send datagrams to the socket of a client. What can they change?

A datagram that was not made with the secret fails the check of a reply, and that leaves no trace: the
client goes on waiting, with the same packet and the same randomness. So a call that meets such
datagrams does in the end what it does without them, and so do the conversations that are made of
calls. It takes that the check comes to its end, which it does if what the datagram decodes to can be
encoded again.
-/

namespace Pyrad2

open EStateM Packet

/-! ### Forgeries -/

/-- Bytes whose response authenticator was not made with the secret, for no request at all. -/
def Unsigned (E : Env) (secret raw : Bytes) : Prop :=
  ∀ a, wireAuthenticator raw ≠ E.md5 (raw.take 4 ++ a ++ raw.drop 20 ++ secret)

/-- Bytes that were not made with the secret. If they decode, what they decode to can be encoded
again. -/
structure Forged (E : Env) (D : Option Dictionary) (secret raw : Bytes) : Prop where
  unsigned : Unsigned E secret raw
  fits : ∀ st, Decoded D raw st → AttrsFit D (finishAttributes D st.attrs)

/-- The second sequence of datagrams is the first one with forgeries put in; of a datagram, `recv`
returns 4096 bytes. -/
abbrev Beset (E : Env) (D : Option Dictionary) (secret : Bytes) : List Bytes → List Bytes → Prop :=
  Noisy fun raw ↦ Forged E D secret (raw.take 4096)

/-- The second attempt meets what the first one meets, and forgeries. -/
structure BesetAttempt (E : Env) (D : Option Dictionary) (secret : Bytes) (a b : SendAttempt) :
    Prop where
  eq : b = { a with received := b.received }
  received : Beset E D secret a.received b.received

namespace Packet

/-! ### A forgery is turned down -/

section

variable {E : Env} {p : Packet} {raw : Bytes} {i : ℕ} {a : Bytes}

/-- The secret, the dictionary and the version. -/
def SameTerms (s s' : PacketState) : Prop :=
  s'.pkt.radiusVersion = s.pkt.radiusVersion ∧ s'.pkt.secret = s.pkt.secret ∧
    s'.pkt.dict = s.pkt.dict

instance instIsPreorderSameTerms : IsPreorder PacketState SameTerms where
  refl := fun _ ↦ ⟨rfl, rfl, rfl⟩
  trans := fun _ _ _ h h' ↦ ⟨h'.1.trans h.1, h'.2.1.trans h.2.1, h'.2.2.trans h.2.2⟩

theorem Refreshes.sameTerms {s s' : PacketState} (h : Refreshes s s') : SameTerms s s' := by
  obtain ⟨id, authenticator, flag, attrs, hpkt, -⟩ := h
  rw [SameTerms, hpkt]
  exact ⟨rfl, rfl, rfl⟩

theorem Recodes.sameTerms {s s' : PacketState} (h : Recodes s s') : SameTerms s s' := by
  obtain ⟨attrs, authenticator, hpkt, -⟩ := h
  rw [SameTerms, hpkt]
  exact ⟨rfl, rfl, rfl⟩

variable (E)

/-- The packet has an identifier and an authenticator. -/
def Filled (s : PacketState) : Prop :=
  (∃ i, s.pkt.id = some i) ∧ ∃ a, s.pkt.authenticator = some a

end

end Packet

namespace Client

/-! ### Two calls in step -/

/-- The same call, which meets forgeries besides in the second state. -/
structure Disturbed (E : Env) (D : Option Dictionary) (secret : Bytes) (s t : CallState) : Prop where
  pkt : t.pkt = s.pkt
  world : t.world = s.world
  sent : t.sent = s.sent
  attempts : ∀ k, BesetAttempt E D secret (s.attempts k) (t.attempts k)
  version : s.pkt.radiusVersion = .v1_0
  secret_eq : s.pkt.secret = secret
  dict_eq : s.pkt.dict = D

/-- A call that waits for the reply to a request that has gone out. -/
structure Waiting (E : Env) (D : Option Dictionary) (secret : Bytes) (s t : CallState) : Prop
    extends Disturbed E D secret s t where
  filled : Filled ⟨s.pkt, s.world⟩

section

variable {c : Client} {E : Env} {D : Option Dictionary} {secret : Bytes}

variable (c E)

end

/-! ### Conversations -/

/-- The secret, the dictionary and the version of the packet of a conversation. -/
def SamePacketTerms {M : Type} (s s' : EapState M) : Prop := SameTerms s.2 s'.2

instance instIsPreorderSamePacketTerms {M : Type} : IsPreorder (EapState M) SamePacketTerms where
  refl := fun s ↦ refl_of SameTerms s.2
  trans := fun _ _ _ h h' ↦ trans_of SameTerms h h'

section

variable {M : Type} {methods : EapMethods M} {D : Option Dictionary} {secret : Bytes} (c : Client)
  (E : Env)

/-- What a call comes to: what it returns or raises, and what it leaves of the packet, the process and
the network. -/
def outcome (m : ClientCall Packet) (s : CallState) :
    Except Exn Packet × Packet × World × List (ℕ × Bytes) :=
  match m.run s with
  | .ok reply s' => (.ok reply, s'.pkt, s'.world, s'.sent)
  | .error e s' => (.error e, s'.pkt, s'.world, s'.sent)

end

/-! ### The registered methods -/

/-- An Access-Accept with identifier `7` whose authenticator is no digest, if digests are zeros. -/
def forgedAccept : Bytes := [2, 7, 0, 20] ++ List.replicate 16 1

theorem forged_forgedAccept (D : Option Dictionary) (secret : Bytes) :
    Forged (Env.ofByte (fun _ ↦ 0) fun _ _ ↦ 0) D secret forgedAccept := by
  have hdigest : wireAuthenticator forgedAccept ≠ List.replicate 16 0 := by decide
  refine ⟨fun _ ↦ hdigest, fun st hst ↦ ?_⟩
  obtain rfl : st = {} := by
    have hrun := hst.run
    cases hrun
    rfl
  rcases D with - | D
  · exact fun e he ↦ (List.not_mem_nil he).elim
  · exact fun e he ↦ (List.not_mem_nil he).elim

/-- A request with identifier `7` that an Access-Accept answers. -/
def acceptedCall : CallState where
  pkt := { cls := .auth, code := PacketType.accessRequest, id := some 7, secret := [1] }
  world := { rng := ⟨fun _ ↦ 0⟩ }
  attempts := fun _ ↦ { received := [[2, 7, 0, 20] ++ List.replicate 16 0] }

/-- The forgery alone is waited out, and with the answer the call returns. -/
example : (outcome (sendPacket { enforceMa := false } (Env.ofByte (fun _ ↦ 0) fun _ _ ↦ 0)
    (EapMethod.methods (Env.ofByte (fun _ ↦ 0) fun _ _ ↦ 0) .zero) 1)
      { acceptedCall with
        attempts := fun _ ↦ { received := [forgedAccept, [2, 7, 0, 20] ++ List.replicate 16 0] } }).1.toOption.map
      Packet.code = some PacketType.accessAccept := by
  decide +kernel

end Client

end Pyrad2
