import Pyrad2.Packet.Reply

/-!
# Matching replies on a RADIUS/1.1 connection

Under RADIUS/1.1 a reply is matched to its request by the Token alone. The Token compared is that of
the reply object, and the last step of building a reply to a request overwrites it with the
request's own: whatever the wire carried, the comparison succeeds.
-/

namespace Pyrad2

namespace Packet

/-- The Token field of a RADIUS/1.1 packet, `raw[4:8]`. -/
def wireToken (raw : Bytes) : Bytes := (raw.drop 4).take 4

/-! ### What a reply takes from its request -/

theorem exists_setReplyContext_of_makeReply {E : Env} {p reply : Packet} {cls : PacketClass}
    {code : ℕ} {packet : Option Bytes} {attributes : KwAttributes} {w w' : World}
    (h : (makeReply E p cls code packet attributes).run w = .ok reply w') :
    ∃ r, reply = p.setReplyContext r := by
  obtain ⟨r, w₁, -, hr⟩ := EStateM.run_bind_eq_ok_iff.1 h
  cases hr
  exact ⟨r, rfl⟩

/-- Whatever its class, a reply carries the reply context of its request. -/
theorem exists_setReplyContext_of_createReply {E : Env} {p reply : Packet} {code : Option ℕ}
    {packet : Option Bytes} {attributes : KwAttributes} {w w' : World}
    (h : (createReply E p code packet attributes).run w = .ok reply w') :
    ∃ r, reply = p.setReplyContext r := by
  unfold createReply at h
  split at h
  iterate 5 exact exists_setReplyContext_of_makeReply h
  cases h

/-- **The Token of a reply object is that of its request**, not that of the wire. -/
theorem token_of_createReply {E : Env} {p reply : Packet} {code : Option ℕ}
    {packet : Option Bytes} {attributes : KwAttributes} {w w' : World}
    (h : (createReply E p code packet attributes).run w = .ok reply w') :
    reply.token = p.token := by
  obtain ⟨r, rfl⟩ := exists_setReplyContext_of_createReply h
  rfl

/-- Under RADIUS/1.1 only the two Token fields decide. -/
theorem run_verifyReply_v11 {p : Packet} (hp : p.radiusVersion = .v1_1) (E : Env)
    (rawreply : Option Bytes) (enforceMa : Bool) (s : PacketState) :
    (verifyReply E p rawreply enforceMa).run s =
      .ok (p.token.isSome && s.pkt.token.isSome && s.pkt.token = p.token) s := by
  rw [verifyReply, EStateM.run_bind, EStateM.run_get]
  simp only [hp, if_true]
  rfl

/-- `verify_reply` accepts a reply object with the request's own Token. -/
theorem run_verifyReply_of_token_eq {p : Packet} (hp : p.radiusVersion = .v1_1)
    (ht : p.token.isSome) {s : PacketState} (hs : s.pkt.token = p.token) (E : Env)
    (rawreply : Option Bytes) (enforceMa : Bool) :
    (verifyReply E p rawreply enforceMa).run s = .ok true s := by
  rw [run_verifyReply_v11 hp, hs, ht]
  simp

/-- **Reply matching never rejects.** For every reply that decodes, `verify_reply` returns `True`;
so a `True` says that the wire carried the request's Token exactly when it did. -/
theorem verifyReply_token_iff {p reply : Packet} {t raw : Bytes} {w w' : World}
    (hp : p.radiusVersion = .v1_1) (ht : p.token = some t) (E : Env)
    (hreply : (createReply E p none (some raw) []).run w = .ok reply w') (enforceMa : Bool) :
    ((∀ s, (verifyReply E p (some raw) enforceMa).run ⟨reply, w'⟩ = .ok true s →
      wireToken raw = t) ↔ wireToken raw = t) := by
  have htrue : (verifyReply E p (some raw) enforceMa).run ⟨reply, w'⟩ = .ok true ⟨reply, w'⟩ :=
    run_verifyReply_of_token_eq hp (by simp [ht]) (token_of_createReply hreply) E _ _
  exact ⟨fun h ↦ h _ htrue, fun h _ _ ↦ h⟩

/-- A RADIUS/1.1 request with Token `1`. -/
def tokenRequest : Packet :=
  { cls := .auth, radiusVersion := .v1_1, code := PacketType.accessRequest, id := some 0,
    token := some [0, 0, 0, 1] }

/-- An Access-Accept without attributes that answers Token `2`. -/
def tokenResponse : Bytes := [2, 0, 0, 20, 0, 0, 0, 2] ++ List.replicate 12 0

theorem verifyReply_token_iff_tokenRequest :
    ∃ reply w', (createReply (Env.ofByte (fun _ ↦ 0) fun _ _ ↦ 0) tokenRequest none
        (some tokenResponse) []).run { rng := ⟨fun _ ↦ 0⟩ } = .ok reply w' ∧
      ((∀ s, (verifyReply (Env.ofByte (fun _ ↦ 0) fun _ _ ↦ 0) tokenRequest (some tokenResponse)
          false).run ⟨reply, w'⟩ = .ok true s → wireToken tokenResponse = [0, 0, 0, 1]) ↔
        wireToken tokenResponse = [0, 0, 0, 1]) :=
  ⟨_, _, rfl, verifyReply_token_iff rfl rfl _ rfl false⟩

/-- The answer to Token `2` is accepted as a reply to the request with Token `1`. -/
theorem verifyReply_tokenResponse :
    ∃ reply w', (createReply (Env.ofByte (fun _ ↦ 0) fun _ _ ↦ 0) tokenRequest none
        (some tokenResponse) []).run { rng := ⟨fun _ ↦ 0⟩ } = .ok reply w' ∧
      (∃ s, (verifyReply (Env.ofByte (fun _ ↦ 0) fun _ _ ↦ 0) tokenRequest (some tokenResponse)
        false).run ⟨reply, w'⟩ = .ok true s) ∧
      wireToken tokenResponse ≠ [0, 0, 0, 1] :=
  ⟨_, _, rfl, ⟨_, rfl⟩, by decide⟩

end Packet

/-! ### The client -/

/-- `_send_packet_once` from the received response on. -/
def RadSecClient.acceptResponse (E : Env) (packet : Packet) (response : Bytes) :
    Method World Packet := do
  let reply ← Packet.createReply E packet none (some response) []
  let (valid, reply) ← reply.run (Packet.verifyReply E packet (some response) false)
  unless valid do throw (.packetError "Received invalid RADSEC reply")
  return reply

/-- A client that has sent a RADIUS/1.1 request accepts every response it can decode. -/
theorem RadSecClient.run_acceptResponse {packet : Packet} (hp : packet.radiusVersion = .v1_1)
    (ht : packet.token.isSome) (E : Env) (response : Bytes) (w : World) :
    (acceptResponse E packet response).run w =
      (Packet.createReply E packet none (some response) []).run w := by
  rw [acceptResponse]
  rcases hreply : (Packet.createReply E packet none (some response) []).run w with
    ⟨reply, w'⟩ | ⟨e, w'⟩
  · have hverify := Packet.run_run_of_ok (p := reply) (w := w')
      (Packet.run_verifyReply_of_token_eq hp ht (s := ⟨reply, w'⟩)
        (Packet.token_of_createReply hreply) E (some response) false)
    rw [EStateM.run_bind_of_ok hreply, EStateM.run_bind_of_ok hverify]
    rfl
  · rw [EStateM.run_bind_of_error hreply]

end Pyrad2
