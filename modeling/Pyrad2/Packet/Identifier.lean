import Pyrad2.Packet.Frame
import Pyrad2.Packet.Received

/-!
# The identifier of a packet

A packet that has an identifier keeps it: neither serializing it as a request nor checking it as a
reply puts another one in its place.
-/

namespace Pyrad2

open EStateM

namespace Packet

/-- An identifier that is there stays. -/
def KeepsId (s s' : PacketState) : Prop := s.pkt.id.isSome → s'.pkt.id = s.pkt.id

theorem KeepsId.of_eq {s s' : PacketState} (h : s'.pkt.id = s.pkt.id) : KeepsId s s' := fun _ ↦ h

instance : IsPreorder PacketState KeepsId where
  refl := fun _ _ ↦ rfl
  trans := fun _ _ _ h h' hid ↦ by
    have hmid := h hid
    rw [h' (by rwa [hmid]), hmid]

theorem Draws.keepsId {s s' : PacketState} (h : Draws s s') : KeepsId s s' := by
  obtain ⟨authenticator, hpkt, -⟩ := h
  exact .of_eq (by rw [hpkt])

/-- What holds of the methods holds of a packet object that is returned. -/
theorem KeepsId.id_eq_of_run {α : Type} {m : PacketMethod α} (hm : Respects KeepsId m)
    {p q : Packet} (hid : p.id.isSome) {a : α} {w w' : World}
    (h : (p.run m).run w = .ok (a, q) w') : q.id = p.id := by
  have hkeeps : Ensures (p.run m) w (fun r _ ↦ r.2.id = p.id) fun _ _ ↦ True :=
    ensures_run.2 ((ensures_iff_after.2 (hm ⟨p, w⟩)).imp (fun _ _ h ↦ h hid) fun _ _ _ ↦ trivial)
  exact hkeeps.of_run_eq_ok h

section

variable (E : Env)

theorem keepsId_modify {g : PacketState → PacketState} (h : ∀ s, (g s).pkt.id = s.pkt.id) :
    Respects KeepsId (modify g : PacketMethod PUnit) :=
  respects_modify fun s ↦ .of_eq (h s)

theorem keepsId_setMessageAuthenticator (v : PyVal) :
    Respects KeepsId (setMessageAuthenticator E v) :=
  ((draws_encodeKeyValues E "Message-Authenticator" [v]).mono fun _ _ h ↦ h.keepsId).bind
    fun _ ↦ keepsId_modify fun _ ↦ rfl

theorem keepsId_encodeAttributes : Respects KeepsId (encodeAttributes E) :=
  (draws_encodeAttributes E).mono fun _ _ h ↦ h.keepsId

theorem keepsId_ensureAuthenticator : Respects KeepsId ensureAuthenticator :=
  draws_ensureAuthenticator.mono fun _ _ h ↦ h.keepsId

theorem keepsId_refreshMessageAuthenticator : Respects KeepsId (refreshMessageAuthenticator E) :=
  (keepsId_setMessageAuthenticator E _).bind fun _ ↦ (keepsId_encodeAttributes E).bind fun _ ↦
    respects_get.bind fun _ ↦ (respects_liftM _).bind fun _ ↦ (respects_liftM _).bind fun _ ↦
      keepsId_setMessageAuthenticator E _

/-- Here the identifier is set, but only where there was none. -/
theorem keepsId_ensureId : Respects KeepsId ensureId := by
  intro s hid
  have hrun : ensureId.run s = .ok () s := by
    rw [ensureId, run_bind_of_ok (run_get s), if_neg (by simpa [Option.isSome_iff_ne_none] using hid)]
    rfl
  rw [after_of_ok hrun]

theorem keepsId_addMessageAuthenticator : Respects KeepsId (addMessageAuthenticator E) := by
  refine respects_get.bind fun s ↦ ?_
  split
  · exact respects_pure _
  refine Respects.bind (keepsId_modify ?_) fun _ ↦ (keepsId_setMessageAuthenticator E _).bind
    fun _ ↦ keepsId_ensureId.bind fun _ ↦ respects_get.bind fun s' ↦ ?_
  · exact fun _ ↦ rfl
  dsimp only
  split
  · exact keepsId_ensureAuthenticator.bind fun _ ↦ keepsId_refreshMessageAuthenticator E
  · exact respects_pure _

theorem keepsId_ensureMessageAuthenticator : Respects KeepsId (ensureMessageAuthenticator E) := by
  refine respects_get.bind fun s ↦ ?_
  dsimp only
  split
  · exact respects_pure _
  split
  · exact keepsId_modify fun _ ↦ rfl
  · exact keepsId_addMessageAuthenticator E

theorem keepsId_prepareRequestMessageAuthenticator (required : Bool) :
    Respects KeepsId (prepareRequestMessageAuthenticator E required) := by
  refine respects_get.bind fun s ↦ ?_
  dsimp only
  split
  · exact respects_pure _
  split
  · exact respects_pure _
  split
  · exact keepsId_ensureMessageAuthenticator E
  · exact respects_pure _

theorem keepsId_refreshIfCarried : Respects KeepsId (refreshIfCarried E) := by
  refine respects_get.bind fun s ↦ ?_
  split
  · exact keepsId_refreshMessageAuthenticator E
  · exact respects_pure _

/-! ### Requests -/

theorem keepsId_encodeV10RequestWithRandomAuthenticator :
    Respects KeepsId (encodeV10RequestWithRandomAuthenticator E) :=
  keepsId_ensureAuthenticator.bind fun _ ↦ (keepsId_refreshIfCarried E).bind fun _ ↦
    (keepsId_encodeAttributes E).bind fun _ ↦ respects_get.bind fun _ ↦
      (respects_liftM _).bind fun _ ↦ (respects_liftM _).bind fun _ ↦ respects_pure _

theorem keepsId_encodeV10RequestWithBodyMd5Authenticator :
    Respects KeepsId (encodeV10RequestWithBodyMd5Authenticator E) := by
  refine (keepsId_refreshIfCarried E).bind fun _ ↦ (keepsId_encodeAttributes E).bind fun _ ↦
    respects_get.bind fun _ ↦ (respects_liftM _).bind fun _ ↦ ?_
  exact Respects.bind (keepsId_modify fun _ ↦ rfl) fun _ ↦ respects_pure _

theorem keepsId_serializeV11 : Respects KeepsId (serializeV11 E) :=
  (keepsId_encodeAttributes E).bind fun _ ↦ respects_get.bind fun _ ↦
    (respects_liftM _).bind fun _ ↦ respects_pure _

/-- **A request keeps its identifier**, also when it cannot be serialized. -/
theorem keepsId_requestPacket : Respects KeepsId (requestPacket E) := by
  refine respects_get.bind fun s ↦ ?_
  dsimp only
  split
  · exact respects_throw_bind _ _
  refine keepsId_ensureId.bind fun _ ↦ ?_
  split
  · exact keepsId_serializeV11 E
  split
  · exact keepsId_ensureAuthenticator.bind fun _ ↦
      (keepsId_prepareRequestMessageAuthenticator E false).bind fun _ ↦
        keepsId_encodeV10RequestWithRandomAuthenticator E
  · exact keepsId_encodeV10RequestWithRandomAuthenticator E
  · exact keepsId_encodeV10RequestWithBodyMd5Authenticator E

/-! ### Replies -/

theorem keepsId_verifyAttributes : Respects KeepsId (verifyAttributes E) := by
  refine respects_get.bind fun s ↦ ?_
  split
  · exact (keepsId_setMessageAuthenticator E _).bind fun _ ↦ keepsId_encodeAttributes E
  · exact (keepsId_setMessageAuthenticator E _).bind fun _ ↦ keepsId_encodeAttributes E
  · exact respects_liftM _

theorem keepsId_verifyMessageAuthenticator (secret originalAuthenticator : Option Bytes)
    (originalCode : Option ℕ) :
    Respects KeepsId (verifyMessageAuthenticator E secret originalAuthenticator originalCode) := by
  refine respects_get.bind fun s ↦ ?_
  dsimp only
  split
  · exact respects_throw_bind _ _
  refine (respects_liftM _).bind fun prevMa ↦ (keepsId_verifyAttributes E).bind fun attr ↦
    respects_get.bind fun s' ↦ (respects_liftM _).bind fun header ↦ (respects_liftM _).bind
      fun authenticator ↦ (respects_liftM _).bind fun prev ↦
        (keepsId_setMessageAuthenticator E _).bind fun _ ↦ ?_
  split
  · exact respects_pure _
  · exact respects_throw _

theorem keepsId_requireValidMessageAuthenticator (secret originalAuthenticator : Option Bytes)
    (originalCode : Option ℕ) : Respects KeepsId
      (requireValidMessageAuthenticator E secret originalAuthenticator originalCode) := by
  refine (Method.respects_catchException (keepsId_verifyMessageAuthenticator E _ _ _)
    (respects_throw _)).bind fun isValid ↦ ?_
  split
  · exact respects_pure _
  · exact respects_throw _

/-- **A reply keeps its identifier while it is checked.** -/
theorem keepsId_verifyReply (p : Packet) (raw : Bytes) (enforceMa : Bool) :
    Respects KeepsId (verifyReply E p (some raw) enforceMa) := by
  refine respects_get.bind fun s ↦ ?_
  dsimp only
  split
  · exact respects_pure _
  split
  · exact respects_pure _
  refine (respects_pure raw).bind fun raw ↦ (keepsId_encodeAttributes E).bind fun _ ↦
    (respects_liftM _).bind fun authenticator ↦ ?_
  split
  · exact respects_pure _
  refine respects_get.bind fun s' ↦ ?_
  split
  · refine Respects.tryCatch ((keepsId_requireValidMessageAuthenticator E _ _ _).bind fun _ ↦
      respects_pure _) fun e ↦ ?_
    split
    · exact respects_pure _
    · exact respects_throw _
  · exact respects_pure _

end

end Packet

end Pyrad2
