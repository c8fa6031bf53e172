import Mathlib.Data.List.DropRight
import Pyrad2.Packet.Encode
import Pyrad2.Packet.Salt

/-!
# Passwords

How `pw_decrypt` relates to `pw_crypt`.

Both directions go through the password in blocks. Every block is keyed by the ciphertext block
before it, which encrypting is the one just put out and decrypting the one just read, so the two
chains agree throughout; the salt encryption of other attributes has but one of them.
-/

namespace Pyrad2

open EStateM

namespace Packet

open Bytes

/-! ### Decrypting -/

/-- The block loop of `pw_decrypt`: every block is keyed by the one read before it. -/
def pwBlocks (E : Env) (secret : Bytes) : Bytes → List Bytes → Bytes
  | _, [] => []
  | last, block :: rest => md5KeystreamXor E secret last block ++ pwBlocks E secret block rest

/-- `pw.rstrip(b"\x00")` -/
def rstripNul (b : Bytes) : Bytes := b.rdropWhile (· = 0)

/-- `pw_decrypt(password)` of an `AuthPacket`. -/
def pwDecrypt (E : Env) (p : Packet) (password : Bytes) : Except Exn String :=
  if p.radiusVersion = .v1_1 then .ok (Tools.utf8Ignoring password)
  else
    match p.authenticator, chunksOf 16 password with
    | none, _ :: _ => .error (.typeError "can't concat NoneType to bytes")
    | authenticator, blocks =>
      let pw := rstripNul (pwBlocks E p.secret (authenticator.getD []) blocks)
      match Tools.utf8? pw with
      | some text => .ok text
      -- almost always a secret that is not the sender's
      | none => .ok (Tools.utf8Ignoring pw)

/-! ### The block loops -/

/-- **The chains agree.** Decrypting the blocks of a ciphertext gives the plaintext. -/
theorem pwBlocks_saltBlocks (E : Env) (secret last : Bytes) {blocks : List Bytes}
    (h : ∀ block ∈ blocks, block.length = 16) :
    pwBlocks E secret last (chunksOf 16 (saltBlocks E secret last blocks)) = blocks.flatten := by
  induction blocks generalizing last with
  | nil =>
    rw [saltBlocks, chunksOf_nil]
    rfl
  | cons block rest ih =>
    have hblock : block.length = 16 := h block List.mem_cons_self
    rw [saltBlocks, chunksOf_append (by norm_num) (length_md5KeystreamXor hblock ..), pwBlocks,
      md5KeystreamXor_cancel hblock, ih _ fun b hb ↦ h b (List.mem_cons_of_mem _ hb),
      List.flatten_cons]

theorem length_saltBlocks (E : Env) (secret last : Bytes) {blocks : List Bytes}
    (h : ∀ block ∈ blocks, block.length = 16) :
    (saltBlocks E secret last blocks).length = blocks.flatten.length := by
  induction blocks generalizing last with
  | nil => rfl
  | cons block rest ih =>
    have hblock : block.length = 16 := h block List.mem_cons_self
    rw [saltBlocks, List.length_append, length_md5KeystreamXor hblock,
      ih _ fun b hb ↦ h b (List.mem_cons_of_mem _ hb), List.flatten_cons, List.length_append, hblock]

/-! ### The padding -/

/-- The password with zeros up to whole blocks. -/
def pwPadded (password : Bytes) : Bytes :=
  password ++ List.replicate ((16 - password.length % 16) % 16) 0

theorem length_pwPadded (password : Bytes) :
    (pwPadded password).length = (password.length + 15) / 16 * 16 := by
  rw [pwPadded, List.length_append, List.length_replicate]
  omega

/-- The padding is stripped, and nothing else of a password that does not end in it. -/
theorem rstripNul_append {b : Bytes} (hb : b.getLast? ≠ some 0) (n : ℕ) :
    rstripNul (b ++ List.replicate n 0) = b := by
  induction n with
  | zero =>
    rw [List.replicate_zero, List.append_nil, rstripNul, List.rdropWhile_eq_self_iff]
    intro hne hzero
    exact hb ((List.getLast?_eq_getLast_of_ne_nil hne).trans (congrArg some (of_decide_eq_true hzero)))
  | succ n ih =>
    rw [List.replicate_succ', ← List.append_assoc, rstripNul, List.rdropWhile_concat_pos _ _ _ rfl]
    exact ih

/-! ### The round trip -/

/-- What `pw_crypt` returns in RADIUS/1.0. -/
theorem run_pwCrypt (E : Env) {s : PacketState} (hversion : s.pkt.radiusVersion ≠ .v1_1)
    (password : String) :
    (pwCrypt E (.str password)).run s = .ok (.bytes (saltBlocks E s.pkt.secret
      ((seeded s).pkt.authenticator.getD []) (chunksOf 16 (pwPadded (Tools.utf8 password)))))
      (seeded s) := by
  have hpad : Tools.utf8 password ++ (if (Tools.utf8 password).length % 16 ≠ 0 then
      List.replicate (16 - (Tools.utf8 password).length % 16) 0 else []) =
        pwPadded (Tools.utf8 password) := by
    rw [pwPadded]
    split
    · next hmod => rw [Nat.mod_eq_of_lt (by omega : 16 - (Tools.utf8 password).length % 16 < 16)]
    · next hmod =>
      have hzero : (16 - (Tools.utf8 password).length % 16) % 16 = 0 := by omega
      rw [hzero, List.replicate_zero]
  rw [pwCrypt, run_bind_of_ok (run_get s)]
  dsimp only
  rw [if_neg hversion, run_bind_of_ok (run_ensureAuthenticator s)]
  show EStateM.Result.ok (PyVal.bytes (saltBlocks E (seeded s).pkt.secret _ (chunksOf 16
    (Tools.utf8 password ++ _)))) _ = _
  rw [secret_seeded, ← hpad]

/-- Whoever shares the secret, the authenticator and the version of the packet reads the password
that it obfuscates. -/
def PwRoundTrips (E : Env) (s : PacketState) (password : String) : Prop :=
  ∃ c s', (pwCrypt E (.str password)).run s = .ok (.bytes c) s' ∧
    (s.pkt.radiusVersion ≠ .v1_1 → c.length = ((Tools.utf8 password).length + 15) / 16 * 16) ∧
    ∀ r : Packet, r.radiusVersion = s'.pkt.radiusVersion → r.secret = s'.pkt.secret →
      r.authenticator = s'.pkt.authenticator → pwDecrypt E r c = .ok password

theorem version_seeded (s : PacketState) :
    (seeded s).pkt.radiusVersion = s.pkt.radiusVersion := by
  rw [seeded]
  split <;> rfl

theorem isSome_authenticator_seeded (s : PacketState) :
    (seeded s).pkt.authenticator.isSome = true := by
  rw [seeded]
  split
  · next h => rw [h, Option.isSome_some]
  · rfl

/-- **The round trip of a password** whose UTF-8 form does not end in a NUL, of any length and in
both versions. -/
theorem pwRoundTrips (E : Env) (s : PacketState) {password : String}
    (hnul : (Tools.utf8 password).getLast? ≠ some 0) : PwRoundTrips E s password := by
  by_cases hversion : s.pkt.radiusVersion = .v1_1
  · refine ⟨Tools.utf8 password, s, ?_, fun h ↦ absurd hversion h, fun r hr _ _ ↦ ?_⟩
    · rw [pwCrypt, run_bind_of_ok (run_get s)]
      dsimp only
      rw [if_pos hversion]
      rfl
    · rw [pwDecrypt, if_pos (hr.trans hversion), Tools.utf8Ignoring_utf8]
  have hwhole : 16 ∣ (pwPadded (Tools.utf8 password)).length := by
    rw [length_pwPadded]
    exact Nat.dvd_mul_left ..
  have hblocks : ∀ block ∈ chunksOf 16 (pwPadded (Tools.utf8 password)), block.length = 16 :=
    fun block hblock ↦ length_of_mem_chunksOf (by norm_num) hwhole hblock
  refine ⟨_, _, run_pwCrypt E hversion password, fun _ ↦ ?_, fun r hr hsecret hauth ↦ ?_⟩
  · rw [length_saltBlocks E _ _ hblocks, flatten_chunksOf (by norm_num), length_pwPadded]
  · obtain ⟨a, ha⟩ := Option.isSome_iff_exists.1 (isSome_authenticator_seeded s)
    rw [pwDecrypt, if_neg (by rwa [hr, version_seeded]), hauth, ha]
    show (match Tools.utf8? (rstripNul (pwBlocks E r.secret a (chunksOf 16 (saltBlocks E s.pkt.secret
      a _)))) with | some text => _ | none => _) = _
    rw [hsecret, secret_seeded, pwBlocks_saltBlocks E _ _ hblocks, flatten_chunksOf (by norm_num),
      pwPadded, rstripNul_append hnul, Tools.utf8?_utf8]

/-- A password of three characters, for a sender that has an authenticator. -/
theorem pwRoundTrips_saltSender : PwRoundTrips (markedEnv []) saltSender "abc" :=
  pwRoundTrips (markedEnv []) saltSender (by decide +kernel)

end Packet

end Pyrad2
