import Pyrad2.Packet.Basic

/-!
# Salt encryption

How `salt_decrypt` relates to `salt_crypt`.

Both directions run one loop, which keys every block by the block it put out before. Encrypting,
that is the previous ciphertext block; decrypting, it is the previous plaintext block. The two
chains agree on the first block only.
-/

namespace Pyrad2

namespace Packet

open Bytes

/-! ### The block loop -/

theorem md5KeystreamXor_of_length {block : Bytes} (h : block.length = 16) (E : Env)
    (secret prev : Bytes) :
    md5KeystreamXor E secret prev block = Bytes.xor (E.md5 (secret ++ prev)) block := by
  simp [md5KeystreamXor, h]

@[simp] theorem length_md5KeystreamXor {block : Bytes} (h : block.length = 16) (E : Env)
    (secret prev : Bytes) : (md5KeystreamXor E secret prev block).length = 16 := by
  simp [md5KeystreamXor_of_length h, h]

/-- Masking a block twice under one key restores it. -/
theorem md5KeystreamXor_cancel {block : Bytes} (h : block.length = 16) (E : Env)
    (secret prev : Bytes) :
    md5KeystreamXor E secret prev (md5KeystreamXor E secret prev block) = block := by
  rw [md5KeystreamXor_of_length (length_md5KeystreamXor h ..), md5KeystreamXor_of_length h]
  exact Bytes.xor_xor_cancel (by simp [h])

/-- **The first block decrypts.** What follows it is keyed by that block's plaintext. -/
theorem saltBlocks_saltBlocks_cons {block : Bytes} (h : block.length = 16) (E : Env)
    (secret last : Bytes) (rest : List Bytes) :
    saltBlocks E secret last (chunksOf 16 (saltBlocks E secret last (block :: rest))) =
      block ++ saltBlocks E secret block
        (chunksOf 16 (saltBlocks E secret (md5KeystreamXor E secret last block) rest)) := by
  rw [saltBlocks, chunksOf_append (by norm_num) (length_md5KeystreamXor h ..), saltBlocks,
    md5KeystreamXor_cancel h]

/-! ### The padded plaintext -/

/-- Length byte, value, and zeros up to whole blocks. -/
def saltPadded (v : Bytes) : Bytes :=
  (UInt8.ofNat v.length :: v) ++ List.replicate ((16 - (v.length + 1) % 16) % 16) 0

theorem length_saltPadded (v : Bytes) : 16 ∣ (saltPadded v).length := by
  simp only [saltPadded, List.length_append, List.length_cons, List.length_replicate]
  omega

theorem packUnsigned_one {n : ℕ} (h : n < 256) : packUnsigned 1 n = .ok [UInt8.ofNat n] := by
  have hn : (0 : Int) ≤ n ∧ (n : Int) < 256 ^ 1 := by omega
  rw [packUnsigned, if_pos hn]
  simp [Bytes.ofNatBE]

theorem saltPlaintext_eq {v : Bytes} (h : v.length ≤ 255) :
    saltPlaintext v = .ok (saltPadded v) := by
  have hpack : packUnsigned 1 (v.length : Int) = .ok [UInt8.ofNat v.length] :=
    packUnsigned_one (by omega)
  rw [saltPlaintext, hpack]
  simp only [bind, Except.bind, List.singleton_append, List.length_cons]
  split
  · next hmod => rw [saltPadded, Nat.mod_eq_of_lt (show 16 - (v.length + 1) % 16 < 16 by omega)]
  · next hmod =>
    have hzero : (16 - (v.length + 1) % 16) % 16 = 0 := by omega
    rw [saltPadded, hzero]
    simp

/-! ### Running `salt_crypt` -/

/-- The state once `salt_crypt` has made sure that there is an authenticator. -/
def seeded (s : PacketState) : PacketState :=
  match s.pkt.authenticator with
  | some _ => s
  | none => ⟨{ s.pkt with authenticator := some (s.world.bytes 16).1 }, (s.world.bytes 16).2⟩

theorem run_ensureAuthenticator (s : PacketState) :
    ensureAuthenticator.run s = .ok () (seeded s) := by
  rw [ensureAuthenticator, EStateM.run_bind, seeded]
  rcases h : s.pkt.authenticator with - | a
  · simp only [EStateM.run_get, h]
    rfl
  · simp [h]

theorem secret_seeded (s : PacketState) : (seeded s).pkt.secret = s.pkt.secret := by
  rw [seeded]
  split <;> rfl

/-- A packet has an authenticator for salt encryption from then on: its own, or a drawn one. -/
theorem saltAuthenticator_seeded {s : PacketState}
    (hs : ∀ a ∈ s.pkt.saltAuthenticator, a.length = 16) :
    ∃ a, (seeded s).pkt.saltAuthenticator = some a ∧ a.length = 16 := by
  rw [seeded]
  split
  · next b hauth =>
    rcases hreq : s.pkt.requestAuthenticator with - | a
    · have hb : s.pkt.saltAuthenticator = some b := by simp [saltAuthenticator, hreq, hauth]
      exact ⟨b, hb, hs b hb⟩
    · have ha : s.pkt.saltAuthenticator = some a := by simp [saltAuthenticator, hreq]
      exact ⟨a, ha, hs a ha⟩
  · next hauth =>
    rcases hreq : s.pkt.requestAuthenticator with - | a
    · exact ⟨_, by simp [saltAuthenticator, hreq], World.length_bytes s.world 16⟩
    · have ha : s.pkt.saltAuthenticator = some a := by simp [saltAuthenticator, hreq]
      exact ⟨a, by simp [saltAuthenticator, hreq], hs a ha⟩

/-- The salt that `salt_crypt` draws. -/
def drawnSalt (s : PacketState) : Bytes :=
  Bytes.ofNatBE 2 (32768 + ((seeded s).world.randrange 0 32767).1)

@[simp] theorem length_drawnSalt (s : PacketState) : (drawnSalt s).length = 2 := by
  simp [drawnSalt]

/-- The state `salt_crypt` leaves. -/
def salted (s : PacketState) : PacketState :=
  { seeded s with world := ((seeded s).world.randrange 0 32767).2 }

theorem run_randrange (lo hi : ℕ) (s : PacketState) : (randrange lo hi).run s =
    .ok (s.world.randrange lo hi).1 { s with world := (s.world.randrange lo hi).2 } := rfl

/-- What `salt_crypt` returns for a value of at most 255 bytes. -/
theorem run_saltCrypt {s : PacketState} {a v : Bytes}
    (ha : (seeded s).pkt.saltAuthenticator = some a) (hv : v.length ≤ 255) (E : Env) :
    (saltCrypt E (.bytes v)).run s = .ok (drawnSalt s ++
      saltBlocks E s.pkt.secret (a ++ drawnSalt s) (chunksOf 16 (saltPadded v))) (salted s) := by
  have hsalt : saltEnDecrypt E (seeded s).pkt (saltPadded v) (drawnSalt s) =
      .ok (saltBlocks E s.pkt.secret (a ++ drawnSalt s) (chunksOf 16 (saltPadded v))) := by
    rw [saltEnDecrypt, ha, secret_seeded]
  simp only [saltCrypt, PyVal.asBytes_bytes, saltPlaintext_eq hv, EStateM.run_bind,
    EStateM.run_liftM_ok, run_ensureAuthenticator, run_randrange, EStateM.run_get]
  rw [← drawnSalt, hsalt]
  rfl

/-! ### The round trip -/

/-- Whoever holds the secret and the authenticator of the sender reads the value it encrypts. -/
def SaltRoundTrips (E : Env) (s : PacketState) (v : Bytes) : Prop :=
  ∃ c s', (saltCrypt E (.bytes v)).run s = .ok c s' ∧
    ∀ r : Packet, r.secret = s'.pkt.secret → r.saltAuthenticator = s'.pkt.saltAuthenticator →
      saltDecrypt E r c = .ok v

/-- What `salt_decrypt` does to the bytes of `salt_crypt`, block chain against block chain. -/
theorem saltDecrypt_append {r : Packet} {a salt : Bytes} (ha : r.saltAuthenticator = some a)
    (hsalt : salt.length = 2) (E : Env) (c : Bytes) :
    saltDecrypt E r (salt ++ c) =
      match saltBlocks E r.secret (a ++ salt) (chunksOf 16 c) with
      | [] => .error .indexError
      | length :: rest => .ok (rest.take length.toNat) := by
  simp only [saltDecrypt, List.take_left' hsalt, List.drop_left' hsalt, saltEnDecrypt, ha]
  rfl

/-- The round trip, read off the two block chains. -/
theorem saltRoundTrips_iff {s : PacketState} {a v : Bytes}
    (ha : (seeded s).pkt.saltAuthenticator = some a) (hv : v.length ≤ 255) (E : Env) :
    SaltRoundTrips E s v ↔
      ∃ length rest, saltBlocks E s.pkt.secret (a ++ drawnSalt s) (chunksOf 16
        (saltBlocks E s.pkt.secret (a ++ drawnSalt s) (chunksOf 16 (saltPadded v)))) =
          length :: rest ∧ rest.take length.toNat = v := by
  constructor
  · rintro ⟨c, s', hc, hr⟩
    rw [run_saltCrypt ha hv] at hc
    cases hc
    have hok := hr (seeded s).pkt rfl rfl
    rw [saltDecrypt_append ha (length_drawnSalt s), secret_seeded] at hok
    split at hok
    · cases hok
    · next length rest heq => exact ⟨length, rest, heq, by injection hok⟩
  · rintro ⟨length, rest, heq, hv'⟩
    refine ⟨_, _, run_saltCrypt ha hv E, fun r hsecret hauth ↦ ?_⟩
    have hauth' : r.saltAuthenticator = some a := hauth.trans ha
    have hsecret' : r.secret = s.pkt.secret := hsecret.trans (secret_seeded s)
    rw [saltDecrypt_append hauth' (length_drawnSalt s), hsecret', heq, ← hv']

theorem saltPadded_of_length_le {v : Bytes} (hv : v.length ≤ 15) :
    (saltPadded v).length = 16 := by
  simp only [saltPadded, List.length_append, List.length_cons, List.length_replicate]
  omega

/-- A value that shares its only block with its length byte comes back. -/
theorem saltRoundTrips_of_length_le {s : PacketState} {v : Bytes}
    (hs : ∀ a ∈ s.pkt.saltAuthenticator, a.length = 16) (hv : v.length ≤ 15) (E : Env) :
    SaltRoundTrips E s v := by
  obtain ⟨a, ha, -⟩ := saltAuthenticator_seeded hs
  have hlen := saltPadded_of_length_le hv
  have hne : saltPadded v ≠ [] := by
    rw [← List.length_pos_iff, hlen]
    norm_num
  have hbyte : (UInt8.ofNat v.length).toNat = v.length := by
    rw [UInt8.toNat_ofNat']
    omega
  rw [saltRoundTrips_iff ha (by omega) E, chunksOf_of_length_le hne hlen.le,
    saltBlocks_saltBlocks_cons hlen]
  refine ⟨UInt8.ofNat v.length, v ++ List.replicate ((16 - (v.length + 1) % 16) % 16) 0, ?_, ?_⟩
  · simp [saltBlocks, saltPadded]
  · rw [hbyte, List.take_left' rfl]

/-! ### Values of several blocks -/

/-- An environment that singles out one input of MD5. -/
def markedEnv (key : Bytes) : Env :=
  Env.ofByte (fun b ↦ if b = key then 0 else 255) fun _ _ ↦ 0

theorem xor_replicate_zero {n : ℕ} {b : Bytes} (h : b.length ≤ n) :
    Bytes.xor (List.replicate n 0) b = b := by
  induction b generalizing n with
  | nil => simp [Bytes.xor]
  | cons x b ih =>
    obtain ⟨n, rfl⟩ : ∃ m, n = m + 1 := ⟨n - 1, by simp at h; omega⟩
    have hx : Bytes.xor (List.replicate n 0) b = b := ih (by simpa using h)
    rw [Bytes.xor] at hx ⊢
    rw [List.replicate_succ, List.zipWith_cons_cons, hx, UInt8.zero_xor]

theorem ones_xor_ne (x : UInt8) : 255 ^^^ x ≠ x := by
  intro h
  have hcancel : (255 : UInt8) = 0 := by
    calc (255 : UInt8) = 255 ^^^ x ^^^ x := by rw [UInt8.xor_assoc, UInt8.xor_self, UInt8.xor_zero]
      _ = 0 := by rw [h, UInt8.xor_self]
  exact absurd hcancel (by decide)

theorem getElem?_xor_ones {b : Bytes} {x : UInt8} (h : b[0]? = some x) :
    (Bytes.xor (List.replicate 16 255) b)[0]? = some (255 ^^^ x) := by
  rw [Bytes.xor, List.getElem?_zipWith, h]
  rfl

/-- A block of ones under the mask changes every block. -/
theorem xor_ones_ne {b : Bytes} (h : b.length = 16) : Bytes.xor (List.replicate 16 255) b ≠ b := by
  intro heq
  obtain ⟨x, hx⟩ : ∃ x, b[0]? = some x := ⟨b[0], List.getElem?_eq_getElem (by omega)⟩
  have hflip := getElem?_xor_ones hx
  rw [heq, hx] at hflip
  exact ones_xor_ne x (Option.some.inj hflip).symm

/-- **The second block is lost** for the digest that singles out the first plaintext block: it was
masked under the ciphertext and is unmasked under the plaintext. -/
theorem markedEnv_second_block {secret last p₀ p₁ : Bytes} (h₀ : p₀.length = 16)
    (h₁ : p₁.length = 16) (hlast : last.length = 18) (rest : List Bytes) :
    ∃ tail, saltBlocks (markedEnv (secret ++ p₀)) secret last (chunksOf 16
      (saltBlocks (markedEnv (secret ++ p₀)) secret last (p₀ :: p₁ :: rest))) =
        p₀ ++ Bytes.xor (List.replicate 16 255) p₁ ++ tail := by
  have hmd5 (b : Bytes) : (markedEnv (secret ++ p₀)).md5 b =
      List.replicate 16 (if b = secret ++ p₀ then 0 else 255) := rfl
  have hfirst : md5KeystreamXor (markedEnv (secret ++ p₀)) secret last p₀ =
      Bytes.xor (List.replicate 16 255) p₀ := by
    have hne : secret ++ last ≠ secret ++ p₀ := by
      intro heq
      have := congrArg List.length (List.append_cancel_left heq)
      omega
    rw [md5KeystreamXor_of_length h₀, hmd5, if_neg hne]
  have hsecond : md5KeystreamXor (markedEnv (secret ++ p₀)) secret
      (Bytes.xor (List.replicate 16 255) p₀) p₁ = Bytes.xor (List.replicate 16 255) p₁ := by
    have hne : secret ++ Bytes.xor (List.replicate 16 255) p₀ ≠ secret ++ p₀ := fun heq ↦
      xor_ones_ne h₀ (List.append_cancel_left heq)
    rw [md5KeystreamXor_of_length h₁, hmd5, if_neg hne]
  have hlen : (Bytes.xor (List.replicate 16 255) p₁).length = 16 := by simp [h₁]
  rw [saltBlocks_saltBlocks_cons h₀, hfirst, saltBlocks, hsecond,
    chunksOf_append (by norm_num) hlen, saltBlocks, md5KeystreamXor_of_length hlen, hmd5,
    if_pos rfl, xor_replicate_zero hlen.le, ← List.append_assoc]
  exact ⟨_, rfl⟩

/-- The two first blocks of a padded plaintext that has them. -/
theorem chunksOf_saltPadded {v : Bytes} (hv : 16 ≤ v.length) :
    ∃ p₀ p₁ rest, p₀.length = 16 ∧ p₁.length = 16 ∧
      saltPadded v = p₀ ++ (p₁ ++ rest) ∧
        chunksOf 16 (saltPadded v) = p₀ :: p₁ :: chunksOf 16 rest := by
  have hlen : 32 ≤ (saltPadded v).length := by
    obtain ⟨k, hk⟩ := length_saltPadded v
    have hge : 17 ≤ (saltPadded v).length := by
      simp only [saltPadded, List.length_append, List.length_cons]
      omega
    omega
  have h₀ : ((saltPadded v).take 16).length = 16 := by
    rw [List.length_take]
    omega
  have h₁ : (((saltPadded v).drop 16).take 16).length = 16 := by
    rw [List.length_take, List.length_drop]
    omega
  have hsplit : saltPadded v = (saltPadded v).take 16 ++
      (((saltPadded v).drop 16).take 16 ++ ((saltPadded v).drop 16).drop 16) := by
    rw [List.take_append_drop, List.take_append_drop]
  refine ⟨_, _, _, h₀, h₁, hsplit, ?_⟩
  conv_lhs => rw [hsplit]
  rw [chunksOf_append (by norm_num) h₀, chunksOf_append (by norm_num) h₁]

/-- A value of more than one block is lost under some digest. -/
theorem exists_not_saltRoundTrips {s : PacketState} {v : Bytes}
    (hs : ∀ a ∈ s.pkt.saltAuthenticator, a.length = 16) (hv : v.length ≤ 255)
    (hlong : 16 ≤ v.length) : ∃ E, ¬ SaltRoundTrips E s v := by
  obtain ⟨a, ha, halen⟩ := saltAuthenticator_seeded hs
  obtain ⟨p₀, p₁, rest, h₀, h₁, hpadded, hchunks⟩ := chunksOf_saltPadded hlong
  have hlast : (a ++ drawnSalt s).length = 18 := by simp [halen]
  refine ⟨markedEnv (s.pkt.secret ++ p₀), fun htrip ↦ ?_⟩
  obtain ⟨length, tail, hread, htake⟩ := (saltRoundTrips_iff ha hv _).1 htrip
  obtain ⟨lost, hlost⟩ := markedEnv_second_block h₀ h₁ hlast (chunksOf 16 rest)
  rw [hchunks, hlost] at hread
  -- byte 15 of the value is the first byte of the second block
  obtain ⟨x, hx⟩ : ∃ x, p₁[0]? = some x := ⟨p₁[0], List.getElem?_eq_getElem (by omega)⟩
  have hvalue : v[15]? = some x := by
    have hpos : (saltPadded v)[16]? = some x := by
      rw [hpadded, List.getElem?_append_right (by omega), List.getElem?_append_left (by omega), h₀]
      exact hx
    rw [saltPadded, List.getElem?_append_left (by simp; omega)] at hpos
    exact hpos
  have hflipped : tail[15]? = some (255 ^^^ x) := by
    have hpos : (length :: tail)[16]? = some (255 ^^^ x) := by
      rw [← hread, List.append_assoc, List.getElem?_append_right (by omega),
        List.getElem?_append_left (by simp [h₁, h₀]), h₀]
      exact getElem?_xor_ones hx
    exact hpos
  have hsame : v[15]? = tail[15]? := by
    have hlt : 15 < length.toNat := by
      have := congrArg List.length htake
      rw [List.length_take] at this
      omega
    rw [← htake, List.getElem?_take_of_lt hlt]
  rw [hvalue, hflipped] at hsame
  exact ones_xor_ne x (Option.some.inj hsame).symm

/-- **The salt round trip holds for one block and no more.** Under every digest the value comes back
exactly when it shares one block with its length byte. -/
theorem forall_saltRoundTrips_iff {s : PacketState} {v : Bytes}
    (hs : ∀ a ∈ s.pkt.saltAuthenticator, a.length = 16) (hv : v.length ≤ 255) :
    (∀ E, SaltRoundTrips E s v) ↔ v.length ≤ 15 := by
  refine ⟨fun hall ↦ ?_, fun hle ↦ saltRoundTrips_of_length_le hs hle⟩
  by_contra hlong
  obtain ⟨E, hE⟩ := exists_not_saltRoundTrips hs hv (by omega)
  exact hE (hall E)

/-- A sender with a one-byte secret, whose request has an authenticator. -/
def saltSender : PacketState :=
  ⟨{ secret := [115], authenticator := some (List.replicate 16 1) }, { rng := ⟨fun _ ↦ 0⟩ }⟩

theorem forall_saltRoundTrips_iff_saltSender :
    (∀ E, SaltRoundTrips E saltSender (List.replicate 16 0)) ↔
      (List.replicate 16 (0 : UInt8)).length ≤ 15 :=
  forall_saltRoundTrips_iff (s := saltSender) (v := List.replicate 16 0)
    (by simp [saltSender, saltAuthenticator]) (by decide)

/-- Sixteen zero bytes do not come back when MD5 singles out the first plaintext block. -/
theorem not_saltRoundTrips_saltSender :
    (∀ a ∈ saltSender.pkt.saltAuthenticator, a.length = 16) ∧
      ¬ SaltRoundTrips (markedEnv (115 :: 16 :: List.replicate 15 0)) saltSender
        (List.replicate 16 0) := by
  refine ⟨by simp [saltSender, saltAuthenticator], fun ⟨c, s', hc, hr⟩ ↦ ?_⟩
  obtain ⟨c₀, s₀, hrun, hread⟩ : ∃ c₀ s₀,
      (saltCrypt (markedEnv (115 :: 16 :: List.replicate 15 0))
        (.bytes (List.replicate 16 0))).run saltSender = .ok c₀ s₀ ∧
      (saltDecrypt (markedEnv (115 :: 16 :: List.replicate 15 0)) s₀.pkt c₀).toOption ≠
        some (List.replicate 16 0) := ⟨_, _, rfl, by decide⟩
  rw [hrun] at hc
  cases hc
  rw [hr s'.pkt rfl rfl] at hread
  exact hread rfl

end Packet

end Pyrad2
