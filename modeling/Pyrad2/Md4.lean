import Pyrad2.Exceptions
import Pyrad2.Foundations.Rfc1320
import Mathlib.Data.Fin.VecNotation
import Mathlib.Data.Nat.Bitwise

/-!
# The bundled MD4

`_md4.md4` computes with integers that are masked to 32 bits, in loops whose branches take the
registers in turn, and pads in a loop of its own.

Its rounds are those of the specification on words: a masked integer is a word, each branch is one
of the listed operations, and the loop over offsets goes through the blocks.
-/

namespace Pyrad2

namespace Md4

/-- `0xFFFFFFFF` -/
abbrev mask : ℕ := 0xFFFFFFFF

/-- `_F(x, y, z)`; `~x & 0xFFFFFFFF` are the bits of the mask that `x` lacks. -/
def F (x y z : ℕ) : ℕ := ((x &&& y) ||| (mask.ldiff x &&& z)) &&& mask

/-- `_G(x, y, z)` -/
def G (x y z : ℕ) : ℕ := ((x &&& y) ||| (x &&& z) ||| (y &&& z)) &&& mask

/-- `_H(x, y, z)` -/
def H (x y z : ℕ) : ℕ := (x ^^^ y ^^^ z) &&& mask

/-- `_rotl(value, shift)` -/
def rotl (value shift : ℕ) : ℕ :=
  let value := value &&& mask
  ((value <<< shift) ||| (value >>> (32 - shift))) &&& mask

/-- `_ROUND1_S` -/
def round1S : Fin 4 → ℕ := ![3, 7, 11, 19]

/-- `_ROUND2_S` -/
def round2S : Fin 4 → ℕ := ![3, 5, 9, 13]

/-- `_ROUND3_S` -/
def round3S : Fin 4 → ℕ := ![3, 9, 11, 15]

/-- `_ROUND2_K` -/
def round2K : Fin 16 → ℕ := ![0, 4, 8, 12, 1, 5, 9, 13, 2, 6, 10, 14, 3, 7, 11, 15]

/-- `_ROUND3_K` -/
def round3K : Fin 16 → ℕ := ![0, 8, 4, 12, 2, 10, 6, 14, 1, 9, 5, 13, 3, 11, 7, 15]

/-! ### The rounds -/

/-- A word of a block by its number. -/
def wordIndex (k : ℕ) : Fin 16 := ⟨k % 16, Nat.mod_lt k (Nat.succ_pos 15)⟩

/-- The local variables `a`, `b`, `c` and `d`. -/
structure Registers where
  a : ℕ
  b : ℕ
  c : ℕ
  d : ℕ

/-- The body of the loop of round 1. -/
def round1Step (x : Fin 16 → ℕ) (r : Registers) (j : Fin 16) : Registers :=
  let s := round1S (Fin.ofNat 4 j)
  if j.val % 4 = 0 then { r with a := rotl ((r.a + F r.b r.c r.d + x j) &&& mask) s }
  else if j.val % 4 = 1 then { r with d := rotl ((r.d + F r.a r.b r.c + x j) &&& mask) s }
  else if j.val % 4 = 2 then { r with c := rotl ((r.c + F r.d r.a r.b + x j) &&& mask) s }
  else { r with b := rotl ((r.b + F r.c r.d r.a + x j) &&& mask) s }

/-- The body of the loop of round 2. -/
def round2Step (x : Fin 16 → ℕ) (r : Registers) (j : Fin 16) : Registers :=
  let k := wordIndex (round2K j)
  let s := round2S (Fin.ofNat 4 j)
  if j.val % 4 = 0 then
    { r with a := rotl ((r.a + G r.b r.c r.d + x k + 0x5A827999) &&& mask) s }
  else if j.val % 4 = 1 then
    { r with d := rotl ((r.d + G r.a r.b r.c + x k + 0x5A827999) &&& mask) s }
  else if j.val % 4 = 2 then
    { r with c := rotl ((r.c + G r.d r.a r.b + x k + 0x5A827999) &&& mask) s }
  else { r with b := rotl ((r.b + G r.c r.d r.a + x k + 0x5A827999) &&& mask) s }

/-- The body of the loop of round 3. -/
def round3Step (x : Fin 16 → ℕ) (r : Registers) (j : Fin 16) : Registers :=
  let k := wordIndex (round3K j)
  let s := round3S (Fin.ofNat 4 j)
  if j.val % 4 = 0 then
    { r with a := rotl ((r.a + H r.b r.c r.d + x k + 0x6ED9EBA1) &&& mask) s }
  else if j.val % 4 = 1 then
    { r with d := rotl ((r.d + H r.a r.b r.c + x k + 0x6ED9EBA1) &&& mask) s }
  else if j.val % 4 = 2 then
    { r with c := rotl ((r.c + H r.d r.a r.b + x k + 0x6ED9EBA1) &&& mask) s }
  else { r with b := rotl ((r.b + H r.c r.d r.a + x k + 0x6ED9EBA1) &&& mask) s }

/-! ### The digest -/

/-- `struct.unpack("<16I", block)` -/
def unpack16I (block : Bytes) : Except Exn (Fin 16 → ℕ) :=
  if block.length = 64 then .ok fun j ↦ Bytes.toNatLE ((block.drop (4 * j.val)).take 4)
  else .error .structError

/-- `struct.pack("<Q", n)` -/
def packQ (n : ℕ) : Except Exn Bytes :=
  if n < 2 ^ 64 then .ok (Bytes.ofNatLE 8 n) else .error .structError

/-- `struct.pack("<4I", a, b, c, d)` -/
def pack4I (r : Registers) : Except Exn Bytes :=
  if r.a < 2 ^ 32 ∧ r.b < 2 ^ 32 ∧ r.c < 2 ^ 32 ∧ r.d < 2 ^ 32 then
    .ok (Bytes.ofNatLE 4 r.a ++ Bytes.ofNatLE 4 r.b ++ Bytes.ofNatLE 4 r.c ++ Bytes.ofNatLE 4 r.d)
  else .error .structError

/-- `while (len(padded) * 8) % 512 != 448: padded = padded + b"\x00"` -/
def padLoop : ℕ → Bytes → Except Exn Bytes
  | 0, _ => .error .divergence
  | fuel + 1, padded =>
    if (padded.length * 8) % 512 ≠ 448 then padLoop fuel (padded ++ [0]) else .ok padded

/-- The loops of the three rounds, `for j in range(16)` each. -/
def rounds (x : Fin 16 → ℕ) (r : Registers) : Registers :=
  let r := (List.finRange 16).foldl (round1Step x) r
  let r := (List.finRange 16).foldl (round2Step x) r
  (List.finRange 16).foldl (round3Step x) r

/-- The body of the loop over the blocks, on `a0`, `b0`, `c0` and `d0`. -/
def blockStep (padded : Bytes) (r : Registers) (offset : ℕ) : Except Exn Registers := do
  let x ← unpack16I ((padded.drop offset).take 64)
  let r' := rounds x r
  return ⟨(r.a + r'.a) &&& mask, (r.b + r'.b) &&& mask, (r.c + r'.c) &&& mask,
    (r.d + r'.d) &&& mask⟩

/-- `range(0, len(padded), 64)` -/
def offsets (padded : Bytes) : List ℕ := (List.range ((padded.length + 63) / 64)).map (64 * ·)

/-- `md4(message)` -/
def md4 (message : Bytes) : Except Exn Bytes := do
  let bitLength := message.length * 8
  let padded := message ++ [0x80]
  -- the loop ends before it has added a block
  let padded ← padLoop 64 padded
  let packed ← packQ bitLength
  let padded := padded ++ packed
  let r ← (offsets padded).foldlM (blockStep padded) ⟨0x67452301, 0xEFCDAB89, 0x98BADCFE, 0x10325476⟩
  pack4I r

/-! ### Masked integers are words -/

section

open Rfc1320 (Word Buffer Order Operation Round)

theorem and_mask (n : ℕ) : n &&& mask = n % 2 ^ 32 := Nat.and_two_pow_sub_one_eq_mod n 32

theorem toNat_and_mask (w : Word) : w.toNat &&& mask = w.toNat := by
  rw [and_mask, Nat.mod_eq_of_lt w.isLt]

theorem mask_ldiff (w : Word) : mask.ldiff w.toNat = (~~~w).toNat := by
  refine Nat.eq_of_testBit_eq fun i ↦ ?_
  rw [Nat.testBit_ldiff, show mask = 2 ^ 32 - 1 from rfl, Nat.testBit_two_pow_sub_one,
    BitVec.testBit_toNat, BitVec.testBit_toNat, BitVec.getLsbD_not]

theorem F_toNat (x y z : Word) : F x.toNat y.toNat z.toNat = (Rfc1320.F x y z).toNat := by
  rw [F, mask_ldiff, ← BitVec.toNat_and, ← BitVec.toNat_and, ← BitVec.toNat_or, toNat_and_mask,
    Rfc1320.F]

theorem G_toNat (x y z : Word) : G x.toNat y.toNat z.toNat = (Rfc1320.G x y z).toNat := by
  rw [G, ← BitVec.toNat_and, ← BitVec.toNat_and, ← BitVec.toNat_and, ← BitVec.toNat_or,
    ← BitVec.toNat_or, toNat_and_mask, Rfc1320.G]

theorem H_toNat (x y z : Word) : H x.toNat y.toNat z.toNat = (Rfc1320.H x y z).toNat := by
  rw [H, ← BitVec.toNat_xor, ← BitVec.toNat_xor, toNat_and_mask, Rfc1320.H]

theorem rotl_toNat (w : Word) {s : ℕ} (hs : s < 32) :
    rotl w.toNat s = (w.rotateLeft s).toNat := by
  have hright : w.toNat >>> (32 - s) < 2 ^ 32 :=
    lt_of_le_of_lt (Nat.shiftRight_le _ _) w.isLt
  rw [rotl, toNat_and_mask, Nat.and_or_distrib_right, and_mask, and_mask,
    Nat.mod_eq_of_lt hright, BitVec.toNat_rotateLeft, Nat.mod_eq_of_lt hs]

/-- What an operation adds up and rotates. -/
theorem rotl_add_toNat (a f x t : Word) {s : ℕ} (hs : s < 32) :
    rotl ((a.toNat + f.toNat + x.toNat + t.toNat) &&& mask) s =
      ((a + f + x + t).rotateLeft s).toNat := by
  rw [← rotl_toNat _ hs, and_mask]
  simp only [BitVec.toNat_add, Nat.mod_add_mod]

/-! ### The loops are the tables -/

/-- The buffer, as four local variables. -/
def registers (v : Buffer) : Registers := ⟨v.a.toNat, v.b.toNat, v.c.toNat, v.d.toNat⟩

/-- The order that goes with the branch for `j`. -/
def orderOf (j : Fin 16) : Order :=
  if j.val % 4 = 0 then .abcd
  else if j.val % 4 = 1 then .dabc
  else if j.val % 4 = 2 then .cdab
  else .bcda

/-- The operation that a loop with these shifts and this permutation does for `j`. -/
def operationOf (k : Fin 16 → ℕ) (s : Fin 4 → ℕ) (j : Fin 16) : Operation :=
  ⟨orderOf j, wordIndex (k j), s (Fin.ofNat 4 j)⟩

theorem operations_round1 :
    Rfc1320.round1.operations = (List.finRange 16).map (operationOf Fin.val round1S) := rfl

theorem operations_round2 :
    Rfc1320.round2.operations = (List.finRange 16).map (operationOf round2K round2S) := rfl

theorem operations_round3 :
    Rfc1320.round3.operations = (List.finRange 16).map (operationOf round3K round3S) := rfl

variable (x : Fin 16 → Word) (v : Buffer) (j : Fin 16)

/-- One operation of a table, in the four branches of a loop. -/
theorem registers_step (r : Round) (k : Fin 16 → ℕ) (s : Fin 4 → ℕ) :
    registers (r.step x v (operationOf k s j)) =
      if j.val % 4 = 0 then
        { registers v with a := (r.word x (operationOf k s j) v.a v.b v.c v.d).toNat }
      else if j.val % 4 = 1 then
        { registers v with d := (r.word x (operationOf k s j) v.d v.a v.b v.c).toNat }
      else if j.val % 4 = 2 then
        { registers v with c := (r.word x (operationOf k s j) v.c v.d v.a v.b).toNat }
      else { registers v with b := (r.word x (operationOf k s j) v.b v.c v.d v.a).toNat } := by
  have hbranch : j.val % 4 = 0 ∨ j.val % 4 = 1 ∨ j.val % 4 = 2 ∨ j.val % 4 = 3 := by omega
  rw [Round.step]
  rcases hbranch with h | h | h | h <;> simp [operationOf, orderOf, registers, h]

theorem round1Step_registers :
    round1Step (fun j ↦ (x j).toNat) (registers v) j =
      registers (Rfc1320.round1.step x v (operationOf Fin.val round1S j)) := by
  have hs : ∀ i, round1S i < 32 := by decide
  have hword (a b c d : Word) :
      rotl ((a.toNat + (Rfc1320.F b c d).toNat + (x j).toNat) &&& mask)
          (round1S (Fin.ofNat 4 j)) =
        (Rfc1320.round1.word x (operationOf Fin.val round1S j) a b c d).toNat := by
    have hindex : (operationOf Fin.val round1S j).k = j := Fin.ext (Nat.mod_eq_of_lt j.isLt)
    rw [Round.word, hindex]
    -- the table adds a constant in every round, which is zero in this one
    exact rotl_add_toNat a _ _ 0 (hs _)
  rw [registers_step, round1Step]
  simp only [registers, F_toNat, hword]

theorem round2Step_registers :
    round2Step (fun j ↦ (x j).toNat) (registers v) j =
      registers (Rfc1320.round2.step x v (operationOf round2K round2S j)) := by
  have hs : ∀ i, round2S i < 32 := by decide
  have hword (a b c d : Word) :
      rotl ((a.toNat + (Rfc1320.G b c d).toNat + (x (wordIndex (round2K j))).toNat +
          0x5A827999) &&& mask) (round2S (Fin.ofNat 4 j)) =
        (Rfc1320.round2.word x (operationOf round2K round2S j) a b c d).toNat :=
    rotl_add_toNat a _ _ 0x5A827999 (hs _)
  rw [registers_step, round2Step]
  simp only [registers, G_toNat, hword]

theorem round3Step_registers :
    round3Step (fun j ↦ (x j).toNat) (registers v) j =
      registers (Rfc1320.round3.step x v (operationOf round3K round3S j)) := by
  have hs : ∀ i, round3S i < 32 := by decide
  have hword (a b c d : Word) :
      rotl ((a.toNat + (Rfc1320.H b c d).toNat + (x (wordIndex (round3K j))).toNat +
          0x6ED9EBA1) &&& mask) (round3S (Fin.ofNat 4 j)) =
        (Rfc1320.round3.word x (operationOf round3K round3S j) a b c d).toNat :=
    rotl_add_toNat a _ _ 0x6ED9EBA1 (hs _)
  rw [registers_step, round3Step]
  simp only [registers, H_toNat, hword]

/-- **A loop over `j` is a round**, if each of its turns is an operation of the table. -/
theorem foldl_registers {r : Round} {g : Registers → Fin 16 → Registers}
    {operation : Fin 16 → Operation} (hr : r.operations = (List.finRange 16).map operation)
    (hg : ∀ v j, g (registers v) j = registers (r.step x v (operation j))) :
    (List.finRange 16).foldl g (registers v) = registers (r.run x v) := by
  rw [Round.run, hr, List.foldl_map]
  exact List.foldl_hom registers fun v j ↦ hg v j

theorem rounds_registers :
    rounds (fun j ↦ (x j).toNat) (registers v) =
      registers (Rfc1320.round3.run x (Rfc1320.round2.run x (Rfc1320.round1.run x v))) := by
  rw [rounds, foldl_registers x _ operations_round1 (round1Step_registers x),
    foldl_registers x _ operations_round2 (round2Step_registers x),
    foldl_registers x _ operations_round3 (round3Step_registers x)]

/-! ### The loop over the blocks -/

theorem unpack16I_of_length {block : Bytes} (h : block.length = 64) :
    unpack16I block = .ok fun j ↦ (Rfc1320.words block j).toNat := by
  rw [unpack16I, if_pos h]
  refine congrArg Except.ok (funext fun j ↦ ?_)
  have hlength : ((block.drop (4 * j.val)).take 4).length ≤ 4 := List.length_take_le ..
  have hlt := Bytes.toNatLE_lt ((block.drop (4 * j.val)).take 4)
  have hpow := Nat.pow_le_pow_right (show 0 < 256 by omega) hlength
  rw [Rfc1320.words, Rfc1320.wordOf, BitVec.toNat_ofNat, Nat.mod_eq_of_lt (by omega)]

theorem blockStep_registers {padded : Bytes} {offset : ℕ}
    (h : ((padded.drop offset).take 64).length = 64) :
    blockStep padded (registers v) offset =
      .ok (registers (Rfc1320.compress v ((padded.drop offset).take 64))) := by
  have hadd (a b : Word) : (a.toNat + b.toNat) &&& mask = (a + b).toNat := by
    rw [and_mask, BitVec.toNat_add]
  rw [blockStep, unpack16I_of_length h, Except.bind_of_ok, rounds_registers, Rfc1320.compress]
  simp only [registers, hadd]
  rfl

theorem foldlM_blockStep {padded : Bytes} {offsets : List ℕ}
    (h : ∀ offset ∈ offsets, ((padded.drop offset).take 64).length = 64) :
    offsets.foldlM (blockStep padded) (registers v) =
      .ok (registers ((offsets.map fun offset ↦ (padded.drop offset).take 64).foldl
        Rfc1320.compress v)) := by
  induction offsets generalizing v with
  | nil => rfl
  | cons offset offsets ih =>
    rw [List.foldlM_cons, blockStep_registers v (h offset (List.mem_cons_self ..)),
      Except.bind_of_ok, ih _ fun o ho ↦ h o (List.mem_cons_of_mem _ ho)]
    rfl

/-- The slices at the offsets are the blocks. -/
theorem map_offsets (padded : Bytes) :
    (offsets padded).map (fun offset ↦ (padded.drop offset).take 64) =
      Bytes.chunksOf 64 padded := by
  rw [offsets, List.map_map, Bytes.chunksOf]
  rfl

/-! ### The padding -/

/-- The loop stops at the first length that leaves room for eight bytes in a block. -/
theorem padLoop_eq {k fuel : ℕ} (b : Bytes) (hk : k < 64) (h : (b.length + k) % 64 = 56)
    (hfuel : k < fuel) : padLoop fuel b = .ok (b ++ List.replicate k 0) := by
  induction k generalizing b fuel with
  | zero =>
    obtain ⟨fuel, rfl⟩ : ∃ n, fuel = n + 1 := ⟨fuel - 1, by omega⟩
    rw [padLoop, if_neg (by omega)]
    simp
  | succ k ih =>
    obtain ⟨fuel, rfl⟩ : ∃ n, fuel = n + 1 := ⟨fuel - 1, by omega⟩
    have hlength : (b ++ [0]).length = b.length + 1 := List.length_append
    rw [padLoop, if_pos (by omega), ih (b ++ [0]) (by omega) (by omega) (by omega),
      List.append_assoc]
    rfl

theorem padLoop_message (message : Bytes) :
    padLoop 64 (message ++ [0x80]) =
      .ok (message ++ [0x80] ++ List.replicate (Rfc1320.zeroCount message.length) 0) := by
  have hlength : (message ++ [0x80]).length = message.length + 1 := List.length_append
  have hcount : Rfc1320.zeroCount message.length < 64 := Nat.mod_lt _ (by omega)
  refine padLoop_eq _ hcount ?_ hcount
  rw [hlength, Rfc1320.zeroCount]
  omega

/-! ### The digest -/

theorem pack4I_registers (v : Buffer) : pack4I (registers v) = .ok v.output :=
  if_pos ⟨v.a.isLt, v.b.isLt, v.c.isLt, v.d.isLt⟩

theorem registers_initial :
    registers Rfc1320.initial = ⟨0x67452301, 0xEFCDAB89, 0x98BADCFE, 0x10325476⟩ := rfl

/-- **MD4 is RFC 1320**: on every message whose length in bits can be packed into 64 bits. -/
theorem md4_eq_digest {message : Bytes} (h : message.length < 2 ^ 61) :
    md4 message = .ok (Rfc1320.digest message) := by
  have hpack : packQ (message.length * 8) = .ok (Bytes.ofNatLE 8 (8 * message.length)) := by
    rw [packQ, if_pos (by omega), Nat.mul_comm]
  have hwhole : ∀ offset ∈ offsets (Rfc1320.pad message),
      (((Rfc1320.pad message).drop offset).take 64).length = 64 := fun offset hoffset ↦
    Bytes.length_of_mem_chunksOf (by omega) (Rfc1320.dvd_length_pad message)
      (map_offsets (Rfc1320.pad message) ▸ List.mem_map_of_mem hoffset)
  rw [md4, padLoop_message, Except.bind_of_ok, hpack, Except.bind_of_ok, ← registers_initial]
  change (offsets (Rfc1320.pad message)).foldlM (blockStep (Rfc1320.pad message))
    (registers Rfc1320.initial) >>= pack4I = _
  rw [foldlM_blockStep _ hwhole, map_offsets, Except.bind_of_ok, pack4I_registers]
  rfl

/-- The digest of `abc`. -/
theorem md4_eq_digest_abc : [0x61, 0x62, 0x63].length < 2 ^ 61 ∧
    md4 [0x61, 0x62, 0x63] = .ok (Rfc1320.digest [0x61, 0x62, 0x63]) :=
  ⟨by decide, md4_eq_digest (by decide)⟩

/-- For longer messages there is no digest. -/
theorem md4_of_le {message : Bytes} (h : 2 ^ 61 ≤ message.length) :
    md4 message = .error .structError := by
  have hpack : packQ (message.length * 8) = .error .structError := by
    rw [packQ, if_neg (by omega)]
  rw [md4, padLoop_message, Except.bind_of_ok, hpack]
  rfl

end

end Md4

end Pyrad2
