import Mathlib.Data.List.Induction
import Mathlib.Tactic.Ring

/-!
# Byte strings

Byte strings as lists of bytes, with the three tools a wire format needs: unsigned integers of a
fixed width, bytewise exclusive or, and cutting into pieces of bounded length.
-/

/-- A byte string. -/
abbrev Bytes := List UInt8

namespace Bytes

/-! ### Big-endian integers -/

/-- The low `w` bytes of `n`, most significant first. -/
def ofNatBE : ℕ → ℕ → Bytes
  | 0, _ => []
  | w + 1, n => ofNatBE w (n / 256) ++ [UInt8.ofNat n]

/-- The number a byte string spells, most significant byte first. -/
def toNatBE (b : Bytes) : ℕ :=
  b.foldl (fun n x ↦ n * 256 + x.toNat) 0

@[simp] theorem length_ofNatBE (w n : ℕ) : (ofNatBE w n).length = w := by
  induction w generalizing n with
  | zero => rfl
  | succ w ih => simp [ofNatBE, ih]

theorem toNatBE_append_singleton (b : Bytes) (x : UInt8) :
    toNatBE (b ++ [x]) = toNatBE b * 256 + x.toNat := by
  simp [toNatBE]

theorem toNatBE_ofNatBE {w n : ℕ} (h : n < 256 ^ w) : toNatBE (ofNatBE w n) = n := by
  induction w generalizing n with
  | zero => simp_all [ofNatBE, toNatBE]
  | succ w ih =>
    have hdiv : n / 256 < 256 ^ w := by
      rw [Nat.div_lt_iff_lt_mul (by norm_num)]
      rwa [pow_succ] at h
    rw [ofNatBE, toNatBE_append_singleton, ih hdiv]
    have : (UInt8.ofNat n).toNat = n % 256 := by simp
    omega

theorem toNatBE_lt (b : Bytes) : toNatBE b < 256 ^ b.length := by
  induction b using List.reverseRecOn with
  | nil => simp [toNatBE]
  | append_singleton b x ih =>
    rw [toNatBE_append_singleton, List.length_append, List.length_singleton, pow_succ]
    have := x.toNat_lt
    omega

/-- A byte string is determined by its length and the number it spells. -/
theorem ofNatBE_toNatBE (b : Bytes) : ofNatBE b.length (toNatBE b) = b := by
  induction b using List.reverseRecOn with
  | nil => rfl
  | append_singleton b x ih =>
    have hx := x.toNat_lt
    rw [toNatBE_append_singleton, List.length_append, List.length_singleton, ofNatBE]
    congr 1
    · rw [show (toNatBE b * 256 + x.toNat) / 256 = toNatBE b by omega, ih]
    · rw [List.singleton_inj, ← UInt8.toNat_inj]
      simp

/-! ### Little-endian integers -/

/-- The low `w` bytes of `n`, least significant first. -/
def ofNatLE : ℕ → ℕ → Bytes
  | 0, _ => []
  | w + 1, n => UInt8.ofNat n :: ofNatLE w (n / 256)

/-- The number a byte string spells, least significant byte first. -/
def toNatLE : Bytes → ℕ
  | [] => 0
  | x :: b => x.toNat + 256 * toNatLE b

@[simp] theorem length_ofNatLE (w n : ℕ) : (ofNatLE w n).length = w := by
  induction w generalizing n with
  | zero => rfl
  | succ w ih => rw [ofNatLE, List.length_cons, ih]

theorem toNatLE_lt (b : Bytes) : toNatLE b < 256 ^ b.length := by
  induction b with
  | nil => exact Nat.one_pos
  | cons x b ih =>
    rw [toNatLE, List.length_cons, pow_succ]
    have := x.toNat_lt
    omega

/-! ### Exclusive or -/

/-- Bytewise exclusive or. -/
def xor (a b : Bytes) : Bytes := List.zipWith (· ^^^ ·) a b

@[simp] theorem length_xor (a b : Bytes) : (xor a b).length = min a.length b.length := by
  simp [xor]

theorem xor_comm (a b : Bytes) : xor a b = xor b a := by
  rw [xor, xor, List.zipWith_comm_of_comm UInt8.xor_comm]

/-- The mask may be longer than what it masks. -/
theorem take_xor {n : ℕ} (a b : Bytes) : (xor a b).take n = xor a (b.take n) := by
  rw [xor, xor, List.take_zipWith]
  induction n generalizing a b with
  | zero => simp
  | succ n ih =>
    rcases a with - | ⟨x, a⟩
    · simp
    rcases b with - | ⟨y, b⟩
    · simp
    simp only [List.take_succ_cons, List.zipWith_cons_cons]
    rw [ih]

/-- Masking twice with one key restores the text the key covers. -/
theorem xor_xor_cancel {k b : Bytes} (h : b.length ≤ k.length) : xor k (xor k b) = b := by
  induction k generalizing b with
  | nil => cases b <;> simp_all [xor]
  | cons x k ih =>
    cases b with
    | nil => simp [xor]
    | cons y b =>
      have hb : b.length ≤ k.length := by simpa using h
      have hxy : x ^^^ (x ^^^ y) = y := by
        rw [← UInt8.xor_assoc, UInt8.xor_self, UInt8.zero_xor]
      simpa [xor, hxy] using ih hb

/-! ### Cutting into pieces -/

/-- The consecutive pieces of `b` of length `n`; the last one may be shorter. -/
def chunksOf (n : ℕ) (b : Bytes) : List Bytes :=
  (List.range ((b.length + n - 1) / n)).map fun i ↦ (b.drop (n * i)).take n

@[simp] theorem chunksOf_nil (n : ℕ) : chunksOf n [] = [] := by
  rcases Nat.eq_zero_or_pos n with rfl | hn
  · simp [chunksOf]
  · simp [chunksOf, Nat.div_eq_of_lt (show n - 1 < n by omega)]

theorem chunksOf_of_ne_nil {n : ℕ} (hn : 0 < n) {b : Bytes} (hb : b ≠ []) :
    chunksOf n b = b.take n :: chunksOf n (b.drop n) := by
  have hlen : 0 < b.length := List.length_pos_iff.2 hb
  have hcount : (b.length + n - 1) / n = ((b.drop n).length + n - 1) / n + 1 := by
    rw [List.length_drop]
    rcases Nat.lt_or_ge b.length n with h | h
    · rw [show b.length - n + n - 1 = n - 1 by omega, Nat.div_eq_of_lt (show n - 1 < n by omega),
        show b.length + n - 1 = (b.length - 1) + n by omega, Nat.add_div_right _ hn,
        Nat.div_eq_of_lt (by omega)]
    · rw [show b.length + n - 1 = (b.length - n + n - 1) + n by omega, Nat.add_div_right _ hn]
  rw [chunksOf, hcount, List.range_succ_eq_map, List.map_cons, List.map_map, chunksOf]
  simp only [Nat.mul_zero, List.drop_zero, List.drop_drop, Function.comp_def, Nat.succ_eq_add_one]
  congr 1
  refine List.map_congr_left fun i _ ↦ ?_
  rw [show n * (i + 1) = n + n * i by ring]

theorem chunksOf_of_length_le {n : ℕ} {b : Bytes} (hb : b ≠ []) (h : b.length ≤ n) :
    chunksOf n b = [b] := by
  have hn : 0 < n := lt_of_lt_of_le (List.length_pos_iff.2 hb) h
  rw [chunksOf_of_ne_nil hn hb, List.take_of_length_le h, List.drop_of_length_le h, chunksOf_nil]

/-- Cutting at a multiple of the piece length cuts between two pieces. -/
theorem chunksOf_append {n : ℕ} (hn : 0 < n) {a : Bytes} (ha : a.length = n) (b : Bytes) :
    chunksOf n (a ++ b) = a :: chunksOf n b := by
  have hne : a ++ b ≠ [] := by
    rw [← List.length_pos_iff, List.length_append]
    omega
  rw [chunksOf_of_ne_nil hn hne, List.take_left' ha, List.drop_left' ha]

theorem flatten_chunksOf {n : ℕ} (hn : 0 < n) (b : Bytes) : (chunksOf n b).flatten = b := by
  induction hlen : b.length using Nat.strong_induction_on generalizing b with
  | _ len ih =>
    by_cases hb : b = []
    · simp [hb]
    · have hpos : 0 < b.length := List.length_pos_iff.2 hb
      rw [chunksOf_of_ne_nil hn hb, List.flatten_cons,
        ih (b.drop n).length (by rw [List.length_drop]; omega) _ rfl, List.take_append_drop]

theorem length_le_of_mem_chunksOf {n : ℕ} {b c : Bytes} (h : c ∈ chunksOf n b) :
    c.length ≤ n := by
  obtain ⟨i, -, rfl⟩ := List.mem_map.1 h
  exact List.length_take_le ..

/-- The pieces of whole blocks are whole. -/
theorem length_of_mem_chunksOf {n : ℕ} (hn : 0 < n) {b block : Bytes} (hb : n ∣ b.length)
    (h : block ∈ chunksOf n b) : block.length = n := by
  obtain ⟨i, hi, rfl⟩ := List.mem_map.1 h
  obtain ⟨k, hk⟩ := hb
  have hcount : (b.length + n - 1) / n = k := by
    rw [hk, Nat.add_sub_assoc hn, Nat.mul_add_div hn, Nat.div_eq_of_lt (by omega), Nat.add_zero]
  rw [List.mem_range, hcount] at hi
  have hle : n * (i + 1) ≤ n * k := Nat.mul_le_mul_left n hi
  rw [List.length_take, List.length_drop, hk, Nat.min_eq_left]
  rw [Nat.mul_succ] at hle
  omega

end Bytes
