import Pyrad2.Foundations.Bytes

/-!
# MD4

The message digest of RFC 1320, in the order of its text: the padding of the message, the buffer of
four words, the three rounds with their tables of operations, and the output.

Words are bit vectors, so that addition wraps around and rotation loses no bit. Messages are byte
strings.
-/

namespace Rfc1320

/-- A quantity of 32 bits. -/
abbrev Word := BitVec 32

/-- Four bytes as a word, with the low-order byte given first. -/
def wordOf (b : Bytes) : Word := BitVec.ofNat 32 b.toNatLE

/-- A word as four bytes, low-order byte first. -/
def bytesOf (w : Word) : Bytes := Bytes.ofNatLE 4 w.toNat

/-! ### The padded message -/

/-- How many zero bytes follow the first byte of the padding: as few as make the length congruent
to 56 modulo 64. -/
def zeroCount (length : ℕ) : ℕ := (119 - length % 64) % 64

/-- A single bit "1", bits "0", and the length of the message in bits, as 64 bits. -/
def pad (m : Bytes) : Bytes :=
  m ++ [0x80] ++ List.replicate (zeroCount m.length) 0 ++ Bytes.ofNatLE 8 (8 * m.length)

/-- The padded message consists of whole blocks. -/
theorem dvd_length_pad (m : Bytes) : 64 ∣ (pad m).length := by
  simp only [pad, zeroCount, List.length_append, List.length_singleton, List.length_replicate,
    Bytes.length_ofNatLE]
  omega

/-! ### The buffer -/

/-- The buffer of four words. -/
@[ext] structure Buffer where
  a : Word
  b : Word
  c : Word
  d : Word

/-- What the buffer is set to before the first block. -/
def initial : Buffer where
  a := wordOf [0x01, 0x23, 0x45, 0x67]
  b := wordOf [0x89, 0xab, 0xcd, 0xef]
  c := wordOf [0xfe, 0xdc, 0xba, 0x98]
  d := wordOf [0x76, 0x54, 0x32, 0x10]

/-! ### The auxiliary functions -/

/-- If `x` then `y` else `z`, in each bit position. -/
def F (x y z : Word) : Word := (x &&& y) ||| (~~~x &&& z)

/-- The majority, in each bit position. -/
def G (x y z : Word) : Word := (x &&& y) ||| (x &&& z) ||| (y &&& z)

/-- The parity, in each bit position. -/
def H (x y z : Word) : Word := x ^^^ y ^^^ z

/-! ### The rounds -/

/-- The order in which an operation names the words of the buffer. -/
inductive Order
  | abcd
  | dabc
  | cdab
  | bcda

/-- An operation `[abcd k s]`: which word of the block it adds, and how far it rotates. -/
structure Operation where
  order : Order
  k : Fin 16
  s : ℕ

/-- A round: its auxiliary function, the constant it adds, and its operations. -/
structure Round where
  f : Word → Word → Word → Word
  constant : Word
  operations : List Operation

/-- `a = (a + f(b,c,d) + X[k] + constant) <<< s` -/
def Round.word (r : Round) (x : Fin 16 → Word) (op : Operation) (a b c d : Word) : Word :=
  (a + r.f b c d + x op.k + r.constant).rotateLeft op.s

/-- One operation on the buffer. -/
def Round.step (r : Round) (x : Fin 16 → Word) (v : Buffer) (op : Operation) : Buffer :=
  match op.order with
  | .abcd => { v with a := r.word x op v.a v.b v.c v.d }
  | .dabc => { v with d := r.word x op v.d v.a v.b v.c }
  | .cdab => { v with c := r.word x op v.c v.d v.a v.b }
  | .bcda => { v with b := r.word x op v.b v.c v.d v.a }

/-- All operations of a round. -/
def Round.run (r : Round) (x : Fin 16 → Word) (v : Buffer) : Buffer :=
  r.operations.foldl (r.step x) v

/-- Round 1. -/
def round1 : Round where
  f := F
  constant := 0
  operations := [
    ⟨.abcd, 0, 3⟩, ⟨.dabc, 1, 7⟩, ⟨.cdab, 2, 11⟩, ⟨.bcda, 3, 19⟩,
    ⟨.abcd, 4, 3⟩, ⟨.dabc, 5, 7⟩, ⟨.cdab, 6, 11⟩, ⟨.bcda, 7, 19⟩,
    ⟨.abcd, 8, 3⟩, ⟨.dabc, 9, 7⟩, ⟨.cdab, 10, 11⟩, ⟨.bcda, 11, 19⟩,
    ⟨.abcd, 12, 3⟩, ⟨.dabc, 13, 7⟩, ⟨.cdab, 14, 11⟩, ⟨.bcda, 15, 19⟩]

/-- Round 2, with the square root of 2. -/
def round2 : Round where
  f := G
  constant := 0x5a827999
  operations := [
    ⟨.abcd, 0, 3⟩, ⟨.dabc, 4, 5⟩, ⟨.cdab, 8, 9⟩, ⟨.bcda, 12, 13⟩,
    ⟨.abcd, 1, 3⟩, ⟨.dabc, 5, 5⟩, ⟨.cdab, 9, 9⟩, ⟨.bcda, 13, 13⟩,
    ⟨.abcd, 2, 3⟩, ⟨.dabc, 6, 5⟩, ⟨.cdab, 10, 9⟩, ⟨.bcda, 14, 13⟩,
    ⟨.abcd, 3, 3⟩, ⟨.dabc, 7, 5⟩, ⟨.cdab, 11, 9⟩, ⟨.bcda, 15, 13⟩]

/-- Round 3, with the square root of 3. -/
def round3 : Round where
  f := H
  constant := 0x6ed9eba1
  operations := [
    ⟨.abcd, 0, 3⟩, ⟨.dabc, 8, 9⟩, ⟨.cdab, 4, 11⟩, ⟨.bcda, 12, 15⟩,
    ⟨.abcd, 2, 3⟩, ⟨.dabc, 10, 9⟩, ⟨.cdab, 6, 11⟩, ⟨.bcda, 14, 15⟩,
    ⟨.abcd, 1, 3⟩, ⟨.dabc, 9, 9⟩, ⟨.cdab, 5, 11⟩, ⟨.bcda, 13, 15⟩,
    ⟨.abcd, 3, 3⟩, ⟨.dabc, 11, 9⟩, ⟨.cdab, 7, 11⟩, ⟨.bcda, 15, 15⟩]

/-! ### The digest -/

/-- The sixteen words of a block. -/
def words (block : Bytes) (j : Fin 16) : Word := wordOf ((block.drop (4 * j.val)).take 4)

/-- What processing a block makes of the buffer. -/
def compress (v : Buffer) (block : Bytes) : Buffer :=
  let x := words block
  let after := round3.run x (round2.run x (round1.run x v))
  ⟨v.a + after.a, v.b + after.b, v.c + after.c, v.d + after.d⟩

/-- The four words, beginning with the low-order byte of the first. -/
def Buffer.output (v : Buffer) : Bytes := bytesOf v.a ++ bytesOf v.b ++ bytesOf v.c ++ bytesOf v.d

/-- The message digest. -/
def digest (m : Bytes) : Bytes := ((Bytes.chunksOf 64 (pad m)).foldl compress initial).output

theorem length_digest (m : Bytes) : (digest m).length = 16 := by
  simp [digest, Buffer.output, bytesOf]

example : digest [0x61, 0x62, 0x63] = [0xa4, 0x48, 0x01, 0x7a, 0xaf, 0x21, 0xd8, 0x52,
    0x5f, 0xc1, 0x0a, 0xe8, 0x7a, 0xa6, 0x72, 0x9d] := by decide +kernel

example : digest ((List.range 80).map fun i ↦ UInt8.ofNat (0x30 + (i + 1) % 10)) =
    [0xe3, 0x3b, 0x4d, 0xdc, 0x9c, 0x38, 0xf2, 0x19, 0x9c, 0x3e, 0x7b, 0x16, 0x4f, 0xcc, 0x05,
      0x36] := by decide +kernel

end Rfc1320
