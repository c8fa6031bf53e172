import Pyrad2.Exceptions
import Pyrad2.Foundations.Bytes

/-!
# The environment

What the library takes from outside: the digests of `hashlib` and `hmac`, the address parser of
`ipaddress`, and random draws. The digests are arbitrary functions to sixteen bytes; no result rests
on more than that unless it says so.
-/

namespace Pyrad2

/-- A network as `ipaddress` parses it: packed address, host bits included, and prefix length. -/
structure Network where
  address : Bytes
  prefixlen : ℕ
  deriving DecidableEq, Repr

/-- The `ipaddress` functions the codecs call. Parsing returns `none` where Python raises
`ValueError`. -/
structure Ipaddress where
  parseV4 : String → Option Bytes
  parseV6 : String → Option Bytes
  parseNetwork : String → Option Network
  printV4 : Bytes → String
  printV6 : Bytes → String

/-- Digests and address parsing. -/
structure Env where
  /-- `hashlib.md5(data).digest()` -/
  md5 : Bytes → Bytes
  /-- `hmac.new(key, msg, digestmod="MD5").digest()` -/
  hmacMd5 : Bytes → Bytes → Bytes
  md5_length : ∀ b, (md5 b).length = 16
  hmacMd5_length : ∀ k b, (hmacMd5 k b).length = 16
  ip : Ipaddress

attribute [simp] Env.md5_length Env.hmacMd5_length

/-- An address parser that accepts nothing. -/
def Ipaddress.closed : Ipaddress where
  parseV4 := fun _ ↦ none
  parseV6 := fun _ ↦ none
  parseNetwork := fun _ ↦ none
  printV4 := fun _ ↦ ""
  printV6 := fun _ ↦ ""

/-- Digests that repeat one byte, chosen from what is digested. -/
def Env.ofByte (md5 : Bytes → UInt8) (hmac : Bytes → Bytes → UInt8) : Env where
  md5 := fun b ↦ List.replicate 16 (md5 b)
  hmacMd5 := fun k b ↦ List.replicate 16 (hmac k b)
  md5_length := by simp
  hmacMd5_length := by simp
  ip := Ipaddress.closed

/-- A source of random numbers: the draws still to come. -/
structure Rng where
  draws : ℕ → ℕ

namespace Rng

/-- `random_generator.randrange(lo, hi)` -/
def randrange (r : Rng) (lo hi : ℕ) : ℕ × Rng :=
  (lo + r.draws 0 % (hi - lo), ⟨fun n ↦ r.draws (n + 1)⟩)

/-- `k` independent bytes. -/
def bytes (r : Rng) (k : ℕ) : Bytes × Rng :=
  ((List.range k).map fun i ↦ UInt8.ofNat (r.draws i % 256), ⟨fun n ↦ r.draws (n + k)⟩)

@[simp] theorem length_bytes (r : Rng) (k : ℕ) : (r.bytes k).1.length = k := by
  simp [bytes]

end Rng

/-- What the process keeps between calls: the random draws still to come and `CURRENT_ID`. -/
structure World where
  rng : Rng
  currentId : ℕ := 0

instance : Inhabited World := ⟨{ rng := ⟨fun _ ↦ 0⟩ }⟩

namespace World

/-- `random_generator.randrange(lo, hi)` -/
def randrange (w : World) (lo hi : ℕ) : ℕ × World :=
  ((w.rng.randrange lo hi).1, { w with rng := (w.rng.randrange lo hi).2 })

/-- `k` independent random bytes. -/
def bytes (w : World) (k : ℕ) : Bytes × World :=
  ((w.rng.bytes k).1, { w with rng := (w.rng.bytes k).2 })

/-- The module-level `create_id()` -/
def createId (w : World) : ℕ × World :=
  ((w.currentId + 1) % 256, { w with currentId := (w.currentId + 1) % 256 })

@[simp] theorem length_bytes (w : World) (k : ℕ) : (w.bytes k).1.length = k :=
  Rng.length_bytes ..

end World

end Pyrad2
