import Mathlib.Data.List.Flatten
import Pyrad2.Constants
import Pyrad2.Env

/-!
# Attribute value codecs

`tools.encode_attr` and `tools.decode_attr`: the typed text and number forms of attribute values.

A value handed to the encoder is any of Python's `None`, `int`, `str` or `bytes`. The result is
normally `bytes`, but `encode_octets` passes an unrecognized `str` or `int` through unchanged, and
such a value is stored as it is and fails only when the packet is serialized. Values of both sides
are therefore `PyVal`s.

Numbers are read as Python's `int` reads them: in text with the decimal digits and the white space of
Unicode 15, in bytes with those of ASCII, and in base 10 with 4300 digits at most.
-/

namespace Pyrad2

/-- A Python value. -/
inductive PyVal where
  | none
  | int (i : Int)
  | str (s : String)
  | bytes (b : Bytes)
  deriving DecidableEq, Repr

namespace PyVal

/-- `len(value)` -/
def len : PyVal → Except Exn ℕ
  | str s => .ok s.length
  | bytes b => .ok b.length
  | _ => .error (.typeError "object has no len()")

/-- The operand of a concatenation with `bytes`. -/
def asBytes : PyVal → Except Exn Bytes
  | bytes b => .ok b
  | _ => .error (.typeError "can't concat to bytes")

@[simp] theorem len_bytes (b : Bytes) : (bytes b).len = .ok b.length := rfl

@[simp] theorem asBytes_bytes (b : Bytes) : (bytes b).asBytes = .ok b := rfl

end PyVal

/-- `struct.pack` of one unsigned big-endian field of `w` bytes. -/
def packUnsigned (w : ℕ) (n : Int) : Except Exn Bytes :=
  if 0 ≤ n ∧ n < 256 ^ w then .ok (Bytes.ofNatBE w n.toNat) else .error .structError

/-- `struct.pack` of one signed big-endian field of `w` bytes. -/
def packSigned (w : ℕ) (n : Int) : Except Exn Bytes :=
  if -(256 ^ w / 2) ≤ n ∧ n < 256 ^ w / 2 then
    .ok (Bytes.ofNatBE w (if n < 0 then n + 256 ^ w else n).toNat)
  else .error .structError

namespace Tools

/-! ### Text -/

/-- `str.encode("utf-8")` -/
def utf8 (s : String) : Bytes := s.toUTF8.data.toList

/-- `bytes.decode("utf-8")`, `none` where it raises `UnicodeDecodeError`. -/
def utf8? (b : Bytes) : Option String := String.fromUTF8? ⟨b.toArray⟩

/-- The characters that begin at the bytes, `fuel` of them at most; a byte at which none begins is
left out. -/
def decodeIgnoring : ℕ → Bytes → List Char
  | 0, _ => []
  | _ + 1, [] => []
  | fuel + 1, x :: rest =>
    match (⟨(x :: rest).toArray⟩ : ByteArray).utf8DecodeChar? 0 with
    | some c => c :: decodeIgnoring fuel ((x :: rest).drop c.utf8Size)
    | none => decodeIgnoring fuel rest

/-- `bytes.decode("utf-8", errors="ignore")` -/
def utf8Ignoring (b : Bytes) : String := String.ofList (decodeIgnoring b.length b)

theorem utf8_ofList (l : List Char) : utf8 (String.ofList l) = l.flatMap String.utf8EncodeChar := by
  show (String.ofList l).toByteArray.data.toList = _
  rw [String.toByteArray_ofList, List.utf8Encode]
  simp

theorem decodeIgnoring_flatMap {l : List Char} {n : ℕ}
    (h : (l.flatMap String.utf8EncodeChar).length ≤ n) :
    decodeIgnoring n (l.flatMap String.utf8EncodeChar) = l := by
  induction l generalizing n with
  | nil => cases n <;> rfl
  | cons c l ih =>
    have hsize : (String.utf8EncodeChar c).length = c.utf8Size := String.length_utf8EncodeChar c
    have hpos := c.utf8Size_pos
    have hdecode : (⟨((c :: l).flatMap String.utf8EncodeChar).toArray⟩ :
        ByteArray).utf8DecodeChar? 0 = some c := by
      have hcons := @List.utf8DecodeChar?_utf8Encode_cons l c
      have harray : ((c :: l).flatMap String.utf8EncodeChar).toByteArray =
        ⟨((c :: l).flatMap String.utf8EncodeChar).toArray⟩ := ByteArray.ext (by simp)
      rwa [List.utf8Encode, harray] at hcons
    rw [List.flatMap_cons] at h hdecode ⊢
    rw [List.length_append, hsize] at h
    obtain ⟨n, rfl⟩ : ∃ m, n = m + 1 := ⟨n - 1, by omega⟩
    obtain ⟨x, rest, heq⟩ := List.exists_cons_of_length_pos (hsize ▸ hpos)
    have hdrop : (String.utf8EncodeChar c ++ l.flatMap String.utf8EncodeChar).drop c.utf8Size =
        l.flatMap String.utf8EncodeChar := List.drop_left' hsize
    rw [heq, List.cons_append] at hdecode hdrop ⊢
    rw [decodeIgnoring, hdecode]
    show c :: decodeIgnoring n ((x :: (rest ++ _)).drop c.utf8Size) = _
    rw [hdrop, ih (by omega)]

/-- Nothing of a valid text is left out. -/
theorem utf8Ignoring_utf8 (s : String) : utf8Ignoring (utf8 s) = s := by
  rw [← String.ofList_toList (s := s), utf8Ignoring, utf8_ofList, decodeIgnoring_flatMap le_rfl]

theorem utf8?_utf8 (s : String) : utf8? (utf8 s) = some s := by
  have harray : (⟨(utf8 s).toArray⟩ : ByteArray) = s.toByteArray := rfl
  rw [utf8?, harray, String.fromUTF8?, dif_pos]
  rfl

/-- The lower-case hexadecimal digits of a byte. -/
def hexByte (b : UInt8) : List Char := [Nat.digitChar (b.toNat / 16), Nat.digitChar (b.toNat % 16)]

/-- `bytes.hex()` -/
def hex (b : Bytes) : String := String.ofList (b.flatMap hexByte)

/-- `str.split(c)` for a single character. -/
def split (c : Char) : List Char → List (List Char)
  | [] => [[]]
  | x :: xs =>
    if x = c then [] :: split c xs
    else match split c xs with
      | [] => [[x]]
      | w :: ws => (x :: w) :: ws

theorem split_ne_nil (c : Char) (cs : List Char) : split c cs ≠ [] := by
  rcases cs with - | ⟨x, cs⟩
  · simp [split]
  · rw [split]
    split
    · simp
    · split <;> simp

/-- The whitespace of `str.split()` and `str.strip()`. -/
def isWhite (c : Char) : Bool :=
  c = ' ' || (9 ≤ c.toNat && c.toNat ≤ 13) || (28 ≤ c.toNat && c.toNat ≤ 31) ||
    c.toNat ∈ [0x85, 0xa0, 0x1680, 0x2028, 0x2029, 0x202f, 0x205f, 0x3000] ||
    (0x2000 ≤ c.toNat && c.toNat ≤ 0x200a)

/-- The text between the white space around it. -/
def trim (white : Char → Bool) (s : List Char) : List Char :=
  ((s.dropWhile white).reverse.dropWhile white).reverse

/-- `str.strip()` -/
def strip (s : List Char) : List Char := trim isWhite s

theorem trim_sublist (white : Char → Bool) (s : List Char) : (trim white s).Sublist s := by
  have hback : (trim white s).Sublist ((s.dropWhile white).reverse.reverse) :=
    (List.dropWhile_sublist white).reverse
  rw [List.reverse_reverse] at hback
  exact hback.trans (List.dropWhile_sublist white)

theorem utf8_injective {s t : String} (h : utf8 s = utf8 t) : s = t := by
  rw [← utf8Ignoring_utf8 s, h, utf8Ignoring_utf8]

/-- Stripping text leaves no more bytes of it. -/
theorem length_utf8_strip_le (s : String) :
    (utf8 (String.ofList (strip s.toList))).length ≤ (utf8 s).length := by
  have hall : utf8 s = s.toList.flatMap String.utf8EncodeChar := by
    rw [← utf8_ofList, String.ofList_toList]
  rw [utf8_ofList, hall]
  exact ((trim_sublist isWhite s.toList).flatMap _).length_le

/-- The value of a digit in bases up to 36. -/
def digitValue (c : Char) : Option ℕ :=
  if c.isDigit then some (c.toNat - '0'.toNat)
  else if c.isLower then some (c.toNat - 'a'.toNat + 10)
  else if c.isUpper then some (c.toNat - 'A'.toNat + 10)
  else none

/-- The digits of an integer literal, single underscores allowed between digits. `ready` says that
an underscore may not stand here. -/
def digits (base : ℕ) (acc : ℕ) (ready : Bool) : List Char → Option ℕ
  | [] => if ready then none else some acc
  | '_' :: cs => if ready then none else digits base acc true cs
  | c :: cs =>
    match digitValue c with
    | some d => if d < base then digits base (acc * base + d) false cs else none
    | none => none

/-- The zeros of the scripts. The other decimal digits of a script are the nine characters after its
zero. -/
def decimalZeros : List ℕ :=
  [0x30, 0x660, 0x6f0, 0x7c0, 0x966, 0x9e6, 0xa66, 0xae6, 0xb66, 0xbe6, 0xc66, 0xce6, 0xd66, 0xde6,
    0xe50, 0xed0, 0xf20, 0x1040, 0x1090, 0x17e0, 0x1810, 0x1946, 0x19d0, 0x1a80, 0x1a90, 0x1b50,
    0x1bb0, 0x1c40, 0x1c50, 0xa620, 0xa8d0, 0xa900, 0xa9d0, 0xa9f0, 0xaa50, 0xabf0, 0xff10, 0x104a0,
    0x10d30, 0x11066, 0x110f0, 0x11136, 0x111d0, 0x112f0, 0x11450, 0x114d0, 0x11650, 0x116c0,
    0x11730, 0x118e0, 0x11950, 0x11c50, 0x11d50, 0x11da0, 0x11f50, 0x16a60, 0x16ac0, 0x16b50,
    0x1d7ce, 0x1d7d8, 0x1d7e2, 0x1d7ec, 0x1d7f6, 0x1e140, 0x1e2f0, 0x1e4d0, 0x1e950, 0x1fbf0]

/-- The value of a decimal digit of any script. -/
def decimal? (c : Char) : Option ℕ :=
  (decimalZeros.find? fun z ↦ z ≤ c.toNat ∧ c.toNat < z + 10).map (c.toNat - ·)

/-- `str.isdecimal()` -/
def isdecimal (cs : List Char) : Bool := cs ≠ [] ∧ cs.all fun c ↦ (decimal? c).isSome

/-- A character of a text as `int` takes it: a decimal digit of any script for the ASCII digit, and
white space beyond ASCII for a space. -/
def asciiForm (c : Char) : Char :=
  if c.toNat < 127 then c
  else if isWhite c then ' '
  else match decimal? c with
    | some d => Nat.digitChar d
    | none => c

/-- The white space around a number, after `asciiForm`. -/
def isSpace (c : Char) : Bool := c = ' ' || (9 ≤ c.toNat && c.toNat ≤ 13)

/-- A prefix that names a base, and what follows. -/
def basePrefix? : List Char → Option (ℕ × List Char)
  | '0' :: 'x' :: cs => some (16, cs)
  | '0' :: 'X' :: cs => some (16, cs)
  | '0' :: 'o' :: cs => some (8, cs)
  | '0' :: 'O' :: cs => some (8, cs)
  | '0' :: 'b' :: cs => some (2, cs)
  | '0' :: 'B' :: cs => some (2, cs)
  | _ => none

/-- The digits after the prefix of a base. -/
def afterPrefix (base : ℕ) : List Char → Option ℕ
  | '_' :: cs => digits base 0 true cs
  | cs => digits base 0 true cs

/-- The limit on the digits of a decimal number, `sys.int_info.default_max_str_digits`. -/
def maxStrDigits : ℕ := 4300

/-- A number without a prefix. -/
def inBase (base : ℕ) (cs : List Char) : Option ℕ :=
  if base = 10 ∧ maxStrDigits < cs.countP (· ≠ '_') then none else digits base 0 true cs

/-- A number without a sign. In base 0 its prefix says the base, which is 10 without one. -/
def unsigned? (base : ℕ) (cs : List Char) : Option ℕ :=
  match basePrefix? cs with
  | some (named, rest) =>
    if base = named ∨ base = 0 then afterPrefix named rest else inBase base cs
  | none =>
    -- in base 0 only zero has leading zeros
    if base = 0 then (inBase 10 cs).filter fun n ↦ cs.head? = some '0' → n = 0
    else inBase base cs

/-- A number with the white space around it. -/
def signed? (base : ℕ) (cs : List Char) : Option Int :=
  match trim isSpace cs with
  | '-' :: cs => (unsigned? base cs).map fun n ↦ -(n : Int)
  | '+' :: cs => (unsigned? base cs).map fun n ↦ (n : Int)
  | cs => (unsigned? base cs).map fun n ↦ (n : Int)

/-- `int(text, base)`, `none` where it raises `ValueError`. -/
def int? (base : ℕ) (s : String) : Option Int := signed? base (s.toList.map asciiForm)

/-- `int(value)` -/
def int (v : PyVal) : Except Exn Int :=
  match v with
  | .int i => .ok i
  | .str s => match int? 10 s with
    | some i => .ok i
    | none => .error (.valueError "invalid literal for int()")
  | .bytes b => match signed? 10 (b.map fun x ↦ Char.ofNat x.toNat) with
    | some i => .ok i
    | none => .error (.valueError "invalid literal for int()")
  | .none => .error (.typeError "int() argument must be a string or a number")

/-- The upper case of a character. Beyond ASCII it is given only where it is ASCII text: no other is in
a text that upper case is compared with. -/
def upperChar (c : Char) : List Char :=
  match c.toNat with
  | 0xdf => ['S', 'S']
  | 0x131 => ['I']
  | 0x17f => ['S']
  | 0xfb00 => ['F', 'F']
  | 0xfb01 => ['F', 'I']
  | 0xfb02 => ['F', 'L']
  | 0xfb03 => ['F', 'F', 'I']
  | 0xfb04 => ['F', 'F', 'L']
  | 0xfb05 => ['S', 'T']
  | 0xfb06 => ['S', 'T']
  | _ => [c.toUpper]

/-- `str.upper()` -/
def upper (s : String) : String := String.ofList (s.toList.flatMap upperChar)

/-! ### Strings and octets -/

def encodeString (v : PyVal) : Except Exn PyVal :=
  match v with
  | .none => .ok (.bytes [])
  | v => do
    if (← v.len) > 253 then .error (.valueError "Can only encode strings of <= 253 characters")
    match v with
    | .str s => .ok (.bytes (utf8 s))
    | v => .ok v

/-- `binascii.unhexlify` -/
def unhexlify : Bytes → Except Exn Bytes
  | [] => .ok []
  | [_] => .error (.valueError "Odd-length string")
  | a :: b :: rest =>
    match digitValue (Char.ofNat a.toNat), digitValue (Char.ofNat b.toNat) with
    | some x, some y =>
      if x < 16 ∧ y < 16 then (unhexlify rest).map (UInt8.ofNat (x * 16 + y) :: ·)
      else .error (.valueError "Non-hexadecimal digit found")
    | _, _ => .error (.valueError "Non-hexadecimal digit found")

/-- The part of `b` before the next `0x`. -/
def beforeMarker : Bytes → Bytes
  | [] => []
  | [b] => [b]
  | a :: b :: rest => if a = 0x30 ∧ b = 0x78 then [] else a :: beforeMarker (b :: rest)

/-- The hexadecimal form `0x…`: the digits between the first marker and the next. -/
def encodeHexLiteral (digits : Bytes) : Except Exn PyVal := do
  let encoded ← unhexlify (beforeMarker digits)
  if encoded.length > 253 then .error (.valueError "Can only encode strings of <= 253 characters")
  .ok (.bytes encoded)

def encodeOctets (v : PyVal) : Except Exn PyVal :=
  match v with
  | .none => .ok (.bytes [])
  | .bytes (0x30 :: 0x78 :: digits) => encodeHexLiteral digits
  | .str s =>
    match s.toList with
    | '0' :: 'x' :: digits =>
      -- `unhexlify` of a `str` raises the same `ValueError` for text that is not ASCII
      encodeHexLiteral (utf8 (String.ofList digits))
    | cs =>
      if isdecimal cs then do
        let packed ← packUnsigned 4 (← int v)
        .ok (.bytes (packed.dropWhile (· = 0)))
      else .ok v
  | v => .ok v

theorem length_of_unhexlify {digits b : Bytes} (h : unhexlify digits = .ok b) :
    b.length ≤ digits.length := by
  fun_induction unhexlify digits generalizing b with
  | case1 => cases h; rfl
  | case2 => cases h
  | case3 a c rest x y hx hy hlt ih =>
    rcases hrest : unhexlify rest with e | b'
    · rw [hrest] at h
      cases h
    · rw [hrest] at h
      cases h
      have hle := ih hrest
      simp only [List.length_cons]
      omega
  | case4 => cases h
  | case5 => cases h

theorem length_beforeMarker_le (b : Bytes) : (beforeMarker b).length ≤ b.length := by
  fun_induction beforeMarker b with
  | case1 => rfl
  | case2 => rfl
  | case3 => exact Nat.zero_le _
  | case4 a b rest _ ih =>
    simp only [List.length_cons] at ih ⊢
    omega

/-- **Bytes are kept as octets**, but for a hexadecimal literal, of which less is left. -/
theorem encodeOctets_bytes_eq_ok {b : Bytes} {v : PyVal} (h : encodeOctets (.bytes b) = .ok v) :
    ∃ c, v = .bytes c ∧ ((∃ digits, b = 0x30 :: 0x78 :: digits) ∧ c.length < b.length ∨
      (∀ digits, b ≠ 0x30 :: 0x78 :: digits) ∧ c = b) := by
  unfold encodeOctets at h
  split at h
  · next hnone => cases hnone
  · next digits heq =>
    cases heq
    rw [encodeHexLiteral] at h
    obtain ⟨c, hc, h⟩ := Except.bind_eq_ok_iff.1 h
    have hle := (length_of_unhexlify hc).trans (length_beforeMarker_le digits)
    split at h
    · cases h
    · cases h
      refine ⟨c, rfl, .inl ⟨⟨digits, rfl⟩, ?_⟩⟩
      simp only [List.length_cons]
      omega
  · next heq => cases heq
  · next hbytes _ =>
    cases h
    exact ⟨b, rfl, .inr ⟨fun digits hb ↦ hbytes digits (congrArg PyVal.bytes hb), rfl⟩⟩

theorem encodeOctets_of_ne {b : Bytes} (h : ∀ digits, b ≠ 0x30 :: 0x78 :: digits) :
    encodeOctets (.bytes b) = .ok (.bytes b) := by
  unfold encodeOctets
  split
  · next heq => cases heq
  · next digits heq => exact absurd (PyVal.bytes.inj heq) (h digits)
  · next heq => cases heq
  · rfl

/-! ### Addresses -/

/-- The error of the address parsers. -/
def orValueError {α : Type} (msg : String) : Option α → Except Exn α
  | some a => .ok a
  | none => .error (.valueError msg)

/-- Clear the bits beyond the prefix length. -/
def maskPrefix (prefixlen : ℕ) (address : Bytes) : Bytes :=
  let host := 2 ^ (8 * address.length - prefixlen)
  Bytes.ofNatBE address.length (Bytes.toNatBE address / host * host)

def encodeAddress (E : Env) (v : PyVal) : Except Exn PyVal :=
  match v with
  | .str s => (orValueError "AddressValueError" (E.ip.parseV4 s)).map .bytes
  | _ => .error (.typeError "Address has to be a string")

/-- `encode_ipv4_prefix` and `encode_ipv6_prefix`: they differ in the address width and in what a
bare address is parsed with. -/
def encodePrefix (E : Env) (width : ℕ) (parse : String → Option Bytes) (kind : String)
    (v : PyVal) : Except Exn PyVal :=
  match v with
  | .str s => do
    let net : Network ←
      if s.toList.contains '/' then orValueError "not a network" (E.ip.parseNetwork s)
      else (orValueError "AddressValueError" (parse s)).map fun a ↦ ⟨a, 8 * width⟩
    if net.address.length ≠ width then .error (.valueError ("not an " ++ kind ++ " prefix"))
    .ok (.bytes ([0, UInt8.ofNat net.prefixlen] ++ maskPrefix net.prefixlen net.address))
  | _ => .error (.typeError (kind ++ " Prefix has to be a string"))

def encodeIpv6Prefix (E : Env) (v : PyVal) : Except Exn PyVal :=
  encodePrefix E 16 E.ip.parseV6 "IPv6" v

def encodeIpv4Prefix (E : Env) (v : PyVal) : Except Exn PyVal :=
  encodePrefix E 4 E.ip.parseV4 "IPv4" v

def encodeIpv6Address (E : Env) (v : PyVal) : Except Exn PyVal :=
  match v with
  | .str s => (orValueError "AddressValueError" (E.ip.parseV6 s)).map .bytes
  | _ => .error (.typeError "IPv6 Address has to be a string")

def encodeComboIp (E : Env) (v : PyVal) : Except Exn PyVal :=
  match v with
  | .str s => (orValueError "ip_address" ((E.ip.parseV4 s).orElse fun _ ↦ E.ip.parseV6 s)).map .bytes
  | _ => .error (.typeError "combo-ip has to be a string, IPv4Address, or IPv6Address")

def encodeIfid (v : PyVal) : Except Exn PyVal :=
  match v with
  | .bytes b => if b.length ≠ 8 then .error (.valueError "Interface-Id must be 8 bytes") else .ok v
  | .str s => do
    let groups := split ':' s.toList
    if groups.length ≠ 4 then
      .error (.valueError "Interface-Id must have four colon-separated 16-bit groups")
    let packed ← groups.mapM fun g ↦ match int? 16 (String.ofList g) with
      | some n =>
        if 0 ≤ n ∧ n < 65536 then .ok (Bytes.ofNatBE 2 n.toNat)
        else .error (.valueError "Interface-Id groups must be 16-bit hex")
      | none => .error (.valueError "Interface-Id groups must be 16-bit hex")
    .ok (.bytes packed.flatten)
  | _ => .error (.typeError "Interface-Id must be a string")

def encodeEther (v : PyVal) : Except Exn PyVal :=
  match v with
  | .bytes b =>
    if b.length ≠ 6 then .error (.valueError "Ethernet address must be 6 bytes") else .ok v
  | .str s => do
    let parts := split ':' (s.toList.map fun c ↦ if c = '-' then ':' else c)
    if parts.length ≠ 6 then .error (.valueError "Ethernet address must have six octets")
    let octets ← parts.mapM fun p ↦ match int? 16 (String.ofList p) with
      | some n =>
        if 0 ≤ n ∧ n < 256 then .ok (UInt8.ofNat n.toNat)
        else .error (.valueError "Ethernet address octets must be hex bytes")
      | none => .error (.valueError "Ethernet address octets must be hex bytes")
    .ok (.bytes octets)
  | _ => .error (.typeError "Ethernet address must be a string")

/-! ### Ascend filters -/

/-- The fields of an Ascend filter. -/
structure AscendTerms where
  family : Bytes := [1]
  action : Bytes := [0]
  direction : Bytes := [1]
  src : Bytes := [0, 0, 0, 0]
  dst : Bytes := [0, 0, 0, 0]
  srcl : Bytes := [0]
  dstl : Bytes := [0]
  proto : Bytes := [0]
  sport : Bytes := [0, 0]
  dport : Bytes := [0, 0]
  sportq : Bytes := [0]
  dportq : Bytes := [0]

/-- A source or destination network of the current family; host bits may not be set. -/
def ascendNetwork (E : Env) (ipv6 : Bool) (value : List Char) : Except Exn Network := do
  let net ← orValueError "not a network" (E.ip.parseNetwork (String.ofList value))
  if net.address.length ≠ (if ipv6 then 16 else 4) then .error (.valueError "AddressValueError")
  if maskPrefix net.prefixlen net.address ≠ net.address then
    .error (.valueError "has host bits set")
  .ok net

/-- One `key=value` term; the flag says that the family is already `ipv6`. -/
def ascendTerm (E : Env) (st : AscendTerms × Bool) (term : List Char) :
    Except Exn (AscendTerms × Bool) := do
  let (terms, ipv6) := st
  match split '=' term with
  | [key, value] =>
    let key := String.ofList key
    let text := String.ofList value
    if key = "family" ∧ text = "ipv6" then
      let widen (b : Bytes) : Bytes := if b = [0, 0, 0, 0] then List.replicate 16 0 else b
      .ok ({ terms with family := [3], src := widen terms.src, dst := widen terms.dst }, true)
    else if key = "action" ∧ text = "accept" then .ok ({ terms with action := [1] }, ipv6)
    else if key = "action" ∧ text = "redirect" then .ok ({ terms with action := [0x20] }, ipv6)
    else if key = "direction" ∧ text = "out" then .ok ({ terms with direction := [0] }, ipv6)
    else if key = "src" then
      let net ← ascendNetwork E ipv6 value
      .ok ({ terms with src := net.address, srcl := [UInt8.ofNat net.prefixlen] }, ipv6)
    else if key = "dst" then
      let net ← ascendNetwork E ipv6 value
      .ok ({ terms with dst := net.address, dstl := [UInt8.ofNat net.prefixlen] }, ipv6)
    else if key = "sport" then
      .ok ({ terms with sport := ← packUnsigned 2 (← int (.str text)) }, ipv6)
    else if key = "dport" then
      .ok ({ terms with dport := ← packUnsigned 2 (← int (.str text)) }, ipv6)
    else if key = "sportq" then
      .ok ({ terms with sportq := ← packUnsigned 1 (← int (.str text)) }, ipv6)
    else if key = "dportq" then
      .ok ({ terms with dportq := ← packUnsigned 1 (← int (.str text)) }, ipv6)
    else if key = "proto" then
      .ok ({ terms with proto := ← packUnsigned 1 (← int (.str text)) }, ipv6)
    else .ok (terms, ipv6)
  | _ => .error (.valueError "not enough values to unpack")

def encodeAscendBinary (E : Env) (v : PyVal) : Except Exn PyVal :=
  match v with
  | .str s => do
    if strip s.toList = "delete".toList then return .bytes (List.replicate 8 0)
    let (t, _) ← (split ' ' s.toList).foldlM (ascendTerm E) ({}, false)
    .ok (.bytes (t.family ++ t.action ++ t.direction ++ [0] ++ t.src ++ t.dst ++ t.srcl ++ t.dstl ++
      t.proto ++ [0] ++ t.sport ++ t.dport ++ t.sportq ++ t.dportq ++ [0, 0] ++
      List.replicate 8 0))
  | .bytes _ => .error (.typeError "a bytes-like object is required, not 'str'")
  | _ => .error .attributeError

/-! ### Integers -/

/-- `encode_integer` and `encode_integer64`, by the field that `struct.pack` fills. -/
def encodeInteger (pack : Int → Except Exn Bytes) (kind : String) (v : PyVal) :
    Except Exn PyVal :=
  match int v with
  | .ok n => (pack n).map .bytes
  | .error _ => .error (.typeError ("Can not encode non-integer as " ++ kind))

def encodeDate (v : PyVal) : Except Exn PyVal :=
  match v with
  | .int n => (packUnsigned 4 n).map .bytes
  | _ => .error (.typeError "Can not encode non-integer as date")

/-- `struct.unpack` of one unsigned field of `w` bytes. -/
def decodeUnsigned (w : ℕ) (b : Bytes) : Except Exn PyVal :=
  if b.length = w then .ok (.int (Bytes.toNatBE b)) else .error .structError

/-- `struct.unpack` of one signed field of `w` bytes. -/
def decodeSigned (w : ℕ) (b : Bytes) : Except Exn PyVal :=
  if b.length = w then
    let n : Int := Bytes.toNatBE b
    .ok (.int (if n < 256 ^ w / 2 then n else n - 256 ^ w))
  else .error .structError

/-! ### Decoding -/

def decodeString (b : Bytes) : PyVal :=
  match utf8? b with
  | some s => .str s
  | none => .str (hex b)

def decodeAddress (E : Env) (b : Bytes) : Except Exn PyVal :=
  if b.length = 4 then .ok (.str (E.ip.printV4 b))
  else if b.length = 16 then .ok (.str (E.ip.printV6 b))
  else .error (.valueError "does not appear to be an IPv4 or IPv6 address")

/-- The network printed by `decode_ipv4_prefix` and `decode_ipv6_prefix`; `b` is already padded. -/
def decodePrefix (width : ℕ) (print : Bytes → String) (b : Bytes) : Except Exn PyVal :=
  match b with
  | _ :: length :: rest =>
    if length.toNat > 8 * width then .error (.valueError "NetmaskValueError")
    else .ok (.str (print (maskPrefix length.toNat (rest.take width)) ++ "/" ++
      toString length.toNat))
  | _ => .error .structError

def decodeIpv6Prefix (E : Env) (b : Bytes) : Except Exn PyVal :=
  decodePrefix 16 E.ip.printV6 (b ++ List.replicate (18 - b.length) 0)

def decodeIpv4Prefix (E : Env) (b : Bytes) : Except Exn PyVal :=
  if b.length < 2 then .error (.valueError "ipv4prefix value must be at least 2 bytes")
  else decodePrefix 4 E.ip.printV4 (b ++ List.replicate (6 - b.length) 0)

def decodeIpv6Address (E : Env) (b : Bytes) : Except Exn PyVal :=
  let addr := b ++ List.replicate (16 - b.length) 0
  if addr.length = 16 then .ok (.str (E.ip.printV6 addr))
  else .error (.valueError "AddressValueError")

def decodeComboIp (E : Env) (b : Bytes) : Except Exn PyVal :=
  if b.length = 4 then .ok (.str (E.ip.printV4 b))
  else if b.length = 16 then .ok (.str (E.ip.printV6 b))
  else .error (.valueError "combo-ip value must be 4 (IPv4) or 16 (IPv6) bytes")

/-- Groups of `n` bytes in hexadecimal, separated by colons. -/
def hexGroups (n : ℕ) (b : Bytes) : String :=
  ":".intercalate ((Bytes.chunksOf n b).map hex)

def decodeIfid (b : Bytes) : Except Exn PyVal :=
  if b.length ≠ 8 then .error (.valueError "Interface-Id must be 8 bytes")
  else .ok (.str (hexGroups 2 b))

def decodeEther (b : Bytes) : Except Exn PyVal :=
  if b.length ≠ 6 then .error (.valueError "Ethernet address must be 6 bytes")
  else .ok (.str (hexGroups 1 b))

/-! ### Dispatch on the datatype -/

def encodeAttr (E : Env) (datatype : Datatype) (v : PyVal) : Except Exn PyVal :=
  match datatype with
  | .string => encodeString v
  | .octets => encodeOctets v
  | .integer => encodeInteger (packUnsigned 4) "integer" v
  | .ipaddr => encodeAddress E v
  | .ipv6Prefix => encodeIpv6Prefix E v
  | .ipv4Prefix => encodeIpv4Prefix E v
  | .ipv6addr => encodeIpv6Address E v
  | .comboIp => encodeComboIp E v
  | .abinary => encodeAscendBinary E v
  | .signed => encodeInteger (packSigned 4) "integer" v
  | .short => encodeInteger (packUnsigned 2) "integer" v
  | .byte => encodeInteger (packUnsigned 1) "integer" v
  | .date => encodeDate v
  | .integer64 => encodeInteger (packUnsigned 8) "integer64" v
  | .ifid => encodeIfid v
  | .ether => encodeEther v
  | .tlv | .extended | .longExtended | .evs | .vsa =>
    .error (.valueError "Unknown attribute type")

def decodeAttr (E : Env) (datatype : Datatype) (b : Bytes) : Except Exn PyVal :=
  match datatype with
  | .string => .ok (decodeString b)
  | .octets => .ok (.bytes b)
  | .integer => decodeUnsigned 4 b
  | .ipaddr => decodeAddress E b
  | .ipv6Prefix => decodeIpv6Prefix E b
  | .ipv4Prefix => decodeIpv4Prefix E b
  | .ipv6addr => decodeIpv6Address E b
  | .comboIp => decodeComboIp E b
  | .abinary => .ok (.bytes b)
  | .signed => decodeSigned 4 b
  | .short => decodeUnsigned 2 b
  | .byte => decodeUnsigned 1 b
  | .date => decodeUnsigned 4 b
  | .integer64 => decodeUnsigned 8 b
  | .ifid => decodeIfid b
  | .ether => decodeEther b
  | .tlv | .extended | .longExtended | .evs | .vsa =>
    .error (.valueError "Unknown attribute type")

end Tools

end Pyrad2
