import Mathlib.Tactic.IntervalCases
import Pyrad2.Tools

/-!
# Codecs of fixed width

What the codecs of numbers, interface identifiers, addresses and prefixes make of each other's
results. A number is determined by its bytes, the text of an identifier by its hexadecimal digits;
of addresses it is assumed that `ipaddress` parses what it prints.
-/

namespace Pyrad2

namespace Tools

/-! ### Numbers -/

theorem packUnsigned_toNatBE (b : Bytes) :
    packUnsigned b.length (Bytes.toNatBE b) = .ok b := by
  have hlt : (Bytes.toNatBE b : Int) < 256 ^ b.length := by exact_mod_cast Bytes.toNatBE_lt b
  rw [packUnsigned, if_pos ⟨by omega, hlt⟩, Int.toNat_natCast, Bytes.ofNatBE_toNatBE]

theorem decodeUnsigned_eq_ok_iff {w : ℕ} {b : Bytes} {v : PyVal} :
    decodeUnsigned w b = .ok v ↔ b.length = w ∧ v = .int (Bytes.toNatBE b) := by
  rw [decodeUnsigned]
  split
  case isTrue h => simp [h, eq_comm]
  case isFalse h => simp [h]

/-- The number in two's complement. -/
def signedOf (b : Bytes) : Int :=
  if (Bytes.toNatBE b : Int) < 256 ^ b.length / 2 then Bytes.toNatBE b
  else Bytes.toNatBE b - 256 ^ b.length

theorem packSigned_signedOf {b : Bytes} (hb : b ≠ []) :
    packSigned b.length (signedOf b) = .ok b := by
  have hlt : (Bytes.toNatBE b : Int) < 256 ^ b.length := by exact_mod_cast Bytes.toNatBE_lt b
  have heven : (256 : Int) ^ b.length = 2 * (128 * 256 ^ (b.length - 1)) := by
    obtain ⟨n, hn⟩ : ∃ n, b.length = n + 1 :=
      ⟨b.length - 1, by have := List.length_pos_iff.2 hb; omega⟩
    rw [hn, pow_succ, Nat.add_sub_cancel]
    ring
  rw [packSigned, signedOf]
  generalize (256 : Int) ^ b.length = M at hlt heven
  split
  case isTrue h =>
    rw [if_pos (by omega), if_neg (by omega), Int.toNat_natCast, Bytes.ofNatBE_toNatBE]
  case isFalse h =>
    rw [if_pos (by omega), if_pos (by omega), Int.sub_add_cancel, Int.toNat_natCast,
      Bytes.ofNatBE_toNatBE]

theorem decodeSigned_eq_ok_iff {w : ℕ} {b : Bytes} {v : PyVal} :
    decodeSigned w b = .ok v ↔ b.length = w ∧ v = .int (signedOf b) := by
  rw [decodeSigned]
  split
  case isTrue h =>
    subst h
    simp [signedOf, eq_comm]
  case isFalse h => simp [h]

/-! ### Hexadecimal text -/

theorem digits_digitChar {d acc : ℕ} (h : d < 16) (ready : Bool) (cs : List Char) :
    digits 16 acc ready (Nat.digitChar d :: cs) = digits 16 (acc * 16 + d) false cs := by
  interval_cases d <;> rfl

theorem isSpace_digitChar {d : ℕ} (h : d < 16) : isSpace (Nat.digitChar d) = false := by
  interval_cases d <;> rfl

theorem asciiForm_digitChar {d : ℕ} (h : d < 16) :
    asciiForm (Nat.digitChar d) = Nat.digitChar d := by
  interval_cases d <;> rfl

theorem digitChar_ne {d : ℕ} (h : d < 16) : Nat.digitChar d ≠ '-' ∧ Nat.digitChar d ≠ '+' ∧
    Nat.digitChar d ≠ ':' ∧ Nat.digitChar d ≠ 'x' ∧ Nat.digitChar d ≠ 'X' := by
  interval_cases d <;> decide

/-- Every character of hexadecimal text is a digit. -/
theorem exists_digitChar_of_mem {b : Bytes} {c : Char} (h : c ∈ b.flatMap hexByte) :
    ∃ d < 16, c = Nat.digitChar d := by
  obtain ⟨x, -, hc⟩ := List.mem_flatMap.1 h
  have hx := x.toNat_lt
  rcases List.mem_cons.1 hc with rfl | hc
  · exact ⟨x.toNat / 16, by omega, rfl⟩
  · rw [List.mem_singleton] at hc
    exact ⟨x.toNat % 16, by omega, hc⟩

theorem digits_flatMap_hexByte (b : Bytes) (acc : ℕ) : digits 16 acc false (b.flatMap hexByte) =
    some (b.foldl (fun n x ↦ n * 256 + x.toNat) acc) := by
  induction b generalizing acc with
  | nil => rfl
  | cons x b ih =>
    have hx := x.toNat_lt
    rw [List.flatMap_cons, hexByte, List.cons_append, List.cons_append, List.nil_append,
      digits_digitChar (by omega), digits_digitChar (by omega), ih, List.foldl_cons]
    congr 2
    omega

theorem trim_eq_self {white : Char → Bool} {cs : List Char} (h : ∀ c ∈ cs, white c = false) :
    trim white cs = cs := by
  have hdrop (l : List Char) (hl : ∀ c ∈ l, white c = false) : l.dropWhile white = l := by
    cases l with
    | nil => rfl
    | cons c l => rw [List.dropWhile_cons, if_neg (by simp [hl c])]
  rw [trim, hdrop cs h, hdrop _ (by simpa using h), List.reverse_reverse]

/-- A prefix is read only where it names the base. -/
theorem unsigned?_eq_inBase {base : ℕ} {cs : List Char} (hbase : base ≠ 0)
    (h : ∀ rest, basePrefix? cs ≠ some (base, rest)) : unsigned? base cs = inBase base cs := by
  rw [unsigned?]
  rcases hprefix : basePrefix? cs with - | ⟨named, rest⟩
  · exact if_neg hbase
  · refine if_neg (not_or.2 ⟨fun heq ↦ h rest ?_, hbase⟩)
    rw [heq, hprefix]

/-- The prefixes of hexadecimal numbers. -/
theorem second_of_basePrefix? {cs rest : List Char} (h : basePrefix? cs = some (16, rest)) :
    cs = '0' :: 'x' :: rest ∨ cs = '0' :: 'X' :: rest := by
  unfold basePrefix? at h
  split at h
  · cases h
    exact .inl rfl
  · cases h
    exact .inr rfl
  all_goals cases h

/-- **Hexadecimal text** is read as the number that the bytes spell. -/
theorem int?_ofList_flatMap_hexByte {b : Bytes} (hb : b ≠ []) :
    int? 16 (String.ofList (b.flatMap hexByte)) = some (Bytes.toNatBE b : Int) := by
  have hascii : (b.flatMap hexByte).map asciiForm = b.flatMap hexByte := by
    conv_rhs => rw [← List.map_id (b.flatMap hexByte)]
    refine List.map_congr_left fun c hc ↦ ?_
    obtain ⟨d, hd, rfl⟩ := exists_digitChar_of_mem hc
    exact asciiForm_digitChar hd
  have htrim : trim isSpace (b.flatMap hexByte) = b.flatMap hexByte := trim_eq_self fun c hc ↦ by
    obtain ⟨d, hd, rfl⟩ := exists_digitChar_of_mem hc
    exact isSpace_digitChar hd
  have hdigits := digits_flatMap_hexByte b 0
  rcases b with - | ⟨x, b⟩
  · exact absurd rfl hb
  have hx := x.toNat_lt
  have hfirst := digitChar_ne (d := x.toNat / 16) (by omega)
  have hsecond := digitChar_ne (d := x.toNat % 16) (by omega)
  have hall : inBase 16 ((x :: b).flatMap hexByte) = some (Bytes.toNatBE (x :: b)) := by
    rw [inBase, if_neg (by omega)]
    rw [List.flatMap_cons, hexByte, List.cons_append] at hdigits ⊢
    rw [digits_digitChar (by omega)] at hdigits ⊢
    exact hdigits
  have hunsigned : unsigned? 16 ((x :: b).flatMap hexByte) =
      inBase 16 ((x :: b).flatMap hexByte) := by
    refine unsigned?_eq_inBase (by omega) fun rest hrest ↦ ?_
    rcases second_of_basePrefix? hrest with heq | heq
    · exact hsecond.2.2.2.1 (List.cons.inj (List.cons.inj heq).2).1
    · exact hsecond.2.2.2.2 (List.cons.inj (List.cons.inj heq).2).1
  rw [int?, String.toList_ofList, hascii, signed?, htrim]
  split
  · next heq => exact absurd (List.cons.inj heq).1 hfirst.1
  · next heq => exact absurd (List.cons.inj heq).1 hfirst.2.1
  · rw [hunsigned, hall]
    rfl

/-! ### Groups of hexadecimal text -/

theorem split_of_notMem {c : Char} {w : List Char} (h : c ∉ w) : split c w = [w] := by
  induction w with
  | nil => rfl
  | cons x w ih =>
    rw [List.mem_cons, not_or] at h
    rw [split, if_neg (Ne.symm h.1), ih h.2]

theorem split_append {c : Char} {w : List Char} (h : c ∉ w) (rest : List Char) :
    split c (w ++ c :: rest) = w :: split c rest := by
  induction w with
  | nil => rw [List.nil_append, split, if_pos rfl]
  | cons x w ih =>
    rw [List.mem_cons, not_or] at h
    rw [List.cons_append, split, if_neg (Ne.symm h.1), ih h.2]

/-- Splitting undoes joining. -/
theorem split_intercalate {c : Char} {ws : List (List Char)} (hne : ws ≠ [])
    (h : ∀ w ∈ ws, c ∉ w) : split c ([c].intercalate ws) = ws := by
  induction ws with
  | nil => exact absurd rfl hne
  | cons w ws ih =>
    have hw := h w (by simp)
    rcases ws with - | ⟨w', ws⟩
    · rw [List.intercalate_singleton, split_of_notMem hw]
    · rw [List.intercalate_cons_cons, List.append_assoc, List.singleton_append, split_append hw,
        ih (by simp) fun u hu ↦ h u (List.mem_cons_of_mem _ hu)]

theorem toList_hexGroups (n : ℕ) (b : Bytes) : (hexGroups n b).toList =
    [':'].intercalate ((Bytes.chunksOf n b).map fun chunk ↦ chunk.flatMap hexByte) := by
  rw [hexGroups, String.toList_intercalate, List.map_map]
  congr 1
  refine List.map_congr_left fun chunk _ ↦ ?_
  exact String.toList_ofList

theorem length_chunksOf {n : ℕ} (hn : 0 < n) {b : Bytes} {k : ℕ} (hb : b.length = n * k) :
    (Bytes.chunksOf n b).length = k := by
  rw [Bytes.chunksOf, List.length_map, List.length_range, hb, Nat.add_sub_assoc hn,
    Nat.mul_add_div hn, Nat.div_eq_of_lt (by omega), Nat.add_zero]

theorem notMem_flatMap_hexByte {c : Char} (h : ∀ d < 16, Nat.digitChar d ≠ c) (b : Bytes) :
    c ∉ b.flatMap hexByte := by
  intro hc
  obtain ⟨d, hd, rfl⟩ := exists_digitChar_of_mem hc
  exact h d hd rfl

/-- The groups of hexadecimal text are found again. -/
theorem split_hexGroups {n : ℕ} {b : Bytes} (hb : Bytes.chunksOf n b ≠ []) :
    split ':' (hexGroups n b).toList =
      (Bytes.chunksOf n b).map fun chunk ↦ chunk.flatMap hexByte := by
  rw [toList_hexGroups]
  refine split_intercalate (by simpa using hb) fun w hw ↦ ?_
  obtain ⟨chunk, -, rfl⟩ := List.mem_map.1 hw
  exact notMem_flatMap_hexByte (fun d hd ↦ (digitChar_ne hd).2.2.1) chunk

/-- A group is read as the number of its bytes, which fits them. -/
theorem int?_chunk {n : ℕ} (hn : 0 < n) {b chunk : Bytes} (hb : n ∣ b.length)
    (h : chunk ∈ Bytes.chunksOf n b) :
    int? 16 (String.ofList (chunk.flatMap hexByte)) = some (Bytes.toNatBE chunk : Int) ∧
      Bytes.toNatBE chunk < 256 ^ n ∧ Bytes.ofNatBE n (Bytes.toNatBE chunk) = chunk := by
  have hlen := Bytes.length_of_mem_chunksOf hn hb h
  have hlt := Bytes.toNatBE_lt chunk
  have hbytes := Bytes.ofNatBE_toNatBE chunk
  rw [hlen] at hlt hbytes
  refine ⟨int?_ofList_flatMap_hexByte ?_, hlt, hbytes⟩
  rintro rfl
  simp at hlen
  omega

theorem encodeIfid_hexGroups {b : Bytes} (hb : b.length = 8) :
    encodeIfid (.str (hexGroups 2 b)) = .ok (.bytes b) := by
  have hcount : (Bytes.chunksOf 2 b).length = 4 := length_chunksOf (by omega) hb
  have hne : Bytes.chunksOf 2 b ≠ [] := by
    rw [← List.length_pos_iff, hcount]
    omega
  rw [encodeIfid]
  dsimp only
  rw [split_hexGroups hne, if_neg (by simp [hcount]), List.mapM_map, Except.mapM_eq_ok (g := id)]
  · show Except.ok (PyVal.bytes ((Bytes.chunksOf 2 b).map id).flatten) = _
    rw [List.map_id, Bytes.flatten_chunksOf (by omega)]
  · intro chunk hchunk
    obtain ⟨hint, hlt, hbytes⟩ := int?_chunk (by omega) (by omega) hchunk
    dsimp only [Function.comp]
    rw [hint]
    dsimp only
    rw [if_pos (by omega), Int.toNat_natCast, hbytes]
    rfl

theorem notMem_intercalate {c x : Char} (hne : x ≠ c) {ws : List (List Char)}
    (h : ∀ w ∈ ws, x ∉ w) : x ∉ [c].intercalate ws := by
  induction ws with
  | nil => simp
  | cons w ws ih =>
    have hw := h w (by simp)
    rcases ws with - | ⟨w', ws⟩
    · rwa [List.intercalate_singleton]
    · have hrest := ih fun u hu ↦ h u (List.mem_cons_of_mem _ hu)
      rw [List.intercalate_cons_cons, List.mem_append, List.mem_append, List.mem_singleton]
      exact fun hmem ↦ hmem.elim (fun hmem ↦ hmem.elim hw hne) hrest

/-- Numbers of single bytes are the bytes. -/
theorem map_toNatBE_eq_flatten {chunks : List Bytes} (h : ∀ chunk ∈ chunks, chunk.length = 1) :
    (chunks.map fun chunk ↦ UInt8.ofNat (Bytes.toNatBE chunk)) = chunks.flatten := by
  induction chunks with
  | nil => rfl
  | cons chunk chunks ih =>
    obtain ⟨x, rfl⟩ := List.length_eq_one_iff.1 (h chunk (by simp))
    rw [List.map_cons, List.flatten_cons, ih fun c hc ↦ h c (List.mem_cons_of_mem _ hc)]
    simp [Bytes.toNatBE]

theorem encodeEther_hexGroups {b : Bytes} (hb : b.length = 6) :
    encodeEther (.str (hexGroups 1 b)) = .ok (.bytes b) := by
  have hcount : (Bytes.chunksOf 1 b).length = 6 := length_chunksOf (by omega) hb
  have hne : Bytes.chunksOf 1 b ≠ [] := by
    rw [← List.length_pos_iff, hcount]
    omega
  -- there is no hyphen in the text
  have hcolons : (hexGroups 1 b).toList.map (fun c ↦ if c = '-' then ':' else c) =
      (hexGroups 1 b).toList := by
    refine (List.map_congr_left fun c hc ↦ if_neg ?_).trans (List.map_id _)
    rintro rfl
    rw [toList_hexGroups] at hc
    refine notMem_intercalate (by decide) (fun w hw ↦ ?_) hc
    obtain ⟨chunk, -, rfl⟩ := List.mem_map.1 hw
    exact notMem_flatMap_hexByte (fun d hd ↦ (digitChar_ne hd).1) chunk
  rw [encodeEther]
  dsimp only
  rw [hcolons, split_hexGroups hne, if_neg (by simp [hcount]), List.mapM_map,
    Except.mapM_eq_ok (g := fun chunk ↦ UInt8.ofNat (Bytes.toNatBE chunk))]
  · show Except.ok (PyVal.bytes ((Bytes.chunksOf 1 b).map _)) = _
    rw [map_toNatBE_eq_flatten fun chunk hchunk ↦ Bytes.length_of_mem_chunksOf (by omega)
      (by omega) hchunk, Bytes.flatten_chunksOf (by omega)]
  · intro chunk hchunk
    obtain ⟨hint, hlt, hbytes⟩ := int?_chunk (by omega) (by omega) hchunk
    dsimp only [Function.comp]
    rw [hint]
    dsimp only
    rw [if_pos (by omega), Int.toNat_natCast]

/-! ### Prefixes -/

/-- A prefix on the wire as it is read: what is missing behind it is zero. -/
def padPrefix (width : ℕ) (b : Bytes) : Bytes := b ++ List.replicate (2 + width - b.length) 0

/-- A prefix as it is put on the wire: the bits beyond its length are cleared. -/
def normalPrefix (width : ℕ) (b : Bytes) : Bytes :=
  match padPrefix width b with
  | _ :: length :: rest => [0, length] ++ maskPrefix length.toNat (rest.take width)
  | _ => []

theorem length_maskPrefix (n : ℕ) (a : Bytes) : (maskPrefix n a).length = a.length :=
  Bytes.length_ofNatBE ..

theorem maskPrefix_maskPrefix (n : ℕ) (a : Bytes) :
    maskPrefix n (maskPrefix n a) = maskPrefix n a := by
  have hlt : Bytes.toNatBE a / 2 ^ (8 * a.length - n) * 2 ^ (8 * a.length - n) < 256 ^ a.length :=
    (Nat.div_mul_le_self ..).trans_lt (Bytes.toNatBE_lt a)
  rw [maskPrefix, length_maskPrefix, maskPrefix, Bytes.toNatBE_ofNatBE hlt,
    Nat.mul_div_cancel _ (by positivity)]

theorem exists_padPrefix (width : ℕ) (b : Bytes) : ∃ reserved length rest,
    padPrefix width b = reserved :: length :: rest ∧ (rest.take width).length = width := by
  have hlen : 2 + width ≤ (padPrefix width b).length := by
    rw [padPrefix, List.length_append, List.length_replicate]
    omega
  rcases hpad : padPrefix width b with - | ⟨reserved, - | ⟨length, rest⟩⟩
  · rw [hpad] at hlen
    simp at hlen
  · rw [hpad] at hlen
    simp at hlen
    omega
  · rw [hpad] at hlen
    simp only [List.length_cons] at hlen
    exact ⟨reserved, length, rest, rfl, by rw [List.length_take]; omega⟩

theorem two_le_length_normalPrefix (width : ℕ) (b : Bytes) : 2 ≤ (normalPrefix width b).length := by
  obtain ⟨reserved, length, rest, hpad, -⟩ := exists_padPrefix width b
  rw [normalPrefix, hpad]
  simp

section

variable {E : Env} {width : ℕ} {parse : String → Option Bytes} {print : Bytes → String}
  {kind : String} {b : Bytes} {v : PyVal}

/-- **A prefix that is read** is written with its bits beyond the length cleared, and read again as
the same. -/
theorem encodePrefix_of_decodePrefix
    (hparse : ∀ a n, a.length = width → n ≤ 8 * width →
      E.ip.parseNetwork (print a ++ "/" ++ toString n) = some ⟨a, n⟩)
    (h : decodePrefix width print (padPrefix width b) = .ok v) :
    encodePrefix E width parse kind v = .ok (.bytes (normalPrefix width b)) ∧
      decodePrefix width print (padPrefix width (normalPrefix width b)) = .ok v := by
  obtain ⟨reserved, length, rest, hpad, hrest⟩ := exists_padPrefix width b
  have hnormal : normalPrefix width b =
      [0, length] ++ maskPrefix length.toNat (rest.take width) := by
    rw [normalPrefix, hpad]
  have hmask : (maskPrefix length.toNat (rest.take width)).length = width :=
    (length_maskPrefix ..).trans hrest
  rw [hpad, decodePrefix] at h
  split at h
  · cases h
  case isFalse hlength =>
    cases h
    constructor
    · have hslash : (print (maskPrefix length.toNat (rest.take width)) ++ "/" ++
          toString length.toNat).toList.contains '/' = true := by
        simp
      rw [encodePrefix]
      dsimp only
      rw [if_pos hslash, hparse _ _ hmask (by omega)]
      show (if _ then _ else _) = _
      rw [if_neg (not_not.2 hmask), maskPrefix_maskPrefix, hnormal, UInt8.ofNat_toNat]
    · have hpad' : padPrefix width (normalPrefix width b) = normalPrefix width b := by
        have hlen : (normalPrefix width b).length = 2 + width := by
          rw [hnormal, List.length_append, hmask]
          rfl
        rw [padPrefix, hlen, Nat.sub_self, List.replicate_zero, List.append_nil]
      have htake : (maskPrefix length.toNat (rest.take width)).take width =
          maskPrefix length.toNat (rest.take width) := List.take_of_length_le hmask.le
      rw [hpad', hnormal]
      show decodePrefix width print (0 :: length :: maskPrefix length.toNat (rest.take width)) = _
      rw [decodePrefix, if_neg hlength, htake, maskPrefix_maskPrefix]

end

end Tools

/-- The printing and parsing of addresses are inverse. -/
structure Ipaddress.Lawful (ip : Ipaddress) : Prop where
  parseV4_printV4 : ∀ a, a.length = 4 → ip.parseV4 (ip.printV4 a) = some a
  parseV6_printV6 : ∀ a, a.length = 16 → ip.parseV6 (ip.printV6 a) = some a
  /-- The text of an IPv6 address is not that of an IPv4 address. -/
  parseV4_printV6 : ∀ a, a.length = 16 → ip.parseV4 (ip.printV6 a) = none
  parseNetwork_printV4 : ∀ a n, a.length = 4 → n ≤ 32 →
    ip.parseNetwork (ip.printV4 a ++ "/" ++ toString n) = some ⟨a, n⟩
  parseNetwork_printV6 : ∀ a n, a.length = 16 → n ≤ 128 →
    ip.parseNetwork (ip.printV6 a ++ "/" ++ toString n) = some ⟨a, n⟩

namespace Datatype

/-- The width of the types whose values have one. -/
def fixedWidth : Datatype → Option ℕ
  | .byte => some 1
  | .short => some 2
  | .integer | .signed | .date | .ipaddr => some 4
  | .ether => some 6
  | .integer64 | .ifid => some 8
  | .ipv6addr => some 16
  | _ => none

/-- The width of the address in a prefix. -/
def prefixWidth : Datatype → Option ℕ
  | .ipv4Prefix => some 4
  | .ipv6Prefix => some 16
  | _ => none

end Datatype

namespace Tools

/-- What the codec of a datatype does for a byte string and for the value read from it. -/
structure RoundTrips (E : Env) (type : Datatype) (b : Bytes) : Prop where
  /-- Bytes of the right width can be read, and are written again. -/
  bytes : ∀ w, type.fixedWidth = some w → b.length = w →
    ∃ v, decodeAttr E type b = .ok v ∧ encodeAttr E type v = .ok (.bytes b)
  /-- A value that is read can be written, and is read again. -/
  value : ∀ v, decodeAttr E type b = .ok v →
    ∃ c, encodeAttr E type v = .ok (.bytes c) ∧ decodeAttr E type c = .ok v
  /-- A prefix is written with the bits beyond its length cleared. -/
  normal : ∀ w, type.prefixWidth = some w → ∀ v, decodeAttr E type b = .ok v →
    encodeAttr E type v = .ok (.bytes (normalPrefix w b))

variable {E : Env} {type : Datatype} {b : Bytes}

/-- A codec that reads the strings of one width, and writes back what it read. -/
theorem roundTrips_of_exact {w : ℕ} (hwidth : type.fixedWidth = some w)
    (hmasked : type.prefixWidth = none)
    (hread : b.length = w →
      ∃ v, decodeAttr E type b = .ok v ∧ encodeAttr E type v = .ok (.bytes b))
    (hlen : ∀ v, decodeAttr E type b = .ok v → b.length = w) : RoundTrips E type b where
  bytes := by
    intro w' hw' hb
    rw [hwidth] at hw'
    cases hw'
    exact hread hb
  value := by
    intro v hv
    obtain ⟨v', hv', hencode⟩ := hread (hlen v hv)
    rw [hv] at hv'
    cases hv'
    exact ⟨b, hencode, hv⟩
  normal := by
    intro w' hw'
    rw [hmasked] at hw'
    cases hw'

theorem encodeInteger_int {pack : Int → Except Exn Bytes} {n : Int} (h : pack n = .ok b)
    (kind : String) : encodeInteger pack kind (.int n) = .ok (.bytes b) := by
  rw [encodeInteger, int]
  dsimp only
  rw [h]
  rfl

theorem roundTrips_unsigned {w : ℕ} (hwidth : type.fixedWidth = some w)
    (hmasked : type.prefixWidth = none) (hdecode : decodeAttr E type b = decodeUnsigned w b)
    (hencode : ∀ n, packUnsigned w n = .ok b → encodeAttr E type (.int n) = .ok (.bytes b)) :
    RoundTrips E type b := by
  refine roundTrips_of_exact hwidth hmasked (fun hb ↦ ?_) fun v hv ↦ ?_
  · subst hb
    exact ⟨_, hdecode.trans (decodeUnsigned_eq_ok_iff.2 ⟨rfl, rfl⟩),
      hencode _ (packUnsigned_toNatBE b)⟩
  · rw [hdecode] at hv
    exact (decodeUnsigned_eq_ok_iff.1 hv).1

theorem roundTrips_signed : RoundTrips E .signed b := by
  refine roundTrips_of_exact (w := 4) rfl rfl (fun hb ↦ ?_) fun v hv ↦ ?_
  · have hne : b ≠ [] := by
      rw [← List.length_pos_iff, hb]
      omega
    have hpack := packSigned_signedOf hne
    rw [hb] at hpack
    exact ⟨_, decodeSigned_eq_ok_iff.2 ⟨hb, rfl⟩, encodeInteger_int hpack "integer"⟩
  · exact (decodeSigned_eq_ok_iff.1 hv).1

/-- A prefix codec, by what it reads when the prefix is padded. -/
theorem roundTrips_prefix {width : ℕ} (parse : String → Option Bytes) {print : Bytes → String}
    (kind : String) (hwidth : type.prefixWidth = some width) (hfixed : type.fixedWidth = none)
    (hparse : ∀ a n, a.length = width → n ≤ 8 * width →
      E.ip.parseNetwork (print a ++ "/" ++ toString n) = some ⟨a, n⟩)
    (hdecode : ∀ c, 2 ≤ c.length →
      decodeAttr E type c = decodePrefix width print (padPrefix width c))
    (hread : ∀ c v, decodeAttr E type c = .ok v →
      decodePrefix width print (padPrefix width c) = .ok v)
    (hencode : ∀ v, encodeAttr E type v = encodePrefix E width parse kind v) :
    RoundTrips E type b where
  bytes := by
    intro w hw
    rw [hfixed] at hw
    cases hw
  value := by
    intro v hv
    obtain ⟨hwrite, hagain⟩ : encodePrefix E width parse kind v = _ ∧ _ :=
      encodePrefix_of_decodePrefix hparse (hread b v hv)
    exact ⟨_, (hencode v).trans hwrite, (hdecode _ (two_le_length_normalPrefix ..)).trans hagain⟩
  normal := by
    intro w hw v hv
    rw [hwidth] at hw
    cases hw
    exact (hencode v).trans (encodePrefix_of_decodePrefix hparse (hread b v hv)).1

theorem decodeIfid_eq_ok_iff {v : PyVal} :
    decodeIfid b = .ok v ↔ b.length = 8 ∧ v = .str (hexGroups 2 b) := by
  rw [decodeIfid]
  split
  case isTrue h => simp [h]
  case isFalse h => simp [not_not.1 h, eq_comm]

theorem decodeEther_eq_ok_iff {v : PyVal} :
    decodeEther b = .ok v ↔ b.length = 6 ∧ v = .str (hexGroups 1 b) := by
  rw [decodeEther]
  split
  case isTrue h => simp [h]
  case isFalse h => simp [not_not.1 h, eq_comm]

theorem roundTrips_ifid : RoundTrips E .ifid b :=
  roundTrips_of_exact rfl rfl
    (fun hb ↦ ⟨_, decodeIfid_eq_ok_iff.2 ⟨hb, rfl⟩, encodeIfid_hexGroups hb⟩)
    fun _ hv ↦ (decodeIfid_eq_ok_iff.1 hv).1

theorem roundTrips_ether : RoundTrips E .ether b :=
  roundTrips_of_exact rfl rfl
    (fun hb ↦ ⟨_, decodeEther_eq_ok_iff.2 ⟨hb, rfl⟩, encodeEther_hexGroups hb⟩)
    fun _ hv ↦ (decodeEther_eq_ok_iff.1 hv).1

section

variable (hip : E.ip.Lawful)

include hip

theorem encodeAddress_printV4 {a : Bytes} (ha : a.length = 4) :
    encodeAddress E (.str (E.ip.printV4 a)) = .ok (.bytes a) := by
  rw [encodeAddress, hip.parseV4_printV4 a ha]
  rfl

theorem encodeIpv6Address_printV6 {a : Bytes} (ha : a.length = 16) :
    encodeIpv6Address E (.str (E.ip.printV6 a)) = .ok (.bytes a) := by
  rw [encodeIpv6Address, hip.parseV6_printV6 a ha]
  rfl

/-- Short strings are read as if zeros stood behind them. -/
theorem roundTrips_ipv6addr : RoundTrips E .ipv6addr b := by
  have hread {a : Bytes} (ha : a.length = 16) :
      decodeAttr E .ipv6addr a = .ok (.str (E.ip.printV6 a)) := by
    show decodeIpv6Address E a = _
    rw [decodeIpv6Address, ha, Nat.sub_self, List.replicate_zero, List.append_nil]
    exact if_pos ha
  refine ⟨fun w hw hb ↦ ?_, fun v hv ↦ ?_, fun w hw ↦ (by cases hw)⟩
  · cases hw
    exact ⟨_, hread hb, encodeIpv6Address_printV6 hip hb⟩
  · change decodeIpv6Address E b = _ at hv
    rw [decodeIpv6Address] at hv
    split at hv
    case isTrue hlen =>
      cases hv
      exact ⟨_, encodeIpv6Address_printV6 hip hlen, hread hlen⟩
    · cases hv

theorem roundTrips_ipv4Prefix : RoundTrips E .ipv4Prefix b := by
  refine roundTrips_prefix E.ip.parseV4 "IPv4" rfl rfl
    hip.parseNetwork_printV4 (fun c hc ↦ ?_) (fun c v hv ↦ ?_) fun _ ↦ rfl
  · show decodeIpv4Prefix E c = _
    rw [decodeIpv4Prefix, if_neg (by omega)]
    rfl
  · change decodeIpv4Prefix E c = _ at hv
    rw [decodeIpv4Prefix] at hv
    split at hv
    · cases hv
    · exact hv

theorem roundTrips_ipv6Prefix : RoundTrips E .ipv6Prefix b :=
  roundTrips_prefix E.ip.parseV6 "IPv6" rfl rfl
    hip.parseNetwork_printV6 (fun _ _ ↦ rfl) (fun _ _ hv ↦ hv) fun _ ↦ rfl

/-- The codec of IPv4 addresses prints what has the width of an IPv6 address, and does not parse
that. -/
theorem roundTrips_ipaddr_iff : RoundTrips E .ipaddr b ↔ b.length ≠ 16 := by
  constructor
  · intro h hb
    have hread : decodeAttr E .ipaddr b = .ok (.str (E.ip.printV6 b)) := by
      show decodeAddress E b = _
      rw [decodeAddress, if_neg (by omega), if_pos hb]
    obtain ⟨c, hc, -⟩ := h.value _ hread
    have hwrite : encodeAddress E (.str (E.ip.printV6 b)) = .ok (.bytes c) := hc
    rw [encodeAddress, hip.parseV4_printV6 b hb] at hwrite
    cases hwrite
  · intro hb
    refine roundTrips_of_exact (w := 4) rfl rfl (fun hlen ↦ ?_) fun v hv ↦ ?_
    · exact ⟨_, if_pos hlen, encodeAddress_printV4 hip hlen⟩
    · change decodeAddress E b = _ at hv
      rw [decodeAddress, if_neg hb] at hv
      split at hv
      · assumption
      · cases hv

/-- **Which codecs are inverse.** Exactly the values that the codec of IPv4 addresses reads from
sixteen bytes are not read again. -/
theorem roundTrips_codec_iff (htype : type.fixedWidth.isSome ∨ type.prefixWidth.isSome) :
    RoundTrips E type b ↔ ¬ (type = .ipaddr ∧ b.length = 16) := by
  have hall (hne : type ≠ .ipaddr) (h : RoundTrips E type b) :
      RoundTrips E type b ↔ ¬ (type = .ipaddr ∧ b.length = 16) :=
    iff_of_true h fun hboth ↦ hne hboth.1
  cases type with
  | ipaddr => simpa using roundTrips_ipaddr_iff hip
  | integer =>
    exact hall (by decide)
      (roundTrips_unsigned (w := 4) rfl rfl rfl fun _ h ↦ encodeInteger_int h "integer")
  | short =>
    exact hall (by decide)
      (roundTrips_unsigned (w := 2) rfl rfl rfl fun _ h ↦ encodeInteger_int h "integer")
  | byte =>
    exact hall (by decide)
      (roundTrips_unsigned (w := 1) rfl rfl rfl fun _ h ↦ encodeInteger_int h "integer")
  | integer64 =>
    exact hall (by decide)
      (roundTrips_unsigned (w := 8) rfl rfl rfl fun _ h ↦ encodeInteger_int h "integer64")
  | date =>
    refine hall (by decide) (roundTrips_unsigned (w := 4) rfl rfl rfl fun n h ↦ ?_)
    show encodeDate (.int n) = _
    rw [encodeDate, h]
    rfl
  | signed => exact hall (by decide) roundTrips_signed
  | ifid => exact hall (by decide) roundTrips_ifid
  | ether => exact hall (by decide) roundTrips_ether
  | ipv6addr => exact hall (by decide) (roundTrips_ipv6addr hip)
  | ipv4Prefix => exact hall (by decide) (roundTrips_ipv4Prefix hip)
  | ipv6Prefix => exact hall (by decide) (roundTrips_ipv6Prefix hip)
  | string | octets | abinary | tlv | extended | longExtended | evs | vsa | comboIp =>
    exact absurd htype (by decide)

end

end Tools

namespace Ipaddress

open Tools

/-- A group of an address. -/
def parseGroup (base width : ℕ) (group : List Char) : Except Exn Bytes :=
  match int? base (String.ofList group) with
  | some n => packUnsigned width n
  | none => .error .structError

/-- An address of `count` groups. -/
def parseGroups (sep : Char) (count base width : ℕ) (s : String) : Option Bytes :=
  let groups := split sep s.toList
  if groups.length = count then
    ((groups.mapM (parseGroup base width)).map List.flatten).toOption
  else none

/-- The groups of an IPv4 address, as decimal text. -/
def dottedGroups (a : Bytes) : List (List Char) :=
  (Bytes.chunksOf 1 a).map fun chunk ↦ (toString (Bytes.toNatBE chunk)).toList

/-- An address and, behind a slash, the length of a prefix. -/
def parseSlashed (s : String) : Option Network :=
  match split '/' s.toList with
  | [address, length] => do
    let a ← (parseGroups '.' 4 10 1 (String.ofList address)).orElse fun _ ↦
      parseGroups ':' 8 16 2 (String.ofList address)
    let n ← int? 10 (String.ofList length)
    if 0 ≤ n ∧ n ≤ 8 * a.length then some ⟨a, n.toNat⟩ else none
  | _ => none

/-- Addresses in dotted decimal and in groups of four hexadecimal digits; no group of an IPv6
address is shortened. -/
def plain : Ipaddress where
  parseV4 := parseGroups '.' 4 10 1
  parseV6 := parseGroups ':' 8 16 2
  parseNetwork := parseSlashed
  printV4 := fun a ↦ String.ofList (['.'].intercalate (dottedGroups a))
  printV6 := hexGroups 2

/-- The lengths of prefixes and the bytes of addresses in decimal. -/
theorem int?_toString : ∀ n : ℕ, n < 256 → int? 10 (toString n) = some (n : Int) := by
  decide +kernel

theorem notMem_toString (n : ℕ) {c : Char} (hc : c.isDigit = false) : c ∉ (toString n).toList := by
  intro h
  rw [Nat.toString_eq_ofList_toDigits, String.toList_ofList] at h
  have hdigit := Nat.isDigit_of_mem_toDigits (by omega) (by omega) h
  simp [hc] at hdigit

theorem parseGroups_eq (text : Bytes → List Char) {sep : Char} {count base width : ℕ} {s : String}
    {a : Bytes} (hwidth : 0 < width) (hcount : 0 < count)
    (ha : a.length = width * count)
    (hs : s.toList = [sep].intercalate ((Bytes.chunksOf width a).map text))
    (htext : ∀ chunk ∈ Bytes.chunksOf width a, sep ∉ text chunk ∧
      int? base (String.ofList (text chunk)) = some (Bytes.toNatBE chunk : Int)) :
    parseGroups sep count base width s = some a := by
  have hlen := length_chunksOf hwidth ha
  have hsplit : split sep s.toList = (Bytes.chunksOf width a).map text := by
    rw [hs]
    refine split_intercalate ?_ fun w hw ↦ ?_
    · rw [← List.length_pos_iff, List.length_map, hlen]
      exact hcount
    · obtain ⟨chunk, hchunk, rfl⟩ := List.mem_map.1 hw
      exact (htext chunk hchunk).1
  rw [parseGroups, hsplit, if_pos (by rw [List.length_map, hlen]), List.mapM_map,
    Except.mapM_eq_ok (g := id)]
  · show some ((Bytes.chunksOf width a).map id).flatten = _
    rw [List.map_id, Bytes.flatten_chunksOf hwidth]
  · intro chunk hchunk
    have hchunk' := Bytes.length_of_mem_chunksOf hwidth ⟨count, ha⟩ hchunk
    rw [Function.comp, parseGroup, (htext chunk hchunk).2]
    dsimp only
    rw [← hchunk', packUnsigned_toNatBE]
    rfl

/-- A prefix is split at its slash. -/
theorem split_network {address : String} {n : ℕ} (h : '/' ∉ address.toList) :
    split '/' (address ++ "/" ++ toString n).toList =
      [address.toList, (toString n).toList] := by
  have htext : (address ++ "/" ++ toString n).toList =
      address.toList ++ '/' :: (toString n).toList := by simp
  rw [htext, split_append h, split_of_notMem (notMem_toString n rfl)]

section

variable {a : Bytes}

theorem mem_chunk_lt (ha : a.length = 4) {chunk : Bytes} (h : chunk ∈ Bytes.chunksOf 1 a) :
    Bytes.toNatBE chunk < 256 := by
  have hlt := Bytes.toNatBE_lt chunk
  rwa [Bytes.length_of_mem_chunksOf (by omega) ⟨4, by omega⟩ h, pow_one] at hlt

theorem notMem_printV4 : '/' ∉ (plain.printV4 a).toList := by
  show '/' ∉ (String.ofList _).toList
  rw [String.toList_ofList]
  refine notMem_intercalate (by decide) fun w hw ↦ ?_
  obtain ⟨chunk, -, rfl⟩ := List.mem_map.1 hw
  exact notMem_toString _ rfl

theorem notMem_printV6 {c : Char} (hc : c ≠ ':') (h : ∀ d < 16, Nat.digitChar d ≠ c) :
    c ∉ (plain.printV6 a).toList := by
  show c ∉ (hexGroups 2 a).toList
  rw [toList_hexGroups]
  refine notMem_intercalate hc fun w hw ↦ ?_
  obtain ⟨chunk, -, rfl⟩ := List.mem_map.1 hw
  exact notMem_flatMap_hexByte h chunk

theorem parseV4_printV4_plain (ha : a.length = 4) :
    plain.parseV4 (plain.printV4 a) = some a := by
  refine parseGroups_eq (fun chunk ↦ (toString (Bytes.toNatBE chunk)).toList) (by omega)
    (by omega) (by omega) String.toList_ofList fun chunk hchunk ↦ ⟨?_, ?_⟩
  · exact notMem_toString _ rfl
  · rw [String.ofList_toList]
    exact int?_toString _ (mem_chunk_lt ha hchunk)

theorem parseV6_printV6_plain (ha : a.length = 16) :
    plain.parseV6 (plain.printV6 a) = some a := by
  refine parseGroups_eq (fun chunk ↦ chunk.flatMap hexByte) (by omega) (by omega) (by omega)
    (toList_hexGroups 2 a) fun chunk hchunk ↦ ⟨?_, (int?_chunk (by omega) (by omega) hchunk).1⟩
  exact notMem_flatMap_hexByte (fun d hd ↦ (digitChar_ne hd).2.2.1) chunk

theorem parseV4_printV6_plain : plain.parseV4 (plain.printV6 a) = none := by
  have hdot : '.' ∉ (plain.printV6 a).toList :=
    notMem_printV6 (by decide) fun d hd ↦ by interval_cases d <;> decide
  show parseGroups '.' 4 10 1 _ = none
  rw [parseGroups, split_of_notMem hdot]
  rfl

theorem parseSlashed_eq {address : String} {n : ℕ} (hslash : '/' ∉ address.toList)
    (haddress : (plain.parseV4 address).orElse (fun _ ↦ plain.parseV6 address) = some a)
    (hn : n < 256) (hle : n ≤ 8 * a.length) :
    parseSlashed (address ++ "/" ++ toString n) = some ⟨a, n⟩ := by
  have hboth : (parseGroups '.' 4 10 1 address).orElse
      (fun _ ↦ parseGroups ':' 8 16 2 address) = some a := haddress
  rw [parseSlashed, split_network hslash]
  simp only [String.ofList_toList, hboth, int?_toString n hn, Option.bind_eq_bind, Option.bind_some]
  rw [if_pos (by omega), Int.toNat_natCast]

theorem lawful_plain : plain.Lawful where
  parseV4_printV4 := fun _ ↦ parseV4_printV4_plain
  parseV6_printV6 := fun _ ↦ parseV6_printV6_plain
  parseV4_printV6 := fun _ _ ↦ parseV4_printV6_plain
  parseNetwork_printV4 := by
    intro a n ha hn
    refine parseSlashed_eq notMem_printV4 ?_ (by omega) (by omega)
    rw [parseV4_printV4_plain ha]
    rfl
  parseNetwork_printV6 := by
    intro a n ha hn
    have hslash : '/' ∉ (plain.printV6 a).toList :=
      notMem_printV6 (by decide) fun d hd ↦ by interval_cases d <;> decide
    refine parseSlashed_eq hslash ?_ (by omega) (by omega)
    rw [parseV4_printV6_plain, parseV6_printV6_plain ha]
    rfl

end

end Ipaddress

namespace Tools

/-- Digests that do not look at what is digested, and plain addresses. -/
def plainEnv : Env := { Env.ofByte (fun _ ↦ 0) fun _ _ ↦ 0 with ip := Ipaddress.plain }

theorem roundTrips_dotted : RoundTrips plainEnv .ipaddr [10, 0, 0, 1] :=
  (roundTrips_codec_iff (E := plainEnv) Ipaddress.lawful_plain (.inl (by decide))).2 (by simp)

/-- The address `1111:2222:3333:4444:5555:6666:7777:8888` is read as one of the type `ipaddr`, and
is not written. -/
theorem not_roundTrips_ipaddr :
    ¬ RoundTrips plainEnv .ipaddr
      [17, 17, 34, 34, 51, 51, 68, 68, 85, 85, 102, 102, 119, 119, 136, 136] := by
  intro h
  obtain ⟨c, hc, -⟩ := h.value (.str "1111:2222:3333:4444:5555:6666:7777:8888") (by decide +kernel)
  have hnone : (encodeAttr plainEnv .ipaddr
      (.str "1111:2222:3333:4444:5555:6666:7777:8888")).isOk = false := by decide +kernel
  rw [hc] at hnone
  cases hnone

end Tools

end Pyrad2
