import Pyrad2.Codecs

/-!
# The certificate allowlist of RadSec

Which certificates does a list of configured fingerprints let in?

A fingerprint is configured as text, with or without the name of the digest, colons and spaces, and
compared as 64 hexadecimal digits. What is left once those are taken out is checked by
`bytes.fromhex`, which skips whitespace. A tab or a line break takes the place of a digit then, and
the entry is kept although no certificate has it.
-/

namespace Pyrad2

namespace Tools

/-! ### Fingerprints -/

section

variable (sha256 : Bytes → Bytes)

/-- `get_cert_fingerprint(cert)`; the detour through PEM gives the certificate back. -/
def getCertFingerprint (cert : Bytes) : String := hex (sha256 cert)

/-- `cert_fingerprint_matches(cert, allowed_fingerprints)` -/
def certFingerprintMatches (cert : Bytes) (allowedFingerprints : List String) : Bool :=
  getCertFingerprint sha256 cert ∈ allowedFingerprints

end

/-- The whitespace of `bytes.fromhex`. -/
def isHexSpace (c : Char) : Bool := c = ' ' || (9 ≤ c.toNat && c.toNat ≤ 13)

/-- The value of a hexadecimal digit. -/
def hexValue (c : Char) : Option ℕ := (digitValue c).filter (· < 16)

/-- `bytes.fromhex(text)`, `none` where it raises `ValueError`. -/
def fromHex : List Char → Option Bytes
  | [] => some []
  | [c] => if isHexSpace c then some [] else none
  | c :: d :: rest =>
    if isHexSpace c then fromHex (d :: rest)
    else do return UInt8.ofNat ((← hexValue c) * 16 + (← hexValue d)) :: (← fromHex rest)

/-- `fingerprint.lower().removeprefix("sha256:").replace(":", "").replace(" ", "")` -/
def strippedFingerprint (fingerprint : String) : List Char :=
  let lower := fingerprint.toList.map Char.toLower
  let bare := if "sha256:".toList.isPrefixOf lower then lower.drop 7 else lower
  bare.filter fun c ↦ c ≠ ':' && c ≠ ' '

/-- `normalize_cert_fingerprint(fingerprint)` -/
def normalizeCertFingerprint (fingerprint : String) : Except Exn String :=
  let normalized := strippedFingerprint fingerprint
  if normalized.length ≠ 64 then
    .error (.valueError "SHA-256 certificate fingerprints must be 64 hex characters")
  else if (fromHex normalized).isNone then
    .error (.valueError "Certificate fingerprints must be hexadecimal")
  else .ok (String.ofList normalized)

/-! ### Reading hexadecimal text -/

theorem isUpper_toLower (c : Char) : c.toLower.isUpper = false := by
  by_cases h : c.val ≥ 'A'.val ∧ c.val ≤ 'Z'.val
  · have hlower : c.toLower.val = c.val + 32 := congrArg Char.val (dif_pos h)
    have hlow : 65 ≤ c.val.toNat := UInt32.le_iff_toNat_le.1 h.1
    have hhigh : c.val.toNat ≤ 90 := UInt32.le_iff_toNat_le.1 h.2
    have hsum : (c.val + 32).toNat = c.val.toNat + 32 := by
      rw [UInt32.toNat_add]
      exact Nat.mod_eq_of_lt (by show c.val.toNat + 32 < 2 ^ 32; omega)
    refine decide_eq_false fun hupper ↦ ?_
    have hle : c.toLower.val.toNat ≤ 90 := UInt32.le_iff_toNat_le.1 hupper.2
    rw [hlower, hsum] at hle
    omega
  · have hlower : c.toLower = c := dif_neg h
    rw [hlower]
    exact decide_eq_false h

/-- A digit that is not an upper-case letter is the one that is written for its value. -/
theorem eq_digitChar_of_hexValue {c : Char} {d : ℕ} (h : hexValue c = some d)
    (hlower : c.isUpper = false) : d < 16 ∧ c = Nat.digitChar d := by
  rw [hexValue, Option.filter_eq_some_iff, decide_eq_true_iff] at h
  obtain ⟨hvalue, hd⟩ := h
  refine ⟨hd, ?_⟩
  have hchar (n : ℕ) (hn : c.toNat = n) : c = Char.ofNat n := by
    rw [← hn, Char.ofNat_toNat]
  rw [digitValue] at hvalue
  split at hvalue
  · next hdigit =>
    rw [Char.isDigit, Bool.and_eq_true, decide_eq_true_iff, decide_eq_true_iff] at hdigit
    have hlow : 48 ≤ c.toNat := UInt32.le_iff_toNat_le.1 hdigit.1
    have hhigh : c.toNat ≤ 57 := UInt32.le_iff_toNat_le.1 hdigit.2
    have hval : c.toNat - 48 = d := Option.some.inj hvalue
    have hten : d < 10 := by omega
    rw [hchar (48 + d) (by omega)]
    interval_cases d <;> rfl
  split at hvalue
  · next hletter =>
    have hge : 'a'.val ≤ c.val := of_decide_eq_true (Bool.and_eq_true_iff.1 hletter).1
    have hlow : 97 ≤ c.toNat := UInt32.le_iff_toNat_le.1 hge
    have hval : c.toNat - 97 + 10 = d := Option.some.inj hvalue
    have hten : 10 ≤ d := by omega
    rw [hchar (87 + d) (by omega)]
    interval_cases d <;> rfl
  · rw [hlower, if_neg Bool.false_ne_true] at hvalue
    cases hvalue

theorem hexValue_digitChar {d : ℕ} (h : d < 16) : hexValue (Nat.digitChar d) = some d := by
  interval_cases d <;> rfl

theorem isHexSpace_digitChar {d : ℕ} (h : d < 16) : isHexSpace (Nat.digitChar d) = false := by
  interval_cases d <;> rfl

theorem hexValue_of_isHexSpace {c : Char} (h : isHexSpace c = true) : hexValue c = none := by
  rw [isHexSpace, Bool.or_eq_true, Bool.and_eq_true, decide_eq_true_iff, decide_eq_true_iff,
    decide_eq_true_iff] at h
  rcases h with rfl | ⟨hlow, hhigh⟩
  · rfl
  · obtain ⟨n, hn⟩ : ∃ n, c.toNat = n := ⟨_, rfl⟩
    rw [hn] at hlow hhigh
    have hchar : c = Char.ofNat n := by rw [← hn, Char.ofNat_toNat]
    rw [hchar]
    interval_cases n <;> rfl

theorem fromHex_cons_cons {c d : Char} (rest : List Char) {x y : ℕ} {b : Bytes}
    (hc : hexValue c = some x) (hd : hexValue d = some y) (hrest : fromHex rest = some b) :
    fromHex (c :: d :: rest) = some (UInt8.ofNat (x * 16 + y) :: b) := by
  have hspace : isHexSpace c = false := by
    rw [Bool.eq_false_iff]
    intro h
    rw [hexValue_of_isHexSpace h] at hc
    cases hc
  rw [fromHex, hspace, if_neg Bool.false_ne_true, hc, hd, hrest]
  rfl

/-- A pair of characters that is read is a pair of digits. -/
theorem exists_of_pair {c d : Char} {rest : List Char} {b : Bytes}
    (h : (do return UInt8.ofNat ((← hexValue c) * 16 + (← hexValue d)) :: (← fromHex rest) :
      Option Bytes) = some b) :
    ∃ x y b', hexValue c = some x ∧ hexValue d = some y ∧ fromHex rest = some b' ∧
      b = UInt8.ofNat (x * 16 + y) :: b' := by
  simp only [Option.bind_eq_bind, Option.bind_eq_some_iff] at h
  obtain ⟨x, hx, y, hy, b', hb', heq⟩ := h
  cases heq
  exact ⟨x, y, b', hx, hy, hb', rfl⟩

/-- **What is read** has two digits for each byte, and whitespace besides. -/
theorem length_fromHex {cs : List Char} {b : Bytes} (h : fromHex cs = some b) :
    cs.length = 2 * b.length + cs.countP isHexSpace := by
  fun_induction fromHex cs generalizing b with
  | case1 =>
    cases h
    rfl
  | case2 c hspace =>
    cases h
    simp [hspace]
  | case3 c hspace => cases h
  | case4 c d rest hspace ih =>
    have hlength := ih h
    rw [List.countP_cons_of_pos hspace]
    simp only [List.length_cons] at hlength ⊢
    omega
  | case5 c d rest hspace ih =>
    obtain ⟨x, y, b', hx, hy, hb', rfl⟩ := exists_of_pair h
    have hsecond : ¬ isHexSpace d = true := by
      intro hd
      rw [hexValue_of_isHexSpace hd] at hy
      cases hy
    have hlength := ih hb'
    rw [List.countP_cons_of_neg hspace, List.countP_cons_of_neg hsecond]
    simp only [List.length_cons]
    omega

/-- Lower-case text without whitespace is the text of the bytes that it is read as. -/
theorem eq_of_fromHex {cs : List Char} {b : Bytes} (h : fromHex cs = some b)
    (hlength : cs.length = 2 * b.length) (hlower : ∀ c ∈ cs, c.isUpper = false) :
    cs = b.flatMap hexByte := by
  have hspaces : cs.countP isHexSpace = 0 := by
    have hall := length_fromHex h
    omega
  rw [List.countP_eq_zero] at hspaces
  clear hlength
  fun_induction fromHex cs generalizing b with
  | case1 =>
    cases h
    rfl
  | case2 c hspace => exact absurd hspace (hspaces c (List.mem_singleton_self c))
  | case3 c hspace => cases h
  | case4 c d rest hspace ih => exact absurd hspace (hspaces c List.mem_cons_self)
  | case5 c d rest hspace ih =>
    obtain ⟨x, y, b', hx, hy, hb', rfl⟩ := exists_of_pair h
    have hrest := ih hb' (fun e he ↦ hlower e (List.mem_cons_of_mem c (List.mem_cons_of_mem d he)))
      fun e he ↦ hspaces e (List.mem_cons_of_mem c (List.mem_cons_of_mem d he))
    obtain ⟨hx16, rfl⟩ := eq_digitChar_of_hexValue hx (hlower c List.mem_cons_self)
    obtain ⟨hy16, rfl⟩ := eq_digitChar_of_hexValue hy
      (hlower d (List.mem_cons_of_mem _ List.mem_cons_self))
    have hbyte : (UInt8.ofNat (x * 16 + y)).toNat = x * 16 + y :=
      Nat.mod_eq_of_lt (by show x * 16 + y < 2 ^ 8; omega)
    have hhigh : (x * 16 + y) / 16 = x := by omega
    have hlow : (x * 16 + y) % 16 = y := by omega
    rw [List.flatMap_cons, hexByte, hbyte, hhigh, hlow, ← hrest]
    rfl

/-- **Round trip.** -/
theorem fromHex_flatMap_hexByte (b : Bytes) : fromHex (b.flatMap hexByte) = some b := by
  induction b with
  | nil => rfl
  | cons x b ih =>
    have hx := x.toNat_lt
    have hbyte : UInt8.ofNat (x.toNat / 16 * 16 + x.toNat % 16) = x := by
      rw [Nat.div_add_mod', UInt8.ofNat_toNat]
    rw [List.flatMap_cons, hexByte, List.cons_append, List.cons_append, List.nil_append,
      fromHex_cons_cons _ (hexValue_digitChar (by omega)) (hexValue_digitChar (by omega)) ih, hbyte]

/-! ### What an entry stands for -/

/-- Tabs and line breaks: the whitespace that stays when an entry is stripped. -/
def isBreak (c : Char) : Bool := 9 ≤ c.toNat && c.toNat ≤ 13

theorem isBreak_toLower {c : Char} (h : isBreak c = true) : c.toLower = c := by
  rw [isBreak, Bool.and_eq_true, decide_eq_true_iff, decide_eq_true_iff] at h
  obtain ⟨hlow, hhigh⟩ := h
  obtain ⟨n, hn⟩ : ∃ n, c.toNat = n := ⟨_, rfl⟩
  rw [hn] at hlow hhigh
  have hchar : c = Char.ofNat n := by rw [← hn, Char.ofNat_toNat]
  rw [hchar]
  interval_cases n <;> rfl

theorem isUpper_of_mem_strippedFingerprint {fingerprint : String} {c : Char}
    (h : c ∈ strippedFingerprint fingerprint) : c.isUpper = false := by
  rw [strippedFingerprint] at h
  have hlower : c ∈ fingerprint.toList.map Char.toLower := by
    have hbare := (List.mem_filter.1 h).1
    split at hbare
    · exact List.mem_of_mem_drop hbare
    · exact hbare
  obtain ⟨d, -, rfl⟩ := List.mem_map.1 hlower
  exact isUpper_toLower d

/-- No tab and no line break is taken out. -/
theorem mem_strippedFingerprint_of_isBreak {fingerprint : String} {c : Char}
    (hmem : c ∈ fingerprint.toList) (h : isBreak c = true) : c ∈ strippedFingerprint fingerprint := by
  have hlower : c ∈ fingerprint.toList.map Char.toLower :=
    List.mem_map.2 ⟨c, hmem, isBreak_toLower h⟩
  have hne (d : Char) (hd : isBreak d = false) : c ≠ d := by
    rintro rfl
    rw [h] at hd
    cases hd
  rw [strippedFingerprint, List.mem_filter]
  refine ⟨?_, by simp [hne ':' rfl, hne ' ' rfl]⟩
  split
  · next hprefix =>
    -- the name of the digest is made of other characters
    obtain ⟨rest, hrest⟩ := List.isPrefixOf_iff_prefix.1 hprefix
    have hlength : "sha256:".toList.length = 7 := by decide
    rw [← hrest] at hlower ⊢
    rw [List.drop_left' hlength]
    refine (List.mem_append.1 hlower).resolve_left fun hname ↦ ?_
    have hall : ("sha256:".toList.all fun d ↦ !isBreak d) = true := by decide
    have hbreak : isBreak c = false := by simpa using List.all_eq_true.1 hall c hname
    exact hne c hbreak rfl
  · exact hlower

theorem normalizeCertFingerprint_eq_ok {fingerprint text : String}
    (h : normalizeCertFingerprint fingerprint = .ok text) :
    (strippedFingerprint fingerprint).length = 64 ∧
      text = String.ofList (strippedFingerprint fingerprint) := by
  rw [normalizeCertFingerprint] at h
  split at h
  · cases h
  next hlength =>
  split at h
  · cases h
  · cases h
    exact ⟨not_not.1 hlength, rfl⟩

/-- **An entry that is kept** is compared equal to a digest of 32 bytes exactly when it is read as that
digest, and then there is no tab or line break in it. -/
theorem eq_hex_iff {fingerprint text : String} (h : normalizeCertFingerprint fingerprint = .ok text)
    {digest : Bytes} (hdigest : digest.length = 32) :
    text = hex digest ↔ (∀ c ∈ fingerprint.toList, isBreak c = false) ∧
      fromHex (strippedFingerprint fingerprint) = some digest := by
  obtain ⟨hlength, rfl⟩ := normalizeCertFingerprint_eq_ok h
  rw [hex, String.ofList_inj]
  constructor
  · intro heq
    refine ⟨fun c hc ↦ ?_, by rw [heq, fromHex_flatMap_hexByte]⟩
    rw [Bool.eq_false_iff]
    intro hbreak
    have hmem := mem_strippedFingerprint_of_isBreak hc hbreak
    rw [heq] at hmem
    obtain ⟨d, hd, rfl⟩ := exists_digitChar_of_mem hmem
    have hspace := isHexSpace_digitChar hd
    rw [isHexSpace, Bool.or_eq_false_iff] at hspace
    rw [isBreak, hspace.2] at hbreak
    cases hbreak
  · rintro ⟨-, hread⟩
    exact eq_of_fromHex hread (by rw [hlength, hdigest]) fun c hc ↦
      isUpper_of_mem_strippedFingerprint hc

/-- A certificate matches when some entry is read as its digest. -/
theorem certFingerprintMatches_iff {sha256 : Bytes → Bytes}
    (hsha256 : ∀ cert, (sha256 cert).length = 32) {fingerprints allowed : List String}
    (h : fingerprints.mapM normalizeCertFingerprint = .ok allowed) (cert : Bytes) :
    certFingerprintMatches sha256 cert allowed = true ↔ ∃ fingerprint ∈ fingerprints,
      (∀ c ∈ fingerprint.toList, isBreak c = false) ∧
        fromHex (strippedFingerprint fingerprint) = some (sha256 cert) := by
  rw [certFingerprintMatches, decide_eq_true_iff, getCertFingerprint]
  constructor
  · intro hmem
    obtain ⟨fingerprint, hfingerprint, hnormalize⟩ := Except.exists_of_mem_mapM h hmem
    exact ⟨fingerprint, hfingerprint, (eq_hex_iff hnormalize (hsha256 cert)).1 rfl⟩
  · rintro ⟨fingerprint, hfingerprint, hreads⟩
    obtain ⟨text, htext, hnormalize⟩ := Except.exists_mem_of_mapM h hfingerprint
    rwa [← (eq_hex_iff hnormalize (hsha256 cert)).2 hreads]

end Tools

end Pyrad2
