import Pyrad2.Dictionary.DictFile

/-!
# Include lines

What a line of a dictionary file looks like that includes another file: of its text before a comment,
the first word is `$INCLUDE` in any case, and the words behind it are the path. These are the lines
that `DictFile` takes for directives.
-/

namespace Pyrad2

open Posix

/-- A letter of a keyword in any case. A small `I` is also written without its dot. -/
def InAnyCase (letter c : Char) : Prop :=
  c = letter ∨ c = letter.toLower ∨ letter = 'I' ∧ c = 'ı'

/-- The text of a line before its comment, if it has one. -/
def BeforeComment (content line : List Char) : Prop :=
  '#' ∉ content ∧ (line = content ∨ ∃ comment, line = content ++ '#' :: comment)

/-- **A line that includes the file at a path.** -/
def IncludeLine (line : String) (p : Path) : Prop :=
  ∃ content keyword path, BeforeComment content line.toList ∧
    content.HasWords Tools.isWhite (keyword :: path) ∧
    List.Forall₂ InAnyCase "$INCLUDE".toList keyword ∧ path ≠ [] ∧ p = [' '].intercalate path

/-! ### Comments -/

theorem BeforeComment.takeWhile_eq {content line : List Char} (h : BeforeComment content line) :
    line.takeWhile (· ≠ '#') = content := by
  obtain ⟨hfree, hline⟩ := h
  have hkeep : ∀ c ∈ content, decide (c ≠ '#') = true := fun c hc ↦
    decide_eq_true fun heq ↦ hfree (heq ▸ hc)
  rcases hline with rfl | ⟨comment, rfl⟩
  · exact List.takeWhile_eq_self_iff.2 hkeep
  · rw [List.takeWhile_append_of_pos hkeep, List.takeWhile_cons_of_neg (by decide),
      List.append_nil]

theorem beforeComment_takeWhile (line : List Char) :
    BeforeComment (line.takeWhile (· ≠ '#')) line := by
  by_cases h : '#' ∈ line
  · obtain ⟨content, comment, rfl, hfree⟩ := List.eq_append_cons_of_mem h
    have hcontent : BeforeComment content (content ++ '#' :: comment) :=
      ⟨hfree, .inr ⟨comment, rfl⟩⟩
    rwa [hcontent.takeWhile_eq]
  · have hcontent : BeforeComment line line := ⟨h, .inl rfl⟩
    rwa [hcontent.takeWhile_eq]

/-! ### Upper case -/

namespace Tools

theorem toNat_toUpper (c : Char) : c.toUpper.toNat =
    if 97 ≤ c.toNat ∧ c.toNat ≤ 122 then c.toNat - 32 else c.toNat := by
  by_cases h : 'a'.val ≤ c.val ∧ c.val ≤ 'z'.val
  · have hupper : c.toUpper = _ := dif_pos h
    have hlow : 97 ≤ c.toNat := UInt32.le_iff_toNat_le.1 h.1
    have hhigh : c.toNat ≤ 122 := UInt32.le_iff_toNat_le.1 h.2
    have hsum : (c.val + ('A'.val - 'a'.val)).toNat = (c.toNat + 4294967264) % 4294967296 :=
      UInt32.toNat_add _ _
    rw [if_pos ⟨hlow, hhigh⟩, hupper]
    refine hsum.trans ?_
    omega
  · have hupper : c.toUpper = c := dif_neg h
    rw [hupper, if_neg]
    exact fun hrange ↦ h ⟨UInt32.le_iff_toNat_le.2 hrange.1, UInt32.le_iff_toNat_le.2 hrange.2⟩

theorem toNat_toLower (c : Char) : c.toLower.toNat =
    if 65 ≤ c.toNat ∧ c.toNat ≤ 90 then c.toNat + 32 else c.toNat := by
  by_cases h : c.val ≥ 'A'.val ∧ c.val ≤ 'Z'.val
  · have hlower : c.toLower = _ := dif_pos h
    have hlow : 65 ≤ c.toNat := UInt32.le_iff_toNat_le.1 h.1
    have hhigh : c.toNat ≤ 90 := UInt32.le_iff_toNat_le.1 h.2
    have hsum : (c.val + ('a'.val - 'A'.val)).toNat = (c.toNat + 32) % 4294967296 :=
      UInt32.toNat_add _ _
    rw [if_pos ⟨hlow, hhigh⟩, hlower]
    refine hsum.trans ?_
    omega
  · have hlower : c.toLower = c := dif_neg h
    rw [hlower, if_neg]
    exact fun hrange ↦ h ⟨UInt32.le_iff_toNat_le.2 hrange.1, UInt32.le_iff_toNat_le.2 hrange.2⟩

theorem toUpper_eq_iff {letter c : Char} (h : ¬ (97 ≤ letter.toNat ∧ letter.toNat ≤ 122)) :
    c.toUpper = letter ↔ c = letter ∨ c = letter.toLower := by
  rw [← Char.toNat_inj, ← Char.toNat_inj, ← Char.toNat_inj, toNat_toUpper, toNat_toLower]
  split
  all_goals split
  all_goals omega

theorem upperChar_of_lt {c : Char} (h : c.toNat < 128) : upperChar c = [c.toUpper] := by
  unfold upperChar
  split <;> first | omega | rfl

theorem upperChar_of_ge {c : Char} (h : 128 ≤ c.toNat) :
    upperChar c = ['I'] ∧ c.toNat = 0x131 ∨ c.toNat ≠ 0x131 ∧
      (upperChar c = [c] ∨ ∃ rest, upperChar c = 'S' :: rest ∨ upperChar c = 'F' :: rest) := by
  have hself : c.toUpper = c := by
    rw [← Char.toNat_inj, toNat_toUpper, if_neg (by omega)]
  unfold upperChar
  split
  -- `ı` becomes `I`; what else has ASCII for its upper case begins with `S` or `F` there
  case h_2 heq => exact .inl ⟨rfl, heq⟩
  case h_11 hne _ _ _ _ _ _ _ _ => exact .inr ⟨hne, .inl (by rw [hself])⟩
  all_goals exact .inr ⟨by omega, .inr ⟨_, by first | exact .inl rfl | exact .inr rfl⟩⟩

/-- A character that is the upper case of single characters only. -/
structure Capital (letter : Char) : Prop where
  ascii : letter.toNat < 128
  not_lower : ¬ (97 ≤ letter.toNat ∧ letter.toNat ≤ 122)
  ne : letter ≠ 'S' ∧ letter ≠ 'F'

/-- What has a capital in its upper case has nothing else in it. -/
theorem Capital.upperChar_append_eq_iff {letter c : Char} (h : Capital letter)
    {rest rest' : List Char} :
    upperChar c ++ rest = letter :: rest' ↔ InAnyCase letter c ∧ rest = rest' := by
  by_cases hc : c.toNat < 128
  · -- upper case is that of ASCII
    have hdotless : c ≠ 'ı' := by
      rintro rfl
      exact absurd hc (by decide)
    rw [upperChar_of_lt hc, List.singleton_append, List.cons_eq_cons, toUpper_eq_iff h.not_lower,
      InAnyCase]
    simp [hdotless]
  · have hletter : c ≠ letter := fun heq ↦ hc (heq ▸ h.ascii)
    have hlower : c ≠ letter.toLower := by
      rintro rfl
      have hlt := h.ascii
      rw [toNat_toLower] at hc
      split at hc <;> omega
    have hcase : InAnyCase letter c ↔ letter = 'I' ∧ c = 'ı' := by
      rw [InAnyCase]
      simp [hletter, hlower]
    rw [hcase]
    rcases upperChar_of_ge (c := c) (by omega) with ⟨hupper, hdotless⟩ | ⟨hdot, hupper⟩
    · have hc : c = 'ı' := Char.toNat_inj.1 hdotless
      rw [hupper, List.singleton_append, List.cons_eq_cons]
      simp [hc, eq_comm]
    · have hother : ¬ upperChar c ++ rest = letter :: rest' := by
        rcases hupper with hself | ⟨more, hs | hf⟩
        · rw [hself]
          exact fun heq ↦ hletter (List.cons.inj heq).1
        · rw [hs]
          exact fun heq ↦ h.ne.1 (List.cons.inj heq).1.symm
        · rw [hf]
          exact fun heq ↦ h.ne.2 (List.cons.inj heq).1.symm
      refine iff_of_false hother ?_
      rintro ⟨⟨-, rfl⟩, -⟩
      exact hdot rfl

theorem upperChar_ne_nil (c : Char) : upperChar c ≠ [] := by
  unfold upperChar
  split <;> exact List.cons_ne_nil _ _

/-- **Upper case is a keyword** where every letter of it stands in any case. -/
theorem flatMap_upperChar_eq_iff {keyword : List Char} (h : ∀ letter ∈ keyword, Capital letter)
    {w : List Char} : w.flatMap upperChar = keyword ↔ List.Forall₂ InAnyCase keyword w := by
  induction keyword generalizing w with
  | nil =>
    rw [List.forall₂_nil_left_iff, List.flatMap_eq_nil_iff]
    rcases w with - | ⟨c, w⟩
    · exact iff_of_true (fun _ hc ↦ absurd hc List.not_mem_nil) rfl
    · exact iff_of_false (fun hall ↦ upperChar_ne_nil c (hall c List.mem_cons_self))
        (List.cons_ne_nil _ _)
  | cons letter keyword ih =>
    rcases w with - | ⟨c, w⟩
    · exact iff_of_false (fun heq ↦ (List.cons_ne_nil _ _) heq.symm) (fun hall ↦ by cases hall)
    · rw [List.flatMap_cons, (h letter List.mem_cons_self).upperChar_append_eq_iff,
        ih fun l hl ↦ h l (List.mem_cons_of_mem _ hl), List.forall₂_cons]

theorem capital_of_mem {letter : Char} (h : letter ∈ "$INCLUDE".toList) : Capital letter := by
  have hall : ("$INCLUDE".toList.all fun c ↦ c.toNat < 128 ∧ ¬ (97 ≤ c.toNat ∧ c.toNat ≤ 122) ∧
      c ≠ 'S' ∧ c ≠ 'F') = true := by decide
  obtain ⟨hascii, hlower, hne⟩ := of_decide_eq_true (List.all_eq_true.1 hall letter h)
  exact ⟨hascii, hlower, hne⟩

theorem upper_eq_include_iff (w : List Char) :
    upper (String.ofList w) = "$INCLUDE" ↔ List.Forall₂ InAnyCase "$INCLUDE".toList w := by
  rw [← flatMap_upperChar_eq_iff fun _ ↦ capital_of_mem, upper, String.toList_ofList]
  exact ⟨fun h ↦ by rw [← h, String.toList_ofList], fun h ↦ by rw [h, String.ofList_toList]⟩

end Tools

/-! ### Directives -/

theorem intercalate_ne_nil {c : Char} {ws : List (List Char)} (hne : ws ≠ [])
    (hws : ∀ w ∈ ws, w ≠ []) : [c].intercalate ws ≠ [] := by
  rcases ws with - | ⟨w, ws⟩
  · exact absurd rfl hne
  · have hw := hws w List.mem_cons_self
    rcases ws with - | ⟨w', ws⟩
    · rwa [List.intercalate_singleton]
    · rw [List.intercalate_cons_cons]
      simp [hw]

namespace DictFile

theorem getInclude_eq_some_iff {line : String} {p : Path} :
    getInclude line = some p ↔ ∃ keyword path,
      (line.toList.takeWhile (· ≠ '#')).wordsBy Tools.isWhite = keyword :: path ∧
      List.Forall₂ InAnyCase "$INCLUDE".toList keyword ∧ p = [' '].intercalate path := by
  rw [getInclude, DictReader.tokenize, Tools.words]
  rcases (line.toList.takeWhile (· ≠ '#')).wordsBy Tools.isWhite with - | ⟨keyword, path⟩
  · simp
  · have hpath : (path.map String.ofList).map String.toList = path := by
      rw [List.map_map]
      exact (List.map_congr_left fun w _ ↦ String.toList_ofList).trans (List.map_id path)
    rw [List.map_cons]
    dsimp only
    rw [hpath]
    by_cases hkey : Tools.upper (String.ofList keyword) = "$INCLUDE"
    · rw [if_pos hkey, Option.some_inj]
      constructor
      · rintro rfl
        exact ⟨keyword, path, rfl, (Tools.upper_eq_include_iff keyword).1 hkey, rfl⟩
      · rintro ⟨_, _, heq, -, rfl⟩
        cases heq
        rfl
    · rw [if_neg hkey]
      refine iff_of_false (fun h ↦ by cases h) ?_
      rintro ⟨_, _, heq, hcase, -⟩
      cases heq
      exact hkey ((Tools.upper_eq_include_iff keyword).2 hcase)

/-- **Directives are the include lines.** -/
theorem directive?_eq_some_iff {line : String} {p : Path} :
    directive? line = some p ↔ IncludeLine line p := by
  rw [directive?, Option.filter_eq_some_iff, getInclude_eq_some_iff, decide_eq_true_iff]
  constructor
  · rintro ⟨⟨keyword, path, hwords, hkey, rfl⟩, hp⟩
    refine ⟨_, keyword, path, beforeComment_takeWhile _, List.hasWords_iff.2 hwords, hkey, ?_, rfl⟩
    rintro rfl
    exact hp rfl
  · rintro ⟨content, keyword, path, hcontent, hwords, hkey, hne, rfl⟩
    have hcut := hwords.wordsBy_eq
    rw [← hcontent.takeWhile_eq] at hcut
    refine ⟨⟨keyword, path, hcut, hkey, rfl⟩, intercalate_ne_nil hne fun w hw ↦ ?_⟩
    exact List.ne_nil_of_mem_wordsBy (hcut ▸ List.mem_cons_of_mem keyword hw)

/-- The other lines are delivered. -/
theorem directive?_eq_none_iff {line : String} :
    directive? line = none ↔ ∀ p, ¬ IncludeLine line p := by
  rw [Option.eq_none_iff_forall_ne_some]
  exact forall_congr' fun p ↦ not_congr directive?_eq_some_iff

end DictFile

end Pyrad2
