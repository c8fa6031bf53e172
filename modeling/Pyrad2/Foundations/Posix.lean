import Mathlib.Data.List.DropRight

/-!
# Paths

The part of `os.path` that works on the text of a path alone, as POSIX systems have it.

A directory is named by every text to which the same can be joined. The directory of a file can be
found before or after the name of the file is joined to another directory: both name the same one.
-/

namespace Posix

/-- A path, as its characters. -/
abbrev Path := List Char

/-- `os.path.isabs(p)` -/
def isabs (p : Path) : Bool := p.head? == some '/'

/-- A directory, so that a name can follow. -/
def slashed (p : Path) : Path := if p = [] ∨ p.getLast? = some '/' then p else p ++ ['/']

/-- `os.path.join(a, b)` -/
def join (a b : Path) : Path := if isabs b then b else slashed a ++ b

/-- A path up to its last slash. -/
def stem (p : Path) : Path := p.rdropWhile (· ≠ '/')

/-- `os.path.basename(p)` -/
def basename (p : Path) : Path := p.rtakeWhile (· ≠ '/')

/-- A path without the slashes at its end, unless it has nothing else. -/
def stripSlashes (p : Path) : Path := if p.all (· = '/') then p else p.rdropWhile (· = '/')

/-- `os.path.dirname(p)` -/
def dirname (p : Path) : Path := stripSlashes (stem p)

/-- The names on a path, one for each step down. -/
def components (p : Path) : List Path := (p.splitOn '/').filter fun c ↦ c ≠ [] ∧ c ≠ ['.']

/-- What two lists begin with. -/
def commonPrefix {α : Type} [DecidableEq α] : List α → List α → List α
  | a :: l, b :: l' => if a = b then a :: commonPrefix l l' else []
  | _, _ => []

/-- `os.path.commonpath([a, b])`, `none` where it raises `ValueError`. -/
def commonpath (a b : Path) : Option Path :=
  if isabs a = isabs b then
    let common := ['/'].intercalate (commonPrefix (components a) (components b))
    some (if isabs a then '/' :: common else common)
  else none

/-- One path is another one or lies below it. -/
def Inside (base p : Path) : Prop := components base <+: components p

instance (base p : Path) : Decidable (Inside base p) :=
  inferInstanceAs (Decidable (components base <+: components p))

/-- An absolute path without empty names and without `.`. -/
def Canonical (p : Path) : Prop :=
  ∃ cs : List Path, (∀ c ∈ cs, c ≠ [] ∧ c ≠ ['.'] ∧ '/' ∉ c) ∧ p = '/' :: ['/'].intercalate cs

/-! ### The end of a path -/

/-- What is dropped from the end of two lists comes from the second one first. -/
theorem rdropWhile_append {α : Type} (f : α → Bool) (a b : List α) :
    (a ++ b).rdropWhile f = if b.all f then a.rdropWhile f else a ++ b.rdropWhile f := by
  induction b using List.reverseRecOn with
  | nil => simp
  | append_singleton b x ih =>
    rw [← List.append_assoc]
    by_cases hx : f x
    · rw [List.rdropWhile_concat_pos _ _ _ hx, List.rdropWhile_concat_pos _ _ _ hx, ih]
      simp [hx]
    · rw [List.rdropWhile_concat_neg _ _ _ hx, List.rdropWhile_concat_neg _ _ _ hx, if_neg,
        List.append_assoc]
      exact fun h ↦ hx (List.all_eq_true.1 h x (by simp))

variable {a b d name : Path}

theorem stem_append_of_mem (h : '/' ∈ b) : stem (a ++ b) = a ++ stem b := by
  rw [stem, rdropWhile_append, if_neg]
  · rfl
  · intro hall
    simpa using List.all_eq_true.1 hall '/' h

theorem stem_append_of_notMem (h : '/' ∉ b) : stem (a ++ b) = stem a := by
  rw [stem, rdropWhile_append, if_pos]
  · rfl
  · refine List.all_eq_true.2 fun c hc ↦ ?_
    simpa using fun heq : c = '/' ↦ h (heq ▸ hc)

theorem stem_of_notMem (h : '/' ∉ b) : stem b = [] := stem_append_of_notMem (a := []) h

/-- A path up to a slash is all that is before the slash. -/
theorem stem_of_getLast? (h : a.getLast? = some '/') : stem a = a := by
  rw [stem, List.rdropWhile_eq_self_iff]
  intro hne
  rw [List.getLast?_eq_some_getLast hne] at h
  simpa using Option.some.inj h

/-- A stem is nothing or ends with a slash. -/
theorem getLast?_stem (h : '/' ∈ b) : (stem b).getLast? = some '/' := by
  have hne : stem b ≠ [] := by
    intro hnil
    simpa using List.rdropWhile_eq_nil_iff.1 hnil '/' h
  have hlast := List.rdropWhile_last_not (fun c : Char ↦ decide (c ≠ '/')) b hne
  rw [decide_eq_true_eq, not_not] at hlast
  rw [List.getLast?_eq_some_getLast hne]
  exact congrArg some hlast

theorem slashed_of_slash (h : a = [] ∨ a.getLast? = some '/') : slashed a = a := if_pos h

theorem slashed_of_not_slash (h : ¬ (a = [] ∨ a.getLast? = some '/')) : slashed a = a ++ ['/'] :=
  if_neg h

theorem slash_slashed (a : Path) : slashed a = [] ∨ (slashed a).getLast? = some '/' := by
  by_cases h : a = [] ∨ a.getLast? = some '/'
  · rwa [slashed_of_slash h]
  · exact .inr (by simp [slashed_of_not_slash h])

theorem stem_slashed (a : Path) : stem (slashed a) = slashed a := by
  rcases slash_slashed a with h | h
  · rw [h]
    rfl
  · exact stem_of_getLast? h

theorem stripSlashes_of_all (h : ∀ c ∈ a, c = '/') : stripSlashes a = a :=
  if_pos (by simpa using h)

theorem stripSlashes_of_not_all (h : ¬ ∀ c ∈ a, c = '/') :
    stripSlashes a = a.rdropWhile (· = '/') := if_neg (by simpa using h)

/-- A directory keeps no slashes at its end. -/
theorem stripSlashes_stripSlashes (p : Path) : stripSlashes (stripSlashes p) = stripSlashes p := by
  by_cases h : ∀ c ∈ p, c = '/'
  · rw [stripSlashes_of_all h, stripSlashes_of_all h]
  · rw [stripSlashes_of_not_all h, stripSlashes, List.rdropWhile_idempotent, ite_self]

theorem stripSlashes_dirname (p : Path) : stripSlashes (dirname p) = dirname p :=
  stripSlashes_stripSlashes _

theorem slashed_slashed (a : Path) : slashed (slashed a) = slashed a :=
  slashed_of_slash (slash_slashed a)

/-- A slash behind a directory is one of those at its end. -/
theorem slashed_stripSlashes_slashed (hd : stripSlashes d = d) :
    slashed (stripSlashes (slashed d)) = slashed d := by
  by_cases hslash : d = [] ∨ d.getLast? = some '/'
  · rw [slashed_of_slash hslash, hd, slashed_of_slash hslash]
  · have hall : ¬ ∀ c ∈ d, c = '/' := by
      intro hall
      rcases d.eq_nil_or_concat with rfl | ⟨l, c, rfl⟩
      · exact hslash (.inl rfl)
      · exact hslash (.inr (by simp [hall c (by simp)]))
    have hslashed := slashed_of_not_slash hslash
    rw [stripSlashes_of_not_all hall] at hd
    rw [hslashed, stripSlashes_of_not_all fun h ↦ hall fun c hc ↦ h c (List.mem_append_left _ hc),
      List.rdropWhile_concat_pos _ _ _ (by simp), hd, hslashed]

/-! ### Joining -/

theorem join_of_isabs (h : isabs b = true) (a : Path) : join a b = b := if_pos h

theorem join_of_not_isabs (h : ¬ isabs b = true) (a : Path) : join a b = slashed a ++ b := if_neg h

/-- What is joined to a directory does not depend on a slash at its end. -/
theorem join_congr (h : slashed a = slashed b) (name : Path) : join a name = join b name := by
  rw [join, join, h]

/-- What stands behind a slash is a name of its own. -/
theorem basename_slashed_append (a b : Path) : basename (slashed a ++ b) = basename b := by
  have hwhole : stem (slashed a ++ b) ++ basename (slashed a ++ b) = slashed a ++ b :=
    List.rdropWhile_append_rtakeWhile ..
  have hname : stem b ++ basename b = b := List.rdropWhile_append_rtakeWhile ..
  by_cases h : '/' ∈ b
  · rw [stem_append_of_mem h, List.append_assoc] at hwhole
    exact List.append_cancel_left ((List.append_cancel_left hwhole).trans hname.symm)
  · rw [stem_append_of_notMem h, stem_slashed] at hwhole
    rw [stem_of_notMem h, List.nil_append] at hname
    rw [hname]
    exact List.append_cancel_left hwhole

/-- A name joined to a directory is the same name. -/
theorem basename_join (d name : Path) : basename (join d name) = basename name := by
  by_cases h : isabs name = true
  · rw [join_of_isabs h]
  · rw [join_of_not_isabs h, basename_slashed_append]

/-- The directory of a name, as a path from the directory that the name is joined to. -/
def dirFrom (d name : Path) : Path :=
  if isabs (dirname name) then dirname name else join d (dirname name)

/-- A path that does not begin with a slash has something other than slashes before each slash. -/
theorem not_all_stem (habs : ¬ isabs name = true) (h : '/' ∈ name) :
    ¬ ∀ c ∈ stem name, c = '/' := by
  intro hall
  obtain ⟨rest, hrest⟩ : stem name <+: name := List.rdropWhile_prefix _ _
  have hlast := getLast?_stem h
  rcases hstem : stem name with - | ⟨c, l⟩
  · simp [hstem] at hlast
  · refine habs ?_
    rw [hstem] at hrest hall
    rw [← hrest, hall c (by simp)]
    rfl

theorem stripSlashes_isPrefix (p : Path) : stripSlashes p <+: p := by
  by_cases h : ∀ c ∈ p, c = '/'
  · exact ⟨[], by rw [stripSlashes_of_all h, List.append_nil]⟩
  · rw [stripSlashes_of_not_all h]
    exact List.rdropWhile_prefix _ _

theorem stripSlashes_eq_nil_iff {p : Path} : stripSlashes p = [] ↔ p = [] := by
  constructor
  · intro hnil
    by_cases h : ∀ c ∈ p, c = '/'
    · rwa [stripSlashes_of_all h] at hnil
    · rw [stripSlashes_of_not_all h, List.rdropWhile_eq_nil_iff] at hnil
      exact absurd (by simpa using hnil) h
  · rintro rfl
    rfl

/-- The directory of a name is absolute where the name is. -/
theorem isabs_dirname (name : Path) : isabs (dirname name) = isabs name := by
  obtain ⟨rest, hrest⟩ : dirname name <+: name :=
    (stripSlashes_isPrefix _).trans (List.rdropWhile_prefix _ _)
  rcases hdir : dirname name with - | ⟨c, l⟩
  · have hname : '/' ∉ name := by
      intro hmem
      have hlast := getLast?_stem hmem
      rw [stripSlashes_eq_nil_iff.1 hdir] at hlast
      cases hlast
    rcases name with - | ⟨c, l⟩
    · rfl
    · have hc : c ≠ '/' := fun h ↦ hname (by simp [h])
      simp [isabs, hc]
  · rw [hdir] at hrest
    rw [← hrest]
    rfl

/-- **The directory of a joined name.** -/
theorem slashed_dirname_join (hd : stripSlashes d = d) (name : Path) :
    slashed (dirname (join d name)) = slashed (dirFrom d name) := by
  by_cases habs : isabs name = true
  · rw [join_of_isabs habs, dirFrom, if_pos (by rwa [isabs_dirname])]
  rw [dirFrom, if_neg (by rwa [isabs_dirname]), join_of_not_isabs habs, dirname]
  rw [join_of_not_isabs (by rwa [isabs_dirname])]
  by_cases hname : '/' ∈ name
  · have hall := not_all_stem habs hname
    rw [stem_append_of_mem hname, dirname, stripSlashes_of_not_all hall,
      stripSlashes_of_not_all fun h ↦ hall fun c hc ↦ h c (List.mem_append_right _ hc),
      rdropWhile_append, if_neg (by simpa using hall)]
  · rw [stem_append_of_notMem hname, stem_slashed, slashed_stripSlashes_slashed hd, dirname,
      stem_of_notMem hname, stripSlashes_of_all (by simp), List.append_nil, slashed_slashed]

/-! ### Common paths -/

/-- What is common to two lists is all of the first one where the second one begins with it. -/
theorem commonPrefix_eq_left_iff {α : Type} [DecidableEq α] {l l' : List α} :
    commonPrefix l l' = l ↔ l <+: l' := by
  induction l generalizing l' with
  | nil => cases l' <;> simp [commonPrefix]
  | cons x l ih =>
    rcases l' with - | ⟨y, l'⟩
    · simp [commonPrefix]
    · by_cases hxy : x = y
      · simp [commonPrefix, hxy, ih]
      · simp [commonPrefix, hxy, List.cons_prefix_cons]

theorem commonPrefix_isPrefix {α : Type} [DecidableEq α] (l l' : List α) :
    commonPrefix l l' <+: l := by
  induction l generalizing l' with
  | nil => cases l' <;> simp [commonPrefix]
  | cons x l ih =>
    rcases l' with - | ⟨y, l'⟩
    · simp [commonPrefix]
    · by_cases hxy : x = y
      · simpa [commonPrefix, hxy, List.cons_prefix_cons] using ih l'
      · simp [commonPrefix, hxy]

/-- The names that a canonical path is made of are read off it. -/
theorem components_intercalate {cs : List Path}
    (h : ∀ c ∈ cs, c ≠ [] ∧ c ≠ ['.'] ∧ '/' ∉ c) :
    components ('/' :: ['/'].intercalate cs) = cs := by
  have hall : cs.filter (fun c ↦ c ≠ [] ∧ c ≠ ['.']) = cs :=
    List.filter_eq_self.2 fun c hc ↦ by simp [(h c hc).1, (h c hc).2.1]
  rw [components, List.splitOn_cons_eq_if_modifyHead, if_pos (by rfl)]
  rcases cs with - | ⟨c, cs⟩
  · rfl
  · rw [List.splitOn_intercalate '/' (fun c hc ↦ (h c hc).2.2) (List.cons_ne_nil c cs),
      List.filter_cons_of_neg (by simp), hall]

theorem notMem_of_mem_splitOn {c : Path} (h : c ∈ a.splitOn '/') : '/' ∉ c := by
  induction a generalizing c with
  | nil =>
    rcases List.mem_singleton.1 h with rfl
    exact List.not_mem_nil
  | cons x a ih =>
    rw [List.splitOn_cons_eq_if_modifyHead] at h
    split at h
    · rcases List.mem_cons.1 h with rfl | h
      · exact List.not_mem_nil
      · exact ih h
    · next hx =>
      rcases hsplit : a.splitOn '/' with - | ⟨head, tail⟩
      · exact absurd hsplit (List.splitOn_ne_nil _ _)
      · rw [hsplit] at h ih
        rcases List.mem_cons.1 h with rfl | h
        · intro hmem
          rcases List.mem_cons.1 hmem with rfl | hmem
          · exact hx (beq_self_eq_true _)
          · exact ih List.mem_cons_self hmem
        · exact ih (List.mem_cons_of_mem _ h)

/-- A path is canonical that is put together from the names on another one. -/
theorem canonical_intercalate_components (p : Path) :
    Canonical ('/' :: ['/'].intercalate (components p)) := by
  refine ⟨components p, fun c hc ↦ ?_, rfl⟩
  obtain ⟨hc, hname⟩ := List.mem_filter.1 hc
  rw [decide_eq_true_eq] at hname
  exact ⟨hname.1, hname.2, notMem_of_mem_splitOn hc⟩

/-- **One canonical path is common to itself and to the paths below it.** -/
theorem commonpath_eq_left_iff (ha : Canonical a) (hb : Canonical b) :
    commonpath a b = some a ↔ Inside a b := by
  obtain ⟨cs, hcs, rfl⟩ := ha
  obtain ⟨cs', hcs', rfl⟩ := hb
  have habs : isabs ('/' :: ['/'].intercalate cs) = isabs ('/' :: ['/'].intercalate cs') := rfl
  rw [Inside, commonpath, if_pos habs, components_intercalate hcs, components_intercalate hcs',
    ← commonPrefix_eq_left_iff]
  have hcommon : ∀ c ∈ commonPrefix cs cs', c ≠ [] ∧ c ≠ ['.'] ∧ '/' ∉ c :=
    fun c hc ↦ hcs c ((commonPrefix_isPrefix cs cs').subset hc)
  constructor
  · intro h
    have hnames := congrArg components (Option.some.inj h)
    exact (components_intercalate hcommon).symm.trans (hnames.trans (components_intercalate hcs))
  · intro h
    rw [h]
    rfl

/-- The last name on a path is the end of the path. -/
theorem getLast?_intercalate {cs : List Path} (hne : cs ≠ []) (h : ∀ c ∈ cs, c ≠ []) :
    ∃ c ∈ cs, (['/'].intercalate cs).getLast? = c.getLast? := by
  induction cs with
  | nil => exact absurd rfl hne
  | cons c cs ih =>
    rcases cs with - | ⟨c', cs⟩
    · exact ⟨c, by simp, by simp⟩
    · obtain ⟨d, hd, hlast⟩ := ih (List.cons_ne_nil _ _) fun c hc ↦ h c (List.mem_cons_of_mem _ hc)
      refine ⟨d, List.mem_cons_of_mem _ hd, ?_⟩
      have hrest : ['/'].intercalate (c' :: cs) ≠ [] := by
        intro hnil
        rw [hnil, List.getLast?_nil] at hlast
        exact h d (List.mem_cons_of_mem _ hd) (List.getLast?_eq_none_iff.1 hlast.symm)
      rw [List.intercalate_cons_of_ne_nil (List.cons_ne_nil _ _),
        List.getLast?_append_of_ne_nil _ hrest, hlast]

/-- No slash stands at the end of a canonical path, unless it is nothing else. -/
theorem stripSlashes_canonical (h : Canonical a) : stripSlashes a = a := by
  obtain ⟨cs, hcs, rfl⟩ := h
  rcases eq_or_ne cs [] with rfl | hne
  · rfl
  · obtain ⟨c, hc, hlast⟩ := getLast?_intercalate hne fun c hc ↦ (hcs c hc).1
    obtain ⟨hcne, -, hslash⟩ := hcs c hc
    have hname : c.getLast hcne ≠ '/' := fun h ↦ hslash (h ▸ List.getLast_mem hcne)
    have hrest : ['/'].intercalate cs ≠ [] := by
      intro hnil
      rw [hnil, List.getLast?_nil] at hlast
      exact hcne (List.getLast?_eq_none_iff.1 hlast.symm)
    have hend : ('/' :: ['/'].intercalate cs).getLast? = some (c.getLast hcne) := by
      rw [← List.singleton_append, List.getLast?_append_of_ne_nil _ hrest, hlast,
        List.getLast?_eq_some_getLast hcne]
    have hlast' := List.mem_of_getLast? hend
    rw [stripSlashes_of_not_all fun h ↦ hname (h _ hlast'), List.rdropWhile_eq_self_iff]
    intro hne'
    rw [List.getLast?_eq_some_getLast hne'] at hend
    rw [Option.some.inj hend]
    simpa using hname

end Posix
