import Pyrad2.Dictionary.IncludeLines
import Pyrad2.Foundations.Acyclic

/-!
# The expansion of includes

What the lines of a dictionary file come to with its includes expanded: the lines of a file in their
order, and for an include line the lines of the file it names. That file stands in the directory of the
file that includes it, or below, or wherever an absolute path leads, but not outside of a base
directory.

The files on the stack of a `DictFile` are those whose expansion is under way. From a stack with a
file on top, the expansion of what is left of this file is delivered, and then the file is left.
-/

namespace Pyrad2

open Posix EStateM

namespace FileSystem

/-- Resolved paths are canonical. -/
structure Lawful (fs : FileSystem) : Prop where
  canonical : ∀ p r, fs.realpath p = .ok r → Canonical r

/-- The files below a directory that can be read. -/
def filesUnder (fs : FileSystem) (base : Path) : Set Path :=
  {file | Inside base file ∧ ∃ p lines, fs.realpath p = .ok file ∧ fs.readlines p = .ok lines}

/-- A file below the base directory is named by one of these lines, in a file that stands in the
directory. -/
def Names (fs : FileSystem) (base dir : Path) (texts : List String) (q : Path) : Prop :=
  ∃ text ∈ texts, ∃ p, IncludeLine text p ∧ q = join dir p ∧
    ∃ file, fs.realpath q = .ok file ∧ Inside base file

/-- One file includes another one below the base directory. -/
def Includes (fs : FileSystem) (base q q' : Path) : Prop :=
  ∃ texts, fs.readlines q = .ok texts ∧ fs.Names base (dirname q) texts q'

/-- The includes below a file. -/
def Follows (fs : FileSystem) (base dir : Path) (texts : List String) (q q' : Path) : Prop :=
  fs.Includes base q q' ∧ ∃ q₀, fs.Names base dir texts q₀ ∧
    Relation.ReflTransGen (fs.Includes base) q₀ q

/-- No file that is included from these lines includes itself, directly or through others. -/
def AcyclicFrom (fs : FileSystem) (base dir : Path) (texts : List String) : Prop :=
  Relation.AcyclicOn (fs.Follows base dir texts) fs.realpath

end FileSystem

namespace Source

/-- The name of the entry file. -/
def name : Source → Path
  | path fil => basename fil
  | stream _ => []

/-- The directory of the entry file, from the current directory. -/
def dir (cwd : Path) : Source → Path
  | path fil => dirname (join cwd fil)
  | stream _ => cwd

/-- The lines of the entry file. -/
def texts (fs : FileSystem) (cwd : Path) : Source → Except Exn (List String)
  | path fil => fs.readlines (join cwd fil)
  | stream lines => .ok lines

/-- The names that are given to `open` for the entry file. -/
def opens (cwd : Path) : Source → List Path
  | path fil => [join cwd fil]
  | stream _ => []

end Source

/-- **The expansion** of lines of a file, from a line number on: the lines, the files opened for
includes, and the exception that ends it if one does. -/
inductive Expands (fs : FileSystem) (base : Path) :
    (name dir : Path) → (k : ℕ) → List String → Iteration → Prop
  | finished {name dir k} : Expands fs base name dir k [] ⟨[], [], none⟩
  | line {name dir k text texts r} (plain : ∀ p, ¬ IncludeLine text p)
      (rest : Expands fs base name dir (k + 1) texts r) :
      Expands fs base name dir k (text :: texts)
        ⟨⟨String.ofList name, k + 1, text⟩ :: r.lines, r.opened, r.raised⟩
  /-- A file is included, and the including file goes on. -/
  | included {name dir k text texts p file included r' r}
      (directive : IncludeLine text p)
      (resolved : fs.realpath (join dir p) = .ok file) (inside : Inside base file)
      (read : fs.readlines (join dir p) = .ok included)
      (inner : Expands fs base (basename p) (dirname (join dir p)) 0 included r')
      (ended : r'.raised = none) (rest : Expands fs base name dir (k + 1) texts r) :
      Expands fs base name dir k (text :: texts)
        ⟨r'.lines ++ r.lines, join dir p :: r'.opened ++ r.opened, r.raised⟩
  /-- An include ends in an exception. -/
  | raised {name dir k text texts p file included r' e}
      (directive : IncludeLine text p)
      (resolved : fs.realpath (join dir p) = .ok file) (inside : Inside base file)
      (read : fs.readlines (join dir p) = .ok included)
      (inner : Expands fs base (basename p) (dirname (join dir p)) 0 included r')
      (ended : r'.raised = some e) :
      Expands fs base name dir k (text :: texts) ⟨r'.lines, join dir p :: r'.opened, some e⟩
  /-- An include resolves outside of the base directory: it is not opened. -/
  | escapes {name dir k text texts p file} (directive : IncludeLine text p)
      (resolved : fs.realpath (join dir p) = .ok file) (outside : ¬ Inside base file) :
      Expands fs base name dir k (text :: texts)
        ⟨[], [], some (DictFile.escapeError p base name (k + 1))⟩
  | unresolved {name dir k text texts p e} (directive : IncludeLine text p)
      (resolved : fs.realpath (join dir p) = .error e) :
      Expands fs base name dir k (text :: texts) ⟨[], [], some e⟩
  | unread {name dir k text texts p file e} (directive : IncludeLine text p)
      (resolved : fs.realpath (join dir p) = .ok file) (inside : Inside base file)
      (read : fs.readlines (join dir p) = .error e) :
      Expands fs base name dir k (text :: texts) ⟨[], [join dir p], some e⟩

variable {fs : FileSystem} {base : Path}

/-- Only files below the base directory are opened for includes. -/
theorem Expands.inside_of_mem_opened {name dir : Path} {k : ℕ} {texts : List String} {r : Iteration}
    (h : Expands fs base name dir k texts r) {q : Path} (hq : q ∈ r.opened) :
    ∃ file, fs.realpath q = .ok file ∧ Inside base file := by
  induction h with
  | finished => cases hq
  | line _ _ ih => exact ih hq
  | included _ hreal hin _ _ _ _ inner rest =>
    rcases List.mem_append.1 hq with hq | hq
    · rcases List.mem_cons.1 hq with rfl | hq
      · exact ⟨_, hreal, hin⟩
      · exact inner hq
    · exact rest hq
  | raised _ hreal hin _ _ _ inner =>
    rcases List.mem_cons.1 hq with rfl | hq
    · exact ⟨_, hreal, hin⟩
    · exact inner hq
  | escapes => cases hq
  | unresolved => cases hq
  | unread _ hreal hin _ =>
    rcases List.mem_singleton.1 hq with rfl
    exact ⟨_, hreal, hin⟩

/-! ### Every acyclic graph of includes has an expansion -/

/-- Lines have an expansion where the files they include have one. -/
theorem exists_expands_of_names {dir : Path} {texts : List String}
    (h : ∀ q, fs.Names base dir texts q → ∀ included, fs.readlines q = .ok included →
      ∀ name, ∃ r, Expands fs base name (dirname q) 0 included r) (name : Path) (k : ℕ) :
    ∃ r, Expands fs base name dir k texts r := by
  induction texts generalizing k with
  | nil => exact ⟨_, .finished⟩
  | cons text texts ih =>
    obtain ⟨rest, hrest⟩ := ih (fun q hq ↦ h q (by
      obtain ⟨text, htext, hnames⟩ := hq
      exact ⟨text, List.mem_cons_of_mem _ htext, hnames⟩)) (k + 1)
    by_cases hline : ∃ p, IncludeLine text p
    case neg => exact ⟨_, .line (not_exists.1 hline) hrest⟩
    obtain ⟨p, hdirective⟩ := hline
    rcases hreal : fs.realpath (join dir p) with e | file
    · exact ⟨_, .unresolved hdirective hreal⟩
    by_cases hin : Inside base file
    case neg => exact ⟨_, .escapes hdirective hreal hin⟩
    rcases hread : fs.readlines (join dir p) with e | included
    · exact ⟨_, .unread hdirective hreal hin hread⟩
    obtain ⟨inner, hinner⟩ := h (join dir p)
      ⟨text, List.mem_cons_self, p, hdirective, rfl, file, hreal, hin⟩ included hread (basename p)
    rcases hraised : inner.raised with - | e
    · exact ⟨_, .included hdirective hreal hin hread hinner hraised hrest⟩
    · exact ⟨_, .raised hdirective hreal hin hread hinner hraised⟩

/-- A file that is reached from some lines lies below the base directory. -/
theorem inside_of_reached {dir : Path} {texts : List String} {q₀ q : Path}
    (hnames : fs.Names base dir texts q₀) (h : Relation.ReflTransGen (fs.Includes base) q₀ q) :
    ∃ file, fs.realpath q = .ok file ∧ Inside base file := by
  rcases h.cases_tail with rfl | ⟨_, -, hlast⟩
  · obtain ⟨_, _, _, _, _, hinside⟩ := hnames
    exact hinside
  · obtain ⟨_, _, _, _, _, _, _, hinside⟩ := hlast
    exact hinside

/-- Included files that include nothing are acyclic. -/
theorem acyclicFrom_of_flat {dir : Path} {texts : List String}
    (h : ∀ q, fs.Names base dir texts q → ∀ lines, fs.readlines q = .ok lines →
      ∀ text ∈ lines, ∀ p, ¬ IncludeLine text p) : fs.AcyclicFrom base dir texts := by
  have hends {q₀ q q' : Path} (hnames : fs.Names base dir texts q₀)
      (hreached : Relation.ReflTransGen (fs.Includes base) q₀ q) : ¬ fs.Includes base q q' := by
    induction hreached generalizing q' with
    | refl =>
      rintro ⟨lines, hread, text, htext, p, hdirective, -⟩
      exact h q₀ hnames lines hread text htext p hdirective
    | tail _ hlast ih => exact absurd hlast ih
  intro b hcycle
  obtain ⟨c, ⟨q, q', ⟨hincludes, q₀, hnames, hreached⟩, -⟩, -⟩ :=
    Relation.TransGen.head'_iff.1 hcycle
  exact hends hnames hreached hincludes

/-- **Finitely many files that do not include themselves have an expansion.** -/
theorem exists_expands {dir : Path} {texts : List String} (hfinite : (fs.filesUnder base).Finite)
    (hacyclic : fs.AcyclicFrom base dir texts) (name : Path) (k : ℕ) :
    ∃ r, Expands fs base name dir k texts r := by
  have hlabels : (fs.realpath '' {q | ∃ q', fs.Follows base dir texts q q'}).Finite := by
    refine (hfinite.image Except.ok).subset ?_
    rintro _ ⟨q, ⟨q', ⟨lines, hread, -⟩, q₀, hnames, hreached⟩, rfl⟩
    obtain ⟨file, hreal, hin⟩ := inside_of_reached hnames hreached
    exact ⟨file, ⟨hin, q, lines, hreal, hread⟩, hreal.symm⟩
  -- The induction is on the includes below a file, which end.
  have hreached (q : Path) : ∀ q₀, fs.Names base dir texts q₀ →
      Relation.ReflTransGen (fs.Includes base) q₀ q → ∀ included, fs.readlines q = .ok included →
        ∀ name, ∃ r, Expands fs base name (dirname q) 0 included r := by
    induction Relation.acc_of_acyclicOn hlabels hacyclic q with
    | intro q _ ih =>
      intro q₀ hnames hq included hread name
      refine exists_expands_of_names (fun q' hq' included' hread' name' ↦ ?_) name 0
      have hincludes : fs.Includes base q q' := ⟨included, hread, hq'⟩
      exact ih q' ⟨hincludes, q₀, hnames, hq⟩ q₀ hnames (hq.tail hincludes) included' hread' name'
  exact exists_expands_of_names (fun q hq included hread name ↦
    hreached q q hq .refl included hread name) name k

/-! ### Turns -/

namespace DictFile

/-- Turns from one `DictFile` to another, and the lines delivered on the way. -/
inductive Turns (fs : FileSystem) : DictFile → List DictLine → DictFile → Prop
  | refl (d) : Turns fs d [] d
  | again {d d' d'' lines} (turn : (turn fs).run d = .ok .again d') (rest : Turns fs d' lines d'') :
      Turns fs d lines d''
  | yields {d d' d'' lines text} (turn : (turn fs).run d = .ok (.yields text) d')
      (rest : Turns fs d' lines d'') : Turns fs d (d'.delivered text :: lines) d''

theorem Turns.trans {d d' d'' : DictFile} {lines lines' : List DictLine} (h : Turns fs d lines d')
    (h' : Turns fs d' lines' d'') : Turns fs d (lines ++ lines') d'' := by
  induction h with
  | refl => exact h'
  | again hturn _ ih => exact .again hturn (ih h')
  | yields hturn _ ih => exact .yields hturn (ih h')

/-- Iterating goes on where some turns lead. -/
theorem Turns.exists_iterate {d d' : DictFile} {lines : List DictLine} (h : Turns fs d lines d')
    {n : ℕ} {r : Iteration} (hr : iterate fs n d' = some r) :
    ∃ m, iterate fs m d = some { r with lines := lines ++ r.lines } := by
  induction h with
  | refl => exact ⟨n, hr⟩
  | again hturn _ ih =>
    obtain ⟨m, hm⟩ := ih hr
    exact ⟨m + 1, by rw [iterate, hturn]; exact hm⟩
  | yields hturn _ ih =>
    obtain ⟨m, hm⟩ := ih hr
    exact ⟨m + 1, by rw [iterate, hturn]; dsimp only; rw [hm]; rfl⟩

section

variable {node node' : DictNode} {rest : List DictNode} {opened : List Path} {text : String} {p : Path}

theorem run_turn_of_end (h : node.next = none) :
    (turn fs).run ⟨node :: rest, base, opened⟩ = .ok .again ⟨rest, base, opened⟩ := by
  rw [turn, run_bind_of_ok (run_get _)]
  dsimp only
  rw [h]
  rfl

theorem run_turn_of_line (h : node.next = some (text, node')) (hplain : ∀ p, ¬ IncludeLine text p) :
    (turn fs).run ⟨node :: rest, base, opened⟩ =
      .ok (.yields text) ⟨node' :: rest, base, opened⟩ := by
  rw [turn, run_bind_of_ok (run_get _)]
  dsimp only
  rw [h]
  dsimp only
  rw [directive?_eq_none_iff.2 hplain]
  rfl

/-- An include line is the reading of a file. -/
theorem run_turn_of_directive (h : node.next = some (text, node'))
    (hdirective : IncludeLine text p) :
    (turn fs).run ⟨node :: rest, base, opened⟩ =
      (readNode fs (.path p) false >>= fun _ ↦ pure Turn.again).run
        ⟨node' :: rest, base, opened⟩ := by
  rw [turn, run_bind_of_ok (run_get _)]
  dsimp only
  rw [h]
  dsimp only
  rw [directive?_eq_some_iff.2 hdirective]
  rfl

theorem run_checkInside_of_error {fname : Path} {e : Exn} (h : fs.realpath fname = .error e)
    (d : DictFile) : (checkInside fs p fname).run d = .error e d := by
  rw [checkInside, run_bind_of_ok (run_get _), h]
  rfl

/-- A name is refused where it resolves outside of the base directory. -/
theorem run_checkInside (hfs : fs.Lawful) {fname file : Path} {d : DictFile}
    (hbase : Canonical d.includeBase) (h : fs.realpath fname = .ok file) :
    (checkInside fs p fname).run d =
      if Inside d.includeBase file then .ok () d
      else .error (escapeError p d.includeBase d.file d.line.toNat) d := by
  have hcommon : (commonpath d.includeBase file).getD [] = d.includeBase ↔
      Inside d.includeBase file := by
    rw [← commonpath_eq_left_iff hbase (hfs.canonical _ _ h)]
    rcases commonpath d.includeBase file with - | common
    · obtain ⟨cs, -, hcs⟩ := hbase
      rw [Option.getD_none, hcs]
      simp
    · simp
  rw [checkInside, run_bind_of_ok (run_get _), h, run_bind_of_ok (run_liftM_ok _ _)]
  by_cases hin : Inside d.includeBase file
  · rw [if_pos hin, if_neg (not_not.2 (hcommon.2 hin))]
    rfl
  · rw [if_neg hin, if_pos (mt hcommon.1 hin)]
    rfl

theorem ite_isabs (p dir : Path) : (if isabs p then p else join dir p) = join dir p := by
  by_cases h : isabs p = true
  · rw [if_pos h, join_of_isabs h]
  · rw [if_neg h]

/-- Reading a file for an include, from the directory of the file on top. -/
theorem readNode_eq (p : Path) (node : DictNode) (rest : List DictNode) (opened : List Path) :
    (readNode fs (.path p) false).run ⟨node :: rest, base, opened⟩ =
      (do checkInside fs p (join node.dir p)
          modify fun d ↦ { d with opened := d.opened ++ [join node.dir p] }
          let lines ← fs.readlines (join node.dir p)
          modify fun d ↦ { d with stack := .ofLines lines p node.dir :: d.stack } :
        FileMethod Unit).run ⟨node :: rest, base, opened⟩ := by
  have hcur : (curDir fs).run ⟨node :: rest, base, opened⟩ =
    .ok node.dir ⟨node :: rest, base, opened⟩ := rfl
  rw [readNode, run_bind_of_ok hcur]
  dsimp only
  rw [ite_isabs]
  rfl

section

variable (hfs : fs.Lawful) (hbase : Canonical base) (hnext : node.next = some (text, node'))
  (hdirective : IncludeLine text p) {file : Path} {lines : List String} {e : Exn}

include hnext hdirective

theorem run_turn_of_unresolved (hreal : fs.realpath (join node'.dir p) = .error e) :
    (turn fs).run ⟨node :: rest, base, opened⟩ = .error e ⟨node' :: rest, base, opened⟩ := by
  rw [run_turn_of_directive hnext hdirective, run_bind_of_error]
  rw [readNode_eq, run_bind_of_error (run_checkInside_of_error hreal _)]

include hfs hbase

theorem run_turn_of_escapes (hreal : fs.realpath (join node'.dir p) = .ok file)
    (hout : ¬ Inside base file) :
    (turn fs).run ⟨node :: rest, base, opened⟩ =
      .error (escapeError p base node'.name node'.current) ⟨node' :: rest, base, opened⟩ := by
  have hcheck : (checkInside fs p (join node'.dir p)).run ⟨node' :: rest, base, opened⟩ =
      .error (escapeError p base node'.name node'.current) ⟨node' :: rest, base, opened⟩ :=
    (run_checkInside hfs hbase hreal).trans (if_neg hout)
  rw [run_turn_of_directive hnext hdirective, run_bind_of_error]
  rw [readNode_eq, run_bind_of_error hcheck]

theorem run_turn_of_inside (hreal : fs.realpath (join node'.dir p) = .ok file)
    (hin : Inside base file) :
    (turn fs).run ⟨node :: rest, base, opened⟩ =
      match fs.readlines (join node'.dir p) with
      | .ok lines => .ok .again
          ⟨.ofLines lines p node'.dir :: node' :: rest, base, opened ++ [join node'.dir p]⟩
      | .error e => .error e ⟨node' :: rest, base, opened ++ [join node'.dir p]⟩ := by
  have hcheck : (checkInside fs p (join node'.dir p)).run ⟨node' :: rest, base, opened⟩ =
      .ok () ⟨node' :: rest, base, opened⟩ :=
    (run_checkInside hfs hbase hreal).trans (if_pos hin)
  rw [run_turn_of_directive hnext hdirective, run_bind, readNode_eq, run_bind_of_ok hcheck]
  rcases fs.readlines (join node'.dir p) with e | lines
  · rfl
  · rfl

end

end

end DictFile

/-! ### The stack delivers the expansion -/

/-- A file on the stack stands for lines of a file in a directory. -/
structure DictNode.Stands (node : DictNode) (name dir : Path) (k : ℕ) (texts : List String) :
    Prop where
  name_eq : node.name = name
  slashed_dir : slashed node.dir = slashed dir
  current_eq : node.current = k
  drop_lines : node.lines.drop k = texts
  stripped : stripSlashes dir = dir

namespace DictNode.Stands

variable {node : DictNode} {name dir : Path} {k : ℕ} {text : String} {texts : List String}

theorem next_eq_none (h : node.Stands name dir k []) : node.next = none := by
  have hlen := List.drop_eq_nil_iff.1 h.drop_lines
  rw [DictNode.next, h.current_eq, List.getElem?_eq_none hlen]

theorem next_eq_some (h : node.Stands name dir k (text :: texts)) :
    node.next = some (text, { node with current := k + 1 }) := by
  have hget : node.lines[k]? = some text := by
    rw [← List.head?_drop, h.drop_lines]
    rfl
  rw [DictNode.next, h.current_eq, hget]

theorem tail (h : node.Stands name dir k (text :: texts)) :
    DictNode.Stands { node with current := k + 1 } name dir (k + 1) texts where
  name_eq := h.name_eq
  slashed_dir := h.slashed_dir
  current_eq := rfl
  drop_lines := by
    show node.lines.drop (k + 1) = texts
    rw [← List.tail_drop, h.drop_lines]
    rfl
  stripped := h.stripped

theorem join_eq (h : node.Stands name dir k texts) (p : Path) : join node.dir p = join dir p :=
  join_congr h.slashed_dir p

end DictNode.Stands

/-- The file that a name leads to from a directory. -/
theorem DictNode.stands_ofLines {parentdir dir : Path} (hdir : slashed parentdir = slashed dir)
    (hstripped : stripSlashes dir = dir) (lines : List String) (p : Path) :
    (DictNode.ofLines lines p parentdir).Stands (basename p) (dirname (join dir p)) 0 lines where
  name_eq := rfl
  slashed_dir := by
    have hfrom : dirFrom parentdir p = dirFrom dir p := by
      rw [dirFrom, dirFrom, join_congr hdir]
    rw [slashed_dirname_join hstripped, ← hfrom]
    rfl
  current_eq := rfl
  drop_lines := rfl
  stripped := stripSlashes_dirname _

namespace DictFile

/-- From a stack with a file on top, turns deliver an expansion and leave the file, or end with the
exception of the expansion. -/
structure Delivers (fs : FileSystem) (base : Path) (node : DictNode) (rest : List DictNode)
    (opened : List Path) (r : Iteration) : Prop where
  ended : r.raised = none →
    Turns fs ⟨node :: rest, base, opened⟩ r.lines ⟨rest, base, opened ++ r.opened⟩
  raised : ∀ e, r.raised = some e → ∃ d d', Turns fs ⟨node :: rest, base, opened⟩ r.lines d ∧
    (turn fs).run d = .error e d' ∧ d'.opened = opened ++ r.opened

namespace Delivers

variable {node node' inner : DictNode} {rest : List DictNode} {opened : List Path} {r r' : Iteration}
  {text : String} {q : Path} {e : Exn}

theorem finished (hturn : (turn fs).run ⟨node :: rest, base, opened⟩ =
    .ok .again ⟨rest, base, opened⟩) : Delivers fs base node rest opened ⟨[], [], none⟩ where
  ended _ := by
    rw [List.append_nil]
    exact .again hturn (.refl _)
  raised _ he := by cases he

theorem line (hturn : (turn fs).run ⟨node :: rest, base, opened⟩ =
      .ok (.yields text) ⟨node' :: rest, base, opened⟩)
    (h : Delivers fs base node' rest opened r) :
    Delivers fs base node rest opened
      ⟨⟨String.ofList node'.name, node'.current, text⟩ :: r.lines, r.opened, r.raised⟩ where
  ended hended := .yields hturn (h.ended hended)
  raised e he := by
    obtain ⟨d, d', hturns, herror⟩ := h.raised e he
    exact ⟨d, d', .yields hturn hturns, herror⟩

theorem included (hturn : (turn fs).run ⟨node :: rest, base, opened⟩ =
      .ok .again ⟨inner :: node' :: rest, base, opened ++ [q]⟩)
    (hinner : Delivers fs base inner (node' :: rest) (opened ++ [q]) r') (hended : r'.raised = none)
    (h : Delivers fs base node' rest (opened ++ [q] ++ r'.opened) r) :
    Delivers fs base node rest opened
      ⟨r'.lines ++ r.lines, q :: r'.opened ++ r.opened, r.raised⟩ where
  ended hrest := by
    have hturns := (hinner.ended hended).trans (h.ended hrest)
    rw [List.append_assoc, List.append_assoc] at hturns
    exact .again hturn hturns
  raised e he := by
    obtain ⟨d, d', hturns, herror, hopened⟩ := h.raised e he
    refine ⟨d, d', .again hturn ((hinner.ended hended).trans hturns), herror, ?_⟩
    rw [hopened, List.append_assoc, List.append_assoc]
    rfl

theorem raised_inner (hturn : (turn fs).run ⟨node :: rest, base, opened⟩ =
      .ok .again ⟨inner :: node' :: rest, base, opened ++ [q]⟩)
    (hinner : Delivers fs base inner (node' :: rest) (opened ++ [q]) r')
    (hraised : r'.raised = some e) :
    Delivers fs base node rest opened ⟨r'.lines, q :: r'.opened, some e⟩ where
  ended hended := by cases hended
  raised e' he := by
    cases he
    obtain ⟨d, d', hturns, herror, hopened⟩ := hinner.raised e hraised
    refine ⟨d, d', .again hturn hturns, herror, ?_⟩
    rw [hopened, List.append_assoc]
    rfl

theorem of_error {d' : DictFile} {more : List Path}
    (hturn : (turn fs).run ⟨node :: rest, base, opened⟩ = .error e d')
    (hopened : d'.opened = opened ++ more) :
    Delivers fs base node rest opened ⟨[], more, some e⟩ where
  ended hended := by cases hended
  raised e' he := by
    cases he
    exact ⟨_, d', .refl _, hturn, hopened⟩

end Delivers

end DictFile

open DictFile in
/-- **A stack of files simulates the recursion.** -/
theorem Expands.delivers (hfs : fs.Lawful) (hbase : Canonical base) {name dir : Path} {k : ℕ}
    {texts : List String} {r : Iteration} (h : Expands fs base name dir k texts r)
    {node : DictNode} (hnode : node.Stands name dir k texts) (rest : List DictNode)
    (opened : List Path) : Delivers fs base node rest opened r := by
  induction h generalizing node rest opened with
  | finished => exact .finished (run_turn_of_end hnode.next_eq_none)
  | line hplain _ ih =>
    rw [← hnode.name_eq]
    exact .line (run_turn_of_line hnode.next_eq_some hplain) (ih hnode.tail rest opened)
  | included hdirective hreal hin hread _ hended _ inner ih =>
    rw [← hnode.join_eq] at hreal hread ⊢
    have hturn : (turn fs).run ⟨node :: rest, base, opened⟩ = _ :=
      run_turn_of_inside hfs hbase hnode.next_eq_some hdirective hreal hin
    rw [hread] at hturn
    refine .included hturn (inner ?_ _ _) hended (ih hnode.tail _ _)
    exact DictNode.stands_ofLines hnode.slashed_dir hnode.stripped _ _
  | raised hdirective hreal hin hread _ hraised inner =>
    rw [← hnode.join_eq] at hreal hread ⊢
    have hturn : (turn fs).run ⟨node :: rest, base, opened⟩ = _ :=
      run_turn_of_inside hfs hbase hnode.next_eq_some hdirective hreal hin
    rw [hread] at hturn
    refine .raised_inner hturn (inner ?_ _ _) hraised
    exact DictNode.stands_ofLines hnode.slashed_dir hnode.stripped _ _
  | escapes hdirective hreal hout =>
    rw [← hnode.join_eq] at hreal
    rw [← hnode.name_eq]
    exact .of_error (run_turn_of_escapes hfs hbase hnode.next_eq_some hdirective hreal hout)
      (List.append_nil _).symm
  | unresolved hdirective hreal =>
    rw [← hnode.join_eq] at hreal
    exact .of_error (run_turn_of_unresolved hnode.next_eq_some hdirective hreal)
      (List.append_nil _).symm
  | unread hdirective hreal hin hread =>
    rw [← hnode.join_eq] at hreal hread ⊢
    have hturn : (turn fs).run ⟨node :: rest, base, opened⟩ = _ :=
      run_turn_of_inside hfs hbase hnode.next_eq_some hdirective hreal hin
    rw [hread] at hturn
    exact .of_error hturn rfl

/-! ### A system without links -/

/-- A system without links, in its root directory. -/
def FileSystem.plain (files : List (Path × List String)) : FileSystem where
  realpath := fun p ↦ .ok ('/' :: ['/'].intercalate (components p))
  abspath := fun p ↦ .ok (join ['/'] p)
  readlines := fun p ↦
    (files.find? (·.1 = '/' :: ['/'].intercalate (components p))).elim (.error .osError) (.ok ·.2)

theorem FileSystem.lawful_plain (files : List (Path × List String)) :
    (FileSystem.plain files).Lawful where
  canonical p r h := by
    cases h
    exact canonical_intercalate_components p

theorem FileSystem.finite_filesUnder_plain (files : List (Path × List String)) (base : Path) :
    ((FileSystem.plain files).filesUnder base).Finite := by
  refine (files.map Prod.fst).finite_toSet.subset ?_
  rintro _ ⟨-, p, lines, ⟨⟩, hread⟩
  change Option.elim (files.find? _) _ _ = _ at hread
  rcases hfind : files.find? (·.1 = '/' :: ['/'].intercalate (components p)) with - | file
  · rw [hfind] at hread
    cases hread
  · have hfile := List.find?_some hfind
    rw [decide_eq_true_eq] at hfile
    exact List.mem_map.2 ⟨file, List.mem_of_find?_eq_some hfind, hfile⟩

/-- A file and one that it includes. -/
def twoFiles : FileSystem :=
  .plain [("/d/main".toList, ["VENDOR Acme 9", "$include sub/more # the rest", "END-VENDOR Acme"]),
    ("/d/sub/more".toList, ["BEGIN-VENDOR Acme"])]

/-- The first of them before any line is read. -/
def twoFilesStart : DictFile :=
  ⟨[⟨"main".toList, ["VENDOR Acme 9", "$include sub/more # the rest", "END-VENDOR Acme"], 0,
    "/d".toList⟩], "/d".toList, ["/d/main".toList]⟩

theorem acyclicFrom_twoFiles : twoFiles.AcyclicFrom "/d".toList "/d".toList
    ["VENDOR Acme 9", "$include sub/more # the rest", "END-VENDOR Acme"] := by
  refine acyclicFrom_of_flat ?_
  rintro q ⟨text, htext, p, hdirective, rfl, -⟩ lines hread text' htext'
  have hname := DictFile.directive?_eq_some_iff.2 hdirective
  simp only [List.mem_cons, List.not_mem_nil, or_false] at htext
  rcases htext with rfl | rfl | rfl
  · cases hname
  · cases hname
    cases hread
    rcases List.mem_singleton.1 htext' with rfl
    exact DictFile.directive?_eq_none_iff.1 rfl
  · cases hname

namespace DictFile

/-! ### Whole files -/

theorem canonical_of_baseDir (hfs : fs.Lawful) {fil : Source} {includeBaseDir : Option Path}
    (h : baseDir fs fil includeBaseDir = .ok base) : Canonical base := by
  rcases includeBaseDir with - | dir
  · rcases fil with fil | lines
    · obtain ⟨p, -, h⟩ := Except.bind_eq_ok_iff.1 h
      exact hfs.canonical _ _ h
    · exact hfs.canonical _ _ h
  · exact hfs.canonical _ _ h

/-- A new `DictFile` stands at the beginning of its entry file. -/
theorem exists_of_new (hfs : fs.Lawful) {fil : Source} {includeBaseDir : Option Path} {d : DictFile}
    (h : new fs fil includeBaseDir = .ok d) {cwd : Path} (hcwd : fs.realpath ['.'] = .ok cwd)
    {texts : List String} (htexts : fil.texts fs cwd = .ok texts) :
    Canonical d.includeBase ∧ ∃ node, d = ⟨[node], d.includeBase, fil.opens cwd⟩ ∧
      node.Stands fil.name (fil.dir cwd) 0 texts := by
  obtain ⟨base, hbase, h⟩ := Except.bind_eq_ok_iff.1 h
  have hcanonical := canonical_of_baseDir hfs hbase
  have hstripped := stripSlashes_canonical (hfs.canonical _ _ hcwd)
  have hcur : (curDir fs).run ⟨[], base, []⟩ = .ok cwd ⟨[], base, []⟩ := by
    rw [curDir, run_bind_of_ok (run_get _)]
    dsimp only
    rw [hcwd]
    rfl
  rw [readNode, run_bind_of_ok hcur] at h
  rcases fil with fil | lines
  · rw [Source.texts] at htexts
    dsimp only at h
    rw [ite_isabs, htexts] at h
    cases h
    exact ⟨hcanonical, _, rfl, DictNode.stands_ofLines rfl hstripped _ _⟩
  · cases h
    cases htexts
    refine ⟨hcanonical, _, rfl, ⟨rfl, ?_, rfl, rfl, hstripped⟩⟩
    show slashed (slashed cwd ++ []) = slashed cwd
    rw [List.append_nil, slashed_slashed]

theorem iterate_mono {n m : ℕ} {d : DictFile} {r : Iteration} (h : iterate fs n d = some r)
    (hle : n ≤ m) : iterate fs m d = some r := by
  induction n generalizing m d r with
  | zero => cases h
  | succ n ih =>
    obtain ⟨m, rfl⟩ : ∃ k, m = k + 1 := ⟨m - 1, by omega⟩
    rw [iterate] at h ⊢
    rcases hturn : (turn fs).run d with ⟨_ | text | _, d'⟩ | ⟨e, d'⟩
    · rw [hturn] at h
      exact ih h (by omega)
    · rw [hturn] at h
      obtain ⟨r', hr', rfl⟩ := Option.map_eq_some_iff.1 h
      exact Option.map_eq_some_iff.2 ⟨r', ih hr' (by omega), rfl⟩
    · rw [hturn] at h
      exact h
    · rw [hturn] at h
      exact h

/-- An expansion is what iterating comes to. -/
theorem exists_iterate_of_expands (hfs : fs.Lawful) {d : DictFile} (hbase : Canonical d.includeBase)
    {node : DictNode} {opened : List Path} (hd : d = ⟨[node], d.includeBase, opened⟩)
    {name dir : Path} {texts : List String} (hnode : node.Stands name dir 0 texts) {r : Iteration}
    (h : Expands fs d.includeBase name dir 0 texts r) :
    ∃ n, iterate fs n d = some ⟨r.lines, opened ++ r.opened, r.raised⟩ := by
  obtain ⟨hended, hraised⟩ := h.delivers hfs hbase hnode [] opened
  rw [← hd] at hended hraised
  rcases hr : r.raised with - | e
  · have hstop : iterate fs 1 ⟨[], d.includeBase, opened ++ r.opened⟩ =
        some ⟨[], opened ++ r.opened, none⟩ := rfl
    obtain ⟨n, hn⟩ := (hended hr).exists_iterate hstop
    exact ⟨n, by rw [hn, List.append_nil]⟩
  · obtain ⟨d', d'', hturns, herror, hopened⟩ := hraised e hr
    have hstop : iterate fs 1 d' = some ⟨[], d''.opened, some e⟩ := by
      rw [iterate, herror]
    obtain ⟨n, hn⟩ := hturns.exists_iterate hstop
    exact ⟨n, by rw [hn, hopened, List.append_nil]⟩

section

variable {fil : Source} {includeBaseDir : Option Path} {d : DictFile} {cwd : Path}
  {texts : List String}

/-- **Going through a file ends where no file includes itself.** -/
theorem exists_iterate_of_acyclic (hfs : fs.Lawful) (hnew : new fs fil includeBaseDir = .ok d)
    (hcwd : fs.realpath ['.'] = .ok cwd) (htexts : fil.texts fs cwd = .ok texts)
    (hfinite : (fs.filesUnder d.includeBase).Finite)
    (hacyclic : fs.AcyclicFrom d.includeBase (fil.dir cwd) texts) :
    ∃ n r, iterate fs n d = some r := by
  obtain ⟨hbase, node, hd, hnode⟩ := exists_of_new hfs hnew hcwd htexts
  obtain ⟨r, hr⟩ := exists_expands hfinite hacyclic fil.name 0
  obtain ⟨n, hn⟩ := exists_iterate_of_expands hfs hbase hd hnode hr
  exact ⟨n, _, hn⟩

/-- A file and one that it includes come to an end. -/
theorem exists_iterate_twoFiles : ∃ d, new twoFiles (.path "/d/main".toList) none = .ok d ∧
    ∃ n r, iterate twoFiles n d = some r := by
  have hnew : new twoFiles (.path "/d/main".toList) none = .ok twoFilesStart := rfl
  exact ⟨_, hnew, exists_iterate_of_acyclic (FileSystem.lawful_plain _) hnew rfl rfl
    (FileSystem.finite_filesUnder_plain _ _) acyclicFrom_twoFiles⟩

/-- A file that includes itself is read for ever. -/
theorem not_exists_iterate_selfInclude :
    let fs := FileSystem.plain [("/d/x".toList, ["$INCLUDE x"])]
    ∃ d, new fs (.path "/d/x".toList) none = .ok d ∧ (fs.filesUnder d.includeBase).Finite ∧
      ∀ n, iterate fs n d = none := by
  intro fs
  let loop : DictNode := ⟨"x".toList, ["$INCLUDE x"], 0, "/d/".toList⟩
  have hturn (rest : List DictNode) (opened : List Path) :
      (turn fs).run ⟨loop :: rest, "/d".toList, opened⟩ =
        .ok .again ⟨loop :: { loop with current := 1 } :: rest, "/d".toList,
          opened ++ ["/d/x".toList]⟩ := rfl
  have hloop (n : ℕ) (rest : List DictNode) (opened : List Path) :
      iterate fs n ⟨loop :: rest, "/d".toList, opened⟩ = none := by
    induction n generalizing rest opened with
    | zero => rfl
    | succ n ih =>
      rw [iterate, hturn]
      exact ih _ _
  refine ⟨_, rfl, FileSystem.finite_filesUnder_plain _ _, fun n ↦ ?_⟩
  rcases n with - | n
  · rfl
  · exact hloop n [⟨"x".toList, ["$INCLUDE x"], 1, "/d".toList⟩] ["/d/x".toList, "/d/x".toList]

/-- **Going through a file delivers its expansion**, and opens no file outside of the base directory
besides the entry file. -/
theorem iterate_eq_expansion (hfs : fs.Lawful) (hnew : new fs fil includeBaseDir = .ok d)
    (hcwd : fs.realpath ['.'] = .ok cwd) (htexts : fil.texts fs cwd = .ok texts)
    (hfinite : (fs.filesUnder d.includeBase).Finite)
    (hacyclic : fs.AcyclicFrom d.includeBase (fil.dir cwd) texts) :
    ∃ r, (∀ r', Expands fs d.includeBase fil.name (fil.dir cwd) 0 texts r' ↔ r' = r) ∧
      (∃ n, iterate fs n d = some ⟨r.lines, fil.opens cwd ++ r.opened, r.raised⟩) ∧
      ∀ q ∈ r.opened, ∃ file, fs.realpath q = .ok file ∧ Inside d.includeBase file := by
  obtain ⟨hbase, node, hd, hnode⟩ := exists_of_new hfs hnew hcwd htexts
  obtain ⟨r, hr⟩ := exists_expands hfinite hacyclic fil.name 0
  obtain ⟨n, hn⟩ := exists_iterate_of_expands hfs hbase hd hnode hr
  refine ⟨r, fun r' ↦ ⟨fun hr' ↦ ?_, fun h ↦ h ▸ hr⟩, ⟨n, hn⟩, fun q hq ↦ hr.inside_of_mem_opened hq⟩
  -- Two expansions are both what iterating comes to, and that is one thing.
  obtain ⟨n', hn'⟩ := exists_iterate_of_expands hfs hbase hd hnode hr'
  have hsame := (iterate_mono hn (Nat.le_max_left n n')).symm.trans
    (iterate_mono hn' (Nat.le_max_right n n'))
  have heq := Option.some.inj hsame
  have hlines := congrArg Iteration.lines heq
  have hopened := List.append_cancel_left (congrArg Iteration.opened heq)
  have hraised := congrArg Iteration.raised heq
  rcases r with ⟨_, _, _⟩
  rcases r' with ⟨_, _, _⟩
  cases hlines
  cases hopened
  cases hraised
  rfl

/-- The lines of a file with those of one that it includes. -/
theorem iterate_eq_expansion_twoFiles : ∃ d r,
    new twoFiles (.path "/d/main".toList) none = .ok d ∧
    Expands twoFiles d.includeBase "main".toList "/d".toList 0
      ["VENDOR Acme 9", "$include sub/more # the rest", "END-VENDOR Acme"] r ∧
    ∃ n, iterate twoFiles n d = some ⟨r.lines, "/d/main".toList :: r.opened, r.raised⟩ := by
  have hnew : new twoFiles (.path "/d/main".toList) none = .ok twoFilesStart := rfl
  obtain ⟨r, hr, hiterate, -⟩ := iterate_eq_expansion (FileSystem.lawful_plain _) hnew rfl rfl
    (FileSystem.finite_filesUnder_plain _ _) acyclicFrom_twoFiles
  exact ⟨_, r, hnew, (hr r).2 rfl, hiterate⟩

end

end DictFile

end Pyrad2
