import Pyrad2.Dictionary.Parser
import Pyrad2.Foundations.Posix
import Pyrad2.Foundations.StateExcept

/-!
# Files with includes

`DictFile` delivers the lines of a dictionary file one after the other and follows its `$INCLUDE`
directives. It keeps the files it is in on a stack, and goes on with the one on top.

An include is read when its directive is met, so a loop of `__next__` takes a turn for every line of
every file, and another one to leave the file. The turns are what is modelled: where the loop does not
end, there are turns for ever.
-/

namespace Pyrad2

open Posix EStateM

/-- What `dictfile` asks the system for. -/
structure FileSystem where
  /-- `os.path.realpath(p)` -/
  realpath : Path → Except Exn Path
  /-- `os.path.abspath(p)` -/
  abspath : Path → Except Exn Path
  /-- `open(p).readlines()` -/
  readlines : Path → Except Exn (List String)

/-- `_Node`: a file, and how many of its lines are read. -/
structure DictNode where
  name : Path
  lines : List String
  current : ℕ
  dir : Path

namespace DictNode

/-- `_Node(fd, name, parentdir)` -/
def ofLines (lines : List String) (name parentdir : Path) : DictNode where
  name := basename name
  lines := lines
  current := 0
  dir :=
    let path := dirname name
    if isabs path then path else join parentdir path

/-- `next()` -/
def next (node : DictNode) : Option (String × DictNode) :=
  match node.lines[node.current]? with
  | some line => some (line, { node with current := node.current + 1 })
  | none => none

end DictNode

/-- What a `DictFile` is made from: the name of a file, or a stream. -/
inductive Source where
  | path (fil : Path)
  | stream (lines : List String)

/-- A `DictFile`. -/
structure DictFile where
  /-- The files it is in, the innermost one first. -/
  stack : List DictNode := []
  /-- `_include_base` -/
  includeBase : Path
  /-- The names that were given to `open`. -/
  opened : List Path := []

/-- A method of a `DictFile`. -/
abbrev FileMethod (α : Type) := Method DictFile α

namespace DictFile

/-- `line()` -/
def line (d : DictFile) : Int :=
  match d.stack with
  | node :: _ => node.current
  | [] => -1

/-- `file()` -/
def file (d : DictFile) : Path :=
  match d.stack with
  | node :: _ => node.name
  | [] => []

/-- The path of a directive, `__get_include(line)`. -/
def getInclude (line : String) : Option Path :=
  match DictReader.tokenize line with
  | head :: rest =>
    if Tools.upper head = "$INCLUDE" then some ([' '].intercalate (rest.map String.toList)) else none
  | [] => none

/-- A directive has a path: `if inc:`. -/
def directive? (line : String) : Option Path := (getInclude line).filter (· ≠ [])

variable (fs : FileSystem)

/-- `__cur_dir()` -/
def curDir : FileMethod Path := do
  match (← get).stack with
  | node :: _ => return node.dir
  | [] => fs.realpath ['.']

/-- The error for an include outside of the base directory. -/
def escapeError (fil base file : Path) (line : ℕ) : Exn :=
  .parseError ("$INCLUDE '" ++ String.ofList fil ++ "' escapes the dictionary base directory '" ++
    String.ofList base ++ "'") (String.ofList file) line

/-- Refuse a name that resolves outside of the base directory. -/
def checkInside (fil fname : Path) : FileMethod Unit := do
  let d ← get
  let resolved ← fs.realpath fname
  let common := (commonpath d.includeBase resolved).getD []
  if common ≠ d.includeBase then
    throw (escapeError fil d.includeBase d.file d.line.toNat)

/-- `__read_node(fil, is_entry_point)` -/
def readNode (fil : Source) (isEntryPoint : Bool) : FileMethod Unit := do
  let parentdir ← curDir fs
  match fil with
  | .path fil =>
    let fname := if isabs fil then fil else join parentdir fil
    if !isEntryPoint then
      checkInside fs fil fname
    modify fun d ↦ { d with opened := d.opened ++ [fname] }
    let lines ← fs.readlines fname
    modify fun d ↦ { d with stack := .ofLines lines fil parentdir :: d.stack }
  | .stream lines =>
    modify fun d ↦ { d with stack := .ofLines lines [] parentdir :: d.stack }

/-- The base directory for includes. -/
def baseDir (fil : Source) (includeBaseDir : Option Path) : Except Exn Path :=
  match includeBaseDir, fil with
  | some dir, _ => fs.realpath dir
  | none, .path fil => do
    let dir := dirname (← fs.abspath fil)
    fs.realpath (if dir = [] then ['.'] else dir)
  | none, .stream _ => fs.realpath ['.']

/-- `DictFile(fil, include_base_dir)` -/
def new (fil : Source) (includeBaseDir : Option Path) : Except Exn DictFile := do
  let includeBase ← baseDir fs fil includeBaseDir
  match (readNode fs fil true).run { includeBase } with
  | .ok _ d => .ok d
  | .error e _ => .error e

/-- What a turn of the loop of `__next__` comes to. -/
inductive Turn where
  | again
  | yields (line : String)
  /-- `StopIteration` -/
  | stops

/-- A turn of the loop of `__next__`. -/
def turn : FileMethod Turn := do
  match (← get).stack with
  | [] => return .stops
  | node :: rest =>
    match node.next with
    | none =>
      modify fun d ↦ { d with stack := rest }
      return .again
    | some (line, node) =>
      modify fun d ↦ { d with stack := node :: rest }
      match directive? line with
      | some inc =>
        readNode fs (.path inc) false
        return .again
      | none => return .yields line

/-- A line as it is delivered, with what `file()` and `line()` say then. -/
def delivered (d : DictFile) (line : String) : DictLine :=
  ⟨String.ofList d.file, d.line.toNat, line⟩

end DictFile

/-- What comes of going through a `DictFile`: the lines, the names given to `open`, and the exception
if one ends it. -/
structure Iteration where
  lines : List DictLine
  opened : List Path
  raised : Option Exn

namespace DictFile

/-- `for line in fil`, given up after some turns. -/
def iterate (fs : FileSystem) : ℕ → DictFile → Option Iteration
  | 0, _ => none
  | n + 1, d =>
    match (turn fs).run d with
    | .ok .stops d => some ⟨[], d.opened, none⟩
    | .ok .again d => iterate fs n d
    | .ok (.yields line) d =>
      (iterate fs n d).map fun r ↦ { r with lines := d.delivered line :: r.lines }
    | .error e d => some ⟨[], d.opened, some e⟩

end DictFile

end Pyrad2
