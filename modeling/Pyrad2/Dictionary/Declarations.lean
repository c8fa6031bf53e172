import Pyrad2.Dictionary.Parser

/-!
# Declarations

Where the attributes of a dictionary file are declared on the wire, and what a line of a file can do
to the dictionary.

The index keeps one key for each declaration. The key depends on the location alone, which is what
`attributeKey_eq` says, but different locations may have the same key.
-/

namespace Pyrad2

open EStateM

/-- A place on the wire where an attribute can be declared. -/
inductive WireLocation where
  /-- Below the codes of a parent chain, for a vendor or for none. -/
  | plain (vendor : Option Int) (parentChain : List Int) (code : Int)
  /-- In a slot of an extended wrapper, for a vendor. -/
  | evs (wrapper slot vendor vendorType : Int)
  deriving DecidableEq, Repr

namespace WireLocation

/-- The key of a location. -/
def key : WireLocation → Key
  | plain none [] code => .int code
  | plain none parentChain code => .tup (parentChain ++ [code])
  | plain (some vendor) parentChain code => .tup (vendor :: parentChain ++ [code])
  | evs wrapper slot vendor vendorType => .tup [wrapper, slot, vendor, vendorType]

/-- The vendor of a location. -/
def vendor : WireLocation → Option Int
  | plain vendor _ _ => vendor
  | evs _ _ vendor _ => some vendor

/-- A code of its own, without a vendor. -/
def IsTopLevel (loc : WireLocation) : Prop := ∃ code, loc = plain none [] code

theorem key_plain_none {parentChain : List Int} (h : parentChain ≠ []) (code : Int) :
    (plain none parentChain code).key = .tup (parentChain ++ [code]) := by
  cases parentChain with
  | nil => exact absurd rfl h
  | cons c parentChain => rfl

/-- Only top-level codes have bare keys, each its own. -/
theorem eq_of_key_eq_int {loc : WireLocation} {code : Int} (h : loc.key = .int code) :
    loc = plain none [] code := by
  rcases loc with ⟨- | vendor, - | ⟨c, parentChain⟩, code'⟩ | ⟨wrapper, slot, vendor, vendorType⟩
  · cases h
    rfl
  all_goals cases h

/-- Every other key belongs to two locations at least. -/
theorem exists_ne_key_eq {loc : WireLocation} (h : ¬ loc.IsTopLevel) :
    ∃ loc' ≠ loc, loc'.key = loc.key := by
  rcases loc with ⟨- | vendor, - | ⟨c, parentChain⟩, code⟩ | ⟨wrapper, slot, vendor, vendorType⟩
  · exact absurd ⟨code, rfl⟩ h
  · exact ⟨plain (some c) parentChain code, by simp, rfl⟩
  · exact ⟨plain none [vendor] code, by simp, rfl⟩
  · exact ⟨plain none (vendor :: c :: parentChain) code, by simp, rfl⟩
  · exact ⟨plain none [wrapper, slot, vendor] vendorType, by simp, rfl⟩

end WireLocation

/-- A name, declared at a location. -/
structure Declaration where
  name : String
  location : WireLocation
  deriving DecidableEq, Repr

namespace DictReader

/-- The location of an attribute. -/
def wireLocation (s : DictReader) (line : AttributeLine) : Except Exn WireLocation :=
  match s.state.evsParent with
  | some name => do
    let marker ← s.dict.lookup name
    match s.dict.parentOf marker with
    | none => throw .attributeError
    | some wrapper =>
      return .evs wrapper.code marker.code (← s.dict.vendorId line.vendor) line.code
  | none =>
    if line.vendor ≠ "" then do
      return .plain (some (← s.dict.vendorId line.vendor)) line.parentChain line.code
    else .ok (.plain none line.parentChain line.code)

/-- **The key of an attribute** is the key of its location. -/
theorem attributeKey_eq (s : DictReader) (line : AttributeLine) :
    s.attributeKey line = (s.wireLocation line).map WireLocation.key := by
  rw [attributeKey, wireLocation]
  rcases s.state.evsParent with - | name
  · dsimp only
    by_cases hvendor : line.vendor ≠ ""
    · rw [if_pos hvendor, if_pos hvendor]
      rcases s.dict.vendorId line.vendor with e | vendor <;> rfl
    · rw [if_neg hvendor, if_neg hvendor]
      by_cases hchain : line.parentChain ≠ []
      · rw [if_pos hchain]
        exact congrArg Except.ok (WireLocation.key_plain_none hchain line.code).symm
      · rw [if_neg hchain, not_not.1 hchain]
        rfl
  · dsimp only
    rcases s.dict.lookup name with e | marker
    · rfl
    · rw [Except.bind_of_ok, Except.bind_of_ok]
      rcases s.dict.parentOf marker with - | wrapper
      · rfl
      · dsimp only
        rcases s.dict.vendorId line.vendor with e | vendor <;> rfl

/-- What the tokens of a line declare. -/
def declares (s : DictReader) (tokens : List String) : List Declaration :=
  if tokens.head?.map Tools.upper = some "ATTRIBUTE" then
    match (parseAttributeLine tokens).run s with
    | .ok line _ =>
      match s.wireLocation line with
      | .ok location => [⟨line.name, location⟩]
      | .error _ => []
    | .error _ _ => []
  else []

/-- The parser when it has got to a line. -/
def atLine (s : DictReader) (line : DictLine) : DictReader :=
  { s with state := { s.state with file := line.file, line := line.line } }

/-- What the lines of a file declare, in their order. -/
def linesDeclare (E : Env) : List DictLine → DictReader → List Declaration
  | [], _ => []
  | line :: lines, s =>
    (s.atLine line).declares (tokenize line.text) ++ linesDeclare E lines (after (readLine E line) s)

/-- A declaration, with the parser and the declarations before its line. -/
structure Declared where
  before : DictReader
  earlier : List Declaration
  declaration : Declaration

/-- The declarations of a file, with what comes before each. -/
def linesTrace (E : Env) : List DictLine → DictReader → List Declaration → List Declared
  | [], _, _ => []
  | line :: lines, s, ds =>
    let new := (s.atLine line).declares (tokenize line.text)
    new.map (fun d ↦ ⟨s.atLine line, ds, d⟩) ++
      linesTrace E lines (after (readLine E line) s) (ds ++ new)

end DictReader

namespace Dictionary

/-- The parser at the beginning of a file. -/
def startReading (D : Dictionary) : Option DictReader :=
  match D.existingContainerChains with
  | .ok tlvs => some { dict := D, state := { tlvs } }
  | .error _ => none

/-- What a file declares. -/
def fileDeclares (E : Env) (file : List DictLine) (D : Dictionary) : List Declaration :=
  match D.startReading with
  | some s => DictReader.linesDeclare E file s
  | none => []

/-- What files declare that are read into a dictionary. -/
def declarations (E : Env) : List (List DictLine) → Dictionary → List Declaration
  | [], _ => []
  | file :: files, D =>
    fileDeclares E file D ++ declarations E files (after (readDictionary E file) D)

/-- The declarations of files, with what comes before each. -/
def trace (E : Env) : List (List DictLine) → Dictionary → List Declaration →
    List DictReader.Declared
  | [], _, _ => []
  | file :: files, D, ds =>
    (match D.startReading with
    | some s => DictReader.linesTrace E file s ds
    | none => []) ++
      trace E files (after (readDictionary E file) D) (ds ++ fileDeclares E file D)

end Dictionary

/-! ### Lines that declare nothing -/

/-- An attribute without its named values. -/
def Attribute.bare (attr : Attribute) : Attribute := { attr with values := BiDict.empty }

namespace Dictionary

/-- The attributes of a dictionary without their named values. -/
def skeleton (D : Dictionary) : List Attribute := D.heap.map Attribute.bare

theorem getElem?_modifyAt (D : Dictionary) (ref : ℕ) (f : Attribute → Attribute) (i : ℕ) :
    (D.modifyAt ref f).heap[i]? = if ref = i then D.heap[i]?.map f else D.heap[i]? := by
  rw [modifyAt, List.getElem?_modify]
  rcases D.heap[i]? with - | attr
  · split <;> rfl
  · split
    · simp
    · simp

/-- Named values are no part of the skeleton. -/
theorem skeleton_addValue (D : Dictionary) (ref : ℕ) (key : String) (value : PyVal) :
    (D.addValue ref key value).skeleton = D.skeleton := by
  refine List.ext_getElem? fun i ↦ ?_
  rw [skeleton, skeleton, List.getElem?_map, List.getElem?_map, addValue, getElem?_modifyAt]
  split
  · rw [Option.map_map]
    rfl
  · rfl

end Dictionary

namespace DictReader

/-- Nothing is declared between two states: attributes differ in their named values at most. -/
structure Kept (s s' : DictReader) : Prop where
  skeleton : s'.dict.skeleton = s.dict.skeleton
  attributes : s'.dict.attributes = s.dict.attributes
  attrindex : s'.dict.attrindex = s.dict.attrindex
  tlvs : s'.state.tlvs = s.state.tlvs

theorem Kept.refl (s : DictReader) : Kept s s := ⟨rfl, rfl, rfl, rfl⟩

instance : IsPreorder DictReader Kept where
  refl := Kept.refl
  trans := fun _ _ _ h h' ↦ ⟨h'.skeleton.trans h.skeleton, h'.attributes.trans h.attributes,
    h'.attrindex.trans h.attrindex, h'.tlvs.trans h.tlvs⟩

/-- No attribute changes between two states. -/
structure Untouched (s s' : DictReader) : Prop where
  heap : s'.dict.heap = s.dict.heap
  attributes : s'.dict.attributes = s.dict.attributes
  attrindex : s'.dict.attrindex = s.dict.attrindex
  tlvs : s'.state.tlvs = s.state.tlvs
  deferParse : s'.deferParse = s.deferParse

instance : IsPreorder DictReader Untouched where
  refl := fun _ ↦ ⟨rfl, rfl, rfl, rfl, rfl⟩
  trans := fun _ _ _ h h' ↦ ⟨h'.heap.trans h.heap, h'.attributes.trans h.attributes,
    h'.attrindex.trans h.attrindex, h'.tlvs.trans h.tlvs, h'.deferParse.trans h.deferParse⟩

theorem Untouched.kept {s s' : DictReader} (h : Untouched s s') : Kept s s' :=
  ⟨congrArg (List.map Attribute.bare) h.heap, h.attributes, h.attrindex, h.tlvs⟩

section

variable {R : DictReader → DictReader → Prop} [IsPreorder DictReader R]

theorem respects_parseError {α : Type} (msg : String) :
    Respects R (parseError msg : ReaderMethod α) := fun s ↦ refl_of R s

/-- Nothing comes after an error. -/
theorem respects_parseError_bind {α β : Type} (msg : String) (f : α → ReaderMethod β) :
    Respects R ((parseError msg : ReaderMethod α) >>= f) := fun s ↦ refl_of R s

end

theorem respects_parseOptions (vendor : String) (column : Option String) :
    Respects Eq (parseOptions vendor column) := by
  unfold parseOptions
  rcases column with - | column
  · exact respects_pure _
  · dsimp only
    split
    · exact respects_parseError _
    · split
      · exact respects_pure _
      · refine respects_get.bind fun s ↦ ?_
        split
        · exact respects_pure _
        · exact respects_parseError _

/-- The columns of an `ATTRIBUTE` line. -/
theorem respects_attributeColumns (name code datatype : String) (column : Option String) :
    Respects Eq (do
      let (options, vendor) ← parseOptions (← get).state.vendor column
      let codes ← parseCodes code
      let datatype := typeAlias (String.ofList (datatype.toList.takeWhile (· ≠ '[')))
      match codes.getLast?, Datatype.ofName? datatype with
      | none, _ => parseError "attribute code missing"
      | some _, none => parseError ("Illegal type: " ++ datatype)
      | some code, some type =>
        return { name, parentChain := codes.dropLast, code, type, vendor, options } :
          ReaderMethod AttributeLine) := by
  refine respects_get.bind fun s ↦ (respects_parseOptions _ _).bind fun options ↦
    (respects_liftM _).bind fun codes ↦ ?_
  dsimp only
  split
  · exact respects_parseError _
  · exact respects_parseError _
  · exact respects_pure _

/-- **Parsing an `ATTRIBUTE` line** changes nothing yet. -/
theorem respects_parseAttributeLine (tokens : List String) :
    Respects Eq (parseAttributeLine tokens) := by
  unfold parseAttributeLine
  split
  · split
    · exact respects_parseError_bind _ _
    · exact respects_attributeColumns _ _ _ _
  · exact respects_parseError _

section

variable {R : DictReader → DictReader → Prop} [IsPreorder DictReader R]

/-- A `VALUE` line is put off, or it adds a named value. -/
theorem respects_parseValue (E : Env)
    (hdefer : ∀ s e, R s { s with deferParse := s.deferParse ++ [e] })
    (hvalue : ∀ s ref key value, R s { s with dict := s.dict.addValue ref key value })
    (state : ParseState) (tokens : List String) (defer : Bool) :
    Respects R (parseValue E state tokens defer) := by
  unfold parseValue
  split
  · next _ attr key value =>
    intro s
    rw [after_bind_of_ok (run_get s)]
    split
    · split
      · exact hdefer s _
      · exact refl_of R s
    · next ref _ =>
      rcases s.dict.lookup attr with e | adef
      · exact refl_of R s
      rw [after_bind_of_ok (run_liftM_ok adef s)]
      rcases parseNumber adef.type value with e | number
      · exact refl_of R s
      rw [after_bind_of_ok (run_liftM_ok number s)]
      rcases Tools.encodeAttr E adef.type number with e | encoded
      · exact refl_of R s
      · exact hvalue s ref key encoded
  · exact respects_throw _

end

theorem kept_parseValue (E : Env) (state : ParseState) (tokens : List String) (defer : Bool) :
    Respects Kept (parseValue E state tokens defer) :=
  respects_parseValue E (fun _ _ ↦ ⟨rfl, rfl, rfl, rfl⟩)
    (fun s ref key value ↦ ⟨Dictionary.skeleton_addValue s.dict ref key value, rfl, rfl, rfl⟩)
    state tokens defer

theorem untouched_parseFormatColumn (column : Option String) :
    Respects Untouched (parseFormatColumn column) := by
  unfold parseFormatColumn
  split
  · exact respects_pure _
  · split
    · split
      · exact respects_pure _
      · exact respects_parseError _
    · exact respects_throw _
    · exact respects_parseError _
    · exact respects_throw _

/-- The columns of a `VENDOR` line. -/
theorem untouched_vendorColumns (name vendor : String) (column : Option String) : Respects Untouched (do
    let format ← parseFormatColumn column
    match Tools.intLiteral? vendor with
    | none => parseError ("Invalid vendor id '" ++ vendor ++ "' (expected an integer literal)")
    | some id =>
      if ¬ (0 ≤ id ∧ id ≤ 0xFFFFFF) then
        parseError ("Vendor id " ++ toString id ++ " out of range (expected 0..0xFFFFFF)")
      modify fun s ↦ { s with dict := s.dict.addVendor name id format } : ReaderMethod Unit) := by
  refine (untouched_parseFormatColumn column).bind fun format ↦ ?_
  split
  · exact respects_parseError _
  · split
    · exact respects_parseError_bind _ _
    · exact respects_modify fun s ↦ ⟨rfl, rfl, rfl, rfl, rfl⟩

theorem untouched_parseVendor (tokens : List String) : Respects Untouched (parseVendor tokens) := by
  unfold parseVendor
  split
  · next _ name vendor rest =>
    by_cases hrest : rest.length > 1
    · rw [if_pos hrest]
      exact respects_parseError_bind _ _
    · rw [if_neg hrest]
      exact untouched_vendorColumns name vendor rest.head?
  · exact respects_parseError _

theorem untouched_parseBeginVendor (tokens : List String) : Respects Untouched (parseBeginVendor tokens) := by
  have hparent (column : Option String) : Respects Untouched (parseParent column) := by
    unfold parseParent
    split
    · exact respects_pure _
    · next option =>
      by_cases hoption : ¬ "parent=".toList <+: option.toList
      · rw [if_pos hoption]
        exact respects_parseError_bind _ _
      · rw [if_neg hoption]
        refine respects_get.bind fun s ↦ ?_
        split
        · exact respects_parseError _
        · split
          · exact respects_pure _
          · exact respects_parseError _
  have hbegin (vendor : String) (column : Option String) : Respects Untouched (do
      if !(← get).dict.vendors.forward.contains vendor then
        parseError ("Unknown vendor " ++ vendor ++ " in begin-vendor statement")
      let evsParent ← parseParent column
      modify fun s ↦ { s with state := { s.state with vendor, evsParent } } :
        ReaderMethod Unit) := by
    refine respects_get.bind fun s ↦ ?_
    split
    · exact respects_parseError_bind _ _
    · exact (hparent column).bind fun evsParent ↦
        respects_modify fun s ↦ ⟨rfl, rfl, rfl, rfl, rfl⟩
  unfold parseBeginVendor
  split
  · next _ vendor rest =>
    by_cases hrest : rest.length > 1
    · rw [if_pos hrest]
      exact respects_parseError_bind _ _
    · rw [if_neg hrest]
      exact hbegin vendor rest.head?
  · exact respects_parseError _

theorem untouched_parseEndVendor (tokens : List String) : Respects Untouched (parseEndVendor tokens) := by
  unfold parseEndVendor
  split
  · refine respects_get.bind fun s ↦ ?_
    split
    · exact respects_parseError_bind _ _
    · exact respects_modify fun s ↦ ⟨rfl, rfl, rfl, rfl, rfl⟩
  · exact respects_parseError _

/-! ### Lines that declare an attribute -/

/-- How the new attribute hangs under its parent: below the marker of the block, nowhere, or below
the container that the table has under its parent chain. -/
inductive Attached (s s' : DictReader) (line : AttributeLine) : Prop
  | evs (marker : String) (parent : ℕ) (block : s.state.evsParent = some marker)
      (ref : s'.dict.attributes.get? marker = some parent)
      (heap : s'.dict.heap = (({ s.dict with heap := s.dict.heap ++ [s.newAttribute line] } :
        Dictionary).setParent s.dict.heap.length parent).heap)
  | top (block : s.state.evsParent = none) (chain : line.parentChain = [])
      (heap : s'.dict.heap = s.dict.heap ++ [s.newAttribute line])
  | sub (parent : ℕ) (block : s.state.evsParent = none) (chain : line.parentChain ≠ [])
      (container : s.state.tlvs.get? line.parentChain = some parent)
      (heap : s'.dict.heap = ((({ s.dict with heap := s.dict.heap ++ [s.newAttribute line] } :
        Dictionary).addSubAttribute parent line.code line.name).setParent s.dict.heap.length
          parent).heap)

theorem Attached.length_heap {s s' : DictReader} {line : AttributeLine} (h : Attached s s' line) :
    s'.dict.heap.length = s.dict.heap.length + 1 := by
  have hmodify (D : Dictionary) (ref : ℕ) (f : Attribute → Attribute) :
      (D.modifyAt ref f).heap.length = D.heap.length := List.length_modify ..
  cases h with
  | evs marker parent _ _ heap => simp [heap, Dictionary.setParent, hmodify]
  | top _ _ heap => simp [heap]
  | sub parent _ _ _ heap => simp [heap, Dictionary.setParent, Dictionary.addSubAttribute, hmodify]

/-- What an `ATTRIBUTE` line has done when it is read. -/
structure Declares (s s' : DictReader) (line : AttributeLine) (loc : WireLocation) : Prop where
  location : s.wireLocation line = .ok loc
  attributes : s'.dict.attributes = s.dict.attributes.set line.name s.dict.heap.length
  attrindex : s'.dict.attrindex = s.dict.attrindex.add line.name loc.key
  tlvs : s'.state.tlvs = if line.type.isContainer then
      s.state.tlvs.set (line.parentChain ++ [line.code]) s.dict.heap.length
    else s.state.tlvs
  attached : Attached s s' line

/-- **The effect of an `ATTRIBUTE` line.** -/
theorem exists_declares_of_run {s s' : DictReader} {line : AttributeLine}
    (h : (declare line).run s = .ok () s') : ∃ loc, Declares s s' line loc := by
  rw [declare, run_bind_of_ok (run_get s), attributeKey_eq] at h
  obtain ⟨key, s₀, hkey, h⟩ := run_bind_eq_ok_iff.1 h
  obtain ⟨hkey, hs₀⟩ := run_liftM_eq_ok_iff.1 hkey
  rw [hs₀] at h
  rcases hloc : s.wireLocation line with e | loc
  · rw [hloc] at hkey
    cases hkey
  rw [hloc] at hkey
  obtain rfl : loc.key = key := Except.ok.inj hkey
  have hset : (set (s.enter line loc.key) : ReaderMethod Unit).run s =
    .ok () (s.enter line loc.key) := rfl
  rw [run_bind_of_ok hset, attach, run_bind_of_ok (run_get _)] at h
  -- the table is read under the parent chain, and the new entry is not there
  have htlvs : (s.enter line loc.key).state.tlvs.get? line.parentChain =
      s.state.tlvs.get? line.parentChain := by
    show OrderedDict.get? (if _ then _ else _) _ = _
    split
    · exact OrderedDict.get?_set_ne _ (by simp) _
    · rfl
  rcases hevs : s.state.evsParent with - | marker
  · rw [show (s.enter line loc.key).state.evsParent = none from hevs] at h
    dsimp only at h
    by_cases hchain : line.parentChain ≠ []
    · rw [if_pos hchain] at h
      rcases hparent : s.state.tlvs.get? line.parentChain with - | parent
      · rw [htlvs, hparent] at h
        cases h
      · rw [htlvs, hparent] at h
        cases h
        exact ⟨loc, hloc, rfl, rfl, rfl, .sub parent hevs hchain hparent rfl⟩
    · rw [if_neg hchain] at h
      cases h
      exact ⟨loc, hloc, rfl, rfl, rfl, .top hevs (not_not.1 hchain) rfl⟩
  · rw [show (s.enter line loc.key).state.evsParent = some marker from hevs] at h
    dsimp only at h
    obtain ⟨parent, s₁, hparent, h⟩ := run_bind_eq_ok_iff.1 h
    obtain ⟨hparent, hs₁⟩ := run_liftM_eq_ok_iff.1 hparent
    rw [hs₁] at h
    cases h
    refine ⟨loc, hloc, rfl, rfl, rfl, .evs marker parent hevs ?_ rfl⟩
    rw [Dictionary.ref] at hparent
    split at hparent
    · next ref href =>
      cases hparent
      exact href
    · cases hparent

/-! ### Lines and files -/

/-- What a line can do: nothing about attributes, or it declares one. -/
inductive LineStep (s s' : DictReader) : List Declaration → Prop
  | kept (h : Kept s s') : LineStep s s' []
  | declares (line : AttributeLine) (loc : WireLocation) (h : Declares s s' line loc) :
      LineStep s s' [⟨line.name, loc⟩]

/-- **One line.** -/
theorem lineStep_readLine {E : Env} {line : DictLine} {s s' : DictReader}
    (h : (readLine E line).run s = .ok () s') :
    LineStep (s.atLine line) s' ((s.atLine line).declares (tokenize line.text)) := by
  have hline : (modify fun s ↦ s.atLine line : ReaderMethod Unit).run s =
    .ok () (s.atLine line) := rfl
  have hread : (readLine E line).run s = (parseTokens E (tokenize line.text)).run (s.atLine line) :=
    run_bind_of_ok hline
  rw [hread] at h
  generalize s.atLine line = s at h
  generalize tokenize line.text = tokens at h
  have hkept {m : ReaderMethod Unit} (hm : Respects Kept m) (hrun : m.run s = .ok () s')
      (hkey : tokens.head?.map Tools.upper ≠ some "ATTRIBUTE") :
      LineStep s s' (s.declares tokens) := by
    have hafter := hm s
    rw [after_of_ok hrun] at hafter
    rw [declares, if_neg hkey]
    exact .kept hafter
  have hle (s s' : DictReader) (huntouched : Untouched s s') : Kept s s' := huntouched.kept
  rw [parseTokens] at h
  split at h
  · next hkey =>
    obtain ⟨parsed, s₁, hparse, h⟩ := run_bind_eq_ok_iff.1 h
    have hsame := respects_parseAttributeLine tokens s
    rw [after_of_ok hparse] at hsame
    subst hsame
    obtain ⟨loc, hdeclares⟩ := exists_declares_of_run h
    have hdecl : s.declares tokens = [⟨parsed.name, loc⟩] := by
      rw [declares, if_pos hkey, hparse]
      dsimp only
      rw [hdeclares.location]
    rw [hdecl]
    exact .declares parsed loc hdeclares
  · next hkey =>
    rw [run_bind_of_ok (run_get s)] at h
    exact hkept (kept_parseValue E s.state tokens true) h (by rw [hkey]; decide)
  · next hkey => exact hkept ((untouched_parseVendor tokens).mono hle) h (by rw [hkey]; decide)
  · next hkey => exact hkept ((untouched_parseBeginVendor tokens).mono hle) h (by rw [hkey]; decide)
  · next hkey => exact hkept ((untouched_parseEndVendor tokens).mono hle) h (by rw [hkey]; decide)
  · next hkey _ _ _ _ => exact hkept (respects_pure ()) h hkey

section

variable {E : Env} {P : DictReader → List Declaration → Prop} {C : Declared → Prop}

/-- **The lines of a file.** What every line preserves whose declaration is as `C` wants it holds
when all are read. -/
theorem of_run_forM_readLine (hline : ∀ s line ds, P s ds → P (s.atLine line) ds)
    (hstep : ∀ s s' ds ds', LineStep s s' ds' → (∀ d ∈ ds', C ⟨s, ds, d⟩) → P s ds →
      P s' (ds ++ ds'))
    {lines : List DictLine} {s s' : DictReader} {ds : List Declaration} (hs : P s ds)
    (hC : ∀ t ∈ linesTrace E lines s ds, C t) (h : (lines.forM (readLine E)).run s = .ok () s') :
    P s' (ds ++ linesDeclare E lines s) := by
  induction lines generalizing s ds with
  | nil =>
    cases h
    rwa [linesDeclare, List.append_nil]
  | cons line lines ih =>
    obtain ⟨⟨⟩, s₁, hread, hrest⟩ := run_bind_eq_ok_iff.1 h
    rw [linesTrace] at hC
    have hfirst := hstep _ _ _ _ (lineStep_readLine hread)
      (fun d hd ↦ hC _ (List.mem_append_left _ (List.mem_map.2 ⟨d, hd, rfl⟩))) (hline s line ds hs)
    rw [linesDeclare, after_of_ok hread, ← List.append_assoc]
    refine ih hfirst (fun t ht ↦ hC t (List.mem_append_right _ ?_)) hrest
    rwa [after_of_ok hread]

theorem respects_deferParse (E : Env) (lines : List (ParseState × List String)) :
    Respects Kept (lines.forM fun (state, tokens) ↦ parseValue E state tokens false) :=
  respects_forM fun e _ ↦ kept_parseValue E e.1 e.2 false

/-- Deferred lines declare nothing. -/
theorem exists_kept_of_run_readLines {lines : List DictLine} {s s' : DictReader}
    (h : (readLines E lines).run s = .ok () s') :
    ∃ s₁, (lines.forM (readLine E)).run s = .ok () s₁ ∧ Kept s₁ s' := by
  obtain ⟨⟨⟩, s₁, hlines, h⟩ := run_bind_eq_ok_iff.1 h
  refine ⟨s₁, hlines, ?_⟩
  rw [run_bind_of_ok (run_get s₁)] at h
  have hdeferred := respects_deferParse E s₁.deferParse s₁
  rwa [after_of_ok h] at hdeferred

theorem of_run_readLines (hline : ∀ s line ds, P s ds → P (s.atLine line) ds)
    (hstep : ∀ s s' ds ds', LineStep s s' ds' → (∀ d ∈ ds', C ⟨s, ds, d⟩) → P s ds →
      P s' (ds ++ ds'))
    {lines : List DictLine} {s s' : DictReader} {ds : List Declaration} (hs : P s ds)
    (hC : ∀ t ∈ linesTrace E lines s ds, C t) (h : (readLines E lines).run s = .ok () s') :
    P s' (ds ++ linesDeclare E lines s) := by
  obtain ⟨s₁, hlines, hkept⟩ := exists_kept_of_run_readLines h
  have hdone := hstep s₁ s' _ [] (.kept hkept) (by simp)
    (of_run_forM_readLine hline hstep hs hC hlines)
  rwa [List.append_nil] at hdone

end

end DictReader

namespace Dictionary

/-- Reading a file is reading its lines from the start. -/
theorem exists_startReading_of_run {E : Env} {file : List DictLine} {D D' : Dictionary}
    (h : (readDictionary E file).run D = .ok () D') :
    ∃ tlvs s, D.existingContainerChains = .ok tlvs ∧
      D.startReading = some { dict := D, state := { tlvs } } ∧
      (DictReader.readLines E file).run { dict := D, state := { tlvs } } = .ok () s ∧
      s.dict = D' := by
  rw [readDictionary, run_bind_of_ok (run_get D)] at h
  obtain ⟨tlvs, D₀, htlvs, h⟩ := run_bind_eq_ok_iff.1 h
  obtain ⟨htlvs, hD₀⟩ := run_liftM_eq_ok_iff.1 htlvs
  rw [hD₀, run_onPart] at h
  rcases hlines : (DictReader.readLines E file).run { dict := D, state := { tlvs } } with
    ⟨⟨⟩, s⟩ | ⟨e, s⟩
  · rw [hlines] at h
    cases h
    exact ⟨tlvs, s, htlvs, by rw [startReading, htlvs], hlines, rfl⟩
  · rw [hlines] at h
    cases h

/-- **Files.** What holds at the start of each and is preserved by every line whose declaration is
as `C` wants it, and what it says about the dictionary alone, holds when files are loaded. -/
theorem of_run_load {E : Env} {I : Dictionary → List Declaration → Prop}
    {P : DictReader → List Declaration → Prop} {C : DictReader.Declared → Prop}
    (hstart : ∀ D ds tlvs, I D ds → D.existingContainerChains = .ok tlvs →
      P { dict := D, state := { tlvs } } ds)
    (hline : ∀ s line ds, P s ds → P (s.atLine line) ds)
    (hstep : ∀ s s' ds ds', DictReader.LineStep s s' ds' → (∀ d ∈ ds', C ⟨s, ds, d⟩) → P s ds →
      P s' (ds ++ ds'))
    (hend : ∀ s ds, P s ds → I s.dict ds)
    {files : List (List DictLine)} {D D' : Dictionary} {ds : List Declaration} (hD : I D ds)
    (hC : ∀ t ∈ D.trace E files ds, C t) (h : (load E files).run D = .ok () D') :
    I D' (ds ++ D.declarations E files) := by
  induction files generalizing D ds with
  | nil =>
    cases h
    rwa [declarations, List.append_nil]
  | cons file files ih =>
    obtain ⟨⟨⟩, D₁, hread, hrest⟩ := run_bind_eq_ok_iff.1 h
    obtain ⟨tlvs, s, htlvs, hs, hlines, rfl⟩ := exists_startReading_of_run hread
    rw [trace, after_of_ok hread, fileDeclares, hs] at hC
    rw [declarations, after_of_ok hread, fileDeclares, hs, ← List.append_assoc]
    refine ih (hend s _ ?_) (fun t ht ↦ hC t (List.mem_append_right _ ht)) hrest
    exact DictReader.of_run_readLines hline hstep (hstart D ds tlvs hD htlvs)
      (fun t ht ↦ hC t (List.mem_append_left _ ht)) hlines

end Dictionary

end Pyrad2
