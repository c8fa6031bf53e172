import Pyrad2.Dictionary
import Pyrad2.Foundations.Words

/-!
# Reading dictionary files

The parser that fills a dictionary. A file is given by the lines that `DictFile` delivers, with
includes expanded.

The parser works on one dictionary across files. Within a file it keeps the vendor of the block it is
in, the marker of the block if that is one for extended vendor attributes, and a table of the
containers seen so far, by the codes from the outermost parent down. For a new file the table is
rebuilt from the parent links.
-/

namespace Pyrad2

namespace Tools

/-- `str.split()` -/
def words (cs : List Char) : List String := (cs.wordsBy isWhite).map String.ofList

/-- `int(text, 0)`, `none` where it raises `ValueError`. -/
def intLiteral? (s : String) : Option Int := int? 0 s

end Tools

/-- The name of a datatype. -/
def Datatype.name : Datatype → String
  | .string => "string"
  | .ipaddr => "ipaddr"
  | .integer => "integer"
  | .date => "date"
  | .octets => "octets"
  | .abinary => "abinary"
  | .ipv6addr => "ipv6addr"
  | .ipv6Prefix => "ipv6prefix"
  | .short => "short"
  | .byte => "byte"
  | .signed => "signed"
  | .ifid => "ifid"
  | .ether => "ether"
  | .tlv => "tlv"
  | .integer64 => "integer64"
  | .extended => "extended"
  | .longExtended => "long-extended"
  | .evs => "evs"
  | .vsa => "vsa"
  | .ipv4Prefix => "ipv4prefix"
  | .comboIp => "combo-ip"

/-- A datatype by its name in `DATATYPES`. -/
def Datatype.ofName? (name : String) : Option Datatype :=
  [Datatype.string, .ipaddr, .integer, .date, .octets, .abinary, .ipv6addr, .ipv6Prefix, .short,
    .byte, .signed, .ifid, .ether, .tlv, .integer64, .extended, .longExtended, .evs, .vsa,
    .ipv4Prefix, .comboIp].find? fun type ↦ type.name == name

/-- A line of a dictionary file, and where it stands. -/
structure DictLine where
  file : String
  line : ℕ
  text : String

/-- `state`, in `read_dictionary` -/
structure ParseState where
  vendor : String := ""
  evsParent : Option String := none
  /-- The containers, by the codes from the outermost parent down. -/
  tlvs : OrderedDict (List Int) ℕ
  file : String := ""
  line : ℕ := 0

/-- A dictionary while a file is read into it. -/
structure DictReader where
  dict : Dictionary
  state : ParseState
  /-- `VALUE` lines for attributes that were not declared yet. -/
  deferParse : List (ParseState × List String) := []

/-- A method of the parser. -/
abbrev ReaderMethod (α : Type) := Method DictReader α

namespace Dictionary

/-- `dictionary.attributes[name]`, as a reference. -/
def ref (D : Dictionary) (name : String) : Except Exn ℕ :=
  match D.attributes.get? name with
  | some ref => .ok ref
  | none => .error .keyError

/-- `dictionary.vendors.get_forward(vendor)` -/
def vendorId (D : Dictionary) (vendor : String) : Except Exn Int :=
  match D.vendors.forward.get? vendor with
  | some vendor => .ok vendor
  | none => .error .keyError

/-- Change an attribute that something refers to. -/
def modifyAt (D : Dictionary) (ref : ℕ) (f : Attribute → Attribute) : Dictionary :=
  { D with heap := D.heap.modify ref f }

/-- `attr.parent = …` -/
def setParent (D : Dictionary) (ref parent : ℕ) : Dictionary :=
  D.modifyAt ref fun attr ↦ { attr with parent := some parent }

/-- `attr.sub_attributes[code] = name` -/
def addSubAttribute (D : Dictionary) (ref : ℕ) (code : Int) (name : String) : Dictionary :=
  D.modifyAt ref fun attr ↦ { attr with subAttributes := attr.subAttributes.set code name }

/-- `attr.values.add(key, value)` -/
def addValue (D : Dictionary) (ref : ℕ) (key : String) (value : PyVal) : Dictionary :=
  D.modifyAt ref fun attr ↦ { attr with values := attr.values.add key value }

/-- A vendor, and its format unless that is the default. -/
def addVendor (D : Dictionary) (name : String) (id : Int) (format : VendorFormat) : Dictionary :=
  { D with
    vendors := D.vendors.add name id
    vendorFormats :=
      if format.typeLen = 1 ∧ format.lenLen = 1 ∧ format.hasContinuation = false then
        D.vendorFormats
      else D.vendorFormats.set id format }

/-- The codes from an attribute up to its outermost parent. The heap bounds the number of parents
unless the links run in a circle. -/
def codesUp (D : Dictionary) : ℕ → Attribute → Except Exn (List Int)
  | 0, _ => .error .divergence
  | fuel + 1, cur =>
    match D.parentOf cur with
    | none => .ok [cur.code]
    | some parent => return cur.code :: (← codesUp D fuel parent)

/-- `_existing_container_chains()` -/
def existingContainerChains (D : Dictionary) : Except Exn (OrderedDict (List Int) ℕ) :=
  D.attributes.entries.foldlM (fun chains e ↦
    match D.heap[e.2]? with
    | some attr =>
      if attr.type.isContainer then do
        return chains.set (← D.codesUp (D.heap.length + 1) attr).reverse e.2
      else .ok chains
    | none => .ok chains) ∅

end Dictionary

namespace DictReader

/-- Raise a `ParseError` for the line that is read. -/
def parseError {α : Type} (msg : String) : ReaderMethod α := fun s ↦
  .error (.parseError msg s.state.file s.state.line) s

/-! ### ATTRIBUTE -/

/-- The options after the type of an attribute. -/
structure AttributeOptions where
  encrypt : ℕ := 0
  concat : Bool := false
  virtual : Bool := false
  array : Bool := false
  /-- `options_recognized` -/
  recognized : Bool := false

/-- `keyval(o)` -/
def keyval (o : List Char) : String × Option String :=
  match Tools.split '=' o with
  | [k, v] => (String.ofList k, some (String.ofList v))
  | k :: _ => (String.ofList k, none)
  | [] => ("", none)

/-- One option; a message where it is wrong. -/
def applyOption (opts : AttributeOptions) (option : String × Option String) :
    Except String AttributeOptions :=
  match option.1 with
  | "has_tag" => .ok { opts with recognized := true }
  | "encrypt" =>
    match option.2 with
    | some "1" => .ok { opts with encrypt := 1, recognized := true }
    | some "2" => .ok { opts with encrypt := 2, recognized := true }
    | some "3" => .ok { opts with encrypt := 3, recognized := true }
    | val => .error ("Illegal attribute encryption: " ++ val.getD "None")
  | "concat" => .ok { opts with concat := true, recognized := true }
  | "virtual" => .ok { opts with virtual := true, recognized := true }
  | "array" => .ok { opts with array := true, recognized := true }
  | "secret" => .ok { opts with recognized := true }
  | _ => .ok opts

/-- What an `ATTRIBUTE` line says. -/
structure AttributeLine where
  name : String
  parentChain : List Int
  code : Int
  type : Datatype
  vendor : String
  options : AttributeOptions

/-- A part of a dotted code, in hexadecimal, octal or decimal. -/
def parseCode (c : List Char) : Except Exn Int :=
  let base := match c with
    | '0' :: 'x' :: _ => 16
    | '0' :: 'o' :: _ => 8
    | _ => 10
  match Tools.int? base (String.ofList c) with
  | some code => .ok code
  | none => .error (.valueError "invalid literal for int()")

/-- A dotted code. -/
def parseCodes (code : String) : Except Exn (List Int) :=
  (Tools.split '.' code.toList).mapM parseCode

/-- `_TYPE_ALIASES.get(datatype, datatype)` -/
def typeAlias : String → String
  | "uint8" => "byte"
  | "uint16" => "short"
  | "uint32" => "integer"
  | "uint64" => "integer64"
  | "int32" => "signed"
  | datatype => datatype

/-- The options and the vendor in the last column of a line, which starts out with the vendor of the
block. -/
def parseOptions (vendor : String) (column : Option String) :
    ReaderMethod (AttributeOptions × String) := do
  let some column := column | return ({}, vendor)
  match ((Tools.split ',' column.toList).map keyval).foldlM applyOption {} with
  | .error msg => parseError msg
  | .ok opts =>
    if opts.recognized then return (opts, vendor)
    if (← get).dict.vendors.forward.contains column then return (opts, column)
    parseError ("Unknown vendor " ++ column)

/-- The first part of `__parse_attribute`, up to the key. -/
def parseAttributeLine (tokens : List String) : ReaderMethod AttributeLine := do
  match tokens with
  | _ :: name :: code :: datatype :: rest =>
    if rest.length > 1 then parseError "Incorrect number of tokens for attribute definition"
    let (options, vendor) ← parseOptions (← get).state.vendor rest.head?
    let codes ← parseCodes code
    let datatype := typeAlias (String.ofList (datatype.toList.takeWhile (· ≠ '[')))
    match codes.getLast?, Datatype.ofName? datatype with
    | none, _ => parseError "attribute code missing"
    | some _, none => parseError ("Illegal type: " ++ datatype)
    | some code, some type =>
      return { name, parentChain := codes.dropLast, code, type, vendor, options }
  | _ => parseError "Incorrect number of tokens for attribute definition"

/-- The key of an attribute in the index. -/
def attributeKey (s : DictReader) (line : AttributeLine) : Except Exn Key :=
  match s.state.evsParent with
  | some name => do
    let marker ← s.dict.lookup name
    match s.dict.parentOf marker with
    | none => throw .attributeError
    | some wrapper =>
      return .tup [wrapper.code, marker.code, ← s.dict.vendorId line.vendor, line.code]
  | none =>
    if line.vendor ≠ "" then do
      return .tup ((← s.dict.vendorId line.vendor) :: line.parentChain ++ [line.code])
    else if line.parentChain ≠ [] then .ok (.tup (line.parentChain ++ [line.code]))
    else .ok (.int line.code)

/-- The attribute of a line, before it gets a parent. -/
def newAttribute (s : DictReader) (line : AttributeLine) : Attribute where
  name := line.name
  code := line.code
  type := line.type
  isSubAttribute := s.state.evsParent.isSome || line.parentChain ≠ []
  vendor := line.vendor
  encrypt := line.options.encrypt
  concat := line.options.concat
  virtual := line.options.virtual
  array := line.options.array

/-- The attribute is in the dictionary and, if it is a container, in the table. -/
def enter (s : DictReader) (line : AttributeLine) (key : Key) : DictReader :=
  let ref := s.dict.heap.length
  { s with
    dict := { s.dict with
      heap := s.dict.heap ++ [s.newAttribute line]
      attributes := s.dict.attributes.set line.name ref
      attrindex := s.dict.attrindex.add line.name key }
    state := { s.state with
      tlvs := if line.type.isContainer then s.state.tlvs.set (line.parentChain ++ [line.code]) ref
        else s.state.tlvs } }

/-- The last part of `__parse_attribute`: the attribute `ref` of the line gets its parent. -/
def attach (line : AttributeLine) (ref : ℕ) : ReaderMethod Unit := do
  let s ← get
  match s.state.evsParent with
  | some name => do
    let parent ← s.dict.ref name
    set { s with dict := s.dict.setParent ref parent }
  | none =>
    if line.parentChain ≠ [] then
      match s.state.tlvs.get? line.parentChain with
      | none => parseError ("sub-attribute references undefined parent chain " ++
          ".".intercalate (line.parentChain.map toString))
      | some parent =>
        set { s with
          dict := (s.dict.addSubAttribute parent line.code line.name).setParent ref parent }

/-- The second part of `__parse_attribute`. -/
def declare (line : AttributeLine) : ReaderMethod Unit := do
  let s ← get
  let key ← s.attributeKey line
  set (s.enter line key)
  attach line s.dict.heap.length

/-- `__parse_attribute(state, tokens)` -/
def parseAttribute (tokens : List String) : ReaderMethod Unit := do
  declare (← parseAttributeLine tokens)

/-! ### VALUE -/

/-- Do named values of the datatype stand for numbers? -/
def isNumeric (type : Datatype) : Bool :=
  type ∈ [Datatype.integer, .signed, .short, .byte, .integer64]

/-- The value of a `VALUE` line, before it is encoded. -/
def parseNumber (type : Datatype) (value : String) : Except Exn PyVal :=
  if isNumeric type then
    match Tools.intLiteral? value with
    | some n => .ok (.int n)
    | none => .error (.valueError "invalid literal for int()")
  else .ok (.str value)

/-- `__parse_value(state, tokens, defer)` -/
def parseValue (E : Env) (state : ParseState) (tokens : List String) (defer : Bool) :
    ReaderMethod Unit := do
  match tokens with
  | [_, attr, key, value] => do
    let s ← get
    match s.dict.attributes.get? attr with
    | none =>
      if defer then set { s with deferParse := s.deferParse ++ [(state, tokens)] }
      else throw (.parseError ("Value defined for unknown attribute " ++ attr) state.file state.line)
    | some ref => do
      let adef ← s.dict.lookup attr
      let value ← Tools.encodeAttr E adef.type (← parseNumber adef.type value)
      set { s with dict := s.dict.addValue ref key value }
  | _ => throw (.parseError "Incorrect number of tokens for value definition" state.file state.line)

/-! ### VENDOR -/

/-- The format behind `format=`. What is not a number or no `c` is a syntax error, a width that no
format has is not. -/
def parseFormat (spec : String) : Except String VendorFormat :=
  let widths (type length : List Char) (hasContinuation : Bool) : Except String VendorFormat :=
    match Tools.int? 10 (String.ofList type), Tools.int? 10 (String.ofList length) with
    | some type, some length =>
      if htype : type.toNat = 1 ∨ type.toNat = 2 ∨ type.toNat = 4 then
        if hlength : 0 ≤ length ∧ length.toNat ≤ 2 then
          .ok ⟨type.toNat, length.toNat, hasContinuation, htype, hlength.2⟩
        else .error ("Unknown vendor format specification " ++ spec)
      else .error ("Unknown vendor format specification " ++ spec)
    | _, _ => .error "Syntax error in vendor specification"
  match Tools.split ',' spec.toList with
  | [type, length] => widths type length false
  | [type, length, ['c']] =>
    widths type length true
  | _ => .error "Syntax error in vendor specification"

/-- The format in the last column of a `VENDOR` line. -/
def parseFormatColumn : Option String → ReaderMethod VendorFormat
  | none => return vendorFormatDefault
  | some column =>
    match (Tools.split '=' column.toList).map String.ofList with
    | "format" :: spec :: _ =>
      match parseFormat spec with
      | .ok format => return format
      | .error msg => parseError msg
    | ["format"] => throw .indexError
    | option :: _ => parseError ("Unknown option '" ++ option ++ "' for vendor definition")
    | [] => throw .indexError

/-- `__parse_vendor(state, tokens)` -/
def parseVendor (tokens : List String) : ReaderMethod Unit := do
  match tokens with
  | _ :: name :: vendor :: rest =>
    if rest.length > 1 then parseError "Incorrect number of tokens for vendor definition"
    let format ← parseFormatColumn rest.head?
    match Tools.intLiteral? vendor with
    | none => parseError ("Invalid vendor id '" ++ vendor ++ "' (expected an integer literal)")
    | some id =>
      if ¬ (0 ≤ id ∧ id ≤ 0xFFFFFF) then
        parseError ("Vendor id " ++ toString id ++ " out of range (expected 0..0xFFFFFF)")
      modify fun s ↦ { s with dict := s.dict.addVendor name id format }
  | _ => parseError "Incorrect number of tokens for vendor definition"

/-! ### BEGIN-VENDOR and END-VENDOR -/

/-- The marker of a block, from its last column. -/
def parseParent (column : Option String) : ReaderMethod (Option String) := do
  match column with
  | none => return none
  | some option =>
    let cs := option.toList
    if ¬ "parent=".toList <+: cs then
      parseError ("Unknown option " ++ option ++ " in begin-vendor statement")
    let name := String.ofList (cs.drop 7)
    match (← get).dict.attribute? name with
    | none => parseError ("Unknown parent " ++ name ++ " in begin-vendor statement")
    | some marker =>
      if marker.type = .evs then return some name
      parseError ("begin-vendor parent " ++ name ++ " must be of type evs (got " ++
        marker.type.name ++ ")")

/-- `__parse_begin_vendor(state, tokens)` -/
def parseBeginVendor (tokens : List String) : ReaderMethod Unit := do
  match tokens with
  | _ :: vendor :: rest =>
    if rest.length > 1 then
      parseError "Incorrect number of tokens for begin-vendor statement"
    if !(← get).dict.vendors.forward.contains vendor then
      parseError ("Unknown vendor " ++ vendor ++ " in begin-vendor statement")
    let evsParent ← parseParent rest.head?
    modify fun s ↦ { s with state := { s.state with vendor, evsParent } }
  | _ => parseError "Incorrect number of tokens for begin-vendor statement"

/-- `__parse_end_vendor(state, tokens)` -/
def parseEndVendor (tokens : List String) : ReaderMethod Unit := do
  match tokens with
  | [_, vendor] =>
    if (← get).state.vendor ≠ vendor then parseError ("Ending non-open vendor" ++ vendor)
    modify fun s ↦ { s with state := { s.state with vendor := "", evsParent := none } }
  | _ => parseError "Incorrect number of tokens for end-vendor statement"

/-! ### Files -/

/-- The tokens of a line, without its comment. -/
def tokenize (text : String) : List String :=
  Tools.words (text.toList.takeWhile (· ≠ '#'))

/-- What is done with the tokens of a line. -/
def parseTokens (E : Env) (tokens : List String) : ReaderMethod Unit := do
  match (tokens.head?).map Tools.upper with
  | some "ATTRIBUTE" => parseAttribute tokens
  | some "VALUE" => parseValue E (← get).state tokens true
  | some "VENDOR" => parseVendor tokens
  | some "BEGIN-VENDOR" => parseBeginVendor tokens
  | some "END-VENDOR" => parseEndVendor tokens
  | _ => pure ()

/-- One line. -/
def readLine (E : Env) (line : DictLine) : ReaderMethod Unit := do
  modify fun s ↦ { s with state := { s.state with file := line.file, line := line.line } }
  parseTokens E (tokenize line.text)

/-- The lines of a file, and then the `VALUE` lines that were deferred. -/
def readLines (E : Env) (lines : List DictLine) : ReaderMethod Unit := do
  lines.forM (readLine E)
  (← get).deferParse.forM fun (state, tokens) ↦ parseValue E state tokens false

end DictReader

/-- A method of a dictionary. -/
abbrev DictMethod (α : Type) := Method Dictionary α

namespace Dictionary

/-- `read_dictionary(file)` -/
def readDictionary (E : Env) (lines : List DictLine) : DictMethod Unit := do
  let tlvs ← existingContainerChains (← get)
  EStateM.onPart (fun D ↦ { dict := D, state := { tlvs } }) (fun s _ ↦ s.dict)
    (DictReader.readLines E lines)

/-- `Dictionary(*files)`, on an empty dictionary. -/
def load (E : Env) (files : List (List DictLine)) : DictMethod Unit :=
  files.forM (readDictionary E)

end Dictionary

end Pyrad2
