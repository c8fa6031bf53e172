import Pyrad2.Codecs
import Pyrad2.Dictionary.Declarations
import Pyrad2.Foundations.LastWhere

/-!
# Named values

What the `VALUE` lines of dictionary files add to which attribute. The two directions of the names
of an attribute are those of the lines added to it, the last line for a name or for a number counting.
-/

namespace Pyrad2

open EStateM

namespace BiDict

variable {α β : Type} [DecidableEq α] [DecidableEq β]

/-- A dictionary with these pairs added, one after the other. -/
def ofPairs (l : List (α × β)) : BiDict α β := l.foldl (fun d e ↦ d.add e.1 e.2) empty

theorem ofPairs_append_singleton (l : List (α × β)) (e : α × β) :
    ofPairs (l ++ [e]) = (ofPairs l).add e.1 e.2 := by
  rw [ofPairs, List.foldl_append]
  rfl

theorem forward_ofPairs (l : List (α × β)) (a : α) :
    (ofPairs l).forward.get? a = (l.lastWhere (·.1 = a)).map Prod.snd := by
  induction l using List.reverseRecOn with
  | nil => rfl
  | append_singleton l e ih =>
    rw [ofPairs_append_singleton, List.lastWhere_append_singleton, add, OrderedDict.get?_set, ih]
    by_cases he : a = e.1
    · rw [if_pos he, if_pos (by simp [he])]
      rfl
    · rw [if_neg he, if_neg (by simpa using Ne.symm he)]

theorem backward_ofPairs (l : List (α × β)) (b : β) :
    (ofPairs l).backward.get? b = (l.lastWhere (·.2 = b)).map Prod.fst := by
  induction l using List.reverseRecOn with
  | nil => rfl
  | append_singleton l e ih =>
    rw [ofPairs_append_singleton, List.lastWhere_append_singleton, add, OrderedDict.get?_set, ih]
    by_cases he : b = e.2
    · rw [if_pos he, if_pos (by simp [he])]
      rfl
    · rw [if_neg he, if_neg (by simpa using Ne.symm he)]

end BiDict

/-- A named value, given to an attribute. -/
structure Naming where
  ref : ℕ
  name : String
  value : PyVal
  deriving DecidableEq

namespace DictReader

variable (E : Env)

/-- The value of a `VALUE` line, encoded for its attribute. -/
def valueOf (s : DictReader) (attr value : String) : Except Exn PyVal := do
  let adef ← s.dict.lookup attr
  Tools.encodeAttr E adef.type (← parseNumber adef.type value)

/-- What the tokens of a `VALUE` line add. -/
def naming? (s : DictReader) (tokens : List String) : List Naming :=
  match tokens with
  | [_, attr, key, value] =>
    match s.dict.attributes.get? attr, s.valueOf E attr value with
    | some ref, .ok value => [⟨ref, key, value⟩]
    | _, _ => []
  | _ => []

/-- What the tokens of a line add. -/
def names (s : DictReader) (tokens : List String) : List Naming :=
  if tokens.head?.map Tools.upper = some "VALUE" then s.naming? E tokens else []

/-- What the lines of a file add, in their order. -/
def linesName : List DictLine → DictReader → List Naming
  | [], _ => []
  | line :: lines, s =>
    (s.atLine line).names E (tokenize line.text) ++ linesName lines (after (readLine E line) s)

/-- What deferred lines add. -/
def deferredName : List (ParseState × List String) → DictReader → List Naming
  | [], _ => []
  | e :: rest, s => s.naming? E e.2 ++ deferredName rest (after (parseValue E e.1 e.2 false) s)

end DictReader

namespace Dictionary

variable (E : Env)

/-- What a file adds: its lines first, and then those that were deferred. -/
def fileNames (file : List DictLine) (D : Dictionary) : List Naming :=
  match D.startReading with
  | some s =>
    let s' := after (file.forM (DictReader.readLine E)) s
    DictReader.linesName E file s ++ DictReader.deferredName E s'.deferParse s'
  | none => []

/-- What files add that are read into a dictionary. -/
def namings : List (List DictLine) → Dictionary → List Naming
  | [], _ => []
  | file :: files, D =>
    fileNames E file D ++ namings files (after (readDictionary E file) D)

end Dictionary

namespace DictReader

/-- What a line can do to named values: nothing, or it declares an attribute without any, or it adds
one. -/
inductive NameStep (E : Env) (s s' : DictReader) : List Naming → Prop
  | kept (h : s'.dict.heap = s.dict.heap) : NameStep E s s' []
  | declares (line : AttributeLine)
      (values : s'.dict.heap.map Attribute.values = s.dict.heap.map Attribute.values ++ [BiDict.empty])
      (types : s'.dict.heap.map Attribute.type = s.dict.heap.map Attribute.type ++ [line.type]) :
      NameStep E s s' []
  | names (ref : ℕ) (adef : Attribute) (key text : String) (number value : PyVal)
      (attr : s.dict.heap[ref]? = some adef) (parsed : parseNumber adef.type text = .ok number)
      (encoded : Tools.encodeAttr E adef.type number = .ok value)
      (heap : s'.dict.heap = (s.dict.addValue ref key value).heap) :
      NameStep E s s' [⟨ref, key, value⟩]

variable {E : Env}

theorem naming?_of_unknown {s : DictReader} {attr : String}
    (h : s.dict.attributes.get? attr = none) (head key text : String) :
    s.naming? E [head, attr, key, text] = [] := by
  simp [naming?, h]

theorem naming?_of_valueOf {s : DictReader} {attr text : String} {ref : ℕ} {value : PyVal}
    (href : s.dict.attributes.get? attr = some ref) (h : s.valueOf E attr text = .ok value)
    (head key : String) : s.naming? E [head, attr, key, text] = [⟨ref, key, value⟩] := by
  simp [naming?, href, h]

/-- **A `VALUE` line.** -/
theorem nameStep_parseValue {state : ParseState} {tokens : List String} {defer : Bool}
    {s s' : DictReader} (h : (parseValue E state tokens defer).run s = .ok () s') :
    NameStep E s s' (s.naming? E tokens) := by
  unfold parseValue at h
  split at h
  · next head attr key text =>
    rw [run_bind_of_ok (run_get s)] at h
    split at h
    · next hnone =>
      rw [naming?_of_unknown hnone]
      split at h
      · cases h
        exact .kept rfl
      · cases h
    · next ref href =>
      simp only [run_bind_eq_ok_iff, run_liftM_eq_ok_iff] at h
      obtain ⟨adef, _, ⟨hadef, rfl⟩, number, _, ⟨hnumber, rfl⟩, value, s, ⟨hvalue, rfl⟩, hset⟩ := h
      cases hset
      have hof : s.valueOf E attr text = .ok value := by
        rw [valueOf, hadef, Except.bind_of_ok, hnumber, Except.bind_of_ok, hvalue]
      have hat : s.dict.heap[ref]? = some adef := by
        rw [Dictionary.lookup, Dictionary.attribute?, href, Option.bind_some] at hadef
        split at hadef
        · next hsome =>
          cases hadef
          exact hsome
        · cases hadef
      rw [naming?_of_valueOf href hof]
      exact .names ref adef key text number value hat hnumber hvalue rfl
  · cases h

/-- What a change does not reach stays as it is all over the heap. -/
theorem map_heap_modifyAt {α : Type} {g : Attribute → α} {f : Attribute → Attribute}
    (h : ∀ attr, g (f attr) = g attr) (D : Dictionary) (ref : ℕ) :
    (D.modifyAt ref f).heap.map g = D.heap.map g := by
  refine List.ext_getElem? fun i ↦ ?_
  rw [List.getElem?_map, List.getElem?_map, Dictionary.getElem?_modifyAt]
  split
  · rw [Option.map_map]
    exact congrArg (Option.map · _) (funext h)
  · rfl

/-- A new attribute has no named values, and hanging it up gives it none. -/
theorem map_heap_of_attached {α : Type} {g : Attribute → α} {s s' : DictReader} {line : AttributeLine}
    (h : Attached s s' line)
    (hparent : ∀ attr parent, g { attr with parent := some parent } = g attr)
    (hsub : ∀ attr subs, g { attr with subAttributes := subs } = g attr) :
    s'.dict.heap.map g = s.dict.heap.map g ++ [g (s.newAttribute line)] := by
  have hnew : ({ s.dict with heap := s.dict.heap ++ [s.newAttribute line] } : Dictionary).heap.map g =
      s.dict.heap.map g ++ [g (s.newAttribute line)] := by simp
  cases h with
  | evs marker parent _ _ heap =>
    rw [heap, Dictionary.setParent, map_heap_modifyAt fun attr ↦ hparent attr parent, hnew]
  | top _ _ heap => rw [heap, List.map_append, List.map_singleton]
  | sub parent _ _ _ heap =>
    rw [heap, Dictionary.setParent, map_heap_modifyAt fun attr ↦ hparent attr parent,
      Dictionary.addSubAttribute, map_heap_modifyAt fun attr ↦ hsub attr _, hnew]

/-- **One line.** -/
theorem nameStep_readLine {line : DictLine} {s s' : DictReader}
    (h : (readLine E line).run s = .ok () s') :
    NameStep E (s.atLine line) s' ((s.atLine line).names E (tokenize line.text)) := by
  have hline : (modify fun s ↦ s.atLine line : ReaderMethod Unit).run s =
    .ok () (s.atLine line) := rfl
  have hread : (readLine E line).run s = (parseTokens E (tokenize line.text)).run (s.atLine line) :=
    run_bind_of_ok hline
  rw [hread] at h
  generalize s.atLine line = s at h
  generalize tokenize line.text = tokens at h
  have huntouched {m : ReaderMethod Unit} (hm : Respects Untouched m) (hrun : m.run s = .ok () s')
      (hkey : tokens.head?.map Tools.upper ≠ some "VALUE") :
      NameStep E s s' (s.names E tokens) := by
    have hafter := hm s
    rw [after_of_ok hrun] at hafter
    rw [names, if_neg hkey]
    exact .kept hafter.heap
  rw [parseTokens] at h
  split at h
  · next hkey =>
    obtain ⟨parsed, s₁, hparse, h⟩ := run_bind_eq_ok_iff.1 h
    have hsame := respects_parseAttributeLine tokens s
    rw [after_of_ok hparse] at hsame
    subst hsame
    obtain ⟨loc, hdeclares⟩ := exists_declares_of_run h
    rw [names, if_neg (by rw [hkey]; decide)]
    exact .declares parsed
      (map_heap_of_attached hdeclares.attached (fun _ _ ↦ rfl) fun _ _ ↦ rfl)
      (map_heap_of_attached hdeclares.attached (fun _ _ ↦ rfl) fun _ _ ↦ rfl)
  · next hkey =>
    rw [run_bind_of_ok (run_get s)] at h
    rw [names, if_pos hkey]
    exact nameStep_parseValue h
  · next hkey => exact huntouched (untouched_parseVendor tokens) h (by rw [hkey]; decide)
  · next hkey => exact huntouched (untouched_parseBeginVendor tokens) h (by rw [hkey]; decide)
  · next hkey => exact huntouched (untouched_parseEndVendor tokens) h (by rw [hkey]; decide)
  · next hvalue _ _ _ =>
    exact huntouched (respects_pure ()) h hvalue

/-- The names that were added to the attribute `ref`. -/
def addedTo (ns : List Naming) (ref : ℕ) : List (String × PyVal) :=
  (ns.filter (·.ref = ref)).map fun n ↦ (n.name, n.value)

/-- The named values of the attributes are those that were added. -/
structure Named (E : Env) (D : Dictionary) (ns : List Naming) : Prop where
  values : ∀ ref attr, D.heap[ref]? = some attr → attr.values = BiDict.ofPairs (addedTo ns ref)
  bounded : ∀ n ∈ ns, n.ref < D.heap.length
  encoded : ∀ n ∈ ns, ∀ attr, D.heap[n.ref]? = some attr →
    ∃ text number, parseNumber attr.type text = .ok number ∧
      Tools.encodeAttr E attr.type number = .ok n.value

theorem named_empty : Named E .empty [] where
  values := fun _ _ h ↦ by cases h
  bounded := fun _ h ↦ by cases h
  encoded := fun _ h ↦ by cases h

/-- **Step.** -/
theorem Named.step {s s' : DictReader} {ns ns' : List Naming} (h : Named E s.dict ns)
    (hstep : NameStep E s s' ns') : Named E s'.dict (ns ++ ns') := by
  cases hstep with
  | kept heap =>
    rw [List.append_nil]
    exact ⟨heap ▸ h.values, heap ▸ h.bounded, heap ▸ h.encoded⟩
  | declares line values types =>
    rw [List.append_nil]
    have hlen : s'.dict.heap.length = s.dict.heap.length + 1 := by
      simpa using congrArg List.length values
    -- the new attribute comes behind the old ones
    have hold {ref : ℕ} {attr : Attribute} (hattr : s'.dict.heap[ref]? = some attr)
        (hlt : ref < s.dict.heap.length) : ∃ old, s.dict.heap[ref]? = some old ∧
          old.values = attr.values ∧ old.type = attr.type := by
      have hvalue := congrArg (·[ref]?) values
      have htype := congrArg (·[ref]?) types
      simp only [List.getElem?_map, hattr, Option.map_some] at hvalue htype
      rw [List.getElem?_append_left (by simpa using hlt), List.getElem?_map] at hvalue htype
      obtain ⟨old, hget, hvalues⟩ := Option.map_eq_some_iff.1 hvalue.symm
      rw [hget] at htype
      exact ⟨old, hget, hvalues, (Option.some.inj htype).symm⟩
    refine ⟨fun ref attr hattr ↦ ?_, fun n hn ↦ (h.bounded n hn).trans (by omega), ?_⟩
    · by_cases hlt : ref < s.dict.heap.length
      · obtain ⟨old, hget, hvalues, -⟩ := hold hattr hlt
        rw [← hvalues]
        exact h.values ref old hget
      · have href : ref = s.dict.heap.length := by
          have := (List.getElem?_eq_some_iff.1 hattr).1
          omega
        have hvalue := congrArg (·[ref]?) values
        have hnone : ns.filter (·.ref = ref) = [] := by
          rw [List.filter_eq_nil_iff]
          intro n hn
          have := h.bounded n hn
          simp
          omega
        simp only [List.getElem?_map, hattr, Option.map_some] at hvalue
        rw [List.getElem?_append_right (by simp [href]), href, List.length_map, Nat.sub_self] at hvalue
        rw [addedTo, hnone]
        exact Option.some.inj hvalue
    · intro n hn attr hattr
      obtain ⟨old, hget, -, htype⟩ := hold hattr (h.bounded n hn)
      rw [← htype]
      exact h.encoded n hn old hget
  | names ref adef key text number value attr parsed encoded heap =>
    -- one attribute is given a value, and the others stay
    have hget (i : ℕ) : s'.dict.heap[i]? = if ref = i then
        s.dict.heap[i]?.map fun attr ↦ { attr with values := attr.values.add key value }
        else s.dict.heap[i]? := by
      rw [heap, Dictionary.addValue, Dictionary.getElem?_modifyAt]
    have hlen : s'.dict.heap.length = s.dict.heap.length := by
      rw [heap]
      exact List.length_modify ..
    refine ⟨fun i attr' hattr ↦ ?_, fun n hn ↦ ?_, fun n hn attr' hattr ↦ ?_⟩
    · rw [hget] at hattr
      split at hattr
      case isTrue href =>
        subst href
        rw [attr] at hattr
        cases hattr
        have hadded : addedTo (ns ++ [⟨ref, key, value⟩]) ref = addedTo ns ref ++ [(key, value)] := by
          simp [addedTo]
        rw [hadded, BiDict.ofPairs_append_singleton, ← h.values ref adef attr]
      case isFalse href =>
        have hadded : addedTo (ns ++ [⟨ref, key, value⟩]) i = addedTo ns i := by
          simp [addedTo, href]
        rw [hadded]
        exact h.values i attr' hattr
    · rw [hlen]
      rcases List.mem_append.1 hn with hn | hn
      · exact h.bounded n hn
      · rw [List.mem_singleton] at hn
        subst hn
        exact (List.getElem?_eq_some_iff.1 attr).1
    · -- the type stays
      obtain ⟨old, hold, htype⟩ : ∃ old, s.dict.heap[n.ref]? = some old ∧ attr'.type = old.type := by
        rw [hget] at hattr
        split at hattr
        · obtain ⟨old, hold, rfl⟩ := Option.map_eq_some_iff.1 hattr
          exact ⟨old, hold, rfl⟩
        · exact ⟨attr', hattr, rfl⟩
      rw [htype]
      rcases List.mem_append.1 hn with hn | hn
      · exact h.encoded n hn old hold
      · rw [List.mem_singleton] at hn
        subst hn
        rw [attr] at hold
        cases hold
        exact ⟨text, number, parsed, encoded⟩

theorem named_of_run_forM_readLine {lines : List DictLine} {s s' : DictReader} {ns : List Naming}
    (h : Named E s.dict ns) (hrun : (lines.forM (readLine E)).run s = .ok () s') :
    Named E s'.dict (ns ++ linesName E lines s) := by
  induction lines generalizing s ns with
  | nil =>
    cases hrun
    rwa [linesName, List.append_nil]
  | cons line lines ih =>
    obtain ⟨⟨⟩, s₁, hread, hrest⟩ := run_bind_eq_ok_iff.1 hrun
    have hatLine : Named E (s.atLine line).dict ns := h
    rw [linesName, after_of_ok hread, ← List.append_assoc]
    exact ih (hatLine.step (nameStep_readLine hread)) hrest

theorem named_of_run_deferred {lines : List (ParseState × List String)} {s s' : DictReader}
    {ns : List Naming} (h : Named E s.dict ns)
    (hrun : (lines.forM fun e ↦ parseValue E e.1 e.2 false).run s = .ok () s') :
    Named E s'.dict (ns ++ deferredName E lines s) := by
  induction lines generalizing s ns with
  | nil =>
    cases hrun
    rwa [deferredName, List.append_nil]
  | cons e lines ih =>
    obtain ⟨⟨⟩, s₁, hread, hrest⟩ := run_bind_eq_ok_iff.1 hrun
    rw [deferredName, after_of_ok hread, ← List.append_assoc]
    exact ih (h.step (nameStep_parseValue hread)) hrest

end DictReader

open DictReader in
/-- **The named values of loaded files** are those that their lines added. -/
theorem named_of_run_load {E : Env} {files : List (List DictLine)} {D D' : Dictionary}
    {ns : List Naming} (h : Named E D ns) (hrun : (Dictionary.load E files).run D = .ok () D') :
    Named E D' (ns ++ D.namings E files) := by
  induction files generalizing D ns with
  | nil =>
    cases hrun
    rwa [Dictionary.namings, List.append_nil]
  | cons file files ih =>
    obtain ⟨⟨⟩, D₁, hread, hrest⟩ := run_bind_eq_ok_iff.1 hrun
    obtain ⟨tlvs, s, htlvs, hs, hlines, rfl⟩ := Dictionary.exists_startReading_of_run hread
    obtain ⟨⟨⟩, s₁, hfirst, hdeferred⟩ := run_bind_eq_ok_iff.1 hlines
    rw [run_bind_of_ok (run_get s₁)] at hdeferred
    rw [Dictionary.namings, Dictionary.fileNames, hs, after_of_ok hread, ← List.append_assoc]
    refine ih ?_ hrest
    have hstart : Named E ({ dict := D, state := { tlvs } } : DictReader).dict ns := h
    dsimp only
    rw [after_of_ok hfirst, ← List.append_assoc]
    exact named_of_run_deferred (named_of_run_forM_readLine hstart hfirst) hdeferred

end Pyrad2
