import Pyrad2.Dictionary.Declarations
import Pyrad2.Foundations.LastWhere

/-!
# Keys of the attribute index

Whether the index tells attributes apart by where they are declared.

The index maps names to keys and keys to names. Its two directions remember different things of the
declarations: a name has the key of its last declaration, and a key has the name that was declared
last under it. So the index is faithful to locations as long as nobody else declares under the key of
a location, and no name that was declared last under a key has moved away since.
-/

namespace Pyrad2

/-! ### What the index remembers -/

/-- The last declaration of a name. -/
def lastNamed (ds : List Declaration) (name : String) : Option Declaration :=
  List.lastWhere (fun d ↦ d.name = name) ds

/-- The last declaration under a key. -/
def lastUnder (ds : List Declaration) (key : Key) : Option Declaration :=
  List.lastWhere (fun d ↦ d.location.key = key) ds

/-- The location of the current declaration of a name; attribute `n` is that of declaration `n`. -/
def Dictionary.declaredAt (D : Dictionary) (ds : List Declaration) (name : String) :
    Option WireLocation :=
  ((D.attributes.get? name).bind fun ref ↦ ds[ref]?).map Declaration.location

/-- What a dictionary remembers of the declarations. -/
structure Indexed (D : Dictionary) (ds : List Declaration) : Prop where
  length : D.heap.length = ds.length
  current : ∀ name, ((D.attributes.get? name).bind fun ref ↦ ds[ref]?) = lastNamed ds name
  bounded : ∀ name ref, D.attributes.get? name = some ref → ref < ds.length
  forward : ∀ name,
    D.attrindex.forward.get? name = (lastNamed ds name).map fun d ↦ d.location.key
  backward : ∀ key, D.attrindex.backward.get? key = (lastUnder ds key).map Declaration.name

theorem indexed_empty : Indexed .empty [] where
  length := rfl
  current := fun _ ↦ rfl
  bounded := fun _ _ h ↦ by cases h
  forward := fun _ ↦ rfl
  backward := fun _ ↦ rfl

/-- **A line** keeps the index up to date. -/
theorem Indexed.step {s s' : DictReader} {ds ds' : List Declaration}
    (hstep : DictReader.LineStep s s' ds') (h : Indexed s.dict ds) :
    Indexed s'.dict (ds ++ ds') := by
  cases hstep with
  | kept hkept =>
    have hlength : s'.dict.heap.length = s.dict.heap.length := by
      have := congrArg List.length hkept.skeleton
      rwa [Dictionary.skeleton, Dictionary.skeleton, List.length_map, List.length_map] at this
    rw [List.append_nil]
    exact {
      length := hlength.trans h.length
      current := by rw [hkept.attributes]; exact h.current
      bounded := by rw [hkept.attributes]; exact h.bounded
      forward := by rw [hkept.attrindex]; exact h.forward
      backward := by rw [hkept.attrindex]; exact h.backward }
  | declares line loc hdeclares =>
    -- the declaration is now the last of its name, and the last under its key
    have hlength : s'.dict.heap.length = s.dict.heap.length + 1 := hdeclares.attached.length_heap
    have hnamed (name : String) : lastNamed (ds ++ [⟨line.name, loc⟩]) name =
        if name = line.name then some ⟨line.name, loc⟩ else lastNamed ds name := by
      rw [lastNamed, List.lastWhere_append_singleton]
      by_cases hname : name = line.name
      · simp [hname]
      · rw [if_neg hname, if_neg (by simpa using Ne.symm hname), lastNamed]
    have hunder (key : Key) : lastUnder (ds ++ [⟨line.name, loc⟩]) key =
        if key = loc.key then some ⟨line.name, loc⟩ else lastUnder ds key := by
      rw [lastUnder, List.lastWhere_append_singleton]
      by_cases hkey : key = loc.key
      · simp [hkey]
      · rw [if_neg hkey, if_neg (by simpa using Ne.symm hkey), lastUnder]
    exact {
      length := by
        rw [hlength, h.length, List.length_append, List.length_singleton]
      current := fun name ↦ by
        rw [hdeclares.attributes, OrderedDict.get?_set, hnamed]
        split
        · rw [h.length]
          simp
        · rw [← h.current]
          rcases hget : s.dict.attributes.get? name with - | ref
          · rfl
          · exact List.getElem?_append_left (h.bounded name ref hget)
      bounded := fun name ref href ↦ by
        rw [hdeclares.attributes, OrderedDict.get?_set] at href
        rw [List.length_append, List.length_singleton]
        split at href
        · cases href
          have := h.length
          omega
        · have := h.bounded name ref href
          omega
      forward := fun name ↦ by
        rw [hdeclares.attrindex, hnamed]
        show (s.dict.attrindex.forward.set _ _).get? name = _
        rw [OrderedDict.get?_set]
        split
        · rfl
        · exact h.forward name
      backward := fun key ↦ by
        rw [hdeclares.attrindex, hunder]
        show (s.dict.attrindex.backward.set _ _).get? key = _
        rw [OrderedDict.get?_set]
        split
        · rfl
        · exact h.backward key }

/-- **The index** of a dictionary that was loaded from files. -/
theorem indexed_of_run_load {E : Env} {files : List (List DictLine)} {D : Dictionary}
    (h : (Dictionary.load E files).run .empty = .ok () D) :
    Indexed D (Dictionary.empty.declarations E files) := by
  have hloaded := Dictionary.of_run_load (I := Indexed) (P := fun s ds ↦ Indexed s.dict ds)
    (C := fun _ ↦ True) (fun _ _ _ hD _ ↦ hD) (fun _ _ _ hs ↦ hs)
    (fun _ _ _ _ hstep _ hs ↦ hs.step hstep) (fun _ _ hs ↦ hs) indexed_empty
    (fun _ _ ↦ trivial) h
  rwa [List.nil_append] at hloaded

/-! ### Faithful indices -/

/-- The index tells the names apart that are declared at different locations, and gives the key of
each location in `places` a name that is declared there. -/
structure Faithful (D : Dictionary) (ds : List Declaration) (places : Set WireLocation) : Prop where
  apart : ∀ a b locA locB, D.declaredAt ds a = some locA → D.declaredAt ds b = some locB →
    locA ≠ locB → D.attrindex.forward.get? a ≠ D.attrindex.forward.get? b
  named : ∀ loc ∈ places, ∀ name, D.attrindex.backward.get? loc.key = some name →
    D.declaredAt ds name = some loc

/-- The locations where a name is declared now. -/
def Dictionary.places (D : Dictionary) (ds : List Declaration) : Set WireLocation :=
  { loc | ∃ name, D.declaredAt ds name = some loc }

/-- What is declared last under the key of a name's last declaration is declared at the same
location, and its name is not declared again later. -/
def KeptApart (ds : List Declaration) : Prop :=
  ∀ name d e, lastNamed ds name = some d → lastUnder ds d.location.key = some e →
    e.location = d.location ∧ lastNamed ds e.name = some e

/-- Everything is declared at top level, for no vendor, and a name that is declared last under a code
is not declared again later. -/
structure TopLevelOnly (ds : List Declaration) : Prop where
  topLevel : ∀ d ∈ ds, d.location.IsTopLevel
  settled : ∀ key e, lastUnder ds key = some e → lastNamed ds e.name = some e

section

variable {D : Dictionary} {ds : List Declaration}

theorem Indexed.declaredAt_eq_some_iff (h : Indexed D ds) {name : String} {loc : WireLocation} :
    D.declaredAt ds name = some loc ↔ ∃ d, lastNamed ds name = some d ∧ d.location = loc := by
  rw [Dictionary.declaredAt, h.current, Option.map_eq_some_iff]

theorem Indexed.backward_eq_some_iff (h : Indexed D ds) {key : Key} {name : String} :
    D.attrindex.backward.get? key = some name ↔ ∃ e, lastUnder ds key = some e ∧ e.name = name := by
  rw [h.backward, Option.map_eq_some_iff]

theorem mem_of_lastNamed {name : String} {d : Declaration} (h : lastNamed ds name = some d) :
    d ∈ ds ∧ d.name = name := by
  obtain ⟨hmem, hname⟩ := List.mem_of_lastWhere h
  exact ⟨hmem, of_decide_eq_true hname⟩

theorem mem_of_lastUnder {key : Key} {e : Declaration} (h : lastUnder ds key = some e) :
    e ∈ ds ∧ e.location.key = key := by
  obtain ⟨hmem, hkey⟩ := List.mem_of_lastWhere h
  exact ⟨hmem, of_decide_eq_true hkey⟩

theorem exists_lastUnder {d : Declaration} (hd : d ∈ ds) :
    ∃ e, lastUnder ds d.location.key = some e :=
  List.exists_lastWhere hd (decide_eq_true rfl)

/-- A declaration that is last under a key and one that is last of its name are the same. -/
theorem lastUnder_eq_lastNamed {key : Key} {e f : Declaration} (he : lastUnder ds key = some e)
    (hf : lastNamed ds e.name = some f) (hkey : f.location.key = key) : e = f :=
  List.lastWhere_unique he hf (decide_eq_true hkey) (decide_eq_true rfl)

/-- Names with one key are declared at one location, if that of each has a name declared there. -/
theorem Indexed.apart (h : Indexed D ds)
    (hnamed : ∀ loc ∈ D.places ds, ∀ name, D.attrindex.backward.get? loc.key = some name →
      D.declaredAt ds name = some loc) {a b : String} {locA locB : WireLocation}
    (ha : D.declaredAt ds a = some locA) (hb : D.declaredAt ds b = some locB) (hne : locA ≠ locB) :
    D.attrindex.forward.get? a ≠ D.attrindex.forward.get? b := by
  intro heq
  obtain ⟨dA, hdA, rfl⟩ := h.declaredAt_eq_some_iff.1 ha
  obtain ⟨dB, hdB, rfl⟩ := h.declaredAt_eq_some_iff.1 hb
  rw [h.forward, h.forward, hdA, hdB] at heq
  have hkey : dA.location.key = dB.location.key := Option.some.inj heq
  -- the name found under the common key cannot be declared at both locations
  obtain ⟨e, he⟩ := exists_lastUnder (mem_of_lastNamed hdA).1
  have hname := h.backward_eq_some_iff.2 ⟨e, he, rfl⟩
  have hlocA := hnamed dA.location ⟨a, ha⟩ e.name hname
  have hlocB := hnamed dB.location ⟨b, hb⟩ e.name (hkey ▸ hname)
  rw [hlocA] at hlocB
  exact hne (Option.some.inj hlocB)

theorem Indexed.faithful_places_iff (h : Indexed D ds) :
    Faithful D ds (D.places ds) ↔ KeptApart ds := by
  constructor
  · intro hfaithful name d e hd he
    have hdeclared := h.declaredAt_eq_some_iff.2 ⟨d, hd, rfl⟩
    have hname := h.backward_eq_some_iff.2 ⟨e, he, rfl⟩
    have hnamed := hfaithful.named d.location ⟨name, hdeclared⟩ e.name hname
    obtain ⟨f, hf, hloc⟩ := h.declaredAt_eq_some_iff.1 hnamed
    obtain rfl := lastUnder_eq_lastNamed he hf (by rw [hloc])
    exact ⟨hloc, hf⟩
  · intro hapart
    have hnamed : ∀ loc ∈ D.places ds, ∀ name, D.attrindex.backward.get? loc.key = some name →
        D.declaredAt ds name = some loc := by
      rintro _ ⟨a, ha⟩ name hname
      obtain ⟨d, hd, rfl⟩ := h.declaredAt_eq_some_iff.1 ha
      obtain ⟨e, he, rfl⟩ := h.backward_eq_some_iff.1 hname
      obtain ⟨hsame, hlast⟩ := hapart a d e hd he
      exact h.declaredAt_eq_some_iff.2 ⟨e, hlast, hsame⟩
    exact {
      apart := fun _ _ _ _ ha hb hne ↦ h.apart hnamed ha hb hne
      named := hnamed }

theorem Indexed.faithful_univ_iff (h : Indexed D ds) :
    Faithful D ds Set.univ ↔ TopLevelOnly ds := by
  constructor
  · intro hfaithful
    constructor
    · intro d hd
      by_contra htop
      -- another location has the same key, and would be found under the same name
      obtain ⟨loc, hne, hkey⟩ := WireLocation.exists_ne_key_eq htop
      obtain ⟨e, he⟩ := exists_lastUnder hd
      have hname := h.backward_eq_some_iff.2 ⟨e, he, rfl⟩
      have hlocD := hfaithful.named d.location trivial e.name hname
      have hloc := hfaithful.named loc trivial e.name (hkey ▸ hname)
      rw [hlocD] at hloc
      exact hne (Option.some.inj hloc).symm
    · intro key e he
      obtain ⟨-, rfl⟩ := mem_of_lastUnder he
      have hname := h.backward_eq_some_iff.2 ⟨e, he, rfl⟩
      obtain ⟨f, hf, hloc⟩ :=
        h.declaredAt_eq_some_iff.1 (hfaithful.named e.location trivial e.name hname)
      obtain rfl := lastUnder_eq_lastNamed he hf (by rw [hloc])
      exact hf
  · intro htop
    have hnamed : ∀ loc, ∀ name, D.attrindex.backward.get? loc.key = some name →
        D.declaredAt ds name = some loc := by
      intro loc name hname
      obtain ⟨e, he, rfl⟩ := h.backward_eq_some_iff.1 hname
      obtain ⟨hmem, hkey⟩ := mem_of_lastUnder he
      obtain ⟨code, hcode⟩ := htop.topLevel e hmem
      have hsame : e.location = loc := by
        rw [hcode] at hkey ⊢
        exact (WireLocation.eq_of_key_eq_int hkey.symm).symm
      exact h.declaredAt_eq_some_iff.2 ⟨e, htop.settled _ e he, hsame⟩
    exact {
      apart := fun _ _ _ _ ha hb hne ↦ h.apart (fun loc _ ↦ hnamed loc) ha hb hne
      named := fun loc _ ↦ hnamed loc }

end

/-- **Faithfulness of the index.** Among the locations where something is declared, and for every
location at all. -/
theorem faithful_iff {E : Env} {files : List (List DictLine)} {D : Dictionary}
    (h : (Dictionary.load E files).run .empty = .ok () D) :
    let ds := Dictionary.empty.declarations E files
    (Faithful D ds (D.places ds) ↔ KeptApart ds) ∧ (Faithful D ds Set.univ ↔ TopLevelOnly ds) :=
  ⟨(indexed_of_run_load h).faithful_places_iff, (indexed_of_run_load h).faithful_univ_iff⟩

/-- The lines of a text, as a file. -/
def DictLine.ofTexts (texts : List String) : List DictLine :=
  texts.zipIdx.map fun e ↦ { file := "dictionary", line := e.2 + 1, text := e.1 }

/-- Two attributes at top level are found from everywhere; with a vendor's attribute, a sub-attribute
and a name that is declared again at its place, those that are declared are found. -/
theorem faithful_topLevel_mixed :
    let E := Env.ofByte (fun _ ↦ 0) fun _ _ ↦ 0
    let top := [DictLine.ofTexts ["ATTRIBUTE User-Name 1 string", "ATTRIBUTE NAS-Port 5 integer"]]
    let mixed := [DictLine.ofTexts ["VENDOR Acme 5000", "ATTRIBUTE User-Name 1 string",
      "ATTRIBUTE Extended-Attribute-1 241 extended", "ATTRIBUTE Frag-Status 241.1 integer",
      "BEGIN-VENDOR Acme", "ATTRIBUTE Acme-Name 1 string", "END-VENDOR Acme"],
      DictLine.ofTexts ["ATTRIBUTE User-Name 1 octets"]]
    (∃ D, (Dictionary.load E top).run .empty = .ok () D ∧
      Faithful D (Dictionary.empty.declarations E top) Set.univ) ∧
    ∃ D, (Dictionary.load E mixed).run .empty = .ok () D ∧
      Faithful D (Dictionary.empty.declarations E mixed)
        (D.places (Dictionary.empty.declarations E mixed)) := by
  intro E top mixed
  have hds : Dictionary.empty.declarations E top =
      [⟨"User-Name", .plain none [] 1⟩, ⟨"NAS-Port", .plain none [] 5⟩] := by decide +kernel
  have hload := EStateM.run_eq_ok_of_returns
    (by decide +kernel : EStateM.returns (Dictionary.load E top) .empty = true)
  have hload' := EStateM.run_eq_ok_of_returns
    (by decide +kernel : EStateM.returns (Dictionary.load E mixed) .empty = true)
  refine ⟨⟨_, hload, (faithful_iff hload).2.2 ?_⟩, _, hload', (faithful_iff hload').1.2 ?_⟩
  · rw [hds]
    constructor
    · intro d hd
      simp only [List.mem_cons, List.not_mem_nil, or_false] at hd
      rcases hd with rfl | rfl
      · exact ⟨1, rfl⟩
      · exact ⟨5, rfl⟩
    · intro key e he
      have hmem := (mem_of_lastUnder he).1
      simp only [List.mem_cons, List.not_mem_nil, or_false] at hmem
      rcases hmem with rfl | rfl
      · decide
      · decide
  · have hkept : ∀ d ∈ Dictionary.empty.declarations E mixed,
        ∀ e ∈ lastUnder (Dictionary.empty.declarations E mixed) d.location.key,
          e.location = d.location ∧
            lastNamed (Dictionary.empty.declarations E mixed) e.name = some e := by
      decide +kernel
    exact fun name d e hd he ↦ hkept d (mem_of_lastNamed hd).1 e he

/-- Attribute `1` of vendor `241` and sub-attribute `1` of code `241` share a key. -/
theorem not_faithful_vendor241 :
    let E := Env.ofByte (fun _ ↦ 0) fun _ _ ↦ 0
    let files := [DictLine.ofTexts ["VENDOR Acme 241",
      "ATTRIBUTE Extended-Attribute-1 241 extended", "ATTRIBUTE Frag-Status 241.1 integer",
      "BEGIN-VENDOR Acme", "ATTRIBUTE Acme-Name 1 string", "END-VENDOR Acme"]]
    ∃ D, (Dictionary.load E files).run .empty = .ok () D ∧
      ∀ places, ¬ Faithful D (Dictionary.empty.declarations E files) places := by
  intro E files
  refine ⟨_, EStateM.run_eq_ok_of_returns (by decide +kernel), fun places h ↦ ?_⟩
  refine h.apart "Frag-Status" "Acme-Name" (.plain none [241] 1) (.plain (some 241) [] 1) ?_ ?_ ?_ ?_
  · decide +kernel
  · decide +kernel
  · decide
  · decide +kernel

end Pyrad2
