import Pyrad2.Dictionary.Keys

/-!
# Parents of sub-attributes

Whether sub-attributes hang under the containers they are declared under.

The parser keeps one table of containers, by codes alone. A dotted code means a container of the same
vendor, and the table may have another vendor's container under the same codes, or one of a block
for extended vendor attributes, which the table has under the codes of its line. These are the only
ways to get a wrong parent: as long as neither happens, everything in the table hangs under the codes
that it is listed under.
-/

namespace Pyrad2

open EStateM

/-- Is it a slot of an extended wrapper? -/
def WireLocation.IsEvs : WireLocation → Prop
  | plain .. => False
  | evs .. => True

/-! ### Hanging at a chain of codes -/

namespace Dictionary

/-- The attribute `ref` and its parents have the codes of a chain, from the outermost parent down,
and all are declared for one vendor. Attribute `n` is that of declaration `n`. -/
inductive Hangs (D : Dictionary) (ds : List Declaration) (vendor : Option Int) :
    ℕ → List Int → Prop
  | top {ref : ℕ} {attr : Attribute} {d : Declaration} (hattr : D.heap[ref]? = some attr)
      (hd : ds[ref]? = some d) (hvendor : d.location.vendor = vendor) (hparent : attr.parent = none) :
      Hangs D ds vendor ref [attr.code]
  | sub {ref parent : ℕ} {attr : Attribute} {d : Declaration} {chain : List Int}
      (hattr : D.heap[ref]? = some attr) (hd : ds[ref]? = some d)
      (hvendor : d.location.vendor = vendor) (hparent : attr.parent = some parent)
      (h : Hangs D ds vendor parent chain) : Hangs D ds vendor ref (chain ++ [attr.code])

variable {D D' : Dictionary} {ds ds' : List Declaration} {vendor : Option Int} {ref : ℕ}
  {chain : List Int}

theorem Hangs.vendor_eq (h : Hangs D ds vendor ref chain) :
    ∃ d, ds[ref]? = some d ∧ d.location.vendor = vendor := by
  cases h with
  | top _ hd hvendor _ => exact ⟨_, hd, hvendor⟩
  | sub _ hd hvendor _ _ => exact ⟨_, hd, hvendor⟩

theorem Hangs.exists_attr (h : Hangs D ds vendor ref chain) :
    ∃ attr, D.heap[ref]? = some attr := by
  cases h with
  | top hattr _ _ _ => exact ⟨_, hattr⟩
  | sub hattr _ _ _ _ => exact ⟨_, hattr⟩

/-- An attribute hangs at one chain only. -/
theorem Hangs.unique (h : Hangs D ds vendor ref chain) {vendor' : Option Int} {chain' : List Int}
    (h' : Hangs D ds vendor' ref chain') : vendor = vendor' ∧ chain = chain' := by
  induction h generalizing chain' with
  | top hattr hd hvendor hparent =>
    cases h' with
    | top hattr' hd' hvendor' _ =>
      rw [hattr] at hattr'
      rw [hd] at hd'
      cases hattr'
      cases hd'
      exact ⟨hvendor.symm.trans hvendor', rfl⟩
    | sub hattr' _ _ hparent' _ =>
      rw [hattr] at hattr'
      cases hattr'
      rw [hparent] at hparent'
      cases hparent'
  | sub hattr hd hvendor hparent _ ih =>
    cases h' with
    | top hattr' _ _ hparent' =>
      rw [hattr] at hattr'
      cases hattr'
      rw [hparent] at hparent'
      cases hparent'
    | sub hattr' hd' hvendor' hparent' h' =>
      rw [hattr] at hattr'
      rw [hd] at hd'
      cases hattr'
      cases hd'
      rw [hparent] at hparent'
      cases hparent'
      obtain ⟨-, rfl⟩ := ih h'
      exact ⟨hvendor.symm.trans hvendor', rfl⟩

/-- Walking up the parents of an attribute gives the chain it hangs at. -/
theorem Hangs.codesUp (h : Hangs D ds vendor ref chain) {attr : Attribute}
    (hattr : D.heap[ref]? = some attr) {fuel : ℕ} {codes : List Int}
    (hcodes : D.codesUp fuel attr = .ok codes) : codes.reverse = chain := by
  induction h generalizing attr fuel codes with
  | top hattr' _ _ hparent =>
    rw [hattr'] at hattr
    cases hattr
    cases fuel with
    | zero => cases hcodes
    | succ fuel =>
      rw [Dictionary.codesUp, parentOf, hparent] at hcodes
      cases hcodes
      rfl
  | @sub ref p attr' d chain hattr' _ _ hparent h ih =>
    rw [hattr'] at hattr
    cases hattr
    cases fuel with
    | zero => cases hcodes
    | succ fuel =>
      obtain ⟨parent, hheap⟩ := h.exists_attr
      rw [Dictionary.codesUp, parentOf, hparent, Option.bind_some, hheap] at hcodes
      obtain ⟨up, hup, hcodes⟩ := Except.bind_eq_ok_iff.1 hcodes
      cases hcodes
      rw [List.reverse_cons, ih hheap hup]

/-- More is declared, and what was there keeps its code and its parent. -/
structure Grows (p p' : Dictionary × List Declaration) : Prop where
  declarations : p.2 <+: p'.2
  kept : ∀ (ref : ℕ) (attr : Attribute), p.1.heap[ref]? = some attr →
    ∃ attr' : Attribute, p'.1.heap[ref]? = some attr' ∧ attr'.code = attr.code ∧ attr'.parent = attr.parent

instance : IsPreorder (Dictionary × List Declaration) Grows where
  refl := fun _ ↦ ⟨List.prefix_rfl, fun _ attr h ↦ ⟨attr, h, rfl, rfl⟩⟩
  trans := fun _ _ _ h h' ↦ ⟨h.declarations.trans h'.declarations, fun ref attr hattr ↦ by
    obtain ⟨attr₁, hattr₁, hcode₁, hparent₁⟩ := h.kept ref attr hattr
    obtain ⟨attr₂, hattr₂, hcode₂, hparent₂⟩ := h'.kept ref attr₁ hattr₁
    exact ⟨attr₂, hattr₂, hcode₂.trans hcode₁, hparent₂.trans hparent₁⟩⟩

theorem Grows.getElem? (h : Grows (D, ds) (D', ds')) {n : ℕ} {d : Declaration}
    (hd : ds[n]? = some d) : ds'[n]? = some d := by
  obtain ⟨hn, rfl⟩ := List.getElem?_eq_some_iff.1 hd
  exact List.prefix_iff_getElem?.1 h.declarations n hn

theorem Hangs.mono (h : Hangs D ds vendor ref chain) (hgrows : Grows (D, ds) (D', ds')) :
    Hangs D' ds' vendor ref chain := by
  induction h with
  | top hattr hd hvendor hparent =>
    obtain ⟨attr', hattr', hcode, hparent'⟩ := hgrows.kept _ _ hattr
    rw [← hcode]
    exact .top hattr' (hgrows.getElem? hd) hvendor (hparent'.trans hparent)
  | sub hattr hd hvendor hparent _ ih =>
    obtain ⟨attr', hattr', hcode, hparent'⟩ := hgrows.kept _ _ hattr
    rw [← hcode]
    exact .sub hattr' (hgrows.getElem? hd) hvendor (hparent'.trans hparent) ih

/-! ### Links inside the dictionary -/

/-- Attributes are numbered like declarations, and parents are attributes. -/
structure Linked (D : Dictionary) (ds : List Declaration) : Prop where
  indexed : Indexed D ds
  parents : ∀ (ref : ℕ) (attr : Attribute) (parent : ℕ), D.heap[ref]? = some attr →
    attr.parent = some parent → parent < ds.length

theorem linked_empty : Linked .empty [] := ⟨indexed_empty, fun _ _ _ h ↦ by cases h⟩

/-- What hangs at a chain later and was there before did so before. -/
theorem Hangs.of_grows (hgrows : Grows (D, ds) (D', ds')) (hlinked : Linked D ds)
    (h : Hangs D' ds' vendor ref chain) (href : ref < ds.length) : Hangs D ds vendor ref chain := by
  have hthere {n : ℕ} {attr' : Attribute} {d : Declaration} (hn : n < ds.length)
      (hattr' : D'.heap[n]? = some attr') (hd : ds'[n]? = some d) :
      ∃ attr, D.heap[n]? = some attr ∧ attr'.code = attr.code ∧ attr'.parent = attr.parent ∧
        ds[n]? = some d := by
    have hheap : n < D.heap.length := hlinked.indexed.length ▸ hn
    obtain ⟨attr₁, hattr₁, hcode, hparent⟩ := hgrows.kept n _ (List.getElem?_eq_getElem hheap)
    rw [hattr'] at hattr₁
    cases hattr₁
    have hds := hgrows.getElem? (List.getElem?_eq_getElem hn)
    rw [hd] at hds
    cases hds
    exact ⟨_, List.getElem?_eq_getElem hheap, hcode, hparent, List.getElem?_eq_getElem hn⟩
  induction h with
  | top hattr hd hvendor hparent =>
    obtain ⟨attr, hattr₀, hcode, hparent₀, hd₀⟩ := hthere href hattr hd
    rw [hcode]
    exact .top hattr₀ hd₀ hvendor (hparent₀ ▸ hparent)
  | sub hattr hd hvendor hparent _ ih =>
    obtain ⟨attr, hattr₀, hcode, hparent₀, hd₀⟩ := hthere href hattr hd
    have hlink := hparent₀ ▸ hparent
    rw [hcode]
    exact .sub hattr₀ hd₀ hvendor hlink (ih (hlinked.parents _ _ _ hattr₀ hlink))

/-- The table that a file starts with has attributes under the codes of their parents. -/
theorem of_existingContainerChains {tlvs : OrderedDict (List Int) ℕ}
    (h : D.existingContainerChains = .ok tlvs) {chain : List Int} {ref : ℕ}
    (href : tlvs.get? chain = some ref) :
    ∃ name attr fuel codes, D.attributes.get? name = some ref ∧ D.heap[ref]? = some attr ∧
      D.codesUp fuel attr = .ok codes ∧ chain = codes.reverse := by
  refine Except.invariant_of_foldlM (I := fun tlvs : OrderedDict (List Int) ℕ ↦
    ∀ chain ref, tlvs.get? chain = some ref → ∃ name attr fuel codes,
      D.attributes.get? name = some ref ∧ D.heap[ref]? = some attr ∧
      D.codesUp fuel attr = .ok codes ∧ chain = codes.reverse) h (fun _ _ h ↦ by cases h) ?_ _ _ href
  rintro ⟨name, ref⟩ he tlvs tlvs' htlvs hstep
  dsimp only at hstep
  split at hstep
  · next attr hattr =>
    split at hstep
    · obtain ⟨codes, hcodes, hstep⟩ := Except.bind_eq_ok_iff.1 hstep
      cases hstep
      intro chain' ref' href'
      rw [OrderedDict.get?_set] at href'
      split at href'
      · next hchain =>
        cases href'
        exact ⟨name, attr, _, codes, OrderedDict.get?_eq_some_iff.2 he, hattr, hcodes, hchain⟩
      · exact htlvs chain' ref' href'
    · cases hstep
      exact htlvs
  · cases hstep
    exact htlvs

end Dictionary

namespace DictReader

open Dictionary

variable {s s' : DictReader} {ds ds' : List Declaration} {line : AttributeLine} {loc : WireLocation}

/-- What an attribute that a line declares has for a parent. -/
theorem Attached.exists_new (h : Attached s s' line)
    (htable : ∀ parent, s.state.tlvs.get? line.parentChain = some parent →
      parent < s.dict.heap.length) :
    ∃ attr, s'.dict.heap[s.dict.heap.length]? = some attr ∧ attr.code = line.code ∧
      (s.state.evsParent = none → line.parentChain = [] → attr.parent = none) ∧
      (s.state.evsParent = none → line.parentChain ≠ [] → ∃ parent,
        s.state.tlvs.get? line.parentChain = some parent ∧ attr.parent = some parent) ∧
      ∀ parent, attr.parent = some parent → (∃ marker, s'.dict.attributes.get? marker = some parent) ∨
        s.state.tlvs.get? line.parentChain = some parent := by
  cases h with
  | evs marker parent block ref heap =>
    refine ⟨{ s.newAttribute line with parent := some parent }, ?_, rfl, ?_, ?_, ?_⟩
    · rw [heap, setParent, getElem?_modifyAt, if_pos rfl]
      simp
    · rw [block]
      exact fun h ↦ by cases h
    · rw [block]
      exact fun h ↦ by cases h
    · rintro _ ⟨⟩
      exact .inl ⟨marker, ref⟩
  | top block chain heap =>
    refine ⟨s.newAttribute line, ?_, rfl, fun _ _ ↦ rfl, fun _ h ↦ absurd chain h, fun _ h ↦ ?_⟩
    swap
    · cases h
    rw [heap]
    simp
  | sub parent block chain container heap =>
    refine ⟨{ s.newAttribute line with parent := some parent }, ?_, rfl, ?_, ?_, ?_⟩
    · rw [heap, setParent, getElem?_modifyAt, if_pos rfl, addSubAttribute, getElem?_modifyAt,
        if_neg (htable parent container).ne]
      simp
    · exact fun _ h ↦ absurd h chain
    · exact fun _ _ ↦ ⟨parent, container, rfl⟩
    · rintro _ ⟨⟩
      exact .inr container

/-- Where nothing is declared, attributes stay as they are but for their named values. -/
theorem Kept.exists_attr (h : Kept s s') {ref : ℕ} {attr : Attribute}
    (hattr : s.dict.heap[ref]? = some attr) :
    ∃ attr', s'.dict.heap[ref]? = some attr' ∧ attr'.bare = attr.bare := by
  have hbare : s'.dict.skeleton[ref]? = s.dict.skeleton[ref]? := by rw [h.skeleton]
  rw [Dictionary.skeleton, Dictionary.skeleton, List.getElem?_map, List.getElem?_map, hattr] at hbare
  exact Option.map_eq_some_iff.1 hbare

/-- Attributes that were there keep their codes and their parents. -/
theorem LineStep.grows (h : LineStep s s' ds') (ds : List Declaration) :
    Grows (s.dict, ds) (s'.dict, ds ++ ds') where
  declarations := List.prefix_append ds ds'
  kept := by
    intro ref attr hattr
    have hsame (attr : Attribute) : ∃ attr', some attr = some attr' ∧ attr'.code = attr.code ∧
        attr'.parent = attr.parent := ⟨attr, rfl, rfl, rfl⟩
    cases h with
    | kept hkept =>
      obtain ⟨attr', hattr', hbare⟩ := hkept.exists_attr hattr
      have hcode := congrArg Attribute.code hbare
      have hparent := congrArg Attribute.parent hbare
      exact ⟨attr', hattr', hcode, hparent⟩
    | declares line loc hdeclares =>
      have hlt : ref < s.dict.heap.length := (List.getElem?_eq_some_iff.1 hattr).1
      have hold : (s.dict.heap ++ [s.newAttribute line])[ref]? = some attr := by
        rw [List.getElem?_append_left hlt, hattr]
      cases hdeclares.attached with
      | evs marker parent _ _ heap =>
        rw [heap, setParent, getElem?_modifyAt, if_neg hlt.ne', hold]
        exact hsame attr
      | top _ _ heap =>
        rw [heap, hold]
        exact hsame attr
      | sub parent _ _ _ heap =>
        rw [heap, setParent, getElem?_modifyAt, if_neg hlt.ne', addSubAttribute, getElem?_modifyAt,
          hold]
        split
        · exact ⟨_, rfl, rfl, rfl⟩
        · exact hsame attr

/-- Outside of blocks for extended vendor attributes a location is made of the codes of the line. -/
theorem exists_plain_of_wireLocation (hblock : s.state.evsParent = none)
    (h : s.wireLocation line = .ok loc) :
    ∃ vendor, loc = .plain vendor line.parentChain line.code := by
  rw [wireLocation, hblock] at h
  dsimp only at h
  split at h
  · obtain ⟨id, -, h⟩ := Except.bind_eq_ok_iff.1 h
    cases h
    exact ⟨some id, rfl⟩
  · cases h
    exact ⟨none, rfl⟩

theorem of_wireLocation_eq_plain {vendor : Option Int} {chain : List Int} {code : Int}
    (h : s.wireLocation line = .ok (.plain vendor chain code)) :
    s.state.evsParent = none ∧ line.parentChain = chain ∧ line.code = code := by
  rcases hblock : s.state.evsParent with - | marker
  · obtain ⟨vendor', hloc⟩ := exists_plain_of_wireLocation hblock h
    cases hloc
    exact ⟨rfl, rfl, rfl⟩
  · rw [wireLocation, hblock] at h
    obtain ⟨attr, -, h⟩ := Except.bind_eq_ok_iff.1 h
    split at h
    · cases h
    · obtain ⟨id, -, h⟩ := Except.bind_eq_ok_iff.1 h
      cases h

/-- Links inside the dictionary, and from the table into it. -/
structure Tabled (s : DictReader) (ds : List Declaration) : Prop where
  linked : Linked s.dict ds
  table : ∀ chain ref, s.state.tlvs.get? chain = some ref → ref < ds.length

theorem tabled_of_existingContainerChains {D : Dictionary} {tlvs : OrderedDict (List Int) ℕ}
    (h : Linked D ds) (htlvs : D.existingContainerChains = .ok tlvs) :
    Tabled { dict := D, state := { tlvs } } ds where
  linked := h
  table := fun chain ref href ↦ by
    obtain ⟨name, -, -, -, hname, -⟩ := of_existingContainerChains htlvs href
    exact h.indexed.bounded name ref hname

theorem Tabled.step (hstep : LineStep s s' ds') (h : Tabled s ds) : Tabled s' (ds ++ ds') := by
  have hindexed := h.linked.indexed.step hstep
  have hgrows := hstep.grows ds
  cases hstep with
  | kept hkept =>
    rw [List.append_nil] at hindexed ⊢
    exact {
      linked := ⟨hindexed, fun ref attr' parent hattr' hparent ↦ by
        have hlt : ref < s.dict.heap.length := by
          rw [h.linked.indexed.length, ← hindexed.length]
          exact (List.getElem?_eq_some_iff.1 hattr').1
        obtain ⟨attr₁, hattr₁, -, hparent₁⟩ := hgrows.kept ref _ (List.getElem?_eq_getElem hlt)
        rw [hattr'] at hattr₁
        cases hattr₁
        exact h.linked.parents ref _ parent (List.getElem?_eq_getElem hlt) (hparent₁ ▸ hparent)⟩
      table := by
        rw [hkept.tlvs]
        exact h.table }
  | declares line loc hdeclares =>
    have hlength : (ds ++ [(⟨line.name, loc⟩ : Declaration)]).length = ds.length + 1 := by simp
    obtain ⟨attr, hattr, -, -, -, hparents⟩ := hdeclares.attached.exists_new
      (h.linked.indexed.length ▸ h.table line.parentChain)
    exact {
      linked := ⟨hindexed, fun ref attr' parent hattr' hparent ↦ by
        rcases Nat.lt_trichotomy ref s.dict.heap.length with hlt | rfl | hgt
        · obtain ⟨attr₁, hattr₁, -, hparent₁⟩ := hgrows.kept ref _ (List.getElem?_eq_getElem hlt)
          rw [hattr'] at hattr₁
          cases hattr₁
          have := h.linked.parents ref _ parent (List.getElem?_eq_getElem hlt) (hparent₁ ▸ hparent)
          omega
        · rw [hattr'] at hattr
          cases hattr
          rcases hparents parent hparent with ⟨marker, hmarker⟩ | htable
          · exact hindexed.bounded marker parent hmarker
          · have := h.table line.parentChain parent htable
            omega
        · have := (List.getElem?_eq_some_iff.1 hattr').1
          rw [hdeclares.attached.length_heap] at this
          omega⟩
      table := fun chain ref href ↦ by
        rw [hdeclares.tlvs] at href
        have hold (href : s.state.tlvs.get? chain = some ref) :
            ref < (ds ++ [(⟨line.name, loc⟩ : Declaration)]).length := by
          have := h.table chain ref href
          omega
        split at href
        · rw [OrderedDict.get?_set] at href
          split at href
          · cases href
            rw [h.linked.indexed.length]
            omega
          · exact hold href
        · exact hold href }

end DictReader

/-! ### The right parent -/

/-- The attribute `ref` is declared under a dotted code: its parent hangs at the chain of the codes
before the last, and sends the last to its name. -/
structure Dictionary.SubAttributeAt (D : Dictionary) (ds : List Declaration) (ref : ℕ)
    (name : String) (vendor : Option Int) (chain : List Int) (code : Int) : Prop where
  parent : ∃ attr p parent, D.heap[ref]? = some attr ∧ attr.code = code ∧ attr.parent = some p ∧
    D.heap[p]? = some parent ∧ D.Hangs ds vendor p chain ∧
    parent.subAttributes.get? code = some name

/-- **Sub-attributes hang under the right parent** that are declared outside of blocks for extended
vendor attributes. -/
def Dictionary.HangRight (D : Dictionary) (ds : List Declaration) : Prop :=
  ∀ d ∈ ds, ∀ vendor chain code, d.location = .plain vendor chain code → chain ≠ [] →
    ∃ ref, D.attributes.get? d.name = some ref ∧ D.SubAttributeAt ds ref d.name vendor chain code

/-- When an attribute is declared under a dotted code, the container that the table has under the
codes before the last is one of the same vendor. If it was declared in a block for extended vendor
attributes, it also has these codes. -/
def DictReader.Declared.Fits (t : DictReader.Declared) : Prop :=
  ∀ vendor chain code, t.declaration.location = .plain vendor chain code → chain ≠ [] →
    ∃ p d, t.before.state.tlvs.get? chain = some p ∧ t.earlier[p]? = some d ∧
      d.location.vendor = vendor ∧
      (d.location.IsEvs → t.before.dict.Hangs t.earlier vendor p chain)

/-- A declaration that fits, at a new location. -/
structure DictReader.Declared.FitsAnew (t : DictReader.Declared) : Prop where
  fits : t.Fits
  anew : ∀ d ∈ t.earlier, d.location ≠ t.declaration.location

namespace Dictionary

/-- Everything hangs where it was declared. -/
structure Placed (D : Dictionary) (ds : List Declaration) : Prop where
  linked : Linked D ds
  hangs : ∀ ref d vendor chain code, ds[ref]? = some d → d.location = .plain vendor chain code →
    D.Hangs ds vendor ref (chain ++ [code])
  subAttributes : ∀ ref d vendor chain code, ds[ref]? = some d →
    d.location = .plain vendor chain code → chain ≠ [] →
    D.SubAttributeAt ds ref d.name vendor chain code

theorem placed_empty : Placed .empty [] where
  linked := linked_empty
  hangs := nofun
  subAttributes := nofun

end Dictionary

namespace DictReader

open Dictionary

variable {s s' : DictReader} {ds ds' : List Declaration}

/-- Everything hangs where it was declared, and where the table has it. -/
structure Hung (s : DictReader) (ds : List Declaration) : Prop where
  placed : Placed s.dict ds
  tabled : Tabled s ds
  table : ∀ chain ref d, s.state.tlvs.get? chain = some ref → ds[ref]? = some d →
    ¬ d.location.IsEvs → s.dict.Hangs ds d.location.vendor ref chain

theorem hung_of_existingContainerChains {D : Dictionary} {tlvs : OrderedDict (List Int) ℕ}
    (h : Placed D ds) (htlvs : D.existingContainerChains = .ok tlvs) :
    Hung { dict := D, state := { tlvs } } ds where
  placed := h
  tabled := tabled_of_existingContainerChains h.linked htlvs
  table := by
    intro chain ref d href hd hevs
    obtain ⟨name, attr, fuel, codes, -, hattr, hcodes, rfl⟩ := of_existingContainerChains htlvs href
    rcases hloc : d.location with ⟨vendor, chain, code⟩ | ⟨wrapper, slot, vendor, vendorType⟩
    · have hhangs := h.hangs ref d vendor chain code hd hloc
      rw [hhangs.codesUp hattr hcodes]
      exact hhangs
    · rw [hloc] at hevs
      exact absurd trivial hevs

/-- A container of the table fits. -/
theorem Hung.hangs_of_fits (h : Hung s ds) {d : Declaration} (hfits : Declared.Fits ⟨s, ds, d⟩)
    {vendor : Option Int} {chain : List Int} {code : Int}
    (hloc : d.location = .plain vendor chain code) (hchain : chain ≠ []) {p : ℕ}
    (hp : s.state.tlvs.get? chain = some p) : s.dict.Hangs ds vendor p chain := by
  obtain ⟨p', e, hp', he, rfl, hevs⟩ := hfits vendor chain code hloc hchain
  rw [show s.state.tlvs.get? chain = some p' from hp'] at hp
  cases hp
  by_cases hblock : e.location.IsEvs
  · exact hevs hblock
  · exact h.table chain p e hp' he hblock

/-- Attributes that were placed keep their places: a new one is entered under a parent of theirs with
another code. -/
theorem Declares.subAttributeAt {line : AttributeLine} {loc : WireLocation}
    (h : Declares s s' line loc) (hung : Hung s ds)
    (hfits : Declared.FitsAnew ⟨s, ds, ⟨line.name, loc⟩⟩) {ref : ℕ} {d : Declaration}
    {vendor : Option Int} {chain : List Int} {code : Int} (hd : ds[ref]? = some d)
    (hloc : d.location = .plain vendor chain code) (hchain : chain ≠ []) :
    s'.dict.SubAttributeAt (ds ++ [⟨line.name, loc⟩]) ref d.name vendor chain code := by
  have hgrows := (LineStep.declares line loc h).grows ds
  obtain ⟨attr, p, parent, hattr, hcode, hparent, hp, hhangs, hsub⟩ :=
    (hung.placed.subAttributes ref d vendor chain code hd hloc hchain).parent
  obtain ⟨attr', hattr', hcode', hparent'⟩ := hgrows.kept ref attr hattr
  have hlt : p < s.dict.heap.length := (List.getElem?_eq_some_iff.1 hp).1
  have hold : (s.dict.heap ++ [s.newAttribute line])[p]? = some parent := by
    rw [List.getElem?_append_left hlt, hp]
  suffices hsub' : ∃ parent', s'.dict.heap[p]? = some parent' ∧
      parent'.subAttributes.get? code = some d.name by
    obtain ⟨parent', hp', hsub'⟩ := hsub'
    exact ⟨attr', p, parent', hattr', hcode'.trans hcode, hparent'.trans hparent, hp',
      hhangs.mono hgrows, hsub'⟩
  cases h.attached with
  | evs marker parent₁ _ _ heap =>
    rw [heap, setParent, getElem?_modifyAt, if_neg hlt.ne', hold]
    exact ⟨parent, rfl, hsub⟩
  | top _ _ heap =>
    rw [heap, hold]
    exact ⟨parent, rfl, hsub⟩
  | sub parent₁ hblock hline container heap =>
    rw [heap, setParent, getElem?_modifyAt, if_neg hlt.ne', addSubAttribute, getElem?_modifyAt, hold]
    split
    · next hsame =>
      subst hsame
      refine ⟨_, rfl, ?_⟩
      rw [OrderedDict.get?_set_ne _ _ _, hsub]
      -- with the same code below the same container it would have the same location
      intro heq
      obtain ⟨vendor', hnew⟩ := exists_plain_of_wireLocation hblock h.location
      have hhangs' := hung.hangs_of_fits hfits.fits hnew hline container
      obtain ⟨rfl, rfl⟩ := hhangs.unique hhangs'
      exact hfits.anew d (List.mem_of_getElem? hd) (by rw [hloc, hnew, heq])
    · exact ⟨parent, rfl, hsub⟩

/-- The new attribute hangs under the container of the table. -/
theorem Declares.new_subAttributeAt {line : AttributeLine} {loc : WireLocation}
    (h : Declares s s' line loc) (hung : Hung s ds)
    (hfits : Declared.Fits ⟨s, ds, ⟨line.name, loc⟩⟩) {vendor : Option Int} {chain : List Int}
    {code : Int} (hloc : loc = .plain vendor chain code) (hchain : chain ≠ []) :
    s'.dict.SubAttributeAt (ds ++ [⟨line.name, loc⟩]) ds.length line.name vendor chain code := by
  have hgrows := (LineStep.declares line loc h).grows ds
  obtain ⟨hblock, rfl, rfl⟩ := of_wireLocation_eq_plain (hloc ▸ h.location)
  have hlength := hung.tabled.linked.indexed.length
  cases h.attached with
  | evs marker parent hblock' _ _ =>
    rw [hblock] at hblock'
    cases hblock'
  | top _ hline _ => exact absurd hline hchain
  | sub p _ _ container heap =>
    have hlt : p < s.dict.heap.length := hlength ▸ hung.tabled.table _ _ container
    have hhangs := hung.hangs_of_fits hfits hloc hchain container
    refine ⟨{ s.newAttribute line with parent := some p }, p,
      { s.dict.heap[p] with
        subAttributes := s.dict.heap[p].subAttributes.set line.code line.name },
      ?_, rfl, rfl, ?_, hhangs.mono hgrows, OrderedDict.get?_set_self _ _ _⟩
    · rw [heap, setParent, getElem?_modifyAt, if_pos hlength, addSubAttribute, getElem?_modifyAt,
        if_neg (hlength ▸ hlt.ne), ← hlength]
      simp
    · rw [heap, setParent, getElem?_modifyAt, if_neg hlt.ne', addSubAttribute, getElem?_modifyAt,
        if_pos rfl, List.getElem?_append_left hlt, List.getElem?_eq_getElem hlt]
      rfl

theorem Hung.step (hstep : LineStep s s' ds') (hfits : ∀ d ∈ ds', Declared.FitsAnew ⟨s, ds, d⟩)
    (h : Hung s ds) : Hung s' (ds ++ ds') := by
  have htabled := h.tabled.step hstep
  have hgrows := hstep.grows ds
  cases hstep with
  | kept hkept =>
    rw [List.append_nil] at htabled hgrows ⊢
    exact {
      tabled := htabled
      table := by
        rw [hkept.tlvs]
        exact fun chain ref d href hd hevs ↦ (h.table chain ref d href hd hevs).mono hgrows
      placed := {
        linked := htabled.linked
        hangs := fun ref d vendor chain code hd hloc ↦
          (h.placed.hangs ref d vendor chain code hd hloc).mono hgrows
        subAttributes := by
          intro ref d vendor chain code hd hloc hchain
          obtain ⟨attr, p, parent, hattr, hcode, hparent, hp, hhangs, hsub⟩ :=
            (h.placed.subAttributes ref d vendor chain code hd hloc hchain).parent
          obtain ⟨attr', hattr', hcode', hparent'⟩ := hgrows.kept ref attr hattr
          obtain ⟨parent', hp', hbare⟩ := hkept.exists_attr hp
          have hsubs := congrArg Attribute.subAttributes hbare
          refine ⟨attr', p, parent', hattr', hcode'.trans hcode, hparent'.trans hparent, hp',
            hhangs.mono hgrows, ?_⟩
          rwa [show parent'.subAttributes = parent.subAttributes from hsubs] } }
  | declares line loc hdeclares =>
    have hlength := h.tabled.linked.indexed.length
    -- the new declaration hangs where its own line puts it
    have hnew : ∀ vendor chain code, loc = .plain vendor chain code →
        s'.dict.Hangs (ds ++ [⟨line.name, loc⟩]) vendor ds.length (chain ++ [code]) := by
      rintro vendor chain code hloc
      have hlast : (ds ++ [(⟨line.name, loc⟩ : Declaration)])[ds.length]? = some ⟨line.name, loc⟩ := by
        simp
      by_cases hchain : chain = []
      · obtain ⟨hblock, hline, rfl⟩ := of_wireLocation_eq_plain (hloc ▸ hdeclares.location)
        obtain ⟨attr, hattr, hcode, hparent, -, -⟩ := hdeclares.attached.exists_new
          (hlength ▸ h.tabled.table line.parentChain)
        rw [hchain, List.nil_append, ← hcode]
        rw [hlength] at hattr
        exact .top hattr hlast (by rw [hloc]; rfl) (hparent hblock (hline.trans hchain))
      · obtain ⟨attr, p, parent, hattr, rfl, hparent, -, hhangs, -⟩ :=
          (hdeclares.new_subAttributeAt h (hfits _ List.mem_cons_self).fits hloc hchain).parent
        exact .sub hattr hlast (by rw [hloc]; rfl) hparent hhangs
    have hcases {ref : ℕ} {d : Declaration}
        (hd : (ds ++ [(⟨line.name, loc⟩ : Declaration)])[ref]? = some d) :
        ds[ref]? = some d ∨ ref = ds.length ∧ d = ⟨line.name, loc⟩ := by
      rcases Nat.lt_or_ge ref ds.length with hlt | hge
      · rw [List.getElem?_append_left hlt] at hd
        exact .inl hd
      · have hbound := (List.getElem?_eq_some_iff.1 hd).1
        rw [List.length_append, List.length_singleton] at hbound
        obtain rfl : ref = ds.length := by omega
        rw [List.getElem?_concat_length] at hd
        cases hd
        exact .inr ⟨rfl, rfl⟩
    exact {
      tabled := htabled
      table := by
        intro chain ref d href hd hevs
        have hold (href : s.state.tlvs.get? chain = some ref) :
            s'.dict.Hangs (ds ++ [⟨line.name, loc⟩]) d.location.vendor ref chain := by
          rw [List.getElem?_append_left (h.tabled.table chain ref href)] at hd
          exact (h.table chain ref d href hd hevs).mono hgrows
        rw [hdeclares.tlvs] at href
        split at href
        · rw [OrderedDict.get?_set] at href
          split at href
          · next hchain =>
            -- the entry is that of the line
            cases href
            rw [hlength, List.getElem?_concat_length] at hd
            cases hd
            rw [hlength]
            rcases hloc : loc with ⟨vendor, above, code⟩ | ⟨wrapper, slot, vendor, vendorType⟩
            · obtain ⟨-, rfl, rfl⟩ := of_wireLocation_eq_plain (hloc ▸ hdeclares.location)
              rw [hchain, ← hloc]
              have := hnew vendor _ _ hloc
              rwa [hloc] at this ⊢
            · rw [hloc] at hevs
              exact absurd trivial hevs
          · exact hold href
        · exact hold href
      placed := {
        linked := htabled.linked
        hangs := by
          intro ref d vendor chain code hd hloc
          rcases hcases hd with hd | ⟨rfl, rfl⟩
          · exact (h.placed.hangs ref d vendor chain code hd hloc).mono hgrows
          · exact hnew vendor chain code hloc
        subAttributes := by
          intro ref d vendor chain code hd hloc hchain
          have hanew := hfits _ List.mem_cons_self
          rcases hcases hd with hd | ⟨rfl, rfl⟩
          · exact hdeclares.subAttributeAt h hanew hd hloc hchain
          · exact hdeclares.new_subAttributeAt h hanew.fits hloc hchain } }

end DictReader

/-! ### Runs -/

namespace DictReader

open Dictionary

variable {E : Env} {lines : List DictLine} {s s' : DictReader} {ds : List Declaration}

theorem grows_of_run_forM_readLine (h : (lines.forM (readLine E)).run s = .ok () s') :
    Grows (s.dict, ds) (s'.dict, ds ++ linesDeclare E lines s) :=
  of_run_forM_readLine (P := fun s' ds' ↦ Grows (s.dict, ds) (s'.dict, ds')) (C := fun _ ↦ True)
    (fun _ _ _ h ↦ h) (fun _ _ ds₁ _ hstep _ h ↦ trans_of Grows h (hstep.grows ds₁))
    (refl_of Grows _) (fun _ _ ↦ trivial) h

/-- What comes before a declaration of a file, what its line does, and what comes after. -/
theorem exists_lineStep_of_mem_linesTrace (hs : Tabled s ds)
    (h : (lines.forM (readLine E)).run s = .ok () s') {t : Declared}
    (ht : t ∈ linesTrace E lines s ds) :
    Tabled t.before t.earlier ∧ ∃ s₁, LineStep t.before s₁ [t.declaration] ∧
      Grows (s₁.dict, t.earlier ++ [t.declaration]) (s'.dict, ds ++ linesDeclare E lines s) := by
  induction lines generalizing s ds with
  | nil => cases ht
  | cons line lines ih =>
    obtain ⟨⟨⟩, s₁, hread, hrest⟩ := run_bind_eq_ok_iff.1 h
    have hline := lineStep_readLine hread
    have hs' : Tabled (s.atLine line) ds := ⟨hs.linked, hs.table⟩
    rw [linesTrace, after_of_ok hread] at ht
    rw [linesDeclare, after_of_ok hread, ← List.append_assoc]
    rcases List.mem_append.1 ht with ht | ht
    · obtain ⟨d, hd, rfl⟩ := List.mem_map.1 ht
      refine ⟨hs', s₁, ?_, ?_⟩
      all_goals
        generalize (s.atLine line).declares (tokenize line.text) = new at hline hd ⊢
        cases hline with
        | kept _ => cases hd
        | declares parsed loc hdeclares =>
          obtain rfl := List.mem_singleton.1 hd
          first
          | exact .declares parsed loc hdeclares
          | exact grows_of_run_forM_readLine hrest
    · exact ih (hs'.step hline) hrest ht

end DictReader

namespace Dictionary

open DictReader

variable {E : Env} {files : List (List DictLine)} {D D' : Dictionary} {ds : List Declaration}

theorem grows_of_run_load (h : (load E files).run D = .ok () D') :
    Grows (D, ds) (D', ds ++ D.declarations E files) :=
  of_run_load (I := fun D' ds' ↦ Grows (D, ds) (D', ds'))
    (P := fun s ds' ↦ Grows (D, ds) (s.dict, ds')) (C := fun _ ↦ True)
    (fun _ _ _ h _ ↦ h) (fun _ _ _ h ↦ h)
    (fun _ _ ds₁ _ hstep _ h ↦ trans_of Grows h (hstep.grows ds₁)) (fun _ _ h ↦ h)
    (refl_of Grows _) (fun _ _ ↦ trivial) h

theorem exists_lineStep_of_mem_trace (hD : Linked D ds) (h : (load E files).run D = .ok () D')
    {t : Declared} (ht : t ∈ D.trace E files ds) :
    Tabled t.before t.earlier ∧ ∃ s₁, LineStep t.before s₁ [t.declaration] ∧
      Grows (s₁.dict, t.earlier ++ [t.declaration]) (D', ds ++ D.declarations E files) := by
  induction files generalizing D ds with
  | nil => cases ht
  | cons file files ih =>
    obtain ⟨⟨⟩, D₁, hread, hrest⟩ := run_bind_eq_ok_iff.1 h
    obtain ⟨tlvs, s, htlvs, hstart, hlines, rfl⟩ := exists_startReading_of_run hread
    obtain ⟨s₁, hlines₁, hkept⟩ := exists_kept_of_run_readLines hlines
    have htabled := tabled_of_existingContainerChains hD htlvs
    rw [trace, after_of_ok hread, fileDeclares, hstart] at ht
    rw [declarations, after_of_ok hread, fileDeclares, hstart, ← List.append_assoc]
    rcases List.mem_append.1 ht with ht | ht
    · obtain ⟨hbefore, s₂, hstep, hgrows⟩ := exists_lineStep_of_mem_linesTrace htabled hlines₁ ht
      have hend := (LineStep.kept hkept).grows
        (ds ++ linesDeclare E file { dict := D, state := { tlvs } })
      rw [List.append_nil] at hend
      exact ⟨hbefore, s₂, hstep,
        trans_of Grows hgrows (trans_of Grows hend (grows_of_run_load hrest))⟩
    · refine ih ?_ hrest ht
      have hread' := of_run_readLines (P := Tabled) (C := fun _ ↦ True)
        (fun _ _ _ hs ↦ ⟨hs.linked, hs.table⟩) (fun _ _ _ _ hstep _ hs ↦ hs.step hstep) htabled
        (fun _ _ ↦ trivial) hlines
      exact hread'.linked

/-- Names that are declared once stand for the attributes of their declarations. -/
theorem get?_attributes_of_nodup (h : Indexed D ds) (hnames : (ds.map Declaration.name).Nodup)
    {ref : ℕ} {d : Declaration} (hd : ds[ref]? = some d) :
    D.attributes.get? d.name = some ref := by
  obtain ⟨e, he⟩ : ∃ e, lastNamed ds d.name = some e :=
    List.exists_lastWhere (List.mem_of_getElem? hd) (decide_eq_true rfl)
  obtain ⟨ref', href', he'⟩ := Option.bind_eq_some_iff.1 ((h.current d.name).trans he)
  have hname := (mem_of_lastNamed he).2
  have hd₁ : (ds.map Declaration.name)[ref]? = some d.name := by rw [List.getElem?_map, hd]; rfl
  have he₁ : (ds.map Declaration.name)[ref']? = some d.name := by
    rw [List.getElem?_map, he', Option.map_some, hname]
  have hlt := (List.getElem?_eq_some_iff.1 hd₁).1
  rw [href', (List.getElem?_inj hlt hnames).1 (hd₁.trans he₁.symm)]

/-- What was declared fits, if in the end everything hangs where it should. -/
theorem fits_of_hangRight (hnames : (ds.map Declaration.name).Nodup) (hright : D.HangRight ds)
    (hindexed : Indexed D ds) {t : Declared} {s₁ : DictReader} (htabled : Tabled t.before t.earlier)
    (hstep : LineStep t.before s₁ [t.declaration])
    (hgrows : Grows (s₁.dict, t.earlier ++ [t.declaration]) (D, ds)) : t.Fits := by
  intro vendor chain code hloc hchain
  have hgrows₀ := trans_of Grows (hstep.grows t.earlier) hgrows
  have hlength := htabled.linked.indexed.length
  have hd : ds[t.earlier.length]? = some t.declaration := hgrows.getElem? (by simp)
  obtain ⟨ref, href, attr, p, parent, hattr, -, hparent, -, hhangs, -⟩ :=
    hright t.declaration (List.mem_of_getElem? hd) vendor chain code hloc hchain
  rw [get?_attributes_of_nodup hindexed hnames hd] at href
  cases href
  -- the parent that it has in the end it got from the table
  have hp : t.before.state.tlvs.get? chain = some p := by
    rcases t with ⟨before, earlier, name, loc⟩
    obtain rfl : loc = .plain vendor chain code := hloc
    cases hstep with
    | declares line _ hdeclares =>
      obtain ⟨hblock, rfl, rfl⟩ := of_wireLocation_eq_plain hdeclares.location
      obtain ⟨attr₁, hattr₁, -, -, hsub, -⟩ := hdeclares.attached.exists_new
        (hlength ▸ htabled.table line.parentChain)
      obtain ⟨p', hp', hparent₁⟩ := hsub hblock hchain
      obtain ⟨attr₂, hattr₂, -, hparent₂⟩ := hgrows.kept _ _ (hlength ▸ hattr₁)
      rw [hattr] at hattr₂
      cases hattr₂
      rw [hparent₂, hparent₁] at hparent
      cases hparent
      exact hp'
  have hbefore := hhangs.of_grows hgrows₀ htabled.linked (htabled.table chain p hp)
  obtain ⟨d, hd', hvendor⟩ := hbefore.vendor_eq
  exact ⟨p, d, hp, hd', hvendor, fun _ ↦ hbefore⟩

end Dictionary

/-- **Sub-attributes hang under the right parents**, when no name and no location is declared twice,
if and only if every declaration fits. -/
theorem hangRight_iff {E : Env} {files : List (List DictLine)} {D : Dictionary}
    (h : (Dictionary.load E files).run .empty = .ok () D)
    (hnames : ((Dictionary.empty.declarations E files).map Declaration.name).Nodup)
    (hlocations : ((Dictionary.empty.declarations E files).map Declaration.location).Nodup) :
    D.HangRight (Dictionary.empty.declarations E files) ↔
      ∀ t ∈ Dictionary.empty.trace E files [], t.Fits := by
  have hindexed := indexed_of_run_load h
  have htrace {t : DictReader.Declared} (ht : t ∈ Dictionary.empty.trace E files []) :=
    Dictionary.exists_lineStep_of_mem_trace Dictionary.linked_empty h ht
  rw [List.nil_append] at htrace
  constructor
  · intro hright t ht
    obtain ⟨htabled, s₁, hstep, hgrows⟩ := htrace ht
    exact Dictionary.fits_of_hangRight hnames hright hindexed htabled hstep hgrows
  · intro hfits
    have hanew : ∀ t ∈ Dictionary.empty.trace E files [], t.FitsAnew := by
      intro t ht
      obtain ⟨-, s₁, -, hgrows⟩ := htrace ht
      refine ⟨hfits t ht, fun d hd heq ↦ ?_⟩
      have hprefix := (hgrows.declarations.map Declaration.location).sublist.nodup hlocations
      rw [List.map_append, List.nodup_append] at hprefix
      exact hprefix.2.2 d.location (List.mem_map_of_mem hd) t.declaration.location
        (by simp) heq
    have hplaced := Dictionary.of_run_load (I := Dictionary.Placed) (P := DictReader.Hung)
      (C := DictReader.Declared.FitsAnew)
      (fun _ _ _ hD htlvs ↦ DictReader.hung_of_existingContainerChains hD htlvs)
      (fun _ _ _ hs ↦ ⟨hs.placed, ⟨hs.tabled.linked, hs.tabled.table⟩, hs.table⟩)
      (fun _ _ _ _ hstep hfits hs ↦ hs.step hstep hfits) (fun _ _ hs ↦ hs.placed)
      Dictionary.placed_empty hanew h
    rw [List.nil_append] at hplaced
    intro d hd vendor chain code hloc hchain
    obtain ⟨ref, href⟩ := List.mem_iff_getElem?.1 hd
    exact ⟨ref, Dictionary.get?_attributes_of_nodup hindexed hnames href,
      hplaced.subAttributes ref d vendor chain code href hloc hchain⟩

/-- The table has a container of the same vendor that was not declared in a block for extended
vendor attributes. -/
def DictReader.Declared.fitsPlainly (t : DictReader.Declared) : Bool :=
  match t.declaration.location with
  | .plain vendor chain _ =>
    chain = [] || match (t.before.state.tlvs.get? chain).bind (t.earlier[·]?) with
      | some ⟨_, .plain vendor' _ _⟩ => vendor' = vendor
      | _ => false
  | .evs .. => true

theorem DictReader.Declared.fits_of_fitsPlainly {t : DictReader.Declared}
    (h : t.fitsPlainly = true) : t.Fits := by
  intro vendor chain code hloc hchain
  rw [fitsPlainly, hloc] at h
  simp only [hchain, decide_false, Bool.false_or] at h
  split at h
  · next name vendor' _ _ hd =>
    obtain ⟨p, hp, hd⟩ := Option.bind_eq_some_iff.1 hd
    exact ⟨p, _, hp, hd, of_decide_eq_true h, False.elim⟩
  · cases h

/-- A box within a box of the same vendor. -/
theorem hangRight_nested :
    let E := Env.ofByte (fun _ ↦ 0) fun _ _ ↦ 0
    let files := [DictLine.ofTexts ["VENDOR Acme 1", "BEGIN-VENDOR Acme", "ATTRIBUTE Acme-Box 1 tlv",
      "ATTRIBUTE Acme-Inner 1.2 tlv"], DictLine.ofTexts ["ATTRIBUTE Acme-Item 1.2.3 integer Acme"]]
    ∃ D, (Dictionary.load E files).run .empty = .ok () D ∧
      D.HangRight (Dictionary.empty.declarations E files) := by
  intro E files
  have hload := run_eq_ok_of_returns
    (by decide +kernel : returns (Dictionary.load E files) .empty = true)
  have hfits : (Dictionary.empty.trace E files []).all DictReader.Declared.fitsPlainly = true := by
    decide +kernel
  exact ⟨_, hload, (hangRight_iff hload (by decide +kernel) (by decide +kernel)).2
    fun t ht ↦ DictReader.Declared.fits_of_fitsPlainly (List.all_eq_true.1 hfits t ht)⟩

/-- An item of one vendor is put into the box of another. -/
theorem not_hangRight_twoVendors :
    let E := Env.ofByte (fun _ ↦ 0) fun _ _ ↦ 0
    let files := [DictLine.ofTexts ["VENDOR A 1", "VENDOR B 2",
      "BEGIN-VENDOR A", "ATTRIBUTE A-Box 1 tlv", "END-VENDOR A",
      "BEGIN-VENDOR B", "ATTRIBUTE B-Box 1 tlv", "END-VENDOR B",
      "BEGIN-VENDOR A", "ATTRIBUTE A-Item 1.2 integer", "END-VENDOR A"]]
    ∃ D, (Dictionary.load E files).run .empty = .ok () D ∧
      ((Dictionary.empty.declarations E files).map Declaration.name).Nodup ∧
      ((Dictionary.empty.declarations E files).map Declaration.location).Nodup ∧
      ¬ D.HangRight (Dictionary.empty.declarations E files) := by
  intro E files
  refine ⟨_, run_eq_ok_of_returns (by decide +kernel), by decide +kernel, by decide +kernel, ?_⟩
  intro h
  have hparent : (((after (Dictionary.load E files) .empty).attribute? "A-Item").bind
      Attribute.parent).bind ((Dictionary.empty.declarations E files)[·]?) =
        some ⟨"B-Box", .plain (some 2) [] 1⟩ := by
    decide +kernel
  obtain ⟨ref, href, attr, p, parent, hattr, -, hp, -, hhangs, -⟩ :=
    h ⟨"A-Item", .plain (some 1) [1] 2⟩ (by decide +kernel) (some 1) [1] 2 rfl (by simp)
  obtain ⟨d, hd, hvendor⟩ := hhangs.vendor_eq
  rw [Dictionary.attribute?, href, Option.bind_some, hattr, Option.bind_some, hp, Option.bind_some,
    hd] at hparent
  cases hparent
  cases hvendor

end Pyrad2
