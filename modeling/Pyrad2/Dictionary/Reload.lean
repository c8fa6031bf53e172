import Pyrad2.Dictionary.Errors
import Pyrad2.Dictionary.Values
import Pyrad2.Foundations.Assignments
import Pyrad2.Foundations.Lockstep

/-!
# Reading a file twice

What a second reading of the same file makes of a dictionary.

The second reading declares every attribute again, as a new object. It does what the first one did, on
objects that lie behind the old ones in the heap: a reference of the first reading, moved by the length
of the old heap, is a reference of the second one. The two readings part at the `VALUE` lines that stand
before the attribute they name. The first reading puts them off and adds them in the end; the second one
knows the attribute, adds the value to the old object, and replaces that object later.
-/

namespace Pyrad2

open EStateM

namespace BiDict

variable {α β : Type} [DecidableEq α] [DecidableEq β]

/-- All pairs of a list added, one after the other. -/
def addAll (d : BiDict α β) (l : List (α × β)) : BiDict α β := l.foldl (fun d e ↦ d.add e.1 e.2) d

variable {d : BiDict α β} {l : List (α × β)}

theorem addAll_append_singleton (e : α × β) : d.addAll (l ++ [e]) = (d.addAll l).add e.1 e.2 := by
  rw [addAll, List.foldl_append]
  rfl

theorem addAll_eq :
    d.addAll l = ⟨d.forward.setAll l, d.backward.setAll (l.map Prod.swap)⟩ := by
  induction l using List.reverseRecOn with
  | nil => rfl
  | append_singleton l e ih =>
    rw [addAll_append_singleton, ih, List.map_append, List.map_singleton,
      OrderedDict.setAll_append_singleton, OrderedDict.setAll_append_singleton]
    rfl

/-- **Pairs added again** change nothing. -/
theorem addAll_addAll : (d.addAll l).addAll l = d.addAll l := by
  simp only [addAll_eq, OrderedDict.setAll_setAll]

end BiDict

namespace Attribute

/-- The attribute with its parent link moved by `n`. -/
def moved (n : ℕ) (attr : Attribute) : Attribute :=
  { attr with parent := attr.parent.map (n + ·) }

/-- The attribute without its parent link. -/
def unlinked (attr : Attribute) : Attribute := { attr with parent := none }

@[simp] theorem unlinked_moved (n : ℕ) (attr : Attribute) :
    (attr.moved n).unlinked = attr.unlinked := rfl

end Attribute

namespace DictReader

/-- A reference of the first reading, in the second one. -/
def movedRef (n : ℕ) (e : String × ℕ) : String × ℕ := (e.1, n + e.2)

/-- **The second reading does what the first one did.** The state `t` is reached when the lines are read
into the dictionary `D` that were read into an empty one up to the state `s`. -/
structure Repeats (D : Dictionary) (s t : DictReader) : Prop where
  heap : ∃ old, old.map Attribute.bare = D.skeleton ∧
    t.dict.heap = old ++ s.dict.heap.map (Attribute.moved D.heap.length)
  attributes : ∃ l, s.dict.attributes = OrderedDict.setAll ∅ l ∧
    t.dict.attributes = D.attributes.setAll (l.map (movedRef D.heap.length))
  attrindex : ∃ l, s.dict.attrindex = BiDict.empty.addAll l ∧
    t.dict.attrindex = D.attrindex.addAll l
  vendors : ∃ l, s.dict.vendors = Dictionary.empty.vendors.addAll l ∧
    t.dict.vendors = D.vendors.addAll l
  vendorFormats : ∃ l, s.dict.vendorFormats = OrderedDict.setAll ∅ l ∧
    t.dict.vendorFormats = D.vendorFormats.setAll l
  vendor : t.state.vendor = s.state.vendor
  evsParent : t.state.evsParent = s.state.evsParent
  /-- A block of extended vendor attributes has a vendor. -/
  block : s.state.evsParent ≠ none → s.state.vendor ≠ ""
  tlvs : ∀ chain ref, s.state.tlvs.get? chain = some ref →
    t.state.tlvs.get? chain = some (D.heap.length + ref)
  deferParse : t.deferParse = []

section

variable {D : Dictionary} {s t : DictReader}

/-! ### What the second reading finds -/

theorem Repeats.length_heap (h : Repeats D s t) :
    t.dict.heap.length = D.heap.length + s.dict.heap.length := by
  obtain ⟨old, hold, hheap⟩ := h.heap
  have hlen := congrArg List.length hold
  rw [Dictionary.skeleton, List.length_map, List.length_map] at hlen
  rw [hheap, List.length_append, List.length_map, hlen]

theorem Repeats.getElem?_heap (h : Repeats D s t) (ref : ℕ) :
    t.dict.heap[D.heap.length + ref]? = (s.dict.heap[ref]?).map (Attribute.moved D.heap.length) := by
  obtain ⟨old, hold, hheap⟩ := h.heap
  have hlen := congrArg List.length hold
  rw [Dictionary.skeleton, List.length_map, List.length_map] at hlen
  rw [hheap, List.getElem?_append_right (by omega), hlen, Nat.add_sub_cancel_left, List.getElem?_map]

/-- A name that is declared stands for the object that was moved, any other for what it stood for. -/
theorem Repeats.get?_attributes (h : Repeats D s t) (name : String) :
    t.dict.attributes.get? name = ((s.dict.attributes.get? name).map (D.heap.length + ·)).or
      (D.attributes.get? name) := by
  obtain ⟨l, hs, ht⟩ := h.attributes
  rw [hs, ht, OrderedDict.get?_setAll, OrderedDict.get?_setAll, List.lastWhere_map]
  have hcomp : (fun e : String × ℕ ↦ decide (e.1 = name)) ∘ movedRef D.heap.length =
      fun e ↦ decide (e.1 = name) := rfl
  have hcases (e : Option (String × ℕ)) :
      ((e.map (movedRef D.heap.length)).map Prod.snd).or (D.attributes.get? name) =
        (((e.map Prod.snd).or ((∅ : OrderedDict String ℕ).get? name)).map (D.heap.length + ·)).or
          (D.attributes.get? name) := by
    rcases e with - | e <;> rfl
  rw [hcomp]
  exact hcases _

theorem Repeats.attribute?_eq_some (h : Repeats D s t) {name : String} {attr : Attribute}
    (hattr : s.dict.attribute? name = some attr) :
    t.dict.attribute? name = some (attr.moved D.heap.length) := by
  obtain ⟨ref, href, hget⟩ := Option.bind_eq_some_iff.1 hattr
  rw [Dictionary.attribute?, h.get?_attributes, href]
  show t.dict.heap[D.heap.length + ref]? = _
  rw [h.getElem?_heap, hget]
  rfl

theorem Repeats.lookup_eq_ok (h : Repeats D s t) {name : String} {attr : Attribute}
    (hattr : s.dict.lookup name = .ok attr) :
    t.dict.lookup name = .ok (attr.moved D.heap.length) := by
  rw [Dictionary.lookup] at hattr ⊢
  rcases hsome : s.dict.attribute? name with - | attr'
  · rw [hsome] at hattr
    cases hattr
  · rw [hsome] at hattr
    cases hattr
    rw [h.attribute?_eq_some hsome]

theorem Repeats.ref_eq_ok (h : Repeats D s t) {name : String} {ref : ℕ}
    (href : s.dict.ref name = .ok ref) : t.dict.ref name = .ok (D.heap.length + ref) := by
  rw [Dictionary.ref] at href ⊢
  rw [h.get?_attributes]
  rcases hsome : s.dict.attributes.get? name with - | ref'
  · rw [hsome] at href
    cases href
  · rw [hsome] at href
    cases href
    rfl

/-- Parents are moved with their attributes. -/
theorem Repeats.parentOf_moved (h : Repeats D s t) (attr : Attribute) :
    t.dict.parentOf (attr.moved D.heap.length) =
      (s.dict.parentOf attr).map (Attribute.moved D.heap.length) := by
  rw [Dictionary.parentOf, Dictionary.parentOf, Attribute.moved]
  rcases attr.parent with - | ref
  · rfl
  · exact h.getElem?_heap ref

theorem Repeats.get?_vendors (h : Repeats D s t) {name : String} {id : Int} (hname : name ≠ "")
    (hid : s.dict.vendors.forward.get? name = some id) :
    t.dict.vendors.forward.get? name = some id := by
  obtain ⟨l, hs, ht⟩ := h.vendors
  have hroot : Dictionary.empty.vendors.forward.get? name = none :=
    OrderedDict.get?_set_ne ∅ hname 0
  rw [hs, BiDict.addAll_eq, OrderedDict.get?_setAll, hroot, Option.or_none] at hid
  rw [ht, BiDict.addAll_eq, OrderedDict.get?_setAll, hid]
  rfl

theorem Repeats.contains_vendors (h : Repeats D s t) {name : String} (hname : name ≠ "")
    (hknown : s.dict.vendors.forward.contains name = true) :
    t.dict.vendors.forward.contains name = true := by
  obtain ⟨id, hid⟩ := Option.isSome_iff_exists.1 hknown
  rw [OrderedDict.contains, h.get?_vendors hname hid]
  rfl

theorem Repeats.vendorId_eq_ok (h : Repeats D s t) {name : String} {id : Int} (hname : name ≠ "")
    (hid : s.dict.vendorId name = .ok id) : t.dict.vendorId name = .ok id := by
  rw [Dictionary.vendorId] at hid ⊢
  rcases hsome : s.dict.vendors.forward.get? name with - | id'
  · rw [hsome] at hid
    cases hid
  · rw [hsome] at hid
    cases hid
    rw [h.get?_vendors hname hsome]

/-! ### Changed objects -/

/-- A change of an object, and the same change of the object that was moved. -/
theorem Repeats.modifyAt (h : Repeats D s t) {f g : Attribute → Attribute}
    (hfg : ∀ attr, (f attr).moved D.heap.length = g (attr.moved D.heap.length)) (ref : ℕ) :
    Repeats D { s with dict := s.dict.modifyAt ref f }
      { t with dict := t.dict.modifyAt (D.heap.length + ref) g } := by
  obtain ⟨old, hold, hheap⟩ := h.heap
  refine { h with heap := ⟨old, hold, ?_⟩ }
  have hlen := congrArg List.length hold
  rw [Dictionary.skeleton, List.length_map, List.length_map] at hlen
  show t.dict.heap.modify (D.heap.length + ref) g =
    old ++ (s.dict.heap.modify ref f).map (Attribute.moved D.heap.length)
  have hchanged := Dictionary.getElem?_modifyAt t.dict (D.heap.length + ref) g
  refine List.ext_getElem? fun i ↦ ?_
  rw [show (t.dict.heap.modify (D.heap.length + ref) g)[i]? = _ from hchanged i, hheap]
  by_cases hi : i < D.heap.length
  · rw [if_neg (by omega), List.getElem?_append_left (by omega),
      List.getElem?_append_left (by omega)]
  · obtain ⟨j, rfl⟩ := Nat.exists_eq_add_of_le (Nat.not_lt.1 hi)
    rw [List.getElem?_append_right (by omega), List.getElem?_append_right (by omega), hlen,
      Nat.add_sub_cancel_left, List.getElem?_map, List.getElem?_map,
      show (s.dict.heap.modify ref f)[j]? = _ from Dictionary.getElem?_modifyAt s.dict ref f j]
    by_cases hj : ref = j
    · rw [if_pos (by omega), if_pos hj, Option.map_map, Option.map_map]
      exact congrArg (Option.map · _) (funext fun attr ↦ (hfg attr).symm)
    · rw [if_neg (by omega), if_neg hj]

/-- Named values of the old objects are not kept account of. -/
theorem Repeats.addValue_old (h : Repeats D s t) {ref : ℕ} (href : ref < D.heap.length)
    (key : String) (value : PyVal) :
    Repeats D s { t with dict := t.dict.addValue ref key value } := by
  obtain ⟨old, hold, hheap⟩ := h.heap
  have hlen := congrArg List.length hold
  rw [Dictionary.skeleton, List.length_map, List.length_map] at hlen
  have hskeleton := Dictionary.skeleton_addValue { D with heap := old } ref key value
  refine { h with heap := ⟨_, hskeleton.trans hold, List.ext_getElem? fun i ↦ ?_⟩ }
  have hold' := Dictionary.getElem?_modifyAt { D with heap := old } ref
    (fun attr ↦ { attr with values := attr.values.add key value }) i
  have hlen' : (Dictionary.addValue { D with heap := old } ref key value).heap.length =
      D.heap.length := (List.length_modify ..).trans hlen
  show (t.dict.addValue ref key value).heap[i]? = _
  rw [Dictionary.addValue, Dictionary.getElem?_modifyAt, hheap]
  by_cases hi : i < D.heap.length
  · rw [List.getElem?_append_left (by omega), List.getElem?_append_left (by omega)]
    exact hold'.symm
  · rw [if_neg (by omega), List.getElem?_append_right (by omega),
      List.getElem?_append_right (by omega), hlen, hlen']

/-! ### ATTRIBUTE -/

/-- What the second reading finds in the last column. -/
theorem Repeats.run_parseOptions (h : Repeats D s t) {vendor : String} {column : Option String}
    (hcolumn : ∀ c ∈ column, c ≠ "") {options : AttributeOptions × String} {s' : DictReader}
    (hrun : (parseOptions vendor column).run s = .ok options s') :
    (parseOptions vendor column).run t = .ok options t ∧
      (options.2 = vendor ∨ options.2 ∈ column) := by
  unfold parseOptions at hrun ⊢
  rcases column with - | column
  · cases hrun
    exact ⟨rfl, .inl rfl⟩
  · dsimp only at hrun ⊢
    rcases hoptions : ((Tools.split ',' column.toList).map keyval).foldlM applyOption {} with
      msg | opts
    · rw [hoptions] at hrun
      cases hrun
    · rw [hoptions] at hrun
      dsimp only at hrun ⊢
      by_cases hrecognized : opts.recognized = true
      · rw [if_pos hrecognized] at hrun ⊢
        cases hrun
        exact ⟨rfl, .inl rfl⟩
      · rw [if_neg hrecognized, run_bind_of_ok (run_get _)] at hrun ⊢
        by_cases hknown : s.dict.vendors.forward.contains column = true
        · rw [if_pos hknown] at hrun
          rw [if_pos (h.contains_vendors (hcolumn column rfl) hknown)]
          cases hrun
          exact ⟨rfl, .inr rfl⟩
        · rw [if_neg hknown] at hrun
          cases hrun

/-- **The columns** of an `ATTRIBUTE` line say the same again. -/
theorem Repeats.run_parseAttributeLine (h : Repeats D s t) {tokens : List String}
    (htokens : ∀ token ∈ tokens, token ≠ "") {line : AttributeLine} {s' : DictReader}
    (hrun : (parseAttributeLine tokens).run s = .ok line s') :
    s' = s ∧ (parseAttributeLine tokens).run t = .ok line t ∧
      (line.vendor = s.state.vendor ∨ line.vendor ≠ "") := by
  have hsame := respects_parseAttributeLine tokens s
  rw [after_of_ok hrun] at hsame
  refine ⟨hsame.symm, ?_⟩
  subst hsame
  unfold parseAttributeLine at hrun ⊢
  split at hrun
  · next head name code datatype rest =>
    by_cases hrest : rest.length > 1
    · rw [if_pos hrest] at hrun
      cases hrun
    · rw [if_neg hrest, run_bind_of_ok (run_get _)] at hrun ⊢
      obtain ⟨options, s₁, hoptions, hrun⟩ := run_bind_eq_ok_iff.1 hrun
      have hcolumn : ∀ c ∈ rest.head?, c ≠ "" := fun c hc ↦
        htokens c (by simp [List.mem_of_mem_head? hc])
      have hs₁ := respects_parseOptions s.state.vendor rest.head? s
      rw [after_of_ok hoptions] at hs₁
      subst hs₁
      obtain ⟨hagain, hvendor⟩ := h.run_parseOptions hcolumn hoptions
      rw [h.vendor, run_bind_of_ok hagain]
      obtain ⟨codes, s₂, hcodes, hrun⟩ := run_bind_eq_ok_iff.1 hrun
      obtain ⟨hparsed, hs₂⟩ := run_liftM_eq_ok_iff.1 hcodes
      subst hs₂
      rw [run_bind_of_ok (run_liftM_eq_ok_iff.2 ⟨hparsed, rfl⟩)]
      dsimp only at hrun ⊢
      split at hrun
      · cases hrun
      · cases hrun
      · cases hrun
        exact ⟨rfl, hvendor.imp_right fun hmem ↦ hcolumn _ hmem⟩
  · cases hrun

variable {line : AttributeLine}

/-- **The key** is the same again. -/
theorem Repeats.attributeKey_eq_ok (h : Repeats D s t)
    (hvendor : line.vendor = s.state.vendor ∨ line.vendor ≠ "") {key : Key}
    (hkey : s.attributeKey line = .ok key) : t.attributeKey line = .ok key := by
  rw [attributeKey] at hkey ⊢
  rw [h.evsParent]
  rcases hevs : s.state.evsParent with - | name
  · rw [hevs] at hkey
    dsimp only at hkey ⊢
    by_cases hplain : line.vendor ≠ ""
    · rw [if_pos hplain] at hkey ⊢
      obtain ⟨id, hid, hkey⟩ := Except.bind_eq_ok_iff.1 hkey
      rw [h.vendorId_eq_ok hplain hid]
      exact hkey
    · rw [if_neg hplain] at hkey ⊢
      exact hkey
  · rw [hevs] at hkey
    dsimp only at hkey ⊢
    have hnamed : line.vendor ≠ "" := by
      rcases hvendor with hvendor | hvendor
      · rw [hvendor]
        exact h.block (by simp [hevs])
      · exact hvendor
    obtain ⟨marker, hmarker, hkey⟩ := Except.bind_eq_ok_iff.1 hkey
    rw [h.lookup_eq_ok hmarker, Except.bind_of_ok, h.parentOf_moved]
    rcases hwrapper : s.dict.parentOf marker with - | wrapper
    · rw [hwrapper] at hkey
      cases hkey
    · rw [hwrapper] at hkey
      obtain ⟨id, hid, hkey⟩ := Except.bind_eq_ok_iff.1 hkey
      show (do return Key.tup [wrapper.code, marker.code, ← t.dict.vendorId line.vendor, line.code] :
        Except Exn Key) = _
      rw [h.vendorId_eq_ok hnamed hid]
      exact hkey

theorem Repeats.newAttribute_eq (h : Repeats D s t) (line : AttributeLine) :
    t.newAttribute line = s.newAttribute line := by
  rw [newAttribute, newAttribute, h.evsParent]

/-- The new object lies behind those of the second reading, as it did behind those of the first. -/
theorem Repeats.enter (h : Repeats D s t) (line : AttributeLine) (key : Key) :
    Repeats D (s.enter line key) (t.enter line key) where
  heap := by
    obtain ⟨old, hold, hheap⟩ := h.heap
    refine ⟨old, hold, ?_⟩
    show t.dict.heap ++ [t.newAttribute line] =
      old ++ (s.dict.heap ++ [s.newAttribute line]).map (Attribute.moved D.heap.length)
    rw [hheap, h.newAttribute_eq, List.map_append, List.append_assoc]
    rfl
  attributes := by
    obtain ⟨l, hs, ht⟩ := h.attributes
    refine ⟨l ++ [(line.name, s.dict.heap.length)], ?_, ?_⟩
    · show s.dict.attributes.set line.name s.dict.heap.length = _
      rw [hs, OrderedDict.setAll_append_singleton]
    · show t.dict.attributes.set line.name t.dict.heap.length = _
      rw [ht, h.length_heap, List.map_append, List.map_singleton,
        OrderedDict.setAll_append_singleton]
      rfl
  attrindex := by
    obtain ⟨l, hs, ht⟩ := h.attrindex
    refine ⟨l ++ [(line.name, key)], ?_, ?_⟩
    · show s.dict.attrindex.add line.name key = _
      rw [hs, BiDict.addAll_append_singleton]
    · show t.dict.attrindex.add line.name key = _
      rw [ht, BiDict.addAll_append_singleton]
  vendors := h.vendors
  vendorFormats := h.vendorFormats
  vendor := h.vendor
  evsParent := h.evsParent
  block := h.block
  tlvs chain ref href := by
    have href' : (if line.type.isContainer then
        s.state.tlvs.set (line.parentChain ++ [line.code]) s.dict.heap.length
      else s.state.tlvs).get? chain = some ref := href
    show (if line.type.isContainer then
        t.state.tlvs.set (line.parentChain ++ [line.code]) t.dict.heap.length
      else t.state.tlvs).get? chain = _
    by_cases hcontainer : line.type.isContainer = true
    · rw [if_pos hcontainer, OrderedDict.get?_set] at href' ⊢
      by_cases hchain : chain = line.parentChain ++ [line.code]
      · rw [if_pos hchain] at href' ⊢
        cases href'
        rw [h.length_heap]
      · rw [if_neg hchain] at href' ⊢
        exact h.tlvs chain ref href'
    · rw [if_neg hcontainer] at href' ⊢
      exact h.tlvs chain ref href'
  deferParse := h.deferParse

/-- The parent is found again, moved. -/
theorem Repeats.follows_attach (h : Repeats D s t) (ref : ℕ) :
    Follows (Repeats D) (attach line ref) (attach line (D.heap.length + ref)) s t := by
  have hparent (parent : ℕ) (attr : Attribute) :
      ({ attr with parent := some parent } : Attribute).moved D.heap.length =
        { attr.moved D.heap.length with parent := some (D.heap.length + parent) } := rfl
  rw [attach, attach]
  refine follows_get_bind ?_
  rcases hevs : s.state.evsParent with - | name
  · rw [h.evsParent, hevs]
    dsimp only
    by_cases hchain : line.parentChain ≠ []
    · rw [if_pos hchain, if_pos hchain]
      rcases hcontainer : s.state.tlvs.get? line.parentChain with - | parent
      · exact follows_of_error rfl
      · rw [h.tlvs _ _ hcontainer]
        let addSub (attr : Attribute) : Attribute :=
          { attr with subAttributes := attr.subAttributes.set line.code line.name }
        have hsub := h.modifyAt (f := addSub) (g := addSub) (fun attr ↦ rfl) parent
        exact follows_modify (g := fun _ ↦ _) (k := fun _ ↦ _)
          (hsub.modifyAt (fun attr ↦ hparent parent attr) ref)
    · rw [if_neg hchain, if_neg hchain]
      exact follows_pure h
  · rw [h.evsParent, hevs]
    dsimp only
    refine follows_liftM_bind fun parent href ↦ ⟨D.heap.length + parent, h.ref_eq_ok href, ?_⟩
    exact follows_modify (g := fun _ ↦ _) (k := fun _ ↦ _)
      (h.modifyAt (fun attr ↦ hparent parent attr) ref)

/-- **An `ATTRIBUTE` line** declares the same again. -/
theorem Repeats.follows_parseAttribute (h : Repeats D s t) {tokens : List String}
    (htokens : ∀ token ∈ tokens, token ≠ "") :
    Follows (Repeats D) (parseAttribute tokens) (parseAttribute tokens) s t := by
  intro a s' hrun
  obtain ⟨line, s₁, hline, hrest⟩ := run_bind_eq_ok_iff.1 hrun
  obtain ⟨rfl, hagain, hvendor⟩ := h.run_parseAttributeLine htokens hline
  have hdeclare : Follows (Repeats D) (declare line) (declare line) s₁ t := by
    rw [declare]
    refine follows_get_bind (follows_liftM_bind fun key hkey ↦
      ⟨key, h.attributeKey_eq_ok hvendor hkey, ?_⟩)
    have hset : Follows (Repeats D) (set (s₁.enter line key) : ReaderMethod Unit)
        (set (t.enter line key) : ReaderMethod Unit) s₁ t :=
      follows_modify (g := fun _ ↦ _) (k := fun _ ↦ _) (h.enter line key)
    rw [h.length_heap]
    exact hset.bind fun _ s' t' h' ↦ h'.follows_attach _
  obtain ⟨t', ht', hst⟩ := hdeclare a s' hrest
  exact ⟨t', (run_bind_of_ok hagain).trans ht', hst⟩

/-! ### VALUE -/

variable {E : Env}

variable (E D) in
/-- The tokens of a `VALUE` line whose attribute is in the dictionary and takes the value. -/
def Accepts (tokens : List String) : Prop :=
  ∃ head attr key text ref adef number value, tokens = [head, attr, key, text] ∧
    D.attributes.get? attr = some ref ∧ D.heap[ref]? = some adef ∧
    parseNumber adef.type text = .ok number ∧ Tools.encodeAttr E adef.type number = .ok value

/-- The old objects keep their types. -/
theorem Repeats.getElem?_old (h : Repeats D s t) {ref : ℕ} {adef : Attribute}
    (hadef : D.heap[ref]? = some adef) :
    ∃ adef', t.dict.heap[ref]? = some adef' ∧ adef'.type = adef.type := by
  obtain ⟨old, hold, hheap⟩ := h.heap
  have hbare := congrArg (·[ref]?) hold
  simp only [Dictionary.skeleton, List.getElem?_map, hadef, Option.map_some] at hbare
  obtain ⟨adef', hget, hsame⟩ := Option.map_eq_some_iff.1 hbare
  refine ⟨adef', ?_, (congrArg Attribute.type hsame : adef'.bare.type = adef.bare.type)⟩
  rw [hheap, List.getElem?_append_left (List.getElem?_eq_some_iff.1 hget).1, hget]

theorem getElem?_of_lookup {u : Dictionary} {name : String} {ref : ℕ} {attr : Attribute}
    (href : u.attributes.get? name = some ref) (hattr : u.lookup name = .ok attr) :
    u.heap[ref]? = some attr := by
  rw [Dictionary.lookup, Dictionary.attribute?, href, Option.bind_some] at hattr
  rcases hsome : u.heap[ref]? with - | attr'
  · rw [hsome] at hattr
    cases hattr
  · rw [hsome] at hattr
    exact congrArg some (Except.ok.inj hattr)

/-- A `VALUE` line whose attribute is known. -/
theorem run_parseValue_of_known {u : DictReader} {state : ParseState} {defer : Bool}
    {head attr key text : String} {ref : ℕ} {adef : Attribute} {number value : PyVal}
    (href : u.dict.attributes.get? attr = some ref) (hadef : u.dict.heap[ref]? = some adef)
    (hnumber : parseNumber adef.type text = .ok number)
    (hvalue : Tools.encodeAttr E adef.type number = .ok value) :
    (parseValue E state [head, attr, key, text] defer).run u =
      .ok () { u with dict := u.dict.addValue ref key value } := by
  have hlookup : u.dict.lookup attr = .ok adef := by
    rw [Dictionary.lookup, Dictionary.attribute?, href, Option.bind_some, hadef]
  rw [parseValue, run_bind_of_ok (run_get u)]
  simp only [href, run_bind, hlookup, run_liftM_ok, hnumber, hvalue]
  rfl

/-- **A `VALUE` line.** Its attribute is that of the first reading, moved, or it had been put off and
goes to an old object. -/
theorem Repeats.run_parseValue (h : Repeats D s t) {state : ParseState} {tokens : List String}
    {s' : DictReader} (hrun : (parseValue E state tokens true).run s = .ok () s')
    (haccepts : ∀ e ∈ s'.deferParse, Accepts D E e.2) (state' : ParseState) :
    ∃ t', (parseValue E state' tokens true).run t = .ok () t' ∧ Repeats D s' t' := by
  unfold parseValue at hrun
  split at hrun
  · next head attr key text =>
    rw [run_bind_of_ok (run_get s)] at hrun
    rcases href : s.dict.attributes.get? attr with - | ref
    · rw [href] at hrun
      cases hrun
      -- this reading knows the attribute already
      obtain ⟨_, _, _, _, ref, adef, number, value, htokens, hold, hadef, hnumber, hvalue⟩ :=
        haccepts (state, [head, attr, key, text]) (by simp)
      cases htokens
      obtain ⟨adef', hadef', htype⟩ := h.getElem?_old hadef
      have href' : t.dict.attributes.get? attr = some ref := by
        rw [h.get?_attributes, href, hold]
        rfl
      rw [← htype] at hnumber hvalue
      have hlt : ref < D.heap.length := (List.getElem?_eq_some_iff.1 hadef).1
      exact ⟨_, run_parseValue_of_known href' hadef' hnumber hvalue,
        { h.addValue_old hlt key value with }⟩
    · rw [href] at hrun
      simp only [run_bind_eq_ok_iff, run_liftM_eq_ok_iff] at hrun
      obtain ⟨adef, s₁, ⟨hadef, -⟩, number, s₂, ⟨hnumber, -⟩, value, s₃, ⟨hvalue, -⟩, hset⟩ := hrun
      cases hset
      have hget := getElem?_of_lookup href hadef
      have href' : t.dict.attributes.get? attr = some (D.heap.length + ref) := by
        rw [h.get?_attributes, href]
        rfl
      have hadef' : t.dict.heap[D.heap.length + ref]? = some (adef.moved D.heap.length) := by
        rw [h.getElem?_heap, hget]
        rfl
      let addValue (attr : Attribute) : Attribute :=
        { attr with values := attr.values.add key value }
      exact ⟨_, run_parseValue_of_known href' hadef' hnumber hvalue,
        h.modifyAt (f := addValue) (g := addValue) (fun _ ↦ rfl) ref⟩
  · cases hrun

/-! ### Blocks and vendors -/

theorem Repeats.addVendor (h : Repeats D s t) (name : String) (id : Int) (format : VendorFormat) :
    Repeats D { s with dict := s.dict.addVendor name id format }
      { t with dict := t.dict.addVendor name id format } where
  heap := h.heap
  attributes := h.attributes
  attrindex := h.attrindex
  vendors := by
    obtain ⟨l, hs, ht⟩ := h.vendors
    refine ⟨l ++ [(name, id)], ?_, ?_⟩
    · rw [BiDict.addAll_append_singleton, ← hs]
      rfl
    · rw [BiDict.addAll_append_singleton, ← ht]
      rfl
  vendorFormats := by
    obtain ⟨l, hs, ht⟩ := h.vendorFormats
    by_cases hdefault : format.typeLen = 1 ∧ format.lenLen = 1 ∧ format.hasContinuation = false
    · refine ⟨l, ?_, ?_⟩
      · show (if _ then _ else _) = _
        rw [if_pos hdefault, hs]
      · show (if _ then _ else _) = _
        rw [if_pos hdefault, ht]
    · refine ⟨l ++ [(id, format)], ?_, ?_⟩
      · show (if _ then _ else _) = _
        rw [if_neg hdefault, OrderedDict.setAll_append_singleton, hs]
      · show (if _ then _ else _) = _
        rw [if_neg hdefault, OrderedDict.setAll_append_singleton, ht]
  vendor := h.vendor
  evsParent := h.evsParent
  block := h.block
  tlvs := h.tlvs
  deferParse := h.deferParse

theorem follows_parseFormatColumn (column : Option String) :
    Follows (fun s' t' ↦ s' = s ∧ t' = t) (parseFormatColumn column) (parseFormatColumn column)
      s t := by
  unfold parseFormatColumn
  split
  · exact follows_pure ⟨rfl, rfl⟩
  · split
    · split
      · exact follows_pure ⟨rfl, rfl⟩
      · exact follows_of_error rfl
    · exact follows_of_error rfl
    · exact follows_of_error rfl
    · exact follows_of_error rfl

theorem Repeats.follows_parseVendor (h : Repeats D s t) (tokens : List String) :
    Follows (Repeats D) (parseVendor tokens) (parseVendor tokens) s t := by
  unfold parseVendor
  split
  · next _ name vendor rest =>
    by_cases hrest : rest.length > 1
    · rw [if_pos hrest]
      exact follows_of_error rfl
    · rw [if_neg hrest]
      refine (follows_parseFormatColumn rest.head?).bind fun format s' t' hsame ↦ ?_
      obtain ⟨rfl, rfl⟩ := hsame
      split
      · exact follows_of_error rfl
      · next id _ =>
        by_cases hid : ¬ (0 ≤ id ∧ id ≤ 0xFFFFFF)
        · rw [if_pos hid]
          exact follows_of_error rfl
        · rw [if_neg hid]
          exact follows_modify (h.addVendor name id format)
  · exact follows_of_error rfl

/-- The marker is found again. -/
theorem Repeats.follows_parseParent (h : Repeats D s t) (column : Option String) :
    Follows (fun s' t' ↦ s' = s ∧ t' = t) (parseParent column) (parseParent column) s t := by
  unfold parseParent
  split
  · exact follows_pure ⟨rfl, rfl⟩
  · next option =>
    by_cases hoption : ¬ "parent=".toList <+: option.toList
    · rw [if_pos hoption]
      exact follows_of_error rfl
    · rw [if_neg hoption]
      refine follows_get_bind ?_
      rcases hmarker : s.dict.attribute? (String.ofList (option.toList.drop 7)) with - | marker
      · exact follows_of_error rfl
      · rw [h.attribute?_eq_some hmarker]
        show Follows _ (if marker.type = .evs then _ else _) (if marker.type = .evs then _ else _) s t
        by_cases htype : marker.type = .evs
        · rw [if_pos htype, if_pos htype]
          exact follows_pure ⟨rfl, rfl⟩
        · rw [if_neg htype, if_neg htype]
          exact follows_of_error rfl

theorem Repeats.follows_parseBeginVendor (h : Repeats D s t) {tokens : List String}
    (htokens : ∀ token ∈ tokens, token ≠ "") :
    Follows (Repeats D) (parseBeginVendor tokens) (parseBeginVendor tokens) s t := by
  unfold parseBeginVendor
  split
  · next _ vendor rest =>
    by_cases hrest : rest.length > 1
    · rw [if_pos hrest]
      exact follows_of_error rfl
    · rw [if_neg hrest]
      refine follows_get_bind ?_
      have hname : vendor ≠ "" := htokens vendor (by simp)
      rcases hknown : s.dict.vendors.forward.contains vendor with - | -
      · exact follows_of_error rfl
      · rw [h.contains_vendors hname hknown, if_neg (by decide)]
        refine (h.follows_parseParent rest.head?).bind fun marker s' t' hsame ↦ ?_
        obtain ⟨rfl, rfl⟩ := hsame
        exact follows_modify { h with vendor := rfl, evsParent := rfl, block := fun _ ↦ hname }
  · exact follows_of_error rfl

theorem Repeats.follows_parseEndVendor (h : Repeats D s t) (tokens : List String) :
    Follows (Repeats D) (parseEndVendor tokens) (parseEndVendor tokens) s t := by
  unfold parseEndVendor
  split
  · next _ vendor =>
    refine follows_get_bind ?_
    rw [h.vendor]
    by_cases hvendor : s.state.vendor ≠ vendor
    · rw [if_pos hvendor]
      exact follows_of_error rfl
    · rw [if_neg hvendor]
      exact follows_modify
        { h with vendor := rfl, evsParent := rfl, block := fun hblock ↦ absurd rfl hblock }
  · exact follows_of_error rfl

/-! ### Lines -/

/-- Tokens are not empty. -/
theorem ne_empty_of_mem_tokenize {text token : String} (h : token ∈ tokenize text) :
    token ≠ "" := by
  rw [tokenize, Tools.words] at h
  obtain ⟨word, hword, rfl⟩ := List.mem_map.1 h
  intro hempty
  exact List.ne_nil_of_mem_wordsBy hword (String.ofList_eq_empty_iff.1 hempty)

/-- **One line.** -/
theorem Repeats.run_readLine (h : Repeats D s t) {line : DictLine} {s' : DictReader}
    (hrun : (readLine E line).run s = .ok () s')
    (haccepts : ∀ e ∈ s'.deferParse, Accepts D E e.2) :
    ∃ t', (readLine E line).run t = .ok () t' ∧ Repeats D s' t' := by
  have hat : Repeats D (s.atLine line) (t.atLine line) := { h with }
  have htokens : ∀ token ∈ tokenize line.text, token ≠ "" := fun _ ↦ ne_empty_of_mem_tokenize
  rw [DictReader.run_readLine, parseTokens] at hrun ⊢
  generalize tokenize line.text = tokens at hrun htokens ⊢
  generalize tokens.head?.map Tools.upper = key at hrun ⊢
  split at hrun
  · exact hat.follows_parseAttribute htokens () s' hrun
  · rw [run_bind_of_ok (run_get _)] at hrun
    exact hat.run_parseValue hrun haccepts _
  · exact hat.follows_parseVendor tokens () s' hrun
  · exact hat.follows_parseBeginVendor htokens () s' hrun
  · exact hat.follows_parseEndVendor tokens () s' hrun
  · cases hrun
    exact ⟨t.atLine line, rfl, hat⟩

/-- What was put off stays put off. -/
theorem prefix_deferParse_readLine {line : DictLine} {s' : DictReader}
    (hrun : (readLine E line).run s = .ok () s') : s.deferParse <+: s'.deferParse := by
  have hwidens {m : ReaderMethod Unit} (hm : Respects Widens m)
      (hrun : m.run (s.atLine line) = .ok () s') : s.deferParse <+: s'.deferParse := by
    have hafter := hm (s.atLine line)
    rw [after_of_ok hrun] at hafter
    exact hafter.deferParse
  have huntouched {m : ReaderMethod Unit} (hm : Respects Untouched m)
      (hrun : m.run (s.atLine line) = .ok () s') : s.deferParse <+: s'.deferParse := by
    have hafter := hm (s.atLine line)
    rw [after_of_ok hrun] at hafter
    rw [hafter.deferParse]
    exact List.prefix_rfl
  rw [DictReader.run_readLine, parseTokens] at hrun
  split at hrun
  · exact hwidens (widens_parseAttribute _) hrun
  · rw [run_bind_of_ok (run_get _)] at hrun
    exact hwidens (widens_parseValue _ _ true) hrun
  · exact hwidens (widens_parseVendor _) hrun
  · exact huntouched (untouched_parseBeginVendor _) hrun
  · exact huntouched (untouched_parseEndVendor _) hrun
  · exact hwidens (respects_pure ()) hrun

theorem prefix_deferParse_forM {lines : List DictLine} {s' : DictReader}
    (hrun : (lines.forM (readLine E)).run s = .ok () s') : s.deferParse <+: s'.deferParse := by
  induction lines generalizing s with
  | nil =>
    cases hrun
    exact List.prefix_rfl
  | cons line lines ih =>
    obtain ⟨⟨⟩, s₁, hread, hrest⟩ := run_bind_eq_ok_iff.1 hrun
    exact (prefix_deferParse_readLine hread).trans (ih hrest)

/-- **All lines.** -/
theorem Repeats.run_forM_readLine (h : Repeats D s t) {lines : List DictLine} {s' : DictReader}
    (hrun : (lines.forM (readLine E)).run s = .ok () s')
    (haccepts : ∀ e ∈ s'.deferParse, Accepts D E e.2) :
    ∃ t', (lines.forM (readLine E)).run t = .ok () t' ∧ Repeats D s' t' := by
  induction lines generalizing s t with
  | nil =>
    cases hrun
    exact ⟨t, rfl, h⟩
  | cons line lines ih =>
    obtain ⟨⟨⟩, s₁, hread, hrest⟩ := run_bind_eq_ok_iff.1 hrun
    have hext := prefix_deferParse_forM hrest
    obtain ⟨t₁, ht₁, h₁⟩ := h.run_readLine hread fun e he ↦ haccepts e (hext.subset he)
    obtain ⟨t', ht', h'⟩ := ih h₁ hrest
    exact ⟨t', (run_bind_of_ok ht₁).trans ht', h'⟩

/-! ### What was put off -/

theorem Accepts.of_kept {tokens : List String} {s' : DictReader} (h : Accepts s.dict E tokens)
    (hkept : Kept s s') : Accepts s'.dict E tokens := by
  obtain ⟨head, attr, key, text, ref, adef, number, value, rfl, href, hadef, hnumber, hvalue⟩ := h
  have hbare := congrArg (·[ref]?) hkept.skeleton
  simp only [Dictionary.skeleton, List.getElem?_map, hadef, Option.map_some] at hbare
  obtain ⟨adef', hget, hsame⟩ := Option.map_eq_some_iff.1 hbare
  have htype : adef'.type = adef.type :=
    (congrArg Attribute.type hsame : adef'.bare.type = adef.bare.type)
  rw [← htype] at hnumber hvalue
  exact ⟨head, attr, key, text, ref, adef', number, value, rfl, hkept.attributes ▸ href, hget,
    hnumber, hvalue⟩

theorem accepts_of_run_parseValue {state : ParseState} {tokens : List String} {s' : DictReader}
    (hrun : (parseValue E state tokens false).run s = .ok () s') : Accepts s.dict E tokens := by
  unfold parseValue at hrun
  split at hrun
  · next head attr key text =>
    rw [run_bind_of_ok (run_get s)] at hrun
    rcases href : s.dict.attributes.get? attr with - | ref
    · rw [href] at hrun
      cases hrun
    · rw [href] at hrun
      simp only [run_bind_eq_ok_iff, run_liftM_eq_ok_iff] at hrun
      obtain ⟨adef, s₁, ⟨hadef, -⟩, number, s₂, ⟨hnumber, -⟩, value, s₃, ⟨hvalue, -⟩, -⟩ := hrun
      refine ⟨head, attr, key, text, ref, adef, number, value, rfl, href, ?_, hnumber, hvalue⟩
      exact getElem?_of_lookup href hadef
  · cases hrun

/-- **Lines that were put off** are accepted by the dictionary they end up in. -/
theorem accepts_of_run_deferred {lines : List (ParseState × List String)} {s' : DictReader}
    (hrun : (lines.forM fun e ↦ parseValue E e.1 e.2 false).run s = .ok () s') :
    ∀ e ∈ lines, Accepts s'.dict E e.2 := by
  induction lines generalizing s with
  | nil => exact fun e he ↦ (List.not_mem_nil he).elim
  | cons e lines ih =>
    obtain ⟨⟨⟩, s₁, hread, hrest⟩ := run_bind_eq_ok_iff.1 hrun
    have hkept := kept_parseValue E e.1 e.2 false s
    rw [after_of_ok hread] at hkept
    have hkept' := respects_deferParse E lines s₁
    rw [after_of_ok hrest] at hkept'
    intro e' he'
    rcases List.mem_cons.1 he' with rfl | he'
    · exact (accepts_of_run_parseValue hread).of_kept (trans_of Kept hkept hkept')
    · exact ih hrest e' he'

/-- They add to the objects that the names stand for in the end. -/
theorem exists_name_of_mem_deferredName {lines : List (ParseState × List String)} {n : Naming}
    (h : n ∈ deferredName E lines s) : ∃ name, s.dict.attributes.get? name = some n.ref := by
  induction lines generalizing s with
  | nil => cases h
  | cons e lines ih =>
    rcases List.mem_append.1 h with h | h
    · unfold naming? at h
      split at h
      · split at h
        · next href _ =>
          obtain rfl := List.mem_singleton.1 h
          exact ⟨_, href⟩
        · cases h
      · cases h
    · obtain ⟨name, hname⟩ := ih h
      exact ⟨name, (kept_parseValue E e.1 e.2 false s).attributes ▸ hname⟩

/-- No vendor changes between two states. -/
structure SameVendors (s s' : DictReader) : Prop where
  vendors : s'.dict.vendors = s.dict.vendors
  vendorFormats : s'.dict.vendorFormats = s.dict.vendorFormats

instance : IsPreorder DictReader SameVendors where
  refl := fun _ ↦ ⟨rfl, rfl⟩
  trans := fun _ _ _ h h' ↦
    ⟨h'.vendors.trans h.vendors, h'.vendorFormats.trans h.vendorFormats⟩

/-- `VALUE` lines say nothing about vendors. -/
theorem sameVendors_parseValue (state : ParseState) (tokens : List String) (defer : Bool) :
    Respects SameVendors (parseValue E state tokens defer) :=
  respects_parseValue E (fun _ _ ↦ ⟨rfl, rfl⟩) (fun _ _ _ _ ↦ ⟨rfl, rfl⟩) state tokens defer

theorem sameVendors_of_run_deferred {lines : List (ParseState × List String)} {s' : DictReader}
    (hrun : (lines.forM fun e ↦ parseValue E e.1 e.2 false).run s = .ok () s') :
    SameVendors s s' := by
  have hrespects : Respects SameVendors (lines.forM fun e ↦ parseValue E e.1 e.2 false) :=
    respects_forM fun e _ ↦ sameVendors_parseValue e.1 e.2 false
  have hafter := hrespects s
  rwa [after_of_ok hrun] at hafter

/-! ### From the first line -/

/-- The parser at the beginning of the first file. -/
def start : DictReader := { dict := .empty, state := { tlvs := ∅ } }

/-- What the `VALUE` lines of a file add that stand below their attributes. -/
def earlyNames (E : Env) (lines : List DictLine) : List Naming := linesName E lines start

/-- What the `VALUE` lines of a file add that were put off. -/
def lateNames (E : Env) (lines : List DictLine) : List Naming :=
  let s := after (lines.forM (readLine E)) start
  deferredName E s.deferParse s

/-- The second reading starts with the containers of the first. -/
theorem repeats_start (tlvs : OrderedDict (List Int) ℕ) :
    Repeats D start { dict := D, state := { tlvs } } where
  heap := ⟨D.heap, rfl, (List.append_nil _).symm⟩
  attributes := ⟨[], rfl, rfl⟩
  attrindex := ⟨[], rfl, rfl⟩
  vendors := ⟨[], rfl, rfl⟩
  vendorFormats := ⟨[], rfl, rfl⟩
  vendor := rfl
  evsParent := rfl
  block := fun h ↦ absurd rfl h
  tlvs := fun _ _ h ↦ by cases h
  deferParse := rfl

end

end DictReader

namespace Attribute

theorem eq_of_bare_eq {attr attr' : Attribute} (hbare : attr.bare = attr'.bare)
    (hvalues : attr.values = attr'.values) : attr = attr' := by
  have hattr (attr : Attribute) : attr = { attr.bare with values := attr.values } := rfl
  rw [hattr attr, hattr attr', hbare, hvalues]

end Attribute

namespace Dictionary

/-- The attribute `n` parents above an attribute. -/
def above (D : Dictionary) : ℕ → Attribute → Option Attribute
  | 0, attr => some attr
  | n + 1, attr => (D.parentOf attr).bind (D.above n)

/-- What stands `n` parents above the attribute of a name. -/
def ancestor (D : Dictionary) (name : String) (n : ℕ) : Option Attribute :=
  ((D.attribute? name).bind (D.above n)).map Attribute.unlinked

/-- The same dictionary up to the places of the attributes in the heap: the same names, for the same
attributes below the same parents, the same index, and the same vendors and vendor formats. -/
structure SameAs (D D' : Dictionary) : Prop where
  names : D'.attributes.keys = D.attributes.keys
  ancestors : ∀ name n, D'.ancestor name n = D.ancestor name n
  attrindex : D'.attrindex = D.attrindex
  vendors : D'.vendors = D.vendors
  vendorFormats : D'.vendorFormats = D.vendorFormats

end Dictionary

namespace DictReader

variable {E : Env} {D : Dictionary} {lines : List DictLine} {s t : DictReader}

theorem Repeats.above_moved (h : Repeats D s t) (n : ℕ) (attr : Attribute) :
    t.dict.above n (attr.moved D.heap.length) =
      (s.dict.above n attr).map (Attribute.moved D.heap.length) := by
  induction n generalizing attr with
  | zero => rfl
  | succ n ih =>
    rw [Dictionary.above, Dictionary.above, h.parentOf_moved]
    rcases s.dict.parentOf attr with - | parent
    · rfl
    · exact ih parent

/-- The second reading leaves what the first one had before it came to what it had put off. -/
theorem Repeats.ancestor_eq (h : Repeats D s t) (hnames : s.dict.attributes = D.attributes)
    (name : String) (n : ℕ) : t.dict.ancestor name n = s.dict.ancestor name n := by
  rw [Dictionary.ancestor, Dictionary.ancestor]
  have hattr : t.dict.attribute? name =
      (s.dict.attribute? name).map (Attribute.moved D.heap.length) := by
    rw [Dictionary.attribute?, Dictionary.attribute?, h.get?_attributes, ← hnames]
    rcases s.dict.attributes.get? name with - | ref
    · rfl
    · exact h.getElem?_heap ref
  rw [hattr]
  rcases s.dict.attribute? name with - | attr
  · rfl
  · show (t.dict.above n (attr.moved D.heap.length)).map _ = (s.dict.above n attr).map _
    rw [h.above_moved, Option.map_map]
    rfl

/-- **The two readings.** The lines are read from the start, what was put off is read, and the lines
are read again. -/
structure ReadTwice (E : Env) (lines : List DictLine) (D : Dictionary) (s t : DictReader) : Prop where
  repeats : Repeats D s t
  kept : s.dict.skeleton = D.skeleton ∧ s.dict.attributes = D.attributes ∧
    s.dict.attrindex = D.attrindex
  sameVendors : s.dict.vendors = D.vendors ∧ s.dict.vendorFormats = D.vendorFormats
  early : Named E s.dict (earlyNames E lines)
  late : Named E D (earlyNames E lines ++ lateNames E lines)
  known : ∀ n ∈ lateNames E lines, ∃ name, D.attributes.get? name = some n.ref

/-- **The second reading** gets to the end, if it gets started. -/
theorem exists_readTwice (h : (Dictionary.readDictionary E lines).run .empty = .ok () D)
    (hrooted : D.Rooted) :
    ∃ s t, ReadTwice E lines D s t ∧ (Dictionary.readDictionary E lines).run D = .ok () t.dict := by
  obtain ⟨tlvs₀, s', hstart, -, hlines, rfl⟩ := Dictionary.exists_startReading_of_run h
  obtain rfl : ∅ = tlvs₀ := Except.ok.inj hstart
  obtain ⟨⟨⟩, s, hfirst, hdeferred⟩ := run_bind_eq_ok_iff.1 hlines
  rw [run_bind_of_ok (run_get s)] at hdeferred
  have hkept := respects_deferParse E s.deferParse s
  rw [after_of_ok hdeferred] at hkept
  have hvendors := sameVendors_of_run_deferred hdeferred
  have hearly : Named E s.dict (earlyNames E lines) := named_of_run_forM_readLine named_empty hfirst
  have hafter : after (lines.forM (readLine E)) start = s := after_of_ok hfirst
  have hlate : lateNames E lines = deferredName E s.deferParse s := by rw [lateNames, hafter]
  -- the second reading
  obtain ⟨tlvs, htlvs⟩ := Dictionary.exists_existingContainerChains_iff.2 hrooted
  obtain ⟨t, ht, hrepeats⟩ :=
    (repeats_start tlvs).run_forM_readLine hfirst (accepts_of_run_deferred hdeferred)
  refine ⟨s, t, ⟨hrepeats, ⟨hkept.skeleton.symm, hkept.attributes.symm, hkept.attrindex.symm⟩,
    ⟨hvendors.vendors.symm, hvendors.vendorFormats.symm⟩, hearly, ?_, ?_⟩, ?_⟩
  · rw [hlate]
    exact named_of_run_deferred hearly hdeferred
  · rw [hlate, hkept.attributes]
    exact fun n hn ↦ exists_name_of_mem_deferredName hn
  · have hread : (readLines E lines).run { dict := s'.dict, state := { tlvs } } = .ok () t := by
      rw [readLines, run_bind_of_ok ht, run_bind_of_ok (run_get t), hrepeats.deferParse]
      rfl
    rw [Dictionary.readDictionary, run_bind_of_ok (run_get _),
      run_bind_of_ok (run_liftM_eq_ok_iff.2 ⟨htlvs, rfl⟩), run_onPart, hread]

/-- What the `VALUE` lines that were put off add makes no difference. -/
def AddsNothing (E : Env) (lines : List DictLine) : Prop :=
  ∀ ref, BiDict.ofPairs (addedTo (earlyNames E lines ++ lateNames E lines) ref) =
    BiDict.ofPairs (addedTo (earlyNames E lines) ref)

theorem ReadTwice.heap_eq (h : ReadTwice E lines D s t) (hnothing : AddsNothing E lines) :
    s.dict.heap = D.heap := by
  refine List.ext_getElem? fun ref ↦ ?_
  have hbare := congrArg (·[ref]?) h.kept.1
  simp only [Dictionary.skeleton, List.getElem?_map] at hbare
  rcases hs : s.dict.heap[ref]? with - | attr
  · rw [hs] at hbare
    rw [Option.map_eq_none_iff.1 hbare.symm]
  · rw [hs] at hbare
    obtain ⟨attr', hD, hsame⟩ := Option.map_eq_some_iff.1 hbare.symm
    have hvalues : attr'.values = attr.values := by
      rw [h.late.values ref attr' hD, hnothing ref, ← h.early.values ref attr hs]
    rw [hD, Attribute.eq_of_bare_eq hsame hvalues]

/-- Only attributes that have a name get named values late. -/
theorem ReadTwice.addsNothing (h : ReadTwice E lines D s t)
    (hsame : ∀ name, s.dict.ancestor name 0 = D.ancestor name 0) : AddsNothing E lines := by
  intro ref
  by_cases hname : ∃ name, D.attributes.get? name = some ref
  · obtain ⟨name, hname⟩ := hname
    rcases hs : s.dict.heap[ref]? with - | attr
    · -- nothing is there that could have named values
      have hnone (ns : List Naming) (hbounded : ∀ n ∈ ns, n.ref < s.dict.heap.length) :
          addedTo ns ref = [] := by
        have hlen := List.getElem?_eq_none_iff.1 hs
        have hfilter : ns.filter (·.ref = ref) = [] := by
          rw [List.filter_eq_nil_iff]
          intro n hn
          have := hbounded n hn
          simp
          omega
        rw [addedTo, hfilter]
        rfl
      have hlen : s.dict.heap.length = D.heap.length := by
        simpa [Dictionary.skeleton] using congrArg List.length h.kept.1
      rw [hnone _ h.early.bounded, hnone _ (hlen ▸ h.late.bounded)]
    · have hbare := congrArg (·[ref]?) h.kept.1
      simp only [Dictionary.skeleton, List.getElem?_map, hs] at hbare
      obtain ⟨attr', hD, -⟩ := Option.map_eq_some_iff.1 hbare.symm
      have hattr := hsame name
      simp only [Dictionary.ancestor, Dictionary.attribute?, h.kept.2.1, hname, Option.bind_some, hs,
        hD, Dictionary.above, Option.map_some, Option.some.injEq] at hattr
      have hunlinked : attr.unlinked.values = attr'.unlinked.values := congrArg _ hattr
      have hvalues : attr.values = attr'.values := hunlinked
      rw [← h.late.values ref attr' hD, ← h.early.values ref attr hs, hvalues]
  · have hlate : (lateNames E lines).filter (·.ref = ref) = [] := by
      rw [List.filter_eq_nil_iff]
      intro n hn href
      obtain ⟨name, hknown⟩ := h.known n hn
      exact hname ⟨name, of_decide_eq_true href ▸ hknown⟩
    rw [addedTo, List.filter_append, hlate, List.append_nil]
    rfl

/-- The second reading leaves the same dictionary if and only if nothing was put off that makes a
difference. -/
theorem ReadTwice.sameAs_iff (h : ReadTwice E lines D s t) :
    D.SameAs t.dict ↔ AddsNothing E lines := by
  constructor
  · intro hsame
    exact h.addsNothing fun name ↦
      (h.repeats.ancestor_eq h.kept.2.1 name 0).symm.trans (hsame.ancestors name 0)
  · intro hnothing
    have hheap := h.heap_eq hnothing
    exact {
      names := by
        obtain ⟨l, hs, ht⟩ := h.repeats.attributes
        rw [h.kept.2.1] at hs
        rw [ht]
        refine OrderedDict.keys_setAll_of_mem fun e he ↦ ?_
        obtain ⟨e', he', rfl⟩ := List.mem_map.1 he
        show e'.1 ∈ D.attributes.keys
        rw [hs]
        exact OrderedDict.mem_keys_setAll he'
      ancestors := fun name n ↦ by
        have habove (n : ℕ) (attr : Attribute) : s.dict.above n attr = D.above n attr := by
          induction n generalizing attr with
          | zero => rfl
          | succ n ih =>
            have hparent : s.dict.parentOf attr = D.parentOf attr := by
              rw [Dictionary.parentOf, Dictionary.parentOf, hheap]
            rw [Dictionary.above, Dictionary.above, hparent, funext ih]
        rw [h.repeats.ancestor_eq h.kept.2.1, Dictionary.ancestor, Dictionary.ancestor,
          Dictionary.attribute?, Dictionary.attribute?, hheap, h.kept.2.1, funext (habove n)]
      attrindex := by
        obtain ⟨l, hs, ht⟩ := h.repeats.attrindex
        rw [ht, ← h.kept.2.2, hs, BiDict.addAll_addAll]
      vendors := by
        obtain ⟨l, hs, ht⟩ := h.repeats.vendors
        rw [ht, ← h.sameVendors.1, hs, BiDict.addAll_addAll]
      vendorFormats := by
        obtain ⟨l, hs, ht⟩ := h.repeats.vendorFormats
        rw [ht, ← h.sameVendors.2, hs, OrderedDict.setAll_setAll] }

end DictReader

/-- **Reading a file again** changes nothing, if and only if no container is below a circle of parents
and the `VALUE` lines that stand above their attributes add nothing to what the others add. -/
theorem reads_again_iff {E : Env} {lines : List DictLine} {D : Dictionary}
    (h : (Dictionary.readDictionary E lines).run .empty = .ok () D) :
    (∃ D', (Dictionary.readDictionary E lines).run D = .ok () D' ∧ D.SameAs D') ↔
      D.Rooted ∧ DictReader.AddsNothing E lines := by
  constructor
  · rintro ⟨D', hagain, hsame⟩
    obtain ⟨tlvs, -, htlvs, -⟩ := Dictionary.exists_startReading_of_run hagain
    have hrooted := Dictionary.exists_existingContainerChains_iff.1 ⟨tlvs, htlvs⟩
    obtain ⟨s, t, htwice, ht⟩ := DictReader.exists_readTwice h hrooted
    cases hagain.symm.trans ht
    exact ⟨hrooted, htwice.sameAs_iff.1 hsame⟩
  · rintro ⟨hrooted, hnothing⟩
    obtain ⟨s, t, htwice, ht⟩ := DictReader.exists_readTwice h hrooted
    exact ⟨t.dict, ht, htwice.sameAs_iff.2 hnothing⟩

/-- A vendor, a container, and a value that is put off and stands below its attribute once more. -/
theorem reads_again_mixedLines :
    let E := Env.ofByte (fun _ ↦ 0) fun _ _ ↦ 0
    let lines := DictLine.ofTexts ["VENDOR Acme 5000", "BEGIN-VENDOR Acme",
      "ATTRIBUTE Acme-Mode 1 integer", "VALUE Acme-Mode Fast 2", "END-VENDOR Acme",
      "ATTRIBUTE Box 10 tlv", "ATTRIBUTE Box-Item 10.1 integer", "VALUE Test On 1",
      "ATTRIBUTE Test 1 integer", "VALUE Test On 1"]
    ∃ D, (Dictionary.readDictionary E lines).run .empty = .ok () D ∧
      ∃ D', (Dictionary.readDictionary E lines).run D = .ok () D' ∧ D.SameAs D' := by
  intro E lines
  have hload := run_eq_ok_of_returns
    (by decide +kernel : returns (Dictionary.readDictionary E lines) .empty = true)
  have hchains : (Dictionary.existingContainerChains
      (after (Dictionary.readDictionary E lines) .empty)).toOption.isSome = true := by
    decide +kernel
  have hearly : DictReader.earlyNames E lines =
      [⟨0, "Fast", .bytes [0, 0, 0, 2]⟩, ⟨3, "On", .bytes [0, 0, 0, 1]⟩] := by decide +kernel
  have hlate : DictReader.lateNames E lines = [⟨3, "On", .bytes [0, 0, 0, 1]⟩] := by decide +kernel
  refine ⟨_, hload, (reads_again_iff hload).2 ⟨?_, fun ref ↦ ?_⟩⟩
  · refine Dictionary.exists_existingContainerChains_iff.1 ?_
    rcases htlvs : Dictionary.existingContainerChains _ with e | tlvs
    · rw [htlvs] at hchains
      cases hchains
    · exact ⟨tlvs, rfl⟩
  · rw [hearly, hlate]
    by_cases href : ref = 3
    · subst href
      rfl
    · have hnone : [(⟨3, "On", .bytes [0, 0, 0, 1]⟩ : Naming)].filter (·.ref = ref) = [] := by
        simp [Ne.symm href]
      rw [DictReader.addedTo, DictReader.addedTo, List.filter_append, hnone, List.append_nil]

/-- The value stands above its attribute: the second reading adds it to the old attribute and then
declares a new one. -/
theorem not_reads_again_valueFirst :
    let E := Env.ofByte (fun _ ↦ 0) fun _ _ ↦ 0
    let lines := DictLine.ofTexts ["VALUE Test On 1", "ATTRIBUTE Test 1 integer"]
    ∃ D, (Dictionary.readDictionary E lines).run .empty = .ok () D ∧
      ¬ ∃ D', (Dictionary.readDictionary E lines).run D = .ok () D' ∧ D.SameAs D' := by
  intro E lines
  refine ⟨_, run_eq_ok_of_returns (by decide +kernel), ?_⟩
  rintro ⟨D', hagain, hsame⟩
  obtain rfl := after_of_ok hagain
  have hvalue := congrArg (fun attr? : Option Attribute ↦
    (attr?.bind fun attr ↦ attr.values.forward.get? "On").isSome) (hsame.ancestors "Test" 0)
  revert hvalue
  decide +kernel

end Pyrad2
