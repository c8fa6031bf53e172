import Mathlib.Data.Fintype.Card
import Pyrad2.Dictionary.Keys
import Pyrad2.Packet.Raises

/-!
# Errors in dictionary files

What reading a dictionary raises besides a `ParseError`.

Most of what can be wrong with a line is checked and reported with the file and the line. Four things
are not. A part of a dotted code may be no number. An attribute may stand in a block of a marker that
hangs under no wrapper. The text of a value may be none of its attribute's type. The format of a
vendor may be left out behind the word that announces it. Before the first line, the table of
containers is built from the parent links of a dictionary that is filled already, and these may run
in a circle.
-/

namespace Pyrad2

open EStateM

/-- Is this a `ParseError`? -/
def Exn.IsParseError : Exn → Prop
  | parseError .. => True
  | _ => False

/-- From the state, the method returns or raises a `ParseError`. -/
def Reports {σ α : Type} (m : Method σ α) (s : σ) : Prop :=
  Ensures m s (fun _ _ ↦ True) fun e _ ↦ e.IsParseError

section

variable {σ α β : Type} {m : Method σ α} {f : α → Method σ β} {s s' : σ} {a : α} {e : Exn}

end

namespace Dictionary

variable {D : Dictionary}

/-! ### Parents in a circle -/

/-- There are `n` parents above an attribute. -/
inductive HasParents (D : Dictionary) : ℕ → Attribute → Prop
  | zero {attr : Attribute} (h : D.parentOf attr = none) : HasParents D 0 attr
  | succ {n : ℕ} {attr parent : Attribute} (h : D.parentOf attr = some parent)
      (hparent : HasParents D n parent) : HasParents D (n + 1) attr

theorem HasParents.unique {n k : ℕ} {attr : Attribute} (h : D.HasParents n attr)
    (h' : D.HasParents k attr) : n = k := by
  induction h generalizing k with
  | zero htop =>
    rcases h' with - | ⟨hparent, -⟩
    · rfl
    · cases htop.symm.trans hparent
  | succ hparent _ ih =>
    rcases h' with htop | ⟨hparent', h'⟩
    · cases hparent.symm.trans htop
    · cases hparent.symm.trans hparent'
      rw [ih h']

/-- Every number below is that of a parent, which is in the heap. -/
theorem HasParents.exists_above {n k : ℕ} {attr : Attribute} (h : D.HasParents n attr)
    (hk : k < n) : ∃ i : Fin D.heap.length, D.HasParents k D.heap[i] := by
  induction h with
  | zero => omega
  | succ hparent h ih =>
    rename_i n attr parent
    obtain rfl | hlt := Nat.eq_or_lt_of_le (Nat.lt_succ_iff.1 hk)
    · rw [parentOf] at hparent
      obtain ⟨ref, -, hget⟩ := Option.bind_eq_some_iff.1 hparent
      obtain ⟨hlt, hparent⟩ := List.getElem?_eq_some_iff.1 hget
      exact ⟨⟨ref, hlt⟩, by rw [Fin.getElem_fin, hparent]; exact h⟩
    · exact ih hlt

/-- No attribute has more parents than there are attributes. -/
theorem HasParents.le_length {n : ℕ} {attr : Attribute} (h : D.HasParents n attr) :
    n ≤ D.heap.length := by
  choose above habove using fun k : Fin n ↦ h.exists_above k.isLt
  have hinjective : Function.Injective above := by
    intro j k hjk
    have hj := habove j
    rw [hjk] at hj
    exact Fin.ext (hj.unique (habove k))
  simpa using Fintype.card_le_of_injective above hinjective

theorem exists_codesUp_iff {fuel : ℕ} {attr : Attribute} :
    (∃ codes, D.codesUp fuel attr = .ok codes) ↔ ∃ n < fuel, D.HasParents n attr := by
  induction fuel generalizing attr with
  | zero => simp [codesUp]
  | succ fuel ih =>
    rcases hparent : D.parentOf attr with - | parent
    · rw [codesUp, hparent]
      exact ⟨fun _ ↦ ⟨0, Nat.succ_pos _, .zero hparent⟩, fun _ ↦ ⟨_, rfl⟩⟩
    · have hcodes : D.codesUp (fuel + 1) attr =
          D.codesUp fuel parent >>= fun codes ↦ pure (attr.code :: codes) := by
        rw [codesUp, hparent]
      rw [hcodes]
      constructor
      · rintro ⟨codes, h⟩
        obtain ⟨above, habove, -⟩ := Except.bind_eq_ok_iff.1 h
        obtain ⟨n, hn, h⟩ := ih.1 ⟨above, habove⟩
        exact ⟨n + 1, Nat.succ_lt_succ hn, .succ hparent h⟩
      · rintro ⟨n, hn, h⟩
        rcases h with htop | ⟨hparent', h⟩
        · cases hparent.symm.trans htop
        · cases hparent.symm.trans hparent'
          obtain ⟨above, habove⟩ := ih.2 ⟨_, Nat.lt_of_succ_lt_succ hn, h⟩
          exact ⟨attr.code :: above, by rw [habove]; rfl⟩

/-- No container is below a circle of parents. -/
def Rooted (D : Dictionary) : Prop :=
  ∀ name ref attr, (name, ref) ∈ D.attributes.entries → D.heap[ref]? = some attr →
    attr.type.isContainer → ∃ n, D.HasParents n attr

/-- An attribute is entered into the table of containers, if it is one. -/
def enterChain (D : Dictionary) (chains : OrderedDict (List Int) ℕ) (e : String × ℕ) :
    Except Exn (OrderedDict (List Int) ℕ) :=
  match D.heap[e.2]? with
  | some attr =>
    if attr.type.isContainer then do
      return chains.set (← D.codesUp (D.heap.length + 1) attr).reverse e.2
    else .ok chains
  | none => .ok chains

theorem existingContainerChains_eq :
    D.existingContainerChains = D.attributes.entries.foldlM D.enterChain ∅ := rfl

theorem exists_enterChain_iff (chains : OrderedDict (List Int) ℕ) (e : String × ℕ) :
    (∃ c, D.enterChain chains e = .ok c) ↔ ∀ attr, D.heap[e.2]? = some attr →
      attr.type.isContainer → ∃ n, D.HasParents n attr := by
  rw [enterChain]
  rcases D.heap[e.2]? with - | attr
  · simp
  · by_cases htype : attr.type.isContainer
    · dsimp only
      rw [if_pos htype]
      have hfits : (∃ n, D.HasParents n attr) ↔ ∃ n < D.heap.length + 1, D.HasParents n attr := by
        constructor
        · rintro ⟨n, h⟩
          exact ⟨n, Nat.lt_succ_of_le h.le_length, h⟩
        · rintro ⟨n, _, h⟩
          exact ⟨n, h⟩
      simp only [Option.some.injEq, forall_eq', htype, true_imp_iff]
      rw [hfits, ← exists_codesUp_iff]
      rcases D.codesUp (D.heap.length + 1) attr with e | codes
      · simp
      · exact ⟨fun _ ↦ ⟨codes, rfl⟩, fun _ ↦ ⟨_, rfl⟩⟩
    · simp [htype]

/-- The table of containers is built unless parents run in a circle. -/
theorem exists_existingContainerChains_iff :
    (∃ tlvs, D.existingContainerChains = .ok tlvs) ↔ D.Rooted := by
  rw [existingContainerChains_eq,
    Except.exists_foldlM_eq_ok_iff fun chains e _ ↦ exists_enterChain_iff chains e]
  exact ⟨fun h name ref attr hmem hattr htype ↦ h (name, ref) hmem attr hattr htype,
    fun h e he attr hattr htype ↦ h e.1 e.2 attr he hattr htype⟩

end Dictionary

namespace Tools

end Tools

namespace DictReader

/-! ### What may go wrong unreported -/

variable {E : Env} {s s' : DictReader} {tokens : List String}

/-- The vendor of the block is known, and so is its marker. -/
structure InBlock (s : DictReader) : Prop where
  vendor : s.state.vendor ≠ "" ∨ s.state.evsParent.isSome →
    s.dict.vendors.forward.contains s.state.vendor
  marker : ∀ name, s.state.evsParent = some name → (s.dict.attribute? name).isSome

/-- Nothing that was known is forgotten, and the block is the same. -/
structure Widens (s s' : DictReader) : Prop where
  vendor : s'.state.vendor = s.state.vendor
  evsParent : s'.state.evsParent = s.state.evsParent
  vendors : ∀ name, s.dict.vendors.forward.contains name → s'.dict.vendors.forward.contains name
  attributes : ∀ name, (s.dict.attribute? name).isSome → (s'.dict.attribute? name).isSome
  deferParse : s.deferParse <+: s'.deferParse

instance : IsPreorder DictReader Widens where
  refl := fun _ ↦ ⟨rfl, rfl, fun _ h ↦ h, fun _ h ↦ h, List.prefix_rfl⟩
  trans := fun _ _ _ h h' ↦ ⟨h'.vendor.trans h.vendor, h'.evsParent.trans h.evsParent,
    fun name hname ↦ h'.vendors name (h.vendors name hname),
    fun name hname ↦ h'.attributes name (h.attributes name hname), h.deferParse.trans h'.deferParse⟩

theorem Widens.inBlock (h : Widens s s') (hs : s.InBlock) : s'.InBlock where
  vendor := by
    rw [h.vendor, h.evsParent]
    exact fun hblock ↦ h.vendors _ (hs.vendor hblock)
  marker name hname := h.attributes name (hs.marker name (h.evsParent ▸ hname))

theorem isSome_attribute?_modifyAt (D : Dictionary) (ref : ℕ) (f : Attribute → Attribute)
    (name : String) : ((D.modifyAt ref f).attribute? name).isSome = (D.attribute? name).isSome := by
  rw [Dictionary.attribute?, Dictionary.attribute?]
  show ((D.attributes.get? name).bind fun i ↦ (D.modifyAt ref f).heap[i]?).isSome = _
  rcases D.attributes.get? name with - | i
  · rfl
  · rw [Option.bind_some, Option.bind_some, Dictionary.getElem?_modifyAt]
    split
    · exact Option.isSome_map
    · rfl

/-- A changed attribute is known as before. -/
theorem widens_of_modifyAt {D : Dictionary} {ref : ℕ} {f : Attribute → Attribute}
    (h : Widens s { s with dict := D }) : Widens s { s with dict := D.modifyAt ref f } where
  vendor := rfl
  evsParent := rfl
  vendors := h.vendors
  attributes name hname := by
    show ((D.modifyAt ref f).attribute? name).isSome
    rw [isSome_attribute?_modifyAt]
    exact h.attributes name hname
  deferParse := h.deferParse

theorem widens_enter (line : AttributeLine) (key : Key) : Widens s (s.enter line key) where
  vendor := rfl
  evsParent := rfl
  vendors _ h := h
  attributes name hname := by
    obtain ⟨attr, hattr⟩ := Option.isSome_iff_exists.1 hname
    obtain ⟨i, hi, hget⟩ := Option.bind_eq_some_iff.1 hattr
    show (((s.dict.attributes.set line.name s.dict.heap.length).get? name).bind fun i ↦
      (s.dict.heap ++ [s.newAttribute line])[i]?).isSome
    rw [OrderedDict.get?_set]
    split
    · simp
    · rw [hi, Option.bind_some, List.getElem?_append_left (List.getElem?_eq_some_iff.1 hget).1,
        hget]
      rfl
  deferParse := List.prefix_rfl

theorem widens_attach (line : AttributeLine) (ref : ℕ) : Respects Widens (attach line ref) := by
  intro s
  rw [attach, after_bind_of_ok (run_get s)]
  split
  · next name _ =>
    rcases s.dict.ref name with e | parent
    · exact refl_of Widens s
    · exact widens_of_modifyAt (refl_of Widens s)
  · split
    · split
      · exact refl_of Widens s
      · exact widens_of_modifyAt (widens_of_modifyAt (refl_of Widens s))
    · exact refl_of Widens s

theorem widens_parseAttribute (tokens : List String) :
    Respects Widens (parseAttribute tokens) := by
  have heq (s s' : DictReader) (h : s = s') : Widens s s' := h ▸ refl_of Widens s
  refine ((respects_parseAttributeLine tokens).mono heq).bind fun line s ↦ ?_
  rw [declare, after_bind_of_ok (run_get s)]
  rcases s.attributeKey line with e | key
  · exact refl_of Widens s
  · have hset : (set (s.enter line key) : ReaderMethod Unit).run s = .ok () (s.enter line key) := rfl
    rw [after_bind_of_ok (run_liftM_ok key s), after_bind_of_ok hset]
    exact trans_of Widens (widens_enter line key) (widens_attach line _ _)

theorem widens_parseValue (state : ParseState) (tokens : List String) (defer : Bool) :
    Respects Widens (parseValue E state tokens defer) :=
  respects_parseValue E (fun _ _ ↦ ⟨rfl, rfl, fun _ h ↦ h, fun _ h ↦ h, List.prefix_append _ _⟩)
    (fun s _ _ _ ↦ widens_of_modifyAt (refl_of Widens s)) state tokens defer

theorem widens_parseVendor (tokens : List String) : Respects Widens (parseVendor tokens) := by
  have hformat (column : Option String) : Respects Widens (parseFormatColumn column) := by
    unfold parseFormatColumn
    split
    · exact respects_pure _
    · split
      · split
        · exact respects_pure _
        · exact respects_parseError _
      · exact respects_throw _
      · exact respects_parseError _
      · exact respects_throw _
  unfold parseVendor
  split
  · next _ name vendor rest =>
    by_cases hrest : rest.length > 1
    · rw [if_pos hrest]
      exact respects_parseError_bind _ _
    · rw [if_neg hrest]
      refine (hformat rest.head?).bind fun format ↦ ?_
      split
      · exact respects_parseError _
      · split
        · exact respects_parseError_bind _ _
        · refine respects_modify fun s ↦
            ⟨rfl, rfl, fun known hknown ↦ ?_, fun _ h ↦ h, List.prefix_rfl⟩
          show ((s.dict.vendors.forward.set name _).get? known).isSome
          rw [OrderedDict.get?_set]
          split
          · rfl
          · exact hknown
  · exact respects_parseError _

/-- A marker is known when its block begins. -/
theorem ensures_parseParent (column : Option String) : Ensures (parseParent column) s
    (fun marker s' ↦ s' = s ∧ ∀ name, marker = some name → (s.dict.attribute? name).isSome)
    fun _ _ ↦ True := by
  unfold parseParent
  split
  · exact ⟨rfl, fun _ h ↦ (by cases h)⟩
  · next option =>
    by_cases hoption : ¬ "parent=".toList <+: option.toList
    · rw [if_pos hoption]
      exact ensures_bind.2 trivial
    · rw [if_neg hoption, ensures_bind, ensures_get]
      split
      · exact trivial
      · next marker hmarker =>
        split
        · refine ⟨rfl, fun name hname ↦ ?_⟩
          cases hname
          rw [hmarker]
          rfl
        · exact trivial

theorem inBlock_parseBeginVendor : Ensures (parseBeginVendor tokens) s (fun _ s' ↦ s'.InBlock)
    fun _ _ ↦ True := by
  unfold parseBeginVendor
  split
  · next _ vendor rest =>
    by_cases hrest : rest.length > 1
    · rw [if_pos hrest]
      exact ensures_bind.2 trivial
    · rw [if_neg hrest, ensures_bind, ensures_get]
      by_cases hvendor : s.dict.vendors.forward.contains vendor
      · rw [hvendor, if_neg (by decide), ensures_bind]
        refine (ensures_parseParent rest.head?).imp ?_ fun _ _ h ↦ h
        rintro marker s' ⟨rfl, hmarker⟩
        exact ⟨fun _ ↦ hvendor, hmarker⟩
      · rw [Bool.eq_false_of_not_eq_true hvendor]
        exact ensures_bind.2 trivial
  · exact trivial

theorem inBlock_parseEndVendor : Ensures (parseEndVendor tokens) s (fun _ s' ↦ s'.InBlock)
    fun _ _ ↦ True := by
  have hdone (s : DictReader) (h : s.state.vendor = "") (hevs : s.state.evsParent = none) :
      s.InBlock :=
    ⟨fun hblock ↦ by simp [h, hevs] at hblock, fun name hname ↦ by simp [hevs] at hname⟩
  unfold parseEndVendor
  split
  · rw [ensures_bind, ensures_get]
    split
    · exact ensures_bind.2 trivial
    · exact hdone _ rfl rfl
  · exact trivial

/-- **Blocks** begin with what is known. -/
theorem InBlock.parseTokens (hs : s.InBlock) (h : (parseTokens E tokens).run s = .ok () s') :
    s'.InBlock := by
  have hwidens {m : ReaderMethod Unit} (hm : Respects Widens m) (hrun : m.run s = .ok () s') :
      s'.InBlock := by
    have hafter := hm s
    rw [after_of_ok hrun] at hafter
    exact hafter.inBlock hs
  rw [DictReader.parseTokens] at h
  split at h
  · exact hwidens (widens_parseAttribute tokens) h
  · rw [run_bind_of_ok (run_get s)] at h
    exact hwidens (widens_parseValue s.state tokens true) h
  · exact hwidens (widens_parseVendor tokens) h
  · exact inBlock_parseBeginVendor.of_run_eq_ok h
  · exact inBlock_parseEndVendor.of_run_eq_ok h
  · exact hwidens (respects_pure ()) h

/-- Reading a line is parsing its tokens there. -/
theorem run_readLine (line : DictLine) (s : DictReader) :
    (readLine E line).run s = (parseTokens E (tokenize line.text)).run (s.atLine line) := rfl

theorem InBlock.readLine {line : DictLine} (hs : s.InBlock)
    (h : (readLine E line).run s = .ok () s') : s'.InBlock := by
  have hat : (s.atLine line).InBlock := ⟨hs.vendor, hs.marker⟩
  exact hat.parseTokens (run_readLine line s ▸ h)

/-! ### A file -/

end DictReader

namespace Dictionary

end Dictionary

end Pyrad2
