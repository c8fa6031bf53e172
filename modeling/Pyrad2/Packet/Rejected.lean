import Pyrad2.Packet.TlvTrees

/-!
# Vendor attributes that are rejected

What a vendor attribute leaves behind when the decoder falls back to its raw form.

The decoder works through the sub-attributes one after the other and finds out on the way that the
payload is malformed. By then it has stored the TLVs and buffered the fragments that came before, and
it does not take them back. A payload is therefore kept whole exactly if those sub-attributes add
nothing: no TLV stores anything new, and for every type the fragments leave waiting what waited
before.
-/

namespace Pyrad2

open EStateM

/-! ### Maps that grow -/

mutual

/-- The number of lists, maps and values. -/
def Stored.weight : Stored Bytes → ℕ
  | .vals vs => vs.length + 1
  | .node m => mapWeight m + 1
  termination_by structural s => s

/-- The number of lists, maps and values below a map. -/
def mapWeight : SubMap Bytes → ℕ
  | [] => 0
  | (_, s) :: rest => s.weight + mapWeight rest
  termination_by structural l => l

end

/-- The weight of all entries. -/
def totalWeight {K : Type} (l : List (K × Stored Bytes)) : ℕ := (l.map fun e ↦ e.2.weight).sum

theorem totalWeight_eq {K : Type} (l : List (K × Stored Bytes)) :
    totalWeight l = Assoc.total Stored.weight l := by
  induction l with
  | nil => rfl
  | cons e l ih => rw [Assoc.total_cons, ← ih, totalWeight, totalWeight, List.map_cons, List.sum_cons]

theorem mapWeight_eq (m : SubMap Bytes) : mapWeight m = totalWeight m := by
  induction m with
  | nil => rfl
  | cons e m ih => rw [mapWeight, ih, totalWeight, totalWeight, List.map_cons, List.sum_cons]

theorem weight_pos (s : Stored Bytes) : 0 < s.weight := by
  rcases s with vs | m <;> exact Nat.succ_pos _

section

variable {K : Type} {k : K} {l l' l'' : List (K × Stored Bytes)} {s old : Stored Bytes}

/-- Nothing has changed, or something has been added. -/
def Grows (l l' : List (K × Stored Bytes)) : Prop := l' = l ∨ totalWeight l < totalWeight l'

theorem Grows.trans (h : Grows l l') (h' : Grows l' l'') : Grows l l'' := by
  rcases h with rfl | hlt
  · exact h'
  · rcases h' with rfl | hlt'
    · exact .inr hlt
    · exact .inr (hlt.trans hlt')

/-- Two steps lead back only if neither of them changes anything. -/
theorem Grows.eq_iff (h : Grows l l') (h' : Grows l' l'') : l'' = l ↔ l' = l ∧ l'' = l' := by
  refine ⟨fun heq ↦ ?_, fun heq ↦ heq.2.trans heq.1⟩
  subst heq
  rcases h with rfl | hlt
  · exact ⟨rfl, rfl⟩
  · rcases h' with heq | hlt'
    · rw [heq] at hlt
      exact absurd hlt (lt_irrefl _)
    · exact absurd (hlt.trans hlt') (lt_irrefl _)

variable [DecidableEq K]

theorem totalWeight_set_of_none (h : Assoc.get? k l = none) :
    totalWeight (Assoc.set k s l) = totalWeight l + s.weight := by
  rw [totalWeight_eq, totalWeight_eq]
  exact Assoc.total_set_of_none h

theorem totalWeight_set_of_some (h : Assoc.get? k l = some old) :
    totalWeight (Assoc.set k s l) + old.weight = totalWeight l + s.weight := by
  rw [totalWeight_eq, totalWeight_eq]
  exact Assoc.total_set_of_some h

theorem grows_set_of_none (h : Assoc.get? k l = none) :
    Grows l (Assoc.set k s l) ∧ Assoc.set k s l ≠ l := by
  have hweight := totalWeight_set_of_none (s := s) h
  have hpos := weight_pos s
  refine ⟨.inr (by omega), fun heq ↦ ?_⟩
  rw [heq] at hweight
  omega

/-- Replacing an entry by a heavier one. -/
theorem grows_set_of_lt (h : Assoc.get? k l = some old) (hlt : old.weight < s.weight) :
    Grows l (Assoc.set k s l) ∧ Assoc.set k s l ≠ l := by
  have hweight := totalWeight_set_of_some (s := s) h
  refine ⟨.inr (by omega), fun heq ↦ ?_⟩
  rw [heq] at hweight
  omega

/-- Work below a map. The map that contains it changes with it, and if it had to be created. -/
theorem grows_set_node {m m' : SubMap Bytes} (hgrows : Grows m m')
    (h : Assoc.get? k l = some (.node m) ∨ m = [] ∧ Assoc.get? k l = none) :
    Grows l (Assoc.set k (.node m') l) ∧
      (Assoc.set k (.node m') l = l ↔ Assoc.get? k l = some (.node m) ∧ m' = m) := by
  rcases h with hget | ⟨rfl, hget⟩
  · rcases hgrows with rfl | hlt
    · rw [Assoc.set_of_get?_eq_some hget]
      exact ⟨.inl rfl, iff_of_true rfl ⟨hget, rfl⟩⟩
    · obtain ⟨hset, hne⟩ := grows_set_of_lt (s := .node m') hget (by
        simp only [Stored.weight, mapWeight_eq]
        omega)
      refine ⟨hset, iff_of_false hne fun h ↦ ?_⟩
      rw [h.2] at hlt
      exact lt_irrefl _ hlt
  · obtain ⟨hset, hne⟩ := grows_set_of_none (s := .node m') hget
    refine ⟨hset, iff_of_false hne fun h ↦ ?_⟩
    rw [hget] at h
    cases h.1

end

namespace Packet

open Dictionary

/-! ### Chains that add nothing -/

/-- Every item of the chain is a TLV that is in the map already, and adds nothing to it. -/
def addsNothing (D : Dictionary) : ℕ → Option Attribute → Bytes → SubMap Bytes → Bool
  | fuel + 1, parent, atype :: length :: rest, m =>
    length < 2 ||
      (match nestedTlv D parent atype.toNat, Assoc.get? (atype.toNat : Int) m with
        | some child, some (.node sub) =>
          addsNothing D fuel (some child) (rest.take (length.toNat - 2)) sub
        | _, _ => false) &&
      addsNothing D fuel parent (rest.drop (length.toNat - 2)) m
  | _, _, _, _ => true

section

variable {D : Dictionary} {parent : Option Attribute} {m : SubMap Bytes}

theorem addsNothing_cons {fuel : ℕ} {atype length : UInt8} {rest : Bytes} (hlong : ¬ length < 2) :
    addsNothing D (fuel + 1) parent (atype :: length :: rest) m = true ↔
      (∃ child sub, nestedTlv D parent atype.toNat = some child ∧
        Assoc.get? (atype.toNat : Int) m = some (.node sub) ∧
        addsNothing D fuel (some child) (rest.take (length.toNat - 2)) sub = true) ∧
      addsNothing D fuel parent (rest.drop (length.toNat - 2)) m = true := by
  rw [addsNothing, decide_eq_false hlong, Bool.false_or, Bool.and_eq_true]
  refine and_congr_left fun _ ↦ ?_
  rcases nestedTlv D parent atype.toNat with - | child
  · simp
  · rcases Assoc.get? (atype.toNat : Int) m with - | ⟨old | sub⟩ <;> simp

/-- A run of a method on a map in shape: it returns, keeps the shape, only adds, and changes nothing
exactly under the condition. -/
structure AddsUnless (D : Dictionary) (parent : Option Attribute) (m : SubMap Bytes)
    (method : Method (SubMap Bytes) Unit) (idle : Prop) : Prop where
  exists_run : ∃ m', method.run m = .ok () m' ∧ D.MapShaped parent m' ∧ Grows m m' ∧ (m' = m ↔ idle)

theorem AddsUnless.congr {method : Method (SubMap Bytes) Unit} {idle idle' : Prop}
    (h : AddsUnless D parent m method idle) (heq : idle ↔ idle') :
    AddsUnless D parent m method idle' := by
  rwa [← propext heq]

theorem addsUnless_value {code : Int} (h : D.MapShaped parent m)
    (hplain : nestedTlv D parent code = none) (value : Bytes) :
    AddsUnless D parent m (appendNode code value) False := by
  have htlv : isTlv (D.tlvChildAttr parent code) = false := by
    rw [nestedTlv] at hplain
    rcases hchild : D.tlvChildAttr parent code with - | child
    · rfl
    · rw [hchild, Option.filter_eq_none_iff] at hplain
      simpa [isTlv] using hplain child rfl
  have hensures := ensures_appendNode h htlv value
  rcases hget : Assoc.get? code m with - | ⟨old | sub⟩
  · have hrun : (appendNode code value).run m = .ok () (Assoc.set code (.vals [value]) m) := by
      rw [appendNode, run_modifyM, extendNode, hget]
    obtain ⟨hgrows, hne⟩ := grows_set_of_none (s := .vals [value]) hget
    exact ⟨_, hrun, hensures.of_run_eq_ok hrun, hgrows, iff_of_false hne not_false⟩
  · have hrun : (appendNode code value).run m =
        .ok () (Assoc.set code (.vals (old ++ [value])) m) := by
      rw [appendNode, run_modifyM, extendNode, hget]
    obtain ⟨hgrows, hne⟩ := grows_set_of_lt (s := .vals (old ++ [value])) hget (by
      rw [Stored.weight, Stored.weight, List.length_append, List.length_singleton]
      omega)
    exact ⟨_, hrun, hensures.of_run_eq_ok hrun, hgrows, iff_of_false hne not_false⟩
  · have hshape := h.get? hget
    rw [EntryShaped, htlv] at hshape
    cases hshape.1

/-- A nested TLV. -/
theorem addsUnless_nested {code : Int} {child : Attribute} (h : D.MapShaped parent m)
    (hnested : nestedTlv D parent code = some child) {method : Method (SubMap Bytes) Unit}
    {idle : SubMap Bytes → Prop}
    (hmethod : ∀ sub, D.MapShaped (some child) sub → AddsUnless D (some child) sub method (idle sub)) :
    AddsUnless D parent m (inNested code method)
      (∃ sub, Assoc.get? code m = some (.node sub) ∧ idle sub) := by
  obtain ⟨hchild, htype⟩ := Option.filter_eq_some_iff.1 hnested
  have htlv : isTlv (D.tlvChildAttr parent code) = true := by
    rw [hchild]
    simpa [isTlv] using htype
  -- what is there is a map, in shape
  obtain ⟨sub, hthere, hshape⟩ : ∃ sub,
      (Assoc.get? code m = some (.node sub) ∨ sub = [] ∧ Assoc.get? code m = none) ∧
      D.MapShaped (some child) sub := by
    rcases hget : Assoc.get? code m with - | ⟨old | sub⟩
    · exact ⟨[], .inr ⟨rfl, rfl⟩, trivial⟩
    · have hentry := h.get? hget
      rw [EntryShaped, htlv] at hentry
      cases hentry
    · have hentry := h.get? hget
      rw [EntryShaped, hchild] at hentry
      exact ⟨sub, .inl rfl, hentry.2⟩
  obtain ⟨sub', hrun, hshape', hgrows, hidle⟩ := (hmethod sub hshape).exists_run
  obtain ⟨hset, hsame⟩ := grows_set_node hgrows hthere
  refine ⟨Assoc.set code (.node sub') m, run_inNested hthere hrun,
    h.set code ⟨htlv, by rwa [hchild]⟩, hset, ?_⟩
  · rw [hsame, hidle]
    constructor
    · rintro ⟨hget, hsub⟩
      exact ⟨sub, hget, hsub⟩
    · rintro ⟨sub', hget, hsub'⟩
      rcases hthere with hget' | ⟨-, hget'⟩
      · rw [hget'] at hget
        cases hget
        exact ⟨hget', hsub'⟩
      · rw [hget'] at hget
        cases hget

/-- **A chain** adds to a map in shape, unless all its items are TLVs that add nothing. -/
theorem addsUnless_chain {fuel : ℕ} {data : Bytes} (hfuel : data.length ≤ fuel)
    (h : D.MapShaped parent m) :
    AddsUnless D parent m (decodeTlvChainInto D fuel parent data)
      (addsNothing D fuel parent data m = true) := by
  induction fuel generalizing parent data m with
  | zero =>
    rw [List.length_eq_zero_iff.1 (Nat.le_zero.1 hfuel)]
    exact ⟨m, rfl, h, .inl rfl, iff_of_true rfl rfl⟩
  | succ fuel ih =>
    rcases data with - | ⟨atype, - | ⟨length, rest⟩⟩
    · exact ⟨m, rfl, h, .inl rfl, iff_of_true rfl rfl⟩
    · exact ⟨m, rfl, h, .inl rfl, iff_of_true rfl rfl⟩
    have hrest : rest.length ≤ fuel := by
      simp only [List.length_cons] at hfuel
      omega
    have hinner : (rest.take (length.toNat - 2)).length ≤ fuel := by
      rw [List.length_take]
      omega
    have hdrop : (rest.drop (length.toNat - 2)).length ≤ fuel := by
      rw [List.length_drop]
      omega
    rw [decodeTlvChainInto_cons]
    split
    · next hshort => exact ⟨m, rfl, h, .inl rfl, iff_of_true rfl (by simp [addsNothing, hshort])⟩
    · next hlong =>
      -- one item, and then the rest of the chain
      have hitem : AddsUnless D parent m
          (storeItemValue D fuel parent atype (rest.take (length.toNat - 2)))
          (∃ child sub, nestedTlv D parent atype.toNat = some child ∧
            Assoc.get? (atype.toNat : Int) m = some (.node sub) ∧
            addsNothing D fuel (some child) (rest.take (length.toNat - 2)) sub = true) := by
        rw [storeItemValue]
        rcases hnested : nestedTlv D parent atype.toNat with - | child
        · refine (addsUnless_value h hnested _).congr (iff_of_false not_false ?_)
          rintro ⟨child, sub, hsome, -⟩
          cases hsome
        · refine (addsUnless_nested h hnested fun sub hsub ↦ ih hinner hsub).congr ?_
          constructor
          · rintro ⟨sub, hget, hidle⟩
            exact ⟨child, sub, rfl, hget, hidle⟩
          · rintro ⟨child', sub, hsome, hget, hidle⟩
            cases hsome
            exact ⟨sub, hget, hidle⟩
      obtain ⟨m', hrun, hshape, hgrows, hidle⟩ := hitem.exists_run
      obtain ⟨m'', hrun', hshape', hgrows', hidle'⟩ := (ih hdrop hshape).exists_run
      refine ⟨m'', by rw [run_bind_of_ok hrun, hrun'], hshape', hgrows.trans hgrows', ?_⟩
      rw [hgrows.eq_iff hgrows', addsNothing_cons hlong, hidle]
      refine and_congr_right fun hitemIdle ↦ ?_
      obtain rfl := hidle.2 hitemIdle
      exact hidle'

end

/-! ### Sub-attributes -/

/-- A sub-attribute of a vendor; in a format with fragments it has a continuation byte. -/
structure SubAvp where
  vsaType : Int
  continuation : Option UInt8
  payload : Bytes

namespace SubAvp

/-- The value that is complete with the sub-attribute, if there is one. -/
def value? (a : SubAvp) (waiting : Option Bytes) : Option Bytes :=
  match a.continuation with
  | none => some a.payload
  | some flags =>
    if flags &&& vsaContinuationMore ≠ 0 then none else some (waiting.getD [] ++ a.payload)

/-- What waits for the next fragment after the sub-attribute. -/
def left (a : SubAvp) (waiting : Option Bytes) : Option Bytes :=
  match a.continuation with
  | none => waiting
  | some flags =>
    if flags &&& vsaContinuationMore ≠ 0 then some (waiting.getD [] ++ a.payload) else none

end SubAvp

/-- The values that are complete with some sub-attribute of a sequence. -/
def joinedValues : List SubAvp → Option Bytes → List Bytes
  | [], _ => []
  | a :: l, waiting => (a.value? waiting).toList ++ joinedValues l (a.left waiting)

/-- What waits for the next fragment after a sequence of sub-attributes. -/
def leftWaiting : List SubAvp → Option Bytes → Option Bytes
  | [], waiting => waiting
  | a :: l, waiting => leftWaiting l (a.left waiting)

/-- The sub-attributes of a payload as far as it is well formed, and whether it is to its end. -/
def subAvps (format : VendorFormat) : ℕ → Bytes → List SubAvp × Bool
  | fuel, rest =>
    let headerLen := format.typeLen + format.lenLen
    if rest.length < headerLen then ([], rest = [])
    else
      match fuel with
      | 0 => ([], false)
      | fuel + 1 =>
        let vsaType : Int := Bytes.toNatBE (rest.take format.typeLen)
        let lengthValue :=
          if format.lenLen = 0 then rest.length
          else Bytes.toNatBE ((rest.drop format.typeLen).take format.lenLen)
        if lengthValue < headerLen ∨ rest.length < lengthValue then ([], false)
        else
          let payload := (rest.take lengthValue).drop headerLen
          let following := subAvps format fuel (rest.drop lengthValue)
          if format.hasContinuation then
            match payload with
            | [] => ([], false)
            | flags :: payload => (⟨vsaType, some flags, payload⟩ :: following.1, following.2)
          else (⟨vsaType, none, payload⟩ :: following.1, following.2)

/-- A complete value of a vendor is stored at once if it is a TLV, and listed otherwise. -/
def storeComplete (D : Dictionary) (key : Key) : Option Bytes → DecodeMethod Unit
  | none => return
  | some value => if D.isTlvAttribute key then decodeTlvAttribute D key value else return

/-- What a sub-attribute does to the packet. -/
def readSubAvp (D : Dictionary) (vendor : Int) (a : SubAvp) : DecodeMethod Unit := do
  let value? ←
    match a.continuation with
    | none => pure (some a.payload)
    | some flags =>
      bufferContinuation (vendor, a.vsaType) (flags &&& vsaContinuationMore ≠ 0) a.payload
  storeComplete D (.tup [vendor, a.vsaType]) value?

/-- A TLV that stores nothing new: the map is there, and so is every map below it that the value
names. -/
def AddsNothingAt (D : Dictionary) (attrs : Attrs Bytes) (key : Key) (value : Bytes) : Prop :=
  ∃ m, attrs.get? key = some (.node m) ∧
    addsNothing D value.length (D.attributeAt? key) value m = true

section

variable {D : Dictionary} {mac : Option (Stored Bytes)} {flag : Option Bool} {st : DecodeState}
  {vendor vsaType : Int}

/-- A TLV of a vendor is stored, and changes nothing only if it adds nothing. -/
theorem exists_run_storeTlv (h : Shaped (some D) mac flag st)
    (htlv : D.isTlvAttribute (.tup [vendor, vsaType]) = true) (value : Bytes) :
    ∃ attrs', (decodeTlvAttribute D (.tup [vendor, vsaType]) value).run st =
        .ok () { st with attrs := attrs' } ∧
      Shaped (some D) mac flag { st with attrs := attrs' } ∧
      Grows st.attrs.entries attrs'.entries ∧
      (attrs' = st.attrs ↔ AddsNothingAt D st.attrs (.tup [vendor, vsaType]) value) := by
  have hmap : holdsMap (some D) (.tup [vendor, vsaType]) = true := by simpa [holdsMap] using htlv
  obtain ⟨m, hthere, hshape⟩ : ∃ m, HoldsMap (.tup [vendor, vsaType]) m st ∧
      D.MapShaped (D.attributeAt? (.tup [vendor, vsaType])) m := by
    rcases hget : st.attrs.get? (.tup [vendor, vsaType]) with - | ⟨old | m⟩
    · exact ⟨[], .inr ⟨rfl, hget⟩, trivial⟩
    · have htop := h.shaped _ _ hget
      rw [TopShaped, hmap] at htop
      cases htop
    · exact ⟨m, .inl hget, (h.shaped _ _ hget).2 D rfl⟩
  obtain ⟨m', hrun, -, hgrows, hidle⟩ := (addsUnless_chain (le_refl value.length) hshape).exists_run
  have hstore := hthere.run_inContainer hrun
  obtain ⟨hset, hsame⟩ := grows_set_node hgrows hthere
  refine ⟨_, hstore, (ensures_decodeTlvAttribute h (by simp) hmap value).of_run_eq_ok hstore, hset, ?_⟩
  rw [OrderedDict.ext_iff]
  refine hsame.trans ?_
  rw [hidle, AddsNothingAt]
  constructor
  · rintro ⟨hget, hm⟩
    exact ⟨m, hget, hm⟩
  · rintro ⟨m₀, hget, hm₀⟩
    rcases hthere with hget' | ⟨-, hget'⟩
    · rw [hget'] at hget
      cases hget
      exact ⟨hget', hm₀⟩
    · rw [hget'] at hget
      cases hget

/-- What a run that reads sub-attributes guarantees: it only adds, and adds nothing exactly under the
condition. -/
structure ReadsUnless (D : Dictionary) (mac : Option (Stored Bytes)) (flag : Option Bool)
    (st st' : DecodeState) (idle : Prop) : Prop where
  shaped : Shaped (some D) mac flag st'
  grows : Grows st.attrs.entries st'.attrs.entries
  attrs_eq_iff : st'.attrs = st.attrs ↔ idle

theorem exists_run_storeComplete (h : Shaped (some D) mac flag st) (vendor vsaType : Int)
    (value? : Option Bytes) :
    ∃ attrs', (storeComplete D (.tup [vendor, vsaType]) value?).run st =
        .ok () { st with attrs := attrs' } ∧
      ReadsUnless D mac flag st { st with attrs := attrs' }
        (D.isTlvAttribute (.tup [vendor, vsaType]) = true →
          ∀ v ∈ value?, AddsNothingAt D st.attrs (.tup [vendor, vsaType]) v) := by
  rcases value? with - | value
  · exact ⟨st.attrs, rfl, h, .inl rfl, iff_of_true rfl fun _ v hv ↦ by cases hv⟩
  · rw [storeComplete]
    by_cases htlv : D.isTlvAttribute (.tup [vendor, vsaType]) = true
    · obtain ⟨attrs', hrun, hshaped, hgrows, hsame⟩ := exists_run_storeTlv h htlv value
      rw [if_pos htlv]
      refine ⟨attrs', hrun, hshaped, hgrows, hsame.trans ?_⟩
      simp [htlv]
    · rw [if_neg htlv]
      exact ⟨st.attrs, rfl, h, .inl rfl, iff_of_true rfl fun h ↦ absurd h htlv⟩

/-- A sub-attribute is joined with what waits for its type; then its value is stored, if it is
complete. -/
theorem exists_readSubAvp_eq (vendor : Int) (a : SubAvp) (st : DecodeState) :
    ∃ buf, (readSubAvp D vendor a).run st =
        (storeComplete D (.tup [vendor, a.vsaType])
          (a.value? (st.vsaContinuationBuf.get? (vendor, a.vsaType)))).run
            { st with vsaContinuationBuf := buf } ∧
      ∀ k, buf.get? k =
        if k = (vendor, a.vsaType) then a.left (st.vsaContinuationBuf.get? k)
        else st.vsaContinuationBuf.get? k := by
  rw [readSubAvp, SubAvp.value?]
  rcases hcont : a.continuation with - | flags
  · refine ⟨st.vsaContinuationBuf, rfl, fun k ↦ ?_⟩
    rw [SubAvp.left, hcont, ite_self]
  · dsimp only
    by_cases hmore : flags &&& vsaContinuationMore ≠ 0
    · have hbuffer := @run_bufferContinuation (vendor, a.vsaType) st _ rfl true a.payload
      rw [if_pos rfl] at hbuffer
      rw [decide_eq_true hmore, run_bind_of_ok hbuffer, if_pos hmore]
      refine ⟨_, rfl, fun k ↦ ?_⟩
      rw [OrderedDict.get?_set, SubAvp.left, hcont]
      dsimp only
      rw [if_pos hmore]
      split
      · next heq => rw [heq]
      · rfl
    · have hbuffer := @run_bufferContinuation (vendor, a.vsaType) st _ rfl false a.payload
      rw [if_neg Bool.false_ne_true] at hbuffer
      rw [decide_eq_false hmore, run_bind_of_ok hbuffer, if_neg hmore]
      refine ⟨_, rfl, fun k ↦ ?_⟩
      rw [OrderedDict.get?_erase, SubAvp.left, hcont]
      dsimp only
      rw [if_neg hmore]

/-- **A sub-attribute** moves what waits for its type, and no other. -/
theorem exists_run_readSubAvp (h : Shaped (some D) mac flag st) (vendor : Int) (a : SubAvp) :
    ∃ st', (readSubAvp D vendor a).run st = .ok () st' ∧
      (∀ k, st'.vsaContinuationBuf.get? k =
        if k = (vendor, a.vsaType) then a.left (st.vsaContinuationBuf.get? k)
        else st.vsaContinuationBuf.get? k) ∧
      ReadsUnless D mac flag st st' (D.isTlvAttribute (.tup [vendor, a.vsaType]) = true →
        ∀ v ∈ a.value? (st.vsaContinuationBuf.get? (vendor, a.vsaType)),
          AddsNothingAt D st.attrs (.tup [vendor, a.vsaType]) v) := by
  obtain ⟨buf, heq, hbuf⟩ := exists_readSubAvp_eq (D := D) vendor a st
  have hshaped : Shaped (some D) mac flag { st with vsaContinuationBuf := buf } := h.of_eq rfl rfl
  obtain ⟨attrs', hrun, hreads⟩ := exists_run_storeComplete hshaped vendor a.vsaType
    (a.value? (st.vsaContinuationBuf.get? (vendor, a.vsaType)))
  exact ⟨_, by rw [heq, hrun], hbuf, hreads.shaped, hreads.grows, hreads.attrs_eq_iff⟩

/-- The sub-attributes of one type. -/
def ofType (vsaType : Int) (l : List SubAvp) : List SubAvp := l.filter fun a ↦ a.vsaType = vsaType

/-- No TLV that is complete with one of the sub-attributes adds anything. -/
def TlvsAddNothing (D : Dictionary) (vendor : Int) (l : List SubAvp) (st : DecodeState) : Prop :=
  ∀ vsaType, D.isTlvAttribute (.tup [vendor, vsaType]) = true →
    ∀ v ∈ joinedValues (ofType vsaType l) (st.vsaContinuationBuf.get? (vendor, vsaType)),
      AddsNothingAt D st.attrs (.tup [vendor, vsaType]) v

theorem TlvsAddNothing.head {a : SubAvp} {l : List SubAvp} (h : TlvsAddNothing D vendor (a :: l) st)
    (htlv : D.isTlvAttribute (.tup [vendor, a.vsaType]) = true) :
    ∀ v ∈ a.value? (st.vsaContinuationBuf.get? (vendor, a.vsaType)),
      AddsNothingAt D st.attrs (.tup [vendor, a.vsaType]) v := by
  intro v hv
  refine h a.vsaType htlv v ?_
  rw [ofType, List.filter_cons_of_pos (by simp), joinedValues]
  exact List.mem_append_left _ (Option.mem_toList.2 hv)

/-- The first sub-attribute adds nothing, and then the others do not. -/
theorem tlvsAddNothing_cons {a : SubAvp} {l : List SubAvp} {st' : DecodeState}
    (hbuf : ∀ k, st'.vsaContinuationBuf.get? k =
      if k = (vendor, a.vsaType) then a.left (st.vsaContinuationBuf.get? k)
      else st.vsaContinuationBuf.get? k) (hattrs : st'.attrs = st.attrs) :
    TlvsAddNothing D vendor (a :: l) st ↔
      (D.isTlvAttribute (.tup [vendor, a.vsaType]) = true →
        ∀ v ∈ a.value? (st.vsaContinuationBuf.get? (vendor, a.vsaType)),
          AddsNothingAt D st.attrs (.tup [vendor, a.vsaType]) v) ∧
      TlvsAddNothing D vendor l st' := by
  -- the values of a type, with those of the first sub-attribute in front
  have hvalues (vsaType : Int) (v : Bytes) :
      v ∈ joinedValues (ofType vsaType (a :: l)) (st.vsaContinuationBuf.get? (vendor, vsaType)) ↔
        (vsaType = a.vsaType ∧ v ∈ a.value? (st.vsaContinuationBuf.get? (vendor, a.vsaType))) ∨
          v ∈ joinedValues (ofType vsaType l) (st'.vsaContinuationBuf.get? (vendor, vsaType)) := by
    rw [hbuf, ofType, ofType, List.filter_cons]
    by_cases htype : vsaType = a.vsaType
    · subst htype
      rw [if_pos rfl, if_pos (by simp), joinedValues, List.mem_append, Option.mem_toList]
      simp
    · have hne : ¬ a.vsaType = vsaType := Ne.symm htype
      simp [htype, hne]
  constructor
  · intro hall
    refine ⟨hall.head, fun vsaType htlv v hv ↦ ?_⟩
    rw [hattrs]
    exact hall vsaType htlv v ((hvalues vsaType v).2 (.inr hv))
  · rintro ⟨hfirst, hrest⟩ vsaType htlv v hv
    rcases (hvalues vsaType v).1 hv with ⟨rfl, hown⟩ | hlater
    · exact hfirst htlv v hown
    · have hadd := hrest vsaType htlv v hlater
      rwa [hattrs] at hadd

/-- **A sequence of sub-attributes.** -/
theorem exists_run_readSubAvps (h : Shaped (some D) mac flag st) (vendor : Int) (l : List SubAvp) :
    ∃ st', (l.forM (readSubAvp D vendor)).run st = .ok () st' ∧
      (∀ vsaType, st'.vsaContinuationBuf.get? (vendor, vsaType) =
        leftWaiting (ofType vsaType l) (st.vsaContinuationBuf.get? (vendor, vsaType))) ∧
      (∀ k, k.1 ≠ vendor → st'.vsaContinuationBuf.get? k = st.vsaContinuationBuf.get? k) ∧
      ReadsUnless D mac flag st st' (TlvsAddNothing D vendor l st) := by
  induction l generalizing st with
  | nil =>
    exact ⟨st, rfl, fun _ ↦ rfl, fun _ _ ↦ rfl, h, .inl rfl,
      iff_of_true rfl fun _ _ v hv ↦ (List.not_mem_nil hv).elim⟩
  | cons a l ih =>
    obtain ⟨st', hrun, hbuf, hreads⟩ := exists_run_readSubAvp h vendor a
    obtain ⟨st'', hrun', hbuf', hother', hreads'⟩ := ih hreads.shaped
    refine ⟨st'', ?_, fun vsaType ↦ ?_, fun k hk ↦ ?_, hreads'.shaped,
      hreads.grows.trans hreads'.grows, ?_⟩
    · show (readSubAvp D vendor a >>= fun _ ↦ l.forM (readSubAvp D vendor)).run st = _
      rw [run_bind_of_ok hrun, hrun']
    · rw [hbuf', hbuf, ofType, ofType, List.filter_cons]
      by_cases htype : vsaType = a.vsaType
      · subst htype
        rw [if_pos rfl, if_pos (by simp), leftWaiting]
      · rw [if_neg (by simpa using htype), if_neg (by simpa using Ne.symm htype)]
    · rw [hother' k hk, hbuf, if_neg fun heq ↦ hk (by rw [heq])]
    · rw [OrderedDict.ext_iff, hreads.grows.eq_iff hreads'.grows, ← OrderedDict.ext_iff,
        ← OrderedDict.ext_iff, hreads.attrs_eq_iff, hreads'.attrs_eq_iff]
      constructor
      · rintro ⟨hfirst, hrest⟩
        exact (tlvsAddNothing_cons hbuf (hreads.attrs_eq_iff.2 hfirst)).2 ⟨hfirst, hrest⟩
      · intro hall
        have hfirst := hall.head
        exact ⟨hfirst, ((tlvsAddNothing_cons hbuf (hreads.attrs_eq_iff.2 hfirst)).1 hall).2⟩

/-! ### The loop -/

/-- From a complete payload on: it is stored or listed, and the loop goes on. -/
theorem exists_run_decodeVendorRest (h : Shaped (some D) mac flag st) {format : VendorFormat}
    {fuel : ℕ} {rest : Bytes} (hrest : format.lenLen = 0 → rest = []) (tlvs : List (Key × Bytes))
    (vsaType : Int) (payload : Bytes) :
    ∃ listed st', (storeComplete D (.tup [vendor, vsaType]) (some payload)).run st = .ok () st' ∧
      (decodeVendorRest (some D) vendor format fuel rest tlvs vsaType payload).run st =
        (decodeVendorLoop (some D) vendor format fuel rest (tlvs ++ listed)).run st' := by
  have hgoes (listed : List (Key × Bytes)) (st' : DecodeState)
      (hpayload : (decodeVendorPayload (some D) (.tup [vendor, vsaType]) payload).run st =
        .ok listed st') :
      (decodeVendorRest (some D) vendor format fuel rest tlvs vsaType payload).run st =
        (decodeVendorLoop (some D) vendor format fuel rest (tlvs ++ listed)).run st' := by
    have hcaught : (Method.catchException
        (do return some (← decodeVendorPayload (some D) (.tup [vendor, vsaType]) payload))
        (return none)).run st = .ok (some listed) st' :=
      Method.run_catchException_of_ok (by rw [run_bind_of_ok hpayload]; rfl)
    rw [decodeVendorRest, run_bind_of_ok hcaught]
    dsimp only
    split
    · next h0 => rw [hrest h0, decodeVendorLoop_nil]
    · rfl
  rw [storeComplete]
  by_cases htlv : D.isTlvAttribute (.tup [vendor, vsaType]) = true
  · obtain ⟨attrs', hrun, -⟩ := exists_run_storeTlv h htlv payload
    refine ⟨[], _, by rw [if_pos htlv, hrun], hgoes [] _ ?_⟩
    rw [decodeVendorPayload, if_pos htlv, run_bind_of_ok hrun]
    rfl
  · refine ⟨[(.tup [vendor, vsaType], payload)], st, by rw [if_neg htlv]; rfl, hgoes _ _ ?_⟩
    rw [decodeVendorPayload, if_neg htlv]
    rfl

theorem subAvps_of_short {format : VendorFormat} {rest : Bytes} (fuel : ℕ)
    (h : rest.length < format.typeLen + format.lenLen) :
    subAvps format fuel rest = ([], decide (rest = [])) := by
  rcases fuel with - | fuel
  · rw [subAvps, if_pos h]
  · rw [subAvps, if_pos h]

/-- **The loop** reads the sub-attributes as far as the payload is well formed, and rejects it if it
is not to its end. -/
theorem exists_run_decodeVendorLoop (h : Shaped (some D) mac flag st) {format : VendorFormat}
    {fuel : ℕ} {rest : Bytes} (hfuel : rest.length ≤ fuel) (tlvs : List (Key × Bytes)) :
    ∃ listed st', (decodeVendorLoop (some D) vendor format fuel rest tlvs).run st = .ok listed st' ∧
      ((subAvps format fuel rest).1.forM (readSubAvp D vendor)).run st = .ok () st' ∧
      listed.isSome = (subAvps format fuel rest).2 := by
  have hpos := headerLen_pos format
  induction fuel generalizing rest tlvs st with
  | zero =>
    rw [List.length_eq_zero_iff.1 (Nat.le_zero.1 hfuel), decodeVendorLoop_nil, subAvps,
      List.length_nil, if_pos hpos]
    exact ⟨some tlvs, st, rfl, rfl, rfl⟩
  | succ fuel ih =>
    rw [decodeVendorLoop, subAvps]
    dsimp only
    split
    · -- too short for a header: the end, if nothing is left
      split
      · next hnil => exact ⟨some tlvs, st, rfl, rfl, by simp [hnil]⟩
      · next hne => exact ⟨none, st, rfl, rfl, by simp [hne]⟩
    next hlong =>
    have hlast : format.lenLen = 0 → rest.drop (if format.lenLen = 0 then rest.length
        else Bytes.toNatBE ((rest.drop format.typeLen).take format.lenLen)) = [] := by
      intro h0
      rw [if_pos h0, List.drop_length]
    generalize (if format.lenLen = 0 then rest.length
      else Bytes.toNatBE ((rest.drop format.typeLen).take format.lenLen)) = n at hlast ⊢
    split
    · -- the length leaves out the header, or runs past the end
      exact ⟨none, st, rfl, rfl, rfl⟩
    next hn =>
    have hdrop : (rest.drop n).length ≤ fuel := by
      rw [List.length_drop]
      omega
    -- the loop after a sub-attribute that has been read
    have hthen (a : SubAvp) (m : DecodeMethod (Option (List (Key × Bytes))))
        (hm : ∃ listed st', (readSubAvp D vendor a).run st = .ok () st' ∧ m.run st =
          (decodeVendorLoop (some D) vendor format fuel (rest.drop n) (tlvs ++ listed)).run st') :
        ∃ listed st', m.run st = .ok listed st' ∧
          ((a :: (subAvps format fuel (rest.drop n)).1).forM (readSubAvp D vendor)).run st =
            .ok () st' ∧ listed.isSome = (subAvps format fuel (rest.drop n)).2 := by
      obtain ⟨listed, st', hrun, heq⟩ := hm
      obtain ⟨st'', hrun'', -, hreads⟩ := exists_run_readSubAvp h vendor a
      rw [hrun] at hrun''
      cases hrun''
      obtain ⟨listed', st'', hloop, hread, hsome⟩ := ih hreads.shaped hdrop (tlvs ++ listed)
      refine ⟨listed', st'', by rw [heq, hloop], ?_, hsome⟩
      show (readSubAvp D vendor a >>= fun _ ↦ List.forM _ (readSubAvp D vendor)).run st = _
      rw [run_bind_of_ok hrun]
      exact hread
    split
    · rcases (rest.take n).drop (format.typeLen + format.lenLen) with - | ⟨flags, payload⟩
      · exact ⟨none, st, rfl, rfl, rfl⟩
      · refine hthen ⟨_, some flags, payload⟩ _ ?_
        have hbuffer := @run_bufferContinuation (vendor, Bytes.toNatBE (rest.take format.typeLen))
          st _ rfl (flags &&& vsaContinuationMore ≠ 0) payload
        rw [readSubAvp]
        dsimp only
        by_cases hmore : flags &&& vsaContinuationMore ≠ 0
        · -- the fragment waits, and nothing is listed yet
          rw [decide_eq_true hmore, if_pos rfl] at hbuffer
          rw [decide_eq_true hmore, run_bind_of_ok hbuffer]
          refine ⟨[], _, rfl, ?_⟩
          rw [run_bind_of_ok hbuffer, List.append_nil]
        · rw [decide_eq_false hmore, if_neg Bool.false_ne_true] at hbuffer
          rw [decide_eq_false hmore, run_bind_of_ok hbuffer]
          have hshaped : Shaped (some D) mac flag { st with
              vsaContinuationBuf := st.vsaContinuationBuf.erase (vendor,
                Bytes.toNatBE (rest.take format.typeLen)) } := h.of_eq rfl rfl
          obtain ⟨listed, st', hstore, hrest⟩ := exists_run_decodeVendorRest hshaped hlast tlvs
            (Bytes.toNatBE (rest.take format.typeLen)) _
          refine ⟨listed, st', hstore, ?_⟩
          rw [run_bind_of_ok hbuffer]
          exact hrest
    · refine hthen ⟨_, none, _⟩ _ ?_
      obtain ⟨listed, st', hstore, hrest⟩ := exists_run_decodeVendorRest h hlast tlvs
        (Bytes.toNatBE (rest.take format.typeLen))
        ((rest.take n).drop (format.typeLen + format.lenLen))
      exact ⟨listed, st', hstore, hrest⟩

end

/-! ### Raw attributes -/

/-- If the decoder falls back to the raw attribute, the stored attributes and the fragments are as
before. -/
def KeepsRaw (D : Option Dictionary) (data : Bytes) (st : DecodeState) : Prop :=
  ∀ st', (decodeVendorAttribute D data).run st = .ok [(.int 26, data)] st' →
    st'.attrs = st.attrs ∧ ∀ k, st'.vsaContinuationBuf.get? k = st.vsaContinuationBuf.get? k

/-- The payload is well formed; or the TLVs in front of the malformed part add nothing, and for every
type the fragments there leave waiting what waits already. -/
def AddsNothingIfRejected (D : Dictionary) (data : Bytes) (st : DecodeState) : Prop :=
  let vendor : Int := Bytes.toNatBE (data.take 4)
  let parts := subAvps (D.vendorFormat vendor) (data.drop 4).length (data.drop 4)
  parts.2 = true ∨ TlvsAddNothing D vendor parts.1 st ∧
    ∀ vsaType, leftWaiting (ofType vsaType parts.1) (st.vsaContinuationBuf.get? (vendor, vsaType)) =
      st.vsaContinuationBuf.get? (vendor, vsaType)

/-- Whatever is rejected before the loop leaves the decoder as it is. -/
theorem keepsRaw_of_run {D : Option Dictionary} {data : Bytes} {st : DecodeState}
    {listed : List (Key × Bytes)} (h : (decodeVendorAttribute D data).run st = .ok listed st) :
    KeepsRaw D data st := by
  intro st' hrun
  rw [h] at hrun
  cases hrun
  exact ⟨rfl, fun _ ↦ rfl⟩

/-- Without a dictionary nothing is stored on the way. -/
theorem keepsRaw_none (data : Bytes) (st : DecodeState) : KeepsRaw none data st := by
  suffices hsame : ∃ listed, (decodeVendorAttribute none data).run st = .ok listed st by
    obtain ⟨listed, hrun⟩ := hsame
    exact keepsRaw_of_run hrun
  have hloop (vendor : Int) (rest : Bytes) : ∃ listed, (decodeVendorLoop none vendor
      vendorFormatDefault rest.length rest []).run st = .ok listed st := by
    rcases hfuel : rest.length with - | fuel
    · rw [List.length_eq_zero_iff.1 hfuel, decodeVendorLoop_nil]
      exact ⟨_, rfl⟩
    · rw [decodeVendorLoop]
      split
      · split
        · exact ⟨_, rfl⟩
        · exact ⟨_, rfl⟩
      dsimp only
      generalize (if vendorFormatDefault.lenLen = 0 then rest.length
        else Bytes.toNatBE ((rest.drop vendorFormatDefault.typeLen).take
          vendorFormatDefault.lenLen)) = n
      split
      · exact ⟨_, rfl⟩
      · rw [if_neg (show ¬ vendorFormatDefault.hasContinuation = true from Bool.false_ne_true)]
        exact ⟨none, rfl⟩
  rw [decodeVendorAttribute]
  split
  · exact ⟨_, rfl⟩
  · dsimp only
    split
    · exact ⟨_, rfl⟩
    · obtain ⟨listed, hrun⟩ := hloop (Bytes.toNatBE (data.take 4)) (data.drop 4)
      rw [run_bind_of_ok hrun]
      exact ⟨_, rfl⟩

/-- **When a rejected payload is kept raw and whole.** -/
theorem keepsRaw_iff {D : Option Dictionary} {mac : Option (Stored Bytes)} {flag : Option Bool}
    {st : DecodeState} (h : Shaped D mac flag st) (data : Bytes) :
    KeepsRaw D data st ↔ ∀ D' ∈ D, AddsNothingIfRejected D' data st := by
  rcases D with - | D
  · exact iff_of_true (keepsRaw_none data st) fun D' hD' ↦ by cases hD'
  have hsome : (∀ D' ∈ some D, AddsNothingIfRejected D' data st) ↔ AddsNothingIfRejected D data st := by
    simp
  rw [hsome, AddsNothingIfRejected]
  generalize hvendor : (Bytes.toNatBE (data.take 4) : Int) = vendor
  have hunfold : decodeVendorAttribute (some D) data =
      if data.length < 4 then pure [(.int 26, data)]
      else if (data.drop 4).length <
          (D.vendorFormat vendor).typeLen + (D.vendorFormat vendor).lenLen then
        pure [(.int 26, data)]
      else do
        return (← decodeVendorLoop (some D) vendor (D.vendorFormat vendor) (data.drop 4).length
          (data.drop 4) []).getD [(.int 26, data)] := by
    rw [← hvendor, decodeVendorAttribute]
  have hnil : TlvsAddNothing D vendor [] st := fun _ _ v hv ↦ (List.not_mem_nil hv).elim
  -- without room for a vendor or a header the loop is not entered
  by_cases hfour : data.length < 4
  · rw [if_pos hfour] at hunfold
    refine iff_of_true (keepsRaw_of_run (by rw [hunfold]; rfl)) (.inl ?_)
    have hempty : subAvps (D.vendorFormat vendor) 0 [] = ([], true) :=
      subAvps_of_short 0 (headerLen_pos (D.vendorFormat vendor))
    rw [List.drop_of_length_le (by omega), List.length_nil, hempty]
  rw [if_neg hfour] at hunfold
  by_cases hshort : (data.drop 4).length <
      (D.vendorFormat vendor).typeLen + (D.vendorFormat vendor).lenLen
  · rw [if_pos hshort] at hunfold
    refine iff_of_true (keepsRaw_of_run (by rw [hunfold]; rfl)) (.inr ?_)
    rw [subAvps_of_short _ hshort]
    exact ⟨hnil, fun _ ↦ rfl⟩
  rw [if_neg hshort] at hunfold
  obtain ⟨listed, st', hloop, hread, hsome⟩ := @exists_run_decodeVendorLoop D mac flag st vendor h
    (D.vendorFormat vendor) _ _ (le_refl (data.drop 4).length) []
  obtain ⟨st'', hread', hbuf, hother, hreads⟩ := exists_run_readSubAvps h vendor
    (subAvps (D.vendorFormat vendor) (data.drop 4).length (data.drop 4)).1
  rw [hread] at hread'
  cases hread'
  rw [← hsome, ← hreads.attrs_eq_iff]
  rcases listed with - | l
  · -- the payload is rejected
    have hrun : (decodeVendorAttribute (some D) data).run st = .ok [(.int 26, data)] st' := by
      rw [hunfold, run_bind_of_ok hloop]
      rfl
    constructor
    · intro hkeeps
      obtain ⟨hattrs, hsame⟩ := hkeeps st' hrun
      exact .inr ⟨hattrs, fun vsaType ↦ by rw [← hbuf, hsame]⟩
    · rintro (haccepted | ⟨hattrs, hleft⟩) st₁ hrun₁
      · cases haccepted
      · rw [hrun] at hrun₁
        cases hrun₁
        refine ⟨hattrs, fun k ↦ ?_⟩
        by_cases hk : k.1 = vendor
        · have hkey : k = (vendor, k.2) := by rw [← hk]
          rw [hkey, hbuf, hleft]
        · exact hother k hk
  · -- the payload is accepted, and what is listed is not the raw attribute
    have hrun : (decodeVendorAttribute (some D) data).run st = .ok l st' := by
      rw [hunfold, run_bind_of_ok hloop]
      rfl
    refine iff_of_true (fun st₁ hrun₁ ↦ ?_) (.inl rfl)
    rw [hrun] at hrun₁
    cases hrun₁
    have hlists := (listsOf_decodeVendorLoop (fun e he ↦ (List.not_mem_nil he).elim)
      st).of_run_eq_ok hloop _ rfl
    obtain ⟨atype, heq⟩ := hlists _ (List.mem_singleton_self _)
    cases heq

/-- A vendor with fragments, and a TLV of it. -/
def rejectDictionary : Dictionary where
  heap :=
    [{ name := "WiMAX-Box", code := 1, type := .tlv, vendor := "WiMAX",
       subAttributes := OrderedDict.set ∅ 1 "WiMAX-Item" },
     { name := "WiMAX-Item", code := 1, type := .octets, isSubAttribute := true, parent := some 0 }]
  attributes := (OrderedDict.set ∅ "WiMAX-Box" 0).set "WiMAX-Item" 1
  attrindex := BiDict.empty.add "WiMAX-Box" (.tup [24757, 1])
  vendors := (BiDict.empty.add "" 0).add "WiMAX" 24757
  vendorFormats := OrderedDict.set ∅ 24757
    ⟨1, 1, true, vendorFormatDefault.typeLen_mem, vendorFormatDefault.lenLen_le⟩

/-- A TLV, a fragment, and a sub-attribute whose length is too small. -/
def rejectPayload : Bytes :=
  [0, 0, 96, 181] ++ [1, 6, 0, 1, 3, 65] ++ [2, 4, 128, 66] ++ [3, 1]

theorem not_keepsRaw_rejectPayload : ¬ KeepsRaw (some rejectDictionary) rejectPayload {} := by
  intro hkeeps
  have hrun : (decodeVendorAttribute (some rejectDictionary) rejectPayload).run {} =
      .ok [(.int 26, rejectPayload)] {
        attrs := OrderedDict.set ∅ (.tup [24757, 1]) (.node [(1, .vals [[65]])])
        vsaContinuationBuf := OrderedDict.set ∅ (24757, 2) [66] } := by
    rfl
  have hbuf := (hkeeps _ hrun).2 (24757, 2)
  rw [OrderedDict.get?_set_self] at hbuf
  cases hbuf

/-- A value in two fragments, with another one between them and the same malformed end. -/
def plainPayload : Bytes :=
  [0, 0, 96, 181] ++ [2, 4, 128, 66] ++ [4, 3, 0] ++ [2, 4, 0, 68] ++ [3, 1]

set_option maxRecDepth 4000 in
/-- The sub-attributes of the first payload in front of its malformed end are accepted. Those of the
second one are rejected with it, and nothing of them stays. -/
theorem keepsRaw_accepted_rejected :
    KeepsRaw (some rejectDictionary) (rejectPayload.take 14) {} ∧
      (decodeVendorAttribute (some rejectDictionary) plainPayload).run {} =
        .ok [(.int 26, plainPayload)] {} ∧
      KeepsRaw (some rejectDictionary) plainPayload {} := by
  have hparts : subAvps (rejectDictionary.vendorFormat 24757) 13 (plainPayload.drop 4) =
      ([⟨2, some 128, [66]⟩, ⟨4, some 0, []⟩, ⟨2, some 0, [68]⟩], false) := rfl
  -- a type that is neither of the two has no part of the payload
  have hother (vsaType : Int) (htwo : vsaType ≠ 2) (hfour : vsaType ≠ 4) :
      ofType vsaType [⟨2, some 128, [66]⟩, ⟨4, some 0, []⟩, ⟨2, some 0, [68]⟩] = [] := by
    simp [ofType, htwo.symm, hfour.symm]
  refine ⟨(keepsRaw_iff (shaped_initial (some rejectDictionary) none) _).2 fun D hD ↦ .inl ?_, rfl,
    (keepsRaw_iff (shaped_initial (some rejectDictionary) none) _).2 fun D hD ↦ .inr ?_⟩
  · cases hD
    rfl
  · cases hD
    show TlvsAddNothing rejectDictionary 24757 (subAvps (rejectDictionary.vendorFormat 24757) 13
      (plainPayload.drop 4)).1 {} ∧ ∀ vsaType, leftWaiting (ofType vsaType (subAvps
        (rejectDictionary.vendorFormat 24757) 13 (plainPayload.drop 4)).1) none = none
    rw [hparts]
    refine ⟨fun vsaType htlv v hv ↦ ?_, fun vsaType ↦ ?_⟩
    · by_cases htwo : vsaType = 2
      · subst htwo
        exact absurd htlv (by decide)
      by_cases hfour : vsaType = 4
      · subst hfour
        exact absurd htlv (by decide)
      rw [hother vsaType htwo hfour] at hv
      cases hv
    · by_cases htwo : vsaType = 2
      · subst htwo
        rfl
      by_cases hfour : vsaType = 4
      · subst hfour
        rfl
      rw [hother vsaType htwo hfour]
      rfl

end Packet

end Pyrad2
