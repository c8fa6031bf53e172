import Pyrad2.Packet.Rejected

/-!
# Vendor TLVs

What becomes of a vendor TLV on its way out and back.

The encoder wraps every instance of a vendor TLV itself, with one byte for the vendor type and one
for the length. The decoder follows the format that the dictionary declares for the vendor, joins
fragments, and stores the chain of every value that is complete. So what is stored under the key of
the TLV depends only on its own sub-attributes, one attribute after the other; and a chain cannot
store more than it is long.
-/

namespace Pyrad2

open EStateM

namespace Packet

/-! ### Sizes -/

theorem chainSize_eq (m : SubMap Bytes) : chainSize m = Assoc.total itemSize m := by
  induction m with
  | nil => rfl
  | cons e m ih => rw [chainSize, ih, Assoc.total_cons]

theorem sum_gatherSizes (l : List ℕ) (curr : ℕ) : (gatherSizes l curr).sum = curr + l.sum := by
  induction l generalizing curr with
  | nil => rfl
  | cons n l ih =>
    rw [gatherSizes]
    split
    · rw [ih, List.sum_cons]
      omega
    · rw [List.sum_cons, ih, List.sum_cons]

/-- The values of a list, round by round. -/
theorem sum_slotSize_vals {vs : List Bytes} {n : ℕ} (h : vs.length ≤ n) :
    ((List.range n).map fun i ↦ slotSize i (.vals vs)).sum = itemSize (.vals vs) := by
  induction vs generalizing n with
  | nil => simp [slotSize, itemSize]
  | cons v vs ih =>
    rcases n with - | n
    · cases h
    · have hrest := ih (Nat.le_of_succ_le_succ h)
      rw [itemSize] at hrest ⊢
      rw [List.range_succ_eq_map, List.map_cons, List.sum_cons, List.map_map, List.map_cons,
        List.sum_cons, ← hrest]
      rfl

/-- What stands under one code, round by round. -/
theorem sum_slotSize {m : SubMap Bytes} {e : Int × Stored Bytes} (he : e ∈ m) :
    ((List.range (roundCount m)).map fun i ↦ slotSize i e.2).sum = itemSize e.2 := by
  rcases e with ⟨code, vs | n⟩
  · exact sum_slotSize_vals ((le_foldl_max _ 0).2 _ (List.mem_map.2 ⟨(code, .vals vs), he, rfl⟩))
  · obtain ⟨count, hcount⟩ : ∃ count, roundCount m = count + 1 :=
      Nat.exists_eq_succ_of_ne_zero (Nat.pos_iff_ne_zero.1
        ((le_foldl_max _ 0).2 _ (List.mem_map.2 ⟨(code, .node n), he, rfl⟩)))
    rw [hcount, List.range_succ_eq_map, List.map_cons, List.sum_cons, List.map_map]
    simp [slotSize, itemSize, Function.comp_def]

/-- **All instances together** are as long as the items of the map. -/
theorem sum_instanceSizes (m : SubMap Bytes) : (instanceSizes m).sum = chainSize m := by
  have hrounds (n : ℕ) (l : SubMap Bytes)
      (hl : ∀ e ∈ l, ((List.range n).map fun i ↦ slotSize i e.2).sum = itemSize e.2) :
      ((List.range n).map fun i ↦ (l.map fun e ↦ slotSize i e.2).sum).sum =
        Assoc.total itemSize l := by
    induction l with
    | nil => simp
    | cons e l ih =>
      rw [Assoc.total_cons, ← hl e (by simp), ← ih fun e' he' ↦ hl e' (by simp [he']),
        ← List.sum_map_add]
      rfl
  rw [instanceSizes, sum_gatherSizes, Nat.zero_add, roundSizes, chainSize_eq]
  exact hrounds _ _ fun e he ↦ sum_slotSize he

/-! ### What a chain can store -/

section

variable {D : Dictionary} {parent : Option Attribute} {m m' : SubMap Bytes}

theorem ensures_size_value (m : SubMap Bytes) (code : Int) (value : Bytes) :
    Ensures (appendNode code value) m
      (fun _ m' ↦ chainSize m' ≤ chainSize m + (value.length + 2)) fun _ _ ↦ True := by
  refine ensures_modifyM (fun m' hm' ↦ ?_) fun _ _ ↦ trivial
  rcases hget : Assoc.get? code m with - | ⟨old | n⟩ <;>
    simp only [extendNode, hget] at hm' <;> cases hm'
  · rw [chainSize_eq, chainSize_eq, Assoc.total_set_of_none hget, itemSize]
    simp
  · have hset : Assoc.total itemSize (Assoc.set code (.vals (old ++ [value])) m) + _ = _ :=
      Assoc.total_set_of_some hget
    rw [itemSize, itemSize, List.map_append, List.sum_append, List.map_singleton,
      List.sum_singleton] at hset
    rw [chainSize_eq, chainSize_eq]
    omega

/-- Work below a nested map that makes it larger by so much at most. -/
theorem ensures_size_inNested {code : Int} {method : Method (SubMap Bytes) Unit} {n : ℕ}
    (hmethod : ∀ sub, Ensures method sub (fun _ sub' ↦ chainSize sub' ≤ chainSize sub + n)
      fun _ _ ↦ True) :
    Ensures (inNested code method) m (fun _ m' ↦ chainSize m' ≤ chainSize m + (n + 2))
      fun _ _ ↦ True := by
  rw [inNested, ensures_onPart]
  refine (hmethod _).imp (fun _ sub' hsub ↦ ?_) fun _ _ h ↦ h
  rw [chainSize_eq, chainSize_eq]
  rcases hget : Assoc.get? code m with - | old
  · rw [hget, chainSize] at hsub
    rw [Assoc.total_set_of_none hget, itemSize]
    omega
  · have hset : Assoc.total itemSize (Assoc.set code (.node sub') m) + itemSize old = _ :=
      Assoc.total_set_of_some hget
    rw [itemSize] at hset
    rcases old with vs | sub
    · rw [hget, chainSize] at hsub
      omega
    · rw [hget] at hsub
      dsimp only at hsub
      rw [itemSize] at hset
      omega

/-- **A chain** makes a map larger by its own length at most. -/
theorem ensures_size_chain (fuel : ℕ) (parent : Option Attribute) (data : Bytes)
    (m : SubMap Bytes) :
    Ensures (decodeTlvChainInto D fuel parent data) m
      (fun _ m' ↦ chainSize m' ≤ chainSize m + data.length) fun _ _ ↦ True := by
  induction fuel generalizing parent data m with
  | zero =>
    rcases data with - | ⟨atype, - | ⟨length, rest⟩⟩
    · exact Nat.le_refl _
    · exact Nat.le_add_right _ _
    · exact trivial
  | succ fuel ih =>
    rcases data with - | ⟨atype, - | ⟨length, rest⟩⟩
    · exact Nat.le_refl _
    · exact Nat.le_add_right _ _
    rw [decodeTlvChainInto_cons]
    split
    · exact Nat.le_add_right _ _
    · have hitem : Ensures (storeItemValue D fuel parent atype (rest.take (length.toNat - 2))) m
          (fun _ m' ↦ chainSize m' ≤ chainSize m + ((rest.take (length.toNat - 2)).length + 2))
          fun _ _ ↦ True := by
        rw [storeItemValue]
        rcases nestedTlv D parent atype.toNat with - | child
        · exact ensures_size_value m _ _
        · exact ensures_size_inNested fun sub ↦ ih _ _ sub
      refine ensures_bind.2 (hitem.imp (fun _ m' hm' ↦ ?_) fun _ _ h ↦ h)
      refine (ih parent _ m').imp (fun _ m'' hm'' ↦ ?_) fun _ _ h ↦ h
      rw [List.length_take] at hm'
      rw [List.length_drop] at hm''
      simp only [List.length_cons]
      omega

/-- The chains of complete values are stored, one after the other. -/
def storeChains (D : Dictionary) (parent : Option Attribute) (l : List Bytes) :
    Method (SubMap Bytes) Unit :=
  l.forM fun value ↦ decodeTlvChainInto D value.length parent value

theorem storeChains_append (l l' : List Bytes) :
    storeChains D parent (l ++ l') = storeChains D parent l >>= fun _ ↦ storeChains D parent l' :=
  List.forM_append

theorem chainSize_le_of_storeChains {l : List Bytes}
    (h : (storeChains D parent l).run m = .ok () m') :
    chainSize m' ≤ chainSize m + (l.map List.length).sum := by
  induction l generalizing m with
  | nil =>
    cases h
    exact Nat.le_refl _
  | cons value l ih =>
    obtain ⟨_, n, hfirst, hrest⟩ := run_bind_eq_ok_iff.1 h
    have hn := (ensures_size_chain value.length parent value m).of_run_eq_ok hfirst
    have hm' := ih hrest
    rw [List.map_cons, List.sum_cons]
    omega

/-- Instances that lead to a map. -/
theorem LeadsAll.run_storeChains {l : List Bytes} (h : LeadsAll D parent l m m') :
    (storeChains D parent l).run m = .ok () m' := by
  induction h with
  | nil m => rfl
  | @cons b l m m' m'' first rest ih =>
    show (decodeTlvChainInto D b.length parent b >>= fun _ ↦ storeChains D parent l).run m = _
    rw [run_bind_of_ok (first.run_chain le_rfl), ih]

/-! ### Complete values -/

theorem joinedValues_append (l l' : List SubAvp) (waiting : Option Bytes) :
    joinedValues (l ++ l') waiting =
      joinedValues l waiting ++ joinedValues l' (leftWaiting l waiting) := by
  induction l generalizing waiting with
  | nil => rfl
  | cons a l ih => rw [List.cons_append, joinedValues, ih, joinedValues, leftWaiting, List.append_assoc]

theorem leftWaiting_append (l l' : List SubAvp) (waiting : Option Bytes) :
    leftWaiting (l ++ l') waiting = leftWaiting l' (leftWaiting l waiting) := by
  induction l generalizing waiting with
  | nil => rfl
  | cons a l ih => rw [List.cons_append, leftWaiting, ih, leftWaiting]

/-- How much sub-attributes carry. -/
def payloadSize (l : List SubAvp) : ℕ := (l.map fun a ↦ a.payload.length).sum

/-- What sub-attributes carry is in the values that they complete, or waits. -/
theorem length_joinedValues (l : List SubAvp) (waiting : Option Bytes) :
    ((joinedValues l waiting).map List.length).sum + ((leftWaiting l waiting).getD []).length =
      (waiting.getD []).length + payloadSize l := by
  induction l generalizing waiting with
  | nil => simp [joinedValues, leftWaiting, payloadSize]
  | cons a l ih =>
    have hrest := ih (a.left waiting)
    have hfirst : ((a.value? waiting).toList.map List.length).sum +
        ((a.left waiting).getD []).length = (waiting.getD []).length + a.payload.length := by
      rw [SubAvp.value?, SubAvp.left]
      rcases a.continuation with - | flags
      · simp [Nat.add_comm]
      · dsimp only
        split
        · simp
        · simp
    rw [joinedValues, leftWaiting, List.map_append, List.sum_append]
    rw [payloadSize] at hrest ⊢
    rw [List.map_cons, List.sum_cons]
    omega

/-- The header of a sub-attribute, with its continuation byte. -/
def headerSize (format : VendorFormat) : ℕ :=
  format.typeLen + format.lenLen + if format.hasContinuation then 1 else 0

/-- **Sub-attributes** do not carry more than there is, and their headers take up the rest. -/
theorem sum_subAvps_le (format : VendorFormat) (fuel : ℕ) (rest : Bytes) :
    (((subAvps format fuel rest).1).map fun a ↦ headerSize format + a.payload.length).sum ≤
      rest.length := by
  induction fuel generalizing rest with
  | zero =>
    rw [subAvps]
    split
    · exact Nat.zero_le _
    · exact Nat.zero_le _
  | succ fuel ih =>
    rw [subAvps]
    dsimp only
    split
    · exact Nat.zero_le _
    generalize (if format.lenLen = 0 then rest.length
      else Bytes.toNatBE ((rest.drop format.typeLen).take format.lenLen)) = n
    split
    · exact Nat.zero_le _
    next hn =>
    have hrest := ih (rest.drop n)
    have hpayload : ((rest.take n).drop (format.typeLen + format.lenLen)).length =
        n - (format.typeLen + format.lenLen) := by
      rw [List.length_drop, List.length_take]
      omega
    rw [List.length_drop] at hrest
    rw [headerSize] at hrest ⊢
    split
    · next hcont =>
      rw [if_pos hcont] at hrest
      rcases hparts : (rest.take n).drop (format.typeLen + format.lenLen) with - | ⟨flags, payload⟩
      · exact Nat.zero_le _
      · rw [hparts, List.length_cons] at hpayload
        rw [List.map_cons, List.sum_cons]
        dsimp only
        omega
    · next hcont =>
      rw [if_neg hcont] at hrest
      rw [List.map_cons, List.sum_cons]
      dsimp only
      omega

end

/-! ### What the decoder stores under the key -/

section

variable {D : Dictionary} {mac : Option (Stored Bytes)} {flag : Option Bool} {st : DecodeState}
  {vendor vsaType : Int} {m : SubMap Bytes}

theorem HoldsMap.mapShaped {key : Key} (h : HoldsMap key m st) (hst : Shaped (some D) mac flag st) :
    D.MapShaped (D.attributeAt? key) m := by
  rcases h with hget | ⟨rfl, -⟩
  · exact (hst.shaped _ _ hget).2 D rfl
  · trivial

theorem HoldsMap.of_eq {key : Key} {st' : DecodeState} (h : HoldsMap key m st)
    (hget : st'.attrs.get? key = st.attrs.get? key) : HoldsMap key m st' := by
  rw [HoldsMap, hget]
  exact h

/-- A map of the declared shape, or none, stands under the key of a vendor TLV. -/
theorem exists_holdsMap (h : Shaped (some D) mac flag st)
    (htlv : D.isTlvAttribute (.tup [vendor, vsaType]) = true) :
    ∃ m, HoldsMap (.tup [vendor, vsaType]) m st := by
  rcases hget : st.attrs.get? (.tup [vendor, vsaType]) with - | ⟨old | m⟩
  · exact ⟨[], .inr ⟨rfl, hget⟩⟩
  · have htop := h.shaped _ _ hget
    rw [TopShaped, holdsMap] at htop
    simp [htlv] at htop
  · exact ⟨m, .inl hget⟩

/-- The chain of a value is stored. -/
theorem HoldsMap.exists_run_decodeTlvAttribute (hst : HoldsMap (.tup [vendor, vsaType]) m st)
    (h : Shaped (some D) mac flag st) (value : Bytes) :
    ∃ m', (storeChains D (D.attributeAt? (.tup [vendor, vsaType])) [value]).run m = .ok () m' ∧
      (decodeTlvAttribute D (.tup [vendor, vsaType]) value).run st =
        .ok () { st with attrs := st.attrs.set (.tup [vendor, vsaType]) (.node m') } := by
  obtain ⟨m', hrun, -⟩ :=
    (addsUnless_chain (le_refl value.length) (hst.mapShaped h)).exists_run
  refine ⟨m', ?_, hst.run_inContainer hrun⟩
  show (decodeTlvChainInto D value.length _ value >>= fun _ ↦ pure PUnit.unit).run m = _
  rw [run_bind_of_ok hrun]
  rfl

/-- The chain of a complete value is stored if it is of the type, and otherwise nothing changes. -/
theorem HoldsMap.exists_run_storeComplete (hst : HoldsMap (.tup [vendor, vsaType]) m st)
    (h : Shaped (some D) mac flag st) (htlv : D.isTlvAttribute (.tup [vendor, vsaType]) = true)
    (type : Int) (value? : Option Bytes) :
    ∃ st' m', (storeComplete D (.tup [vendor, type]) value?).run st = .ok () st' ∧
      (storeChains D (D.attributeAt? (.tup [vendor, vsaType]))
        (if type = vsaType then value?.toList else [])).run m = .ok () m' ∧
      HoldsMap (.tup [vendor, vsaType]) m' st' := by
  rcases value? with - | value
  · refine ⟨st, m, rfl, ?_, hst⟩
    rw [Option.toList_none, ite_self]
    rfl
  rw [storeComplete]
  by_cases htype : type = vsaType
  · subst htype
    obtain ⟨m', hchain, hrun⟩ := hst.exists_run_decodeTlvAttribute h value
    rw [if_pos htlv, if_pos rfl]
    exact ⟨_, m', hrun, hchain, .inl (OrderedDict.get?_set_self ..)⟩
  · have hne : Key.tup [vendor, vsaType] ≠ .tup [vendor, type] := by simpa using Ne.symm htype
    rw [if_neg htype]
    by_cases htlv' : D.isTlvAttribute (.tup [vendor, type]) = true
    · obtain ⟨m₀, hst₀⟩ := exists_holdsMap h htlv'
      obtain ⟨m', -, hrun⟩ := hst₀.exists_run_decodeTlvAttribute h value
      rw [if_pos htlv']
      exact ⟨_, m, hrun, rfl, hst.of_eq (OrderedDict.get?_set_ne _ hne _)⟩
    · rw [if_neg htlv']
      exact ⟨st, m, rfl, rfl, hst⟩

/-- **Sub-attributes** store the values of the type that they complete. -/
theorem HoldsMap.exists_run_readSubAvps (hst : HoldsMap (.tup [vendor, vsaType]) m st)
    (h : Shaped (some D) mac flag st) (htlv : D.isTlvAttribute (.tup [vendor, vsaType]) = true)
    (l : List SubAvp) :
    ∃ st' m', (l.forM (readSubAvp D vendor)).run st = .ok () st' ∧
      (storeChains D (D.attributeAt? (.tup [vendor, vsaType])) (joinedValues (ofType vsaType l)
        (st.vsaContinuationBuf.get? (vendor, vsaType)))).run m = .ok () m' ∧
      HoldsMap (.tup [vendor, vsaType]) m' st' := by
  induction l generalizing st m with
  | nil => exact ⟨st, m, rfl, rfl, hst⟩
  | cons a l ih =>
    obtain ⟨buf, heq, -⟩ := exists_readSubAvp_eq (D := D) vendor a st
    obtain ⟨st₁, hrun₁, hbuf, hreads⟩ := exists_run_readSubAvp h vendor a
    have hst₀ : HoldsMap (.tup [vendor, vsaType]) m { st with vsaContinuationBuf := buf } :=
      hst.of_eq rfl
    obtain ⟨st₂, m₁, hrun₂, hchain₁, hst₁⟩ := hst₀.exists_run_storeComplete (h.of_eq rfl rfl) htlv
      a.vsaType (a.value? (st.vsaContinuationBuf.get? (vendor, a.vsaType)))
    rw [heq, hrun₂] at hrun₁
    cases hrun₁
    obtain ⟨st', m', hrun', hchain', hst'⟩ := ih hst₁ hreads.shaped
    refine ⟨st', m', ?_, ?_, hst'⟩
    · show (readSubAvp D vendor a >>= fun _ ↦ l.forM (readSubAvp D vendor)).run st = _
      rw [run_bind_of_ok (heq.trans hrun₂), hrun']
    · rw [hbuf] at hchain'
      rw [ofType, List.filter_cons]
      by_cases htype : a.vsaType = vsaType
      · subst htype
        rw [if_pos rfl] at hchain₁ hchain'
        rw [if_pos (by simp), joinedValues, storeChains_append, run_bind_of_ok hchain₁]
        exact hchain'
      · rw [if_neg htype] at hchain₁
        rw [if_neg (by simpa using Ne.symm htype)] at hchain'
        rw [if_neg (by simpa using htype)]
        cases hchain₁
        exact hchain'

/-- The sub-attributes of one type in a vendor attribute. -/
def ownSubAvps (D : Dictionary) (vendor vsaType : Int) (data : Bytes) : List SubAvp :=
  ofType vsaType (subAvps (D.vendorFormat vendor) (data.drop 4).length (data.drop 4)).1

/-- A vendor attribute does what its sub-attributes do, and lists some values. -/
theorem exists_run_decodeVendorAttribute (h : Shaped (some D) mac flag st) {data : Bytes}
    (hdata : 4 ≤ data.length) (hvendor : (Bytes.toNatBE (data.take 4) : Int) = vendor) :
    ∃ listed st', (decodeVendorAttribute (some D) data).run st = .ok listed st' ∧
      ((subAvps (D.vendorFormat vendor) (data.drop 4).length (data.drop 4)).1.forM
        (readSubAvp D vendor)).run st = .ok () st' := by
  rw [decodeVendorAttribute, if_neg (by omega), hvendor]
  by_cases hshort : (data.drop 4).length <
      (D.vendorFormat vendor).typeLen + (D.vendorFormat vendor).lenLen
  · rw [subAvps_of_short _ hshort]
    dsimp only
    rw [if_pos hshort]
    exact ⟨_, st, rfl, rfl⟩
  · obtain ⟨listed, st', hloop, hread, -⟩ := @exists_run_decodeVendorLoop D mac flag st vendor h
      (D.vendorFormat vendor) _ _ (le_refl (data.drop 4).length) []
    dsimp only
    rw [if_neg hshort, run_bind_of_ok hloop]
    exact ⟨_, st', rfl, hread⟩

/-- A value is appended to the list under its key. -/
theorem exists_run_appendTop_list {key : Key} (h : Shaped (some D) mac flag st)
    (hlist : holdsMap (some D) key = false) (value : Bytes) :
    ∃ vs, (appendTop key value).run st =
      .ok () { st with attrs := st.attrs.set key (.vals vs) } := by
  rw [appendTop, run_modifyM, extendTop]
  rcases hget : st.attrs.get? key with - | ⟨old | m⟩
  · exact ⟨[value], rfl⟩
  · exact ⟨old ++ [value], rfl⟩
  · have htop := h.shaped key _ hget
    rw [TopShaped, hlist] at htop
    cases htop.1

/-- Values that are listed go under other keys. -/
theorem HoldsMap.exists_run_appendTop {key : Key} (hst : HoldsMap key m st)
    (h : Shaped (some D) mac flag st) (hmap : holdsMap (some D) key = true)
    {listed : List (Key × Bytes)} (hlisted : Listable (some D) listed) :
    ∃ st', (listed.forM fun e ↦ appendTop e.1 e.2).run st = .ok () st' ∧
      Shaped (some D) mac flag st' ∧ HoldsMap key m st' ∧
      st'.vsaContinuationBuf = st.vsaContinuationBuf := by
  induction listed generalizing st with
  | nil => exact ⟨st, rfl, h, hst, rfl⟩
  | cons e listed ih =>
    obtain ⟨hmac, hlist⟩ := hlisted e (by simp)
    have hne : key ≠ e.1 := by
      rintro rfl
      rw [hmap] at hlist
      cases hlist
    obtain ⟨vs, hrun⟩ := exists_run_appendTop_list h hlist e.2
    have hshaped := (ensures_appendTop h hmac hlist e.2).of_run_eq_ok hrun
    obtain ⟨st', hrun', hshaped', hst', hbuf⟩ :=
      ih (hst.of_eq (OrderedDict.get?_set_ne _ hne _)) hshaped fun e' he' ↦ hlisted e' (by simp [he'])
    exact ⟨st', (run_bind_of_ok hrun).trans hrun', hshaped', hst', hbuf⟩

/-- **One vendor attribute.** -/
theorem HoldsMap.exists_run_decodeAvp (hst : HoldsMap (.tup [vendor, vsaType]) m st)
    (h : Shaped (some D) mac flag st) (htlv : D.isTlvAttribute (.tup [vendor, vsaType]) = true)
    (version : RadiusVersion) {data : Bytes} (hdata : 4 ≤ data.length)
    (hvendor : (Bytes.toNatBE (data.take 4) : Int) = vendor) :
    ∃ st' m', (decodeAvp (some D) version 26 data).run st = .ok () st' ∧
      Shaped (some D) mac flag st' ∧
      (storeChains D (D.attributeAt? (.tup [vendor, vsaType]))
        (joinedValues (ownSubAvps D vendor vsaType data)
          (st.vsaContinuationBuf.get? (vendor, vsaType)))).run m = .ok () m' ∧
      HoldsMap (.tup [vendor, vsaType]) m' st' ∧
      st'.vsaContinuationBuf.get? (vendor, vsaType) =
        leftWaiting (ownSubAvps D vendor vsaType data)
          (st.vsaContinuationBuf.get? (vendor, vsaType)) := by
  have hmap : holdsMap (some D) (.tup [vendor, vsaType]) = true := by simpa [holdsMap] using htlv
  obtain ⟨listed, st₁, hdecode, hread⟩ := exists_run_decodeVendorAttribute h hdata hvendor
  obtain ⟨st₂, m', hread', hchain, hst₁⟩ := hst.exists_run_readSubAvps h htlv
    (subAvps (D.vendorFormat vendor) (data.drop 4).length (data.drop 4)).1
  obtain ⟨st₃, hread'', hbuf, -⟩ := Packet.exists_run_readSubAvps h vendor
    (subAvps (D.vendorFormat vendor) (data.drop 4).length (data.drop 4)).1
  rw [hread] at hread' hread''
  cases hread'
  cases hread''
  obtain ⟨hlisted, hshaped⟩ := (ensures_decodeVendorAttribute h data).of_run_eq_ok hdecode
  obtain ⟨st', hrun, hshaped', hst', hsame⟩ := hst₁.exists_run_appendTop hshaped hmap hlisted
  refine ⟨st', m', (run_bind_of_ok hdecode).trans hrun, hshaped', hchain, hst', ?_⟩
  rw [hsame, hbuf]
  rfl

/-- **A sequence of vendor attributes** stores the chains of the values that its sub-attributes
complete. -/
theorem HoldsMap.exists_run_decodeAvps (hst : HoldsMap (.tup [vendor, vsaType]) m st)
    (h : Shaped (some D) mac flag st) (htlv : D.isTlvAttribute (.tup [vendor, vsaType]) = true)
    (version : RadiusVersion) {l : List Avp} (hl : ∀ a ∈ l, a.code = 26 ∧ 4 ≤ a.value.length ∧
      (Bytes.toNatBE (a.value.take 4) : Int) = vendor) :
    ∃ st' m', (decodeAll D version l).run st = .ok () st' ∧
      (storeChains D (D.attributeAt? (.tup [vendor, vsaType]))
        (joinedValues (l.flatMap fun a ↦ ownSubAvps D vendor vsaType a.value)
          (st.vsaContinuationBuf.get? (vendor, vsaType)))).run m = .ok () m' ∧
      HoldsMap (.tup [vendor, vsaType]) m' st' := by
  induction l generalizing st m with
  | nil => exact ⟨st, m, rfl, rfl, hst⟩
  | cons a l ih =>
    obtain ⟨hcode, hdata, hvendor⟩ := hl a (by simp)
    obtain ⟨st₁, m₁, hrun₁, h₁, hchain₁, hst₁, hbuf⟩ :=
      hst.exists_run_decodeAvp h htlv version hdata hvendor
    obtain ⟨st', m', hrun, hchain, hst'⟩ := ih hst₁ h₁ fun b hb ↦ hl b (by simp [hb])
    refine ⟨st', m', ?_, ?_, hst'⟩
    · rw [decodeAll_cons, hcode, run_bind_of_ok hrun₁, hrun]
    · rw [hbuf] at hchain
      rw [List.flatMap_cons, joinedValues_append, storeChains_append, run_bind_of_ok hchain₁]
      exact hchain

end

/-! ### What goes out -/

/-- An instance of a vendor TLV in its attribute: behind the vendor id, with one byte for the type and
one for the length. -/
structure WrapsInstance (vendor code : Int) (chain : Bytes) (a : Avp) : Prop where
  code_eq : a.code = 26
  exists_parts : ∃ field type length, packUnsigned 4 vendor = .ok field ∧ IsCode code type ∧
    length.toNat = chain.length + 2 ∧ a.value = field ++ type :: length :: chain

section

variable {D : Dictionary} {p : Packet} {attr : Attribute} {vendor code : Int} {m : SubMap Bytes}

theorem WrapsInstance.vendor_eq {chain : Bytes} {a : Avp} (h : WrapsInstance vendor code chain a) :
    4 ≤ a.value.length ∧ (Bytes.toNatBE (a.value.take 4) : Int) = vendor := by
  obtain ⟨field, type, length, hfield, -, -, hvalue⟩ := h.exists_parts
  obtain ⟨hlength, hvendor⟩ := toNatBE_of_packUnsigned hfield
  rw [hvalue, List.take_left' hlength, List.length_append]
  exact ⟨by omega, hvendor⟩

/-- Instances in attributes of their own, each in one of the vendor. -/
theorem exists_wrapsInstance (hvendor : IsUnsigned 4 vendor) {l : List Avp}
    (hl : ∀ a ∈ l, IsCode code a.code ∧ a.value.length ≤ 247) :
    ∃ avps : List Avp, (l.map Avp.bytes).mapM (packVendorTlv vendor) = .ok (avps.map Avp.bytes) ∧
      List.Forall₂ (WrapsInstance vendor code) (l.map Avp.value) avps := by
  induction l with
  | nil => exact ⟨[], rfl, .nil⟩
  | cons a l ih =>
    obtain ⟨hcode, hlength⟩ := hl a (by simp)
    obtain ⟨avps, havps, hall⟩ := ih fun b hb ↦ hl b (by simp [hb])
    obtain ⟨out, hout⟩ := (succeeds_packVendorTlv_iff vendor a.bytes).2
      ⟨by rw [Avp.length_bytes]; omega, hvendor⟩
    have hwrapped := hout
    obtain ⟨header, hheader, hwrapped⟩ := Except.bind_eq_ok_iff.1 hwrapped
    obtain ⟨field, hfield, hwrapped⟩ := Except.bind_eq_ok_iff.1 hwrapped
    cases hwrapped
    have hfour : field.length = 4 := (sized_packUnsigned 4 vendor).length_eq hfield
    obtain ⟨b, hb, hbcode, hbvalue⟩ := exists_avp_of_packOctets hheader (field ++ a.bytes)
      (by rw [List.length_append, hfour, List.length_nil]; omega)
    rw [List.append_assoc, hb] at hout
    refine ⟨b :: avps, ?_, .cons ⟨UInt8.toNat_inj.1 (Int.ofNat_inj.1 hbcode), field, a.code,
      UInt8.ofNat (a.value.length + 2), hfield, hcode, a.toNat_length, hbvalue⟩ hall⟩
    rw [List.map_cons, List.mapM_cons, hout, Except.bind_of_ok, havps]
    rfl

/-- A TLV of a vendor: what the dictionary says about it and about the vendor. -/
structure IsVendorTlv (D : Dictionary) (vendor : Int) (attr : Attribute) : Prop where
  declared : D.attributeAt? (.tup [vendor, attr.code]) = some attr
  type_eq : attr.type = .tlv
  named : attr.vendor ≠ ""
  known : D.vendors.forward.get? attr.vendor = some vendor

theorem IsVendorTlv.isTlvAttribute (h : IsVendorTlv D vendor attr) :
    D.isTlvAttribute (.tup [vendor, attr.code]) = true := by
  rw [Dictionary.isTlvAttribute, h.declared]
  simp [h.type_eq]

/-- **A tree of a vendor** goes out in instances. -/
theorem IsVendorTlv.exists_instances (h : IsVendorTlv D vendor attr) (hdict : p.dict = some D)
    (hvendor : IsUnsigned 4 vendor) (hcode : IsOctet attr.code) (hm : m ≠ [])
    {encoded : List Bytes} (hencoded : (List.range (roundCount m)).mapM
      (p.encodeTlvRound (Stored.mapSub .bytes m)) = .ok encoded)
    (hsizes : ∀ b ∈ gatherRounds encoded [], b.length ≤ 247) :
    ∃ l : List Avp, p.encodeTlv (.tup [vendor, attr.code]) (.node (Stored.mapSub .bytes m)) =
        .ok (Avp.join l) ∧
      List.Forall₂ (WrapsInstance vendor attr.code) (gatherRounds encoded []) l := by
  obtain ⟨items, hitems, hcodes, hvalues⟩ := exists_avps_packItems hcode
    fun b hb ↦ (hsizes b hb).trans (by omega)
  obtain ⟨l, hl, hall⟩ := @exists_wrapsInstance vendor attr.code hvendor items
    fun a ha ↦ ⟨hcodes a ha, hsizes _ (by rw [← hvalues]; exact List.mem_map_of_mem ha)⟩
  rw [hvalues] at hall
  refine ⟨l, ?_, hall⟩
  have hdict' : p.theDict = .ok D := by rw [theDict, hdict]
  rw [encodeTlv_eq_packInstances hdict h.declared hm hencoded, packInstances, hitems,
    Except.bind_of_ok, if_neg h.named, hdict', Except.bind_of_ok, h.known]
  dsimp only
  rw [hl]
  rfl

end

/-! ### What the formats make of an instance -/

/-- A format without lengths. -/
def IsUnmeasured (format : VendorFormat) : Prop := format.typeLen = 1 ∧ format.lenLen = 0

instance (format : VendorFormat) : Decidable (IsUnmeasured format) :=
  inferInstanceAs (Decidable (_ ∧ _))

section

variable {D : Dictionary} {vendor code : Int} {chain : Bytes} {a : Avp} {format : VendorFormat}
  {type length : UInt8}

theorem WrapsInstance.exists_own_eq (h : WrapsInstance vendor code chain a) :
    ∃ type length : UInt8, IsCode code type ∧ length.toNat = chain.length + 2 ∧
      ownSubAvps D vendor code a.value = ofType code
        (subAvps (D.vendorFormat vendor) (chain.length + 2) (type :: length :: chain)).1 := by
  obtain ⟨field, type, length, hfield, htype, hlength, hvalue⟩ := h.exists_parts
  refine ⟨type, length, htype, hlength, ?_⟩
  rw [ownSubAvps, hvalue, List.drop_left' (toNatBE_of_packUnsigned hfield).1]
  rfl

/-- With one byte for the type and one for the length, the chain is the payload. -/
theorem subAvps_of_default (hformat : IsDefaultFormat format) (hlength : length.toNat = chain.length + 2) :
    (subAvps format (chain.length + 2) (type :: length :: chain)).1 =
      [⟨type.toNat, none, chain⟩] := by
  obtain ⟨htypeLen, hlenLen, hcont⟩ := hformat
  have hshort : subAvps format (chain.length + 1) [] = ([], true) :=
    subAvps_of_short _ (headerLen_pos format)
  have hlong : ¬ chain.length + 1 + 1 < 2 := by omega
  rw [subAvps]
  simp [htypeLen, hlenLen, hcont, Bytes.toNatBE, hlength, hshort, hlong]

/-- Without a length, the length byte is part of the payload, or the continuation byte. -/
theorem subAvps_of_unmeasured (hformat : IsUnmeasured format) :
    (subAvps format (chain.length + 2) (type :: length :: chain)).1 =
      if format.hasContinuation then [⟨type.toNat, some length, chain⟩]
      else [⟨type.toNat, none, length :: chain⟩] := by
  obtain ⟨htypeLen, hlenLen⟩ := hformat
  have hshort : subAvps format (chain.length + 1) [] = ([], true) :=
    subAvps_of_short _ (headerLen_pos format)
  rw [subAvps]
  rcases format.hasContinuation
  · simp [htypeLen, hlenLen, Bytes.toNatBE, hshort]
  · simp [htypeLen, hlenLen, Bytes.toNatBE, hshort]

/-- Sub-attributes of one type carry less than all of them take up. -/
theorem payloadSize_ofType_le (code : Int) (l : List SubAvp) {n : ℕ}
    (h : (l.map fun a ↦ headerSize format + a.payload.length).sum ≤ n) :
    payloadSize (ofType code l) = 0 ∨ payloadSize (ofType code l) + headerSize format ≤ n := by
  induction l generalizing n with
  | nil => exact .inl rfl
  | cons a l ih =>
    rw [List.map_cons, List.sum_cons] at h
    have hrest := ih (Nat.le_sub_of_add_le' h)
    rw [ofType, List.filter_cons]
    split
    · refine .inr ?_
      rw [payloadSize, ofType] at hrest
      rw [payloadSize, List.map_cons, List.sum_cons]
      omega
    · rw [ofType] at hrest
      omega

/-- **Any other format** loses part of every chain, or all of it. -/
theorem payloadSize_own_le (hformat : ¬ IsDefaultFormat format) (hmeasured : ¬ IsUnmeasured format)
    (htype : IsCode code type) (hlength : length.toNat = chain.length + 2) :
    payloadSize (ofType code (subAvps format (chain.length + 2) (type :: length :: chain)).1) ≤
      chain.length - 1 := by
  by_cases hheader : 3 ≤ headerSize format
  · have hown := payloadSize_ofType_le code _
      (sum_subAvps_le format (chain.length + 2) (type :: length :: chain))
    simp only [List.length_cons] at hown
    omega
  -- the type takes two bytes, and is another one
  have hmem := format.typeLen_mem
  rw [headerSize] at hheader
  rw [IsUnmeasured] at hmeasured
  have hcont : format.hasContinuation = false := by
    rcases hcont : format.hasContinuation
    · rfl
    · rw [hcont, if_pos rfl] at hheader
      omega
  have htwo : format.typeLen = 2 ∧ format.lenLen = 0 := by
    rw [hcont, if_neg Bool.false_ne_true] at hheader
    have hone : ¬ (format.typeLen = 1 ∧ format.lenLen = 1) := fun h ↦ hformat ⟨h.1, h.2, hcont⟩
    omega
  obtain ⟨htypeLen, hlenLen⟩ := htwo
  have hshort : subAvps format (chain.length + 1) [] = ([], true) :=
    subAvps_of_short _ (headerLen_pos format)
  have hlong : ¬ chain.length + 1 + 1 < 2 := by omega
  have hone : (subAvps format (chain.length + 2) (type :: length :: chain)).1 =
      [⟨type.toNat * 256 + length.toNat, none, chain⟩] := by
    rw [subAvps]
    simp [htypeLen, hlenLen, hcont, Bytes.toNatBE, hshort, hlong]
  have hne : ¬ ((type.toNat : Int) * 256 + length.toNat = code) := by
    rw [IsCode] at htype
    omega
  rw [hone, ofType, List.filter_cons_of_neg (by simpa using hne)]
  exact Nat.zero_le _

end

end Packet

end Pyrad2
