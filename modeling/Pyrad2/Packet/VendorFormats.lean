import Pyrad2.Packet.VendorTlvs

/-!
# Vendor TLVs and the formats of vendors

Which formats read a vendor TLV back as it went out.

In the format `1,1` encoder and decoder agree. In the format `1,0,c` the decoder takes the length for
the continuation byte, which asks for more from 128 on; the instances are then joined, and as chains
may be joined anywhere this loses nothing unless the last instance asks for more as well. In the
format `1,0` the length becomes the first code of the chain. Every other format loses bytes of each
instance, or finds another vendor type.
-/

namespace Pyrad2

open EStateM

namespace Packet

/-! ### Flat maps -/

/-- A map from codes to lists of values, none of them empty. -/
structure IsFlat (m : SubMap Bytes) : Prop where
  nodup : (Assoc.keys m).Nodup
  lists : ∀ e ∈ m, ∃ vs, e.2 = .vals vs ∧ vs ≠ []

section

variable {D : Dictionary} {parent : Option Attribute} {m m' : SubMap Bytes}

theorem IsFlat.tail {e : Int × Stored Bytes} (h : IsFlat (e :: m)) : IsFlat m where
  nodup := (List.nodup_cons.1 h.nodup).2
  lists := fun e' he' ↦ h.lists e' (by simp [he'])

/-- A flat map is of the declared shape if no code in it is that of a nested TLV. -/
theorem IsFlat.isTree (h : IsFlat m)
    (hplain : ∀ code ∈ Assoc.keys m, nestedTlv D parent code = none) : IsTree D parent m := by
  induction m with
  | nil => trivial
  | cons e m ih =>
    obtain ⟨vs, hvs, hne⟩ := h.lists e (by simp)
    rw [IsTree]
    refine ⟨?_, (List.nodup_cons.1 h.nodup).1, ih h.tail fun code hcode ↦ hplain code (by simp [hcode])⟩
    rw [hvs, IsBranch]
    exact ⟨hne, hplain e.1 (by simp)⟩

/-- The decoder stores lists under no other codes. -/
theorem IsFlat.nestedTlv_eq_none (h : IsFlat m) (hm : D.MapShaped parent m) :
    ∀ code ∈ Assoc.keys m, nestedTlv D parent code = none := by
  intro code hcode
  obtain ⟨e, he, rfl⟩ := List.mem_map.1 hcode
  obtain ⟨vs, hvs, -⟩ := h.lists e he
  have hshape := Dictionary.mapShaped_iff.1 hm e he
  rw [hvs, Dictionary.EntryShaped, Dictionary.isTlv] at hshape
  rw [nestedTlv, Option.filter_eq_none_iff]
  intro child hchild
  rw [hchild] at hshape
  simpa using hshape

theorem IsFlat.chainSize_pos (h : IsFlat m) (hm : m ≠ []) : 0 < chainSize m := by
  obtain ⟨e, m, rfl⟩ := List.exists_cons_of_ne_nil hm
  obtain ⟨vs, hvs, hne⟩ := h.lists e (by simp)
  obtain ⟨v, vs, rfl⟩ := List.exists_cons_of_ne_nil hne
  rw [chainSize, hvs, itemSize, List.map_cons, List.sum_cons]
  omega

/-! ### Fragments that are joined -/

/-- **Fragments** of chains, with the last one complete, lead where the chains lead. -/
theorem LeadsAll.joinedValues {l : List SubAvp} {waiting : Option Bytes} {n : SubMap Bytes}
    (hfragments : ∀ a ∈ l, a.continuation.isSome) (hlast : leftWaiting l waiting = none)
    (hwaiting : Leads D parent (waiting.getD []) m n)
    (hl : LeadsAll D parent (l.map SubAvp.payload) n m') :
    LeadsAll D parent (Packet.joinedValues l waiting) m m' := by
  induction l generalizing waiting m n with
  | nil =>
    rw [leftWaiting] at hlast
    subst hlast
    cases hl
    obtain ⟨items, hitems, hrun⟩ := hwaiting.exists_items
    rcases items with - | ⟨a, items⟩
    · cases hrun
      exact .nil _
    · cases hitems
  | cons a l ih =>
    have ha := hfragments a (by simp)
    obtain ⟨flags, hflags⟩ := Option.isSome_iff_exists.1 ha
    rw [List.map_cons] at hl
    cases hl with
    | cons first rest =>
      have hrest : ∀ a' ∈ l, a'.continuation.isSome := fun a' ha' ↦ hfragments a' (by simp [ha'])
      rw [leftWaiting] at hlast
      rw [Packet.joinedValues, SubAvp.value?, SubAvp.left, hflags]
      rw [SubAvp.left, hflags] at hlast
      dsimp only at hlast ⊢
      by_cases hmore : flags &&& vsaContinuationMore ≠ 0
      · rw [if_pos hmore] at hlast ⊢
        rw [if_pos hmore]
        exact ih hrest hlast (hwaiting.append first) rest
      · rw [if_neg hmore] at hlast ⊢
        rw [if_neg hmore]
        exact .cons (hwaiting.append first) (ih hrest hlast (leads_nil _) rest)

/-- Something waits behind fragments exactly if the last one asks for more. -/
theorem leftWaiting_concat (l : List SubAvp) (a : SubAvp) (waiting : Option Bytes) :
    leftWaiting (l ++ [a]) waiting = a.left (leftWaiting l waiting) := by
  rw [leftWaiting_append]
  rfl

end

/-! ### A first entry that stays another one -/

/-- The map does not begin with the code, or begins with another first value under it. -/
def HeadDiffers (code : Int) (v : Bytes) : SubMap Bytes → Prop
  | [] => False
  | e :: _ => e.1 = code → ∃ w vs, e.2 = .vals (w :: vs) ∧ w ≠ v

section

variable {D : Dictionary} {parent : Option Attribute} {m m' : SubMap Bytes} {code : Int} {v : Bytes}

theorem HeadDiffers.ne_cons (h : HeadDiffers code v m) (vs : List Bytes) (rest : SubMap Bytes) :
    m ≠ (code, .vals (v :: vs)) :: rest := by
  rintro rfl
  obtain ⟨w, vs', heq, hne⟩ := h rfl
  cases heq
  exact hne rfl

/-- Assigning under a code does not change what the first entry is about. -/
theorem HeadDiffers.set (h : HeadDiffers code v m) {k : Int} {stored : Stored Bytes}
    (hstored : k = code → (∃ w vs, Assoc.get? k m = some (.vals (w :: vs)) ∧ w ≠ v) →
      ∃ w vs, stored = .vals (w :: vs) ∧ w ≠ v) :
    HeadDiffers code v (Assoc.set k stored m) := by
  rcases m with - | ⟨e, m⟩
  · cases h
  rw [Assoc.set]
  split
  · next hk =>
    intro hcode
    dsimp only at hcode
    refine hstored hcode ?_
    obtain ⟨w, vs, heq, hne⟩ := h (hk ▸ hcode)
    exact ⟨w, vs, by rw [Assoc.get?, if_pos hk, heq], hne⟩
  · exact h

/-- An item is stored, and the first entry stays another one. -/
theorem ensures_headDiffers_item (hplain : nestedTlv D parent code = none)
    (h : HeadDiffers code v m) (fuel : ℕ) (k : UInt8) (value : Bytes) :
    Ensures (storeItemValue D fuel parent k value) m (fun _ m' ↦ HeadDiffers code v m')
      fun _ _ ↦ True := by
  rw [storeItemValue]
  rcases hnested : nestedTlv D parent k.toNat with - | child
  · refine ensures_modifyM (fun m' hm' ↦ ?_) fun _ _ ↦ trivial
    rcases hget : Assoc.get? (k.toNat : Int) m with - | ⟨old | n⟩ <;>
      simp only [extendNode, hget] at hm' <;> cases hm'
    · refine h.set fun _ hold ↦ ?_
      obtain ⟨w, vs, hsome, -⟩ := hold
      rw [hget] at hsome
      cases hsome
    · refine h.set fun _ hold ↦ ?_
      obtain ⟨w, vs, hsome, hne⟩ := hold
      rw [hget] at hsome
      cases hsome
      exact ⟨w, vs ++ [value], rfl, hne⟩
  · -- the code itself is not that of a nested TLV
    have hne : (k.toNat : Int) ≠ code := by
      rintro rfl
      rw [hplain] at hnested
      cases hnested
    dsimp only
    rw [inNested, ensures_onPart]
    rw [Ensures]
    split
    · exact h.set fun heq ↦ absurd heq hne
    · trivial

/-- Nor does a chain change it. -/
theorem ensures_headDiffers_chain (hplain : nestedTlv D parent code = none)
    (h : HeadDiffers code v m) (fuel : ℕ) (data : Bytes) :
    Ensures (decodeTlvChainInto D fuel parent data) m (fun _ m' ↦ HeadDiffers code v m')
      fun _ _ ↦ True := by
  induction fuel generalizing data m with
  | zero =>
    rcases data with - | ⟨atype, - | ⟨length, rest⟩⟩
    · exact h
    · exact h
    · exact trivial
  | succ fuel ih =>
    rcases data with - | ⟨atype, - | ⟨length, rest⟩⟩
    · exact h
    · exact h
    rw [decodeTlvChainInto_cons]
    split
    · exact h
    · exact ensures_bind.2 ((ensures_headDiffers_item hplain h fuel atype _).imp
        (fun _ m' hm' ↦ ih hm' _) fun _ _ h ↦ h)

/-- **The length byte of an instance, taken for the first code of a chain**, gives another first
entry, or nothing at all. -/
theorem headDiffers_of_run_length {length : UInt8} {chain : Bytes}
    (hplain : nestedTlv D parent code = none)
    (hfirst : (length.toNat : Int) ≠ code ∨
      ∃ next rest, chain = next :: rest ∧ (next.toNat : Int) = code ∧
        length.toNat = chain.length + 2 ∧ v.length < rest.length)
    (hrun : (decodeTlvChainInto D (chain.length + 1) parent (length :: chain)).run [] = .ok () m') :
    (m' = [] ∧ ∀ next rest, chain = next :: rest → next < 2) ∨ HeadDiffers code v m' := by
  rcases chain with - | ⟨next, rest⟩
  · cases hrun
    exact .inl ⟨rfl, fun _ _ heq ↦ by cases heq⟩
  rw [List.length_cons, decodeTlvChainInto_cons] at hrun
  split at hrun
  · next hshort =>
    cases hrun
    refine .inl ⟨rfl, fun _ _ heq ↦ ?_⟩
    cases heq
    exact hshort
  right
  obtain ⟨_, m₁, hitem, hrest⟩ := run_bind_eq_ok_iff.1 hrun
  refine (ensures_headDiffers_chain hplain ?_ _ _).of_run_eq_ok hrest
  rw [storeItemValue] at hitem
  rcases hnested : nestedTlv D parent length.toNat with - | child
  · rw [hnested] at hitem
    dsimp only at hitem
    rw [appendNode, run_modifyM] at hitem
    cases hitem
    intro hcode
    dsimp only at hcode
    obtain hne | ⟨next', rest', heq, hnext, hlength, hlong⟩ := hfirst
    · exact absurd hcode hne
    cases heq
    refine ⟨_, [], rfl, fun hsame ↦ ?_⟩
    -- the value takes up the whole chain
    have htaken := congrArg List.length hsame
    rw [List.length_take] at htaken
    rw [List.length_cons] at hlength
    omega
  · have hne : (length.toNat : Int) ≠ code := by
      rintro rfl
      rw [hplain] at hnested
      cases hnested
    rw [hnested] at hitem
    dsimp only at hitem
    rw [inNested, run_onPart] at hitem
    split at hitem
    · cases hitem
      exact fun hcode ↦ absurd hcode hne
    · cases hitem

end

section

variable {D : Dictionary} {parent : Option Attribute} {m m' : SubMap Bytes} {code : Int} {v : Bytes}

/-- A chain behind its own length, with the two bytes of the header. -/
def withLength (chain : Bytes) : Bytes := UInt8.ofNat (chain.length + 2) :: chain

theorem HeadDiffers.of_run_storeChains (h : HeadDiffers code v m)
    (hplain : nestedTlv D parent code = none) {l : List Bytes}
    (hrun : (storeChains D parent l).run m = .ok () m') : HeadDiffers code v m' := by
  induction l generalizing m with
  | nil =>
    cases hrun
    exact h
  | cons value l ih =>
    obtain ⟨_, m₁, hfirst, hrest⟩ := run_bind_eq_ok_iff.1 hrun
    exact ih ((ensures_headDiffers_chain hplain h _ _).of_run_eq_ok hfirst) hrest

/-- Codes too small for a length. -/
theorem headDiffers_of_small_code (hplain : nestedTlv D parent code = none) (hcode : code < 2)
    {l : List Bytes} (hl : ∀ chain ∈ l, chain.length ≤ 247)
    (hrun : (storeChains D parent (l.map withLength)).run [] = .ok () m') :
    m' = [] ∨ HeadDiffers code v m' := by
  induction l with
  | nil =>
    cases hrun
    exact .inl rfl
  | cons chain l ih =>
    obtain ⟨_, m₁, hfirst, hrest⟩ := run_bind_eq_ok_iff.1 hrun
    have hlength : (UInt8.ofNat (chain.length + 2)).toNat = chain.length + 2 := by
      have hle := hl chain (by simp)
      rw [UInt8.toNat_ofNat']
      omega
    have hother : ((UInt8.ofNat (chain.length + 2)).toNat : Int) ≠ code := by
      rw [hlength]
      omega
    rcases headDiffers_of_run_length (v := v) hplain (.inl hother) hfirst with ⟨rfl, -⟩ | hdiffers
    · exact ih (fun c hc ↦ hl c (by simp [hc])) hrest
    · exact .inr (hdiffers.of_run_storeChains hplain hrest)

theorem exists_gatherRounds_eq_cons (rounds : List Bytes) (curr : Bytes) :
    ∃ more l, gatherRounds rounds curr = (curr ++ more) :: l := by
  induction rounds generalizing curr with
  | nil => exact ⟨[], [], by rw [gatherRounds, List.append_nil]⟩
  | cons round rounds ih =>
    rw [gatherRounds]
    split
    · obtain ⟨more, l, heq⟩ := ih (curr ++ round)
      exact ⟨round ++ more, l, by rw [heq, List.append_assoc]⟩
    · exact ⟨[], _, by rw [List.append_nil]⟩

/-- The first instance that is not empty begins with the first round. -/
theorem exists_gatherRounds_eq (round : Bytes) (rounds : List Bytes) :
    ∃ pre more l, gatherRounds (round :: rounds) [] = pre ++ (round ++ more) :: l ∧
      ∀ b ∈ pre, b = [] := by
  obtain ⟨more, l, heq⟩ := exists_gatherRounds_eq_cons rounds round
  rw [gatherRounds]
  split
  · exact ⟨[], more, l, by rw [List.nil_append, heq]; rfl, fun b hb ↦ (List.not_mem_nil hb).elim⟩
  · exact ⟨[[]], more, l, by rw [heq]; rfl, fun b hb ↦ List.mem_singleton.1 hb⟩

/-- The first round begins with the first value of the first code. -/
theorem exists_round_eq {p : Packet} {vs : List Bytes} {rest : SubMap Bytes} {encoded : List Bytes}
    (hencoded : (List.range (roundCount ((code, .vals (v :: vs)) :: rest))).mapM
      (p.encodeTlvRound (Stored.mapSub .bytes ((code, .vals (v :: vs)) :: rest))) = .ok encoded) :
    ∃ next length more rounds, encoded = (next :: length :: (v ++ more)) :: rounds ∧
      IsCode code next := by
  have hle : (v :: vs).length ≤ roundCount ((code, .vals (v :: vs)) :: rest) :=
    (le_foldl_max _ 0).2 _ (List.mem_map.2 ⟨(code, .vals (v :: vs)), List.mem_cons_self, rfl⟩)
  obtain ⟨n, hn⟩ : ∃ n, roundCount ((code, .vals (v :: vs)) :: rest) = n + 1 :=
    Nat.exists_eq_succ_of_ne_zero (by rw [List.length_cons] at hle; omega)
  rw [hn, List.range_succ_eq_map, List.mapM_cons] at hencoded
  obtain ⟨round, hround, hencoded⟩ := Except.bind_eq_ok_iff.1 hencoded
  obtain ⟨rounds, -, hencoded⟩ := Except.bind_eq_ok_iff.1 hencoded
  cases hencoded
  rw [encodeTlvRound_zero, takeRounds, List.map_cons, Stored.takeVals, Stored.mapSub,
    encodeTlvChain] at hround
  obtain ⟨item, hitem, hround⟩ := Except.bind_eq_ok_iff.1 hround
  obtain ⟨more, -, hround⟩ := Except.bind_eq_ok_iff.1 hround
  cases hround
  rw [Stored.map, encodeTlvChainItem] at hitem
  have hsingle := flatten_mapM_singleton (PyVal.bytes v) (packItem code)
  have hpack : packItem code (.bytes v) = .ok item := hsingle.symm.trans hitem
  obtain ⟨a, rfl, hcode, rfl⟩ := exists_avp_of_packItem hpack
  exact ⟨a.code, _, more, rounds, rfl, hcode⟩

end

section

variable {D : Dictionary} {parent : Option Attribute} {m' : SubMap Bytes} {code : Int} {v : Bytes}

/-- Lengths without anything behind them store nothing. -/
theorem run_storeChains_of_empty {m : SubMap Bytes} {l : List Bytes} (hl : ∀ b ∈ l, b = []) :
    (storeChains D parent (l.map withLength)).run m = .ok () m := by
  induction l with
  | nil => rfl
  | cons b l ih =>
    rw [hl b (by simp)]
    exact ih fun c hc ↦ hl c (by simp [hc])

/-- **Lengths in front of the instances** lead to another map. -/
theorem ne_of_run_withLength {p : Packet} {vs : List Bytes} {rest : SubMap Bytes}
    {encoded : List Bytes} (hplain : nestedTlv D parent code = none)
    (hencoded : (List.range (roundCount ((code, .vals (v :: vs)) :: rest))).mapM
      (p.encodeTlvRound (Stored.mapSub .bytes ((code, .vals (v :: vs)) :: rest))) = .ok encoded)
    (hsizes : ∀ b ∈ gatherRounds encoded [], b.length ≤ 247)
    (hrun : (storeChains D parent ((gatherRounds encoded []).map withLength)).run [] = .ok () m') :
    m' ≠ (code, .vals (v :: vs)) :: rest := by
  obtain ⟨next, length, more, rounds, rfl, hnext⟩ := exists_round_eq hencoded
  obtain ⟨pre, more', l, hgather, hpre⟩ :=
    exists_gatherRounds_eq (next :: length :: (v ++ more)) rounds
  by_cases hsmall : code < 2
  · rcases headDiffers_of_small_code (v := v) hplain hsmall hsizes hrun with rfl | hdiffers
    · exact List.cons_ne_nil _ _ ∘ Eq.symm
    · exact hdiffers.ne_cons vs rest
  · -- the first instance that is not empty stores something else
    have hfirstSize := hsizes ((next :: length :: (v ++ more)) ++ more')
      (by rw [hgather]; simp)
    rw [hgather, List.map_append, storeChains_append,
      run_bind_of_ok (run_storeChains_of_empty hpre), List.map_cons] at hrun
    obtain ⟨_, m₁, hfirst, hrest⟩ := run_bind_eq_ok_iff.1 hrun
    rw [List.cons_append, List.cons_append] at hfirstSize hfirst
    have hlength : (UInt8.ofNat ((next :: length :: (v ++ more ++ more')).length + 2)).toNat =
        (next :: length :: (v ++ more ++ more')).length + 2 := by
      rw [UInt8.toNat_ofNat']
      omega
    have hlong : v.length < (length :: (v ++ more ++ more')).length := by
      rw [List.length_cons, List.length_append, List.length_append]
      omega
    rcases headDiffers_of_run_length hplain
      (.inr ⟨next, _, rfl, hnext, hlength, hlong⟩) hfirst with ⟨-, hshort⟩ | hdiffers
    · have htwo : next.toNat < 2 := UInt8.lt_iff_toNat_lt.1 (hshort next _ rfl)
      rw [IsCode] at hnext
      omega
    · exact (hdiffers.of_run_storeChains hplain hrest).ne_cons vs rest

end

/-! ### What the formats read -/

section

variable {D : Dictionary} {parent : Option Attribute} {vendor code : Int} {chains : List Bytes}
  {l : List Avp}

theorem ofType_singleton {type : UInt8} (htype : IsCode code type) (flags : Option UInt8)
    (payload : Bytes) :
    ofType code [⟨type.toNat, flags, payload⟩] = [⟨code, flags, payload⟩] := by
  rw [IsCode] at htype
  rw [htype, ofType, List.filter_cons_of_pos (by simp)]
  rfl

/-- The vendor attributes are read one after the other. -/
theorem flatMap_ownSubAvps (hall : List.Forall₂ (WrapsInstance vendor code) chains l)
    (read : Bytes → SubAvp) (hread : ∀ (type length : UInt8) (chain : Bytes), IsCode code type →
      length.toNat = chain.length + 2 → ofType code
        (subAvps (D.vendorFormat vendor) (chain.length + 2) (type :: length :: chain)).1 =
          [read chain]) :
    (l.flatMap fun a ↦ ownSubAvps D vendor code a.value) = chains.map read := by
  induction hall with
  | nil => rfl
  | @cons chain a chains l hwraps _ ih =>
    obtain ⟨type, length, htype, hlength, hown⟩ := hwraps.exists_own_eq (D := D)
    rw [List.flatMap_cons, ih, hown, hread type length chain htype hlength]
    rfl

theorem joinedValues_complete (code : Int) (payload : Bytes → Bytes) (chains : List Bytes)
    (waiting : Option Bytes) :
    joinedValues (chains.map fun chain ↦ ⟨code, none, payload chain⟩) waiting =
      chains.map payload := by
  induction chains generalizing waiting with
  | nil => rfl
  | cons chain chains ih =>
    rw [List.map_cons, joinedValues]
    exact congrArg _ (ih waiting)

/-- Read in the default format, the values are the instances. -/
theorem joinedValues_of_default (hformat : IsDefaultFormat (D.vendorFormat vendor))
    (hall : List.Forall₂ (WrapsInstance vendor code) chains l) :
    joinedValues (l.flatMap fun a ↦ ownSubAvps D vendor code a.value) none = chains := by
  rw [flatMap_ownSubAvps hall (fun chain ↦ ⟨code, none, chain⟩)
    fun type length chain htype hlength ↦ by
      rw [subAvps_of_default hformat hlength, ofType_singleton htype]]
  exact (joinedValues_complete code (fun chain ↦ chain) chains none).trans (List.map_id chains)

/-- Read without lengths, the values are the instances behind theirs. -/
theorem joinedValues_of_unmeasured (hformat : IsUnmeasured (D.vendorFormat vendor))
    (hcont : (D.vendorFormat vendor).hasContinuation = false)
    (hall : List.Forall₂ (WrapsInstance vendor code) chains l) :
    joinedValues (l.flatMap fun a ↦ ownSubAvps D vendor code a.value) none =
      chains.map withLength := by
  rw [flatMap_ownSubAvps hall (fun chain ↦ ⟨code, none, withLength chain⟩)
    fun type length chain htype hlength ↦ by
      rw [subAvps_of_unmeasured hformat, hcont, if_neg Bool.false_ne_true, ofType_singleton htype,
        withLength, ← hlength, UInt8.ofNat_toNat]]
  exact joinedValues_complete code withLength chains none

/-- An instance as a fragment: its length is taken for the flags. -/
def asFragment (code : Int) (chain : Bytes) : SubAvp :=
  ⟨code, some (UInt8.ofNat (chain.length + 2)), chain⟩

theorem flatMap_ownSubAvps_of_fragments (hformat : IsUnmeasured (D.vendorFormat vendor))
    (hcont : (D.vendorFormat vendor).hasContinuation = true)
    (hall : List.Forall₂ (WrapsInstance vendor code) chains l) :
    (l.flatMap fun a ↦ ownSubAvps D vendor code a.value) = chains.map (asFragment code) :=
  flatMap_ownSubAvps hall (asFragment code) fun type length chain htype hlength ↦ by
    rw [subAvps_of_unmeasured hformat, hcont, if_pos rfl, ofType_singleton htype, asFragment,
      ← hlength, UInt8.ofNat_toNat]

theorem more_iff (flags : UInt8) : flags &&& vsaContinuationMore ≠ 0 ↔ 128 ≤ flags.toNat := by
  have hall : ∀ n : Fin 256, UInt8.ofNat n.val &&& vsaContinuationMore ≠ 0 ↔ 128 ≤ n.val := by
    decide +kernel
  have hflags := hall ⟨flags.toNat, flags.toNat_lt⟩
  rwa [UInt8.ofNat_toNat] at hflags

/-- What waits behind the fragments: the last instance if it is long, and nothing otherwise. -/
theorem leftWaiting_asFragment (code : Int) (chains : List Bytes) {last : Bytes} (hlast : last.length ≤ 247)
    (waiting : Option Bytes) :
    (last.length + 2 < 128 → leftWaiting ((chains ++ [last]).map (asFragment code)) waiting = none) ∧
    (128 ≤ last.length + 2 →
      last.length ≤
        ((leftWaiting ((chains ++ [last]).map (asFragment code)) waiting).getD []).length) := by
  have hflags : (UInt8.ofNat (last.length + 2)).toNat = last.length + 2 := by
    rw [UInt8.toNat_ofNat']
    omega
  rw [List.map_append, List.map_singleton, leftWaiting_concat, asFragment, SubAvp.left]
  dsimp only
  simp only [more_iff, hflags]
  refine ⟨fun hshort ↦ if_neg (by omega), fun hlong ↦ ?_⟩
  rw [if_pos hlong, Option.getD_some, List.length_append]
  exact Nat.le_add_left _ _

/-- **Any other format** stores less than went out. -/
theorem payloadSize_flatMap_le (hformat : ¬ IsDefaultFormat (D.vendorFormat vendor))
    (hmeasured : ¬ IsUnmeasured (D.vendorFormat vendor))
    (hall : List.Forall₂ (WrapsInstance vendor code) chains l) :
    payloadSize (l.flatMap fun a ↦ ownSubAvps D vendor code a.value) ≤
      (chains.map fun chain ↦ chain.length - 1).sum := by
  induction hall with
  | nil => exact Nat.le_refl _
  | @cons chain a chains l hwraps _ ih =>
    obtain ⟨type, length, htype, hlength, hown⟩ := hwraps.exists_own_eq (D := D)
    have hfirst := payloadSize_own_le hformat hmeasured htype hlength
    rw [List.flatMap_cons, payloadSize, List.map_append, List.sum_append, hown, List.map_cons,
      List.sum_cons]
    exact Nat.add_le_add hfirst ih

theorem sum_pred_le (sizes : List ℕ) :
    (sizes.map fun n ↦ n - 1).sum ≤ sizes.sum ∧
      (0 < sizes.sum → (sizes.map fun n ↦ n - 1).sum < sizes.sum) := by
  induction sizes with
  | nil => exact ⟨Nat.le_refl _, fun h ↦ absurd h (Nat.lt_irrefl 0)⟩
  | cons n sizes ih =>
    rw [List.map_cons, List.sum_cons, List.sum_cons]
    omega

end

/-! ### The round trip -/

/-- The map goes out as a TLV, and decoding what goes out stores the same map under its key. -/
def TlvReadsBack (p : Packet) (version : RadiusVersion) (key : Key) (m : SubMap Bytes) : Prop :=
  ∃ b st, p.encodeTlv key (.node (Stored.mapSub .bytes m)) = .ok b ∧
    (decodeAvps p.dict version b.length b).run {} = .ok () st ∧
    (finishAttributes p.dict st.attrs).get? key = some (.node m)

/-- The instances come through: they are read as they went out, or as fragments of which the last is
complete. -/
def KeepsInstances (format : VendorFormat) (m : SubMap Bytes) : Prop :=
  IsDefaultFormat format ∨
    IsUnmeasured format ∧ format.hasContinuation = true ∧ ∀ n ∈ (instanceSizes m).getLast?, n + 2 < 128

section

variable {D : Dictionary} {p : Packet} {version : RadiusVersion} {attr : Attribute} {vendor : Int}
  {m m' : SubMap Bytes}

/-- What is read back is what the complete values store. -/
theorem IsVendorTlv.tlvReadsBack_iff (h : IsVendorTlv D vendor attr) (hdict : p.dict = some D)
    (hm : m ≠ []) {chains : List Bytes} {l : List Avp}
    (hl : p.encodeTlv (.tup [vendor, attr.code]) (.node (Stored.mapSub .bytes m)) = .ok (Avp.join l))
    (hall : List.Forall₂ (WrapsInstance vendor attr.code) chains l) :
    TlvReadsBack p version (.tup [vendor, attr.code]) m ↔
      (storeChains D (some attr) (joinedValues
        (l.flatMap fun a ↦ ownSubAvps D vendor attr.code a.value) none)).run [] = .ok () m := by
  have hwraps : ∀ a ∈ l, a.code = 26 ∧ 4 ≤ a.value.length ∧
      (Bytes.toNatBE (a.value.take 4) : Int) = vendor := by
    clear hl
    induction hall with
    | nil => exact fun a ha ↦ (List.not_mem_nil ha).elim
    | cons hfirst _ ih => exact List.forall_mem_cons.2 ⟨⟨hfirst.code_eq, hfirst.vendor_eq⟩, ih⟩
  have hempty : HoldsMap (.tup [vendor, attr.code]) [] {} := .inr ⟨rfl, OrderedDict.get?_empty _⟩
  obtain ⟨st, m', hrun, hchain, hst⟩ := hempty.exists_run_decodeAvps (shaped_initial (some D) none)
    h.isTlvAttribute version hwraps
  rw [h.declared, show ({} : DecodeState).vsaContinuationBuf.get? (vendor, attr.code) = none from
    OrderedDict.get?_empty _] at hchain
  have hdecode : (decodeAvps p.dict version (Avp.join l).length (Avp.join l)).run {} = .ok () st := by
    rw [hdict, decodeAvps_join _ _ le_rfl]
    exact hrun
  have hfinish : (finishAttributes p.dict st.attrs).get? (.tup [vendor, attr.code]) =
      some (.node m) ↔ m' = m := by
    rw [hdict, get?_finishAttributes]
    rcases hst with hget | ⟨rfl, hget⟩
    · rw [hget, Option.map_some, finish_node]
      simp
    · rw [hget]
      exact iff_of_false (by simp) hm.symm
  rw [hchain]
  constructor
  · rintro ⟨b, st', hb, hst', hget⟩
    rw [hl] at hb
    cases hb
    rw [hdecode] at hst'
    cases hst'
    rw [hfinish.1 hget]
  · intro heq
    cases heq
    exact ⟨_, st, hl, hdecode, hfinish.2 rfl⟩

theorem mapShaped_of_run_storeChains {parent : Option Attribute} (hm : D.MapShaped parent m)
    {values : List Bytes} (hrun : (storeChains D parent values).run m = .ok () m') :
    D.MapShaped parent m' := by
  induction values generalizing m with
  | nil =>
    cases hrun
    exact hm
  | cons value values ih =>
    obtain ⟨_, m₁, hfirst, hrest⟩ := run_bind_eq_ok_iff.1 hrun
    exact ih ((ensures_decodeTlvChainInto le_rfl hm).of_run_eq_ok hfirst) hrest

/-- Storing less than the map takes does not give the map. -/
theorem not_run_storeChains_of_lt {parent : Option Attribute} {values : List Bytes}
    (hsize : (values.map List.length).sum < chainSize m) :
    (storeChains D parent values).run [] ≠ .ok () m := by
  intro hrun
  have hle := chainSize_le_of_storeChains hrun
  rw [chainSize] at hle
  omega

/-- The instances of a map, as far as they are fragments, come through if the last one is short. -/
theorem run_fragments_iff {parent : Option Attribute} {code : Int} {chains : List Bytes}
    (hleads : LeadsAll D parent chains [] m) (hlengths : chains.map List.length = instanceSizes m)
    (hsizes : ∀ b ∈ chains, b.length ≤ 247) :
    (storeChains D parent (joinedValues (chains.map (asFragment code)) none)).run [] = .ok () m ↔
      ∀ n ∈ (instanceSizes m).getLast?, n + 2 < 128 := by
  have hne : chains ≠ [] := by
    rintro rfl
    exact gatherSizes_ne_nil _ _ hlengths.symm
  obtain ⟨init, last, rfl⟩ := List.eq_nil_or_concat' chains |>.resolve_left hne
  have hgetLast : (instanceSizes m).getLast? = some last.length := by
    rw [← hlengths, List.map_append, List.map_singleton, List.getLast?_concat]
  obtain ⟨hshort, hlong⟩ := leftWaiting_asFragment code init (hsizes last (by simp)) none
  rw [hgetLast]
  constructor
  · rintro hrun n ⟨⟩
    by_contra hle
    have hwaiting := hlong (by omega)
    have hjoined := length_joinedValues ((init ++ [last]).map (asFragment code)) none
    have hpayload : payloadSize ((init ++ [last]).map (asFragment code)) = chainSize m := by
      rw [← sum_instanceSizes, ← hlengths, payloadSize, List.map_map]
      rfl
    rw [hpayload] at hjoined
    refine not_run_storeChains_of_lt ?_ hrun
    rw [Option.getD_none, List.length_nil] at hjoined
    omega
  · intro hlast
    refine LeadsAll.run_storeChains (LeadsAll.joinedValues (fun a ha ↦ ?_) (hshort (hlast _ rfl))
      (leads_nil []) ?_)
    · obtain ⟨chain, -, rfl⟩ := List.mem_map.1 ha
      rfl
    · rw [List.map_map]
      exact (List.map_id (init ++ [last])).symm ▸ hleads

/-- **What the values of the instances store**, for each kind of format. -/
theorem run_instances_iff {parent : Option Attribute} {code : Int} {l : List Avp}
    {encoded : List Bytes} (hflat : IsFlat m) (hm : m ≠ [])
    (hplain : ∀ code ∈ Assoc.keys m, nestedTlv D parent code = none)
    (hencoded : (List.range (roundCount m)).mapM
      (p.encodeTlvRound (Stored.mapSub .bytes m)) = .ok encoded)
    (hleads : LeadsAll D parent (gatherRounds encoded []) [] m)
    (hlengths : (gatherRounds encoded []).map List.length = instanceSizes m)
    (hsizes : ∀ b ∈ gatherRounds encoded [], b.length ≤ 247)
    (hall : List.Forall₂ (WrapsInstance vendor code) (gatherRounds encoded []) l) :
    (storeChains D parent (joinedValues
        (l.flatMap fun a ↦ ownSubAvps D vendor code a.value) none)).run [] = .ok () m ↔
      KeepsInstances (D.vendorFormat vendor) m := by
  rw [KeepsInstances]
  by_cases hdefault : IsDefaultFormat (D.vendorFormat vendor)
  · rw [joinedValues_of_default hdefault hall]
    exact iff_of_true hleads.run_storeChains (.inl hdefault)
  by_cases hmeasured : IsUnmeasured (D.vendorFormat vendor)
  · rcases hcont : (D.vendorFormat vendor).hasContinuation
    · rw [joinedValues_of_unmeasured hmeasured hcont hall]
      refine iff_of_false (fun hrun ↦ ?_) (by simp [hdefault])
      obtain ⟨⟨code', stored⟩, rest, rfl⟩ := List.exists_cons_of_ne_nil hm
      obtain ⟨vs, hvs, hne⟩ := hflat.lists (code', stored) (by simp)
      obtain ⟨v, vs, rfl⟩ := List.exists_cons_of_ne_nil hne
      dsimp only at hvs
      subst hvs
      exact ne_of_run_withLength (hplain code' (by simp)) hencoded hsizes hrun rfl
    · rw [flatMap_ownSubAvps_of_fragments hmeasured hcont hall,
        run_fragments_iff hleads hlengths hsizes]
      simp [hdefault, hmeasured]
  · refine iff_of_false (not_run_storeChains_of_lt ?_) (by simp [hdefault, hmeasured])
    have hjoined := length_joinedValues
      (l.flatMap fun a ↦ ownSubAvps D vendor code a.value) none
    have hpayload := payloadSize_flatMap_le hdefault hmeasured hall
    have hpos := hflat.chainSize_pos hm
    have hlost : ((gatherRounds encoded []).map fun chain ↦ chain.length - 1).sum < chainSize m := by
      have hlt := (sum_pred_le (instanceSizes m)).2 (by rwa [sum_instanceSizes])
      rw [sum_instanceSizes, ← hlengths, List.map_map] at hlt
      exact hlt
    rw [Option.getD_none, List.length_nil] at hjoined
    omega

/-- **Vendor TLVs and the formats.** A flat map of a vendor TLV is read back as it went out exactly if
it fits, none of its codes is that of a nested TLV, and the format of the vendor keeps the
instances. -/
theorem vendorTlv_readsBack_iff (h : IsVendorTlv D vendor attr) (hdict : p.dict = some D)
    (hflat : IsFlat m) :
    TlvReadsBack p version (.tup [vendor, attr.code]) m ↔
      TlvFits (some D) (.tup [vendor, attr.code]) m ∧
      (∀ code ∈ Assoc.keys m, nestedTlv D (some attr) code = none) ∧
      KeepsInstances (D.vendorFormat vendor) m := by
  have hsucceeds := succeeds_encodeTlv_iff p (.tup [vendor, attr.code]) m
  rw [hdict] at hsucceeds
  by_cases hfits : TlvFits (some D) (.tup [vendor, attr.code]) m
  · obtain ⟨D', hD', attr', hattr', hm, hitems, hcode, hsizes, hwraps⟩ := hfits
    cases hD'
    rw [h.declared] at hattr'
    cases hattr'
    obtain ⟨vendor', hvendor', hunsigned, hshort⟩ := hwraps.resolve_left h.named
    rw [h.known] at hvendor'
    cases hvendor'
    obtain ⟨encoded, hencoded⟩ : ∃ encoded, (List.range (roundCount m)).mapM
        (p.encodeTlvRound (Stored.mapSub .bytes m)) = .ok encoded := by
      rw [Except.exists_mapM_eq_ok_iff]
      exact fun i hi ↦ (sized_encodeTlvRound p m i).succeeds_iff.2
        ((forall_slotFits_iff m).2 hitems i hi)
    have hlengths : (gatherRounds encoded []).map List.length = instanceSizes m := by
      rw [map_length_gatherRounds, Except.map_length_of_mapM (sized_encodeTlvRound p m) hencoded]
      rfl
    have hinstances : ∀ b ∈ gatherRounds encoded [], b.length ≤ 247 := by
      rw [← hlengths] at hshort
      exact fun b hb ↦ hshort _ (List.mem_map_of_mem hb)
    obtain ⟨l, hl, hall⟩ := h.exists_instances hdict hunsigned hcode hm hencoded hinstances
    rw [h.tlvReadsBack_iff hdict hm hl hall]
    have hfits : TlvFits (some D) (.tup [vendor, attr.code]) m :=
      ⟨D, rfl, attr, h.declared, hm, hitems, hcode, hsizes, .inr ⟨vendor, h.known, hunsigned, hshort⟩⟩
    by_cases hplain : ∀ code ∈ Assoc.keys m, nestedTlv D (some attr) code = none
    · obtain ⟨encoded', hencoded', hleads, -⟩ :=
        exists_gathered p hm (hflat.isTree hplain) hitems
      rw [hencoded] at hencoded'
      cases hencoded'
      rw [run_instances_iff hflat hm hplain hencoded hleads hlengths hinstances hall]
      exact ⟨fun hkeeps ↦ ⟨hfits, hplain, hkeeps⟩, fun hkeeps ↦ hkeeps.2.2⟩
    · refine iff_of_false (fun hrun ↦ hplain ?_) fun hkeeps ↦ hplain hkeeps.2.1
      exact hflat.nestedTlv_eq_none (mapShaped_of_run_storeChains
        (show D.MapShaped (some attr) [] from trivial) hrun)
  · refine iff_of_false (fun hreads ↦ hfits ?_) fun hall ↦ hfits hall.1
    obtain ⟨b, -, hb, -⟩ := hreads
    exact hsucceeds.1 ⟨b, hb⟩

end

/-- The vendor of `rejectDictionary`, with fragments and no lengths. -/
def fragmentsDictionary : Dictionary where
  heap := rejectDictionary.heap
  attributes := rejectDictionary.attributes
  attrindex := rejectDictionary.attrindex
  vendors := rejectDictionary.vendors
  vendorFormats := OrderedDict.set ∅ 24757
    ⟨1, 0, true, vendorFormatDefault.typeLen_mem, Nat.zero_le 2⟩

def fragmentsPacket : Packet where
  dict := some fragmentsDictionary

/-- Two instances, of which only the first is long. -/
def fragmentsTree : SubMap Bytes := [(1, .vals [List.replicate 200 7, List.replicate 100 8])]

theorem vendorTlv_readsBack_fragments :
    TlvReadsBack fragmentsPacket .v1_0 (.tup [24757, 1]) fragmentsTree := by
  have h : IsVendorTlv fragmentsDictionary 24757 rejectDictionary.heap[0] :=
    ⟨by rfl, rfl, by decide, by rfl⟩
  have hflat : IsFlat fragmentsTree := by
    refine ⟨by decide, ?_⟩
    rintro e (_ | ⟨_, ⟨⟩⟩)
    exact ⟨_, rfl, List.cons_ne_nil _ _⟩
  have hitems : ∀ e ∈ fragmentsTree, ItemFits e.1 e.2 := by
    rw [← chainFits_iff]
    refine ⟨?_, trivial⟩
    show ∀ v ∈ [List.replicate 200 7, List.replicate 100 8], (0 ≤ (1 : Int) ∧ (1 : Int) < 256) ∧ _
    decide +kernel
  have hplain : ∀ code ∈ Assoc.keys fragmentsTree,
      nestedTlv fragmentsDictionary (some rejectDictionary.heap[0]) code = none := by
    rintro code (_ | ⟨_, ⟨⟩⟩)
    rfl
  refine (vendorTlv_readsBack_iff h rfl hflat).2 ⟨⟨fragmentsDictionary, rfl, rejectDictionary.heap[0],
    by rfl, List.cons_ne_nil _ _, hitems, ⟨by decide, by decide⟩, by decide +kernel,
    .inr ⟨24757, by rfl, ⟨by decide, by decide⟩, by decide +kernel⟩⟩, hplain,
    .inr ⟨⟨rfl, rfl⟩, rfl, by decide +kernel⟩⟩

def rejectPacket : Packet where
  dict := some rejectDictionary

/-- In the format `1,1,c`, the first byte of the chain is taken for the continuation byte. -/
theorem not_vendorTlv_readsBack_continued :
    IsVendorTlv rejectDictionary 24757 rejectDictionary.heap[0] ∧ IsFlat [(1, .vals [[65]])] ∧
      TlvFits (some rejectDictionary) (.tup [24757, 1]) [(1, .vals [[65]])] ∧
      ¬ TlvReadsBack rejectPacket .v1_0 (.tup [24757, 1]) [(1, .vals [[65]])] := by
  refine ⟨⟨by rfl, rfl, by decide, by rfl⟩, ⟨by decide, ?_⟩, ?_, ?_⟩
  · rintro e (_ | ⟨_, ⟨⟩⟩)
    exact ⟨_, rfl, List.cons_ne_nil _ _⟩
  · have hitems : ∀ e ∈ ([(1, .vals [[65]])] : SubMap Bytes), ItemFits e.1 e.2 := by
      rw [← chainFits_iff]
      refine ⟨?_, trivial⟩
      show ∀ v ∈ [[65]], (0 ≤ (1 : Int) ∧ (1 : Int) < 256) ∧ _
      decide
    exact ⟨rejectDictionary, rfl, rejectDictionary.heap[0], by rfl, List.cons_ne_nil _ _, hitems,
      ⟨by decide, by decide⟩, by decide, .inr ⟨24757, by rfl, ⟨by decide, by decide⟩, by decide⟩⟩
  · rintro ⟨b, st, hb, hst, hget⟩
    have hencode : rejectPacket.encodeTlv (.tup [24757, 1])
        (.node (Stored.mapSub .bytes [(1, .vals [[65]])])) =
        .ok [26, 11, 0, 0, 96, 181, 1, 5, 1, 3, 65] := by rfl
    rw [hencode] at hb
    cases hb
    have hrun : (decodeAvps rejectPacket.dict .v1_0 11 [26, 11, 0, 0, 96, 181, 1, 5, 1, 3, 65]).run
        {} = .ok () { attrs := OrderedDict.set ∅ (.tup [24757, 1]) (.node [(3, .vals [[]])]) } := by
      rfl
    have heq := hrun.symm.trans hst
    cases heq
    have hstored : (finishAttributes rejectPacket.dict
        (OrderedDict.set ∅ (.tup [24757, 1]) (.node [(3, .vals [[]])]))).get? (.tup [24757, 1]) =
        some (.node [(3, .vals [[]])]) := by rfl
    rw [hstored] at hget
    cases hget

end Packet

end Pyrad2
