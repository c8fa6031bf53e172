import Pyrad2.Packet.PlainGroups

/-!
# TLV trees on the wire and back

What a tree of sub-attributes goes out as, and what is read back.

A chain of items is read one item after the other, into the map of the container. Below the top a
chain holds all values of a code, and then those of the next; at the top the encoder goes round by
round, with the `i`-th value of every code in round `i`, and gathers rounds into instances. The
decoder merges the instances again: reading them is reading the items of all rounds in a row, so how
the rounds were gathered does not matter.
-/

namespace Pyrad2

open EStateM

/-- What has gone out after `i` rounds: a nested map at once, a list as far as `i` values. -/
def Stored.takeVals (i : ℕ) : Stored Bytes → Stored Bytes
  | .vals vs => .vals (vs.take i)
  | .node m => .node m

namespace Packet

/-! ### Chains as sequences of items -/

/-- The declaration of a sub-attribute that is a TLV again. -/
def nestedTlv (D : Dictionary) (parent : Option Attribute) (code : Int) : Option Attribute :=
  (D.tlvChildAttr parent code).filter fun child ↦ child.type = .tlv

/-- The value of one item of a chain is stored. -/
def storeItemValue (D : Dictionary) (fuel : ℕ) (parent : Option Attribute) (code : UInt8)
    (value : Bytes) : Method (SubMap Bytes) Unit :=
  match nestedTlv D parent code.toNat with
  | some child => inNested code.toNat (decodeTlvChainInto D fuel (some child) value)
  | none => appendNode code.toNat value

/-- One item of a chain is stored. -/
def storeItem (D : Dictionary) (parent : Option Attribute) (a : Avp) : Method (SubMap Bytes) Unit :=
  storeItemValue D a.value.length parent a.code a.value

section

variable {D : Dictionary} {parent : Option Attribute}

/-- One pass of the loop over a chain. -/
theorem decodeTlvChainInto_cons (fuel : ℕ) (atype length : UInt8) (rest : Bytes) :
    decodeTlvChainInto D (fuel + 1) parent (atype :: length :: rest) =
      if length < 2 then pure ()
      else storeItemValue D fuel parent atype (rest.take (length.toNat - 2)) >>= fun _ ↦
        decodeTlvChainInto D fuel parent (rest.drop (length.toNat - 2)) := by
  rw [decodeTlvChainInto, storeItemValue, nestedTlv]
  split
  · rfl
  · rcases D.tlvChildAttr parent atype.toNat with - | child
    · rfl
    · dsimp only
      by_cases htype : child.type = .tlv
      · rw [if_pos htype, Option.filter_some_pos (by simp [htype])]
      · rw [if_neg htype, Option.filter_some_neg (by simp [htype])]

/-- Nothing depends on the fuel, as long as it is enough. -/
theorem decodeTlvChainInto_fuel {data : Bytes} {fuel fuel' : ℕ} (h : data.length ≤ fuel)
    (h' : data.length ≤ fuel') :
    decodeTlvChainInto D fuel parent data = decodeTlvChainInto D fuel' parent data := by
  induction fuel generalizing fuel' parent data with
  | zero =>
    rw [List.length_eq_zero_iff.1 (Nat.le_zero.1 h)]
    rcases fuel' <;> rfl
  | succ fuel ih =>
    rcases data with - | ⟨atype, - | ⟨length, rest⟩⟩
    · rcases fuel' <;> rfl
    · rcases fuel' <;> rfl
    · rcases fuel' with - | fuel'
      · exact absurd h' (by simp)
      have hrest : rest.length ≤ fuel ∧ rest.length ≤ fuel' := by
        rw [List.length_cons, List.length_cons] at h h'
        omega
      have htake : (rest.take (length.toNat - 2)).length ≤ rest.length := List.length_take_le' ..
      have hdrop : (rest.drop (length.toNat - 2)).length ≤ rest.length := by
        rw [List.length_drop]
        omega
      rw [decodeTlvChainInto_cons, decodeTlvChainInto_cons,
        ih (hdrop.trans hrest.1) (hdrop.trans hrest.2), storeItemValue, storeItemValue]
      rcases nestedTlv D parent atype.toNat with - | child
      · rfl
      · dsimp only
        rw [ih (htake.trans hrest.1) (htake.trans hrest.2)]

/-- **A chain** is read one item after the other. -/
theorem decodeTlvChainInto_join {l : List Avp} {fuel : ℕ} (h : (Avp.join l).length ≤ fuel) :
    decodeTlvChainInto D fuel parent (Avp.join l) = l.forM (storeItem D parent) := by
  induction l generalizing fuel with
  | nil => rcases fuel <;> rfl
  | cons a l ih =>
    rw [Avp.join_cons, List.length_append, Avp.length_bytes] at h
    rcases fuel with - | fuel
    · omega
    rw [Avp.join_cons, Avp.bytes, List.cons_append, List.cons_append, decodeTlvChainInto_cons,
      if_neg a.two_le_length, a.toNat_length, Nat.add_sub_cancel, List.take_left, List.drop_left,
      ih (by omega)]
    show _ = storeItem D parent a >>= fun _ ↦ l.forM (storeItem D parent)
    rw [storeItem, storeItemValue, storeItemValue]
    rcases nestedTlv D parent a.code.toNat with - | child
    · rfl
    · dsimp only
      rw [decodeTlvChainInto_fuel (show a.value.length ≤ fuel by omega) le_rfl]

end

/-! ### Storing items -/

/-- The bytes are items, and storing them leads from one map to another. -/
structure Leads (D : Dictionary) (parent : Option Attribute) (b : Bytes) (m m' : SubMap Bytes) :
    Prop where
  exists_items : ∃ l, b = Avp.join l ∧ (l.forM (storeItem D parent)).run m = .ok () m'

section

variable {D : Dictionary} {parent : Option Attribute} {m m' m'' : SubMap Bytes} {b b' : Bytes}

theorem leads_nil (m : SubMap Bytes) : Leads D parent [] m m := ⟨[], rfl, rfl⟩

theorem Leads.append (h : Leads D parent b m m') (h' : Leads D parent b' m' m'') :
    Leads D parent (b ++ b') m m'' := by
  obtain ⟨l, rfl, hl⟩ := h.exists_items
  obtain ⟨l', rfl, hl'⟩ := h'.exists_items
  refine ⟨l ++ l', (Avp.join_append l l').symm, ?_⟩
  show (forM (l ++ l') (storeItem D parent)).run m = _
  rw [List.forM_append]
  show (l.forM (storeItem D parent) >>= fun _ ↦ l'.forM (storeItem D parent)).run m = _
  rw [run_bind_of_ok hl, hl']

theorem Leads.run_chain (h : Leads D parent b m m') {fuel : ℕ} (hfuel : b.length ≤ fuel) :
    (decodeTlvChainInto D fuel parent b).run m = .ok () m' := by
  obtain ⟨l, rfl, hl⟩ := h.exists_items
  rw [decodeTlvChainInto_join hfuel, hl]

theorem leads_item {a : Avp} (h : (storeItem D parent a).run m = .ok () m') :
    Leads D parent a.bytes m m' := by
  refine ⟨[a], (List.append_nil _).symm, ?_⟩
  show (storeItem D parent a >>= fun _ ↦ pure PUnit.unit).run m = _
  rw [run_bind_of_ok h]
  rfl

/-- A value is listed under its code. -/
theorem exists_leads_value {code : Int} {v : Bytes} (hplain : nestedTlv D parent code = none)
    (hcode : IsOctet code) (hlength : v.length ≤ 253) :
    ∃ b, packItem code (.bytes v) = .ok b ∧ ∀ old target,
      Assoc.get? code target = listEntry old →
        Leads D parent b target (Assoc.set code (.vals (old ++ [v])) target) := by
  obtain ⟨b, hb⟩ := (sized_packItem code v).succeeds_iff.2 ⟨hcode, hlength⟩
  obtain ⟨a, rfl, hacode, rfl⟩ := exists_avp_of_packItem hb
  refine ⟨_, hb, fun old target hentry ↦ leads_item ?_⟩
  rw [IsCode] at hacode
  have hextend : extendNode code [a.value] target = .ok (Assoc.set code (.vals (old ++ [a.value])) target) := by
    rw [extendNode, hentry]
    rcases old with - | ⟨w, old⟩ <;> rfl
  rw [storeItem, storeItemValue, hacode, hplain]
  show (appendNode code a.value).run target = _
  rw [appendNode, run_modifyM, hextend]

/-- All values of a code, one after the other. -/
theorem exists_leads_values {code : Int} {vs : List Bytes} (hplain : nestedTlv D parent code = none)
    (hfits : ∀ v ∈ vs, IsOctet code ∧ v.length ≤ 253) (hvs : vs ≠ []) :
    ∃ b, (do return (← vs.mapM fun v ↦ packItem code (.bytes v)).flatten) = .ok b ∧ ∀ old target,
      Assoc.get? code target = listEntry old →
        Leads D parent b target (Assoc.set code (.vals (old ++ vs)) target) := by
  induction vs with
  | nil => exact absurd rfl hvs
  | cons v vs ih =>
    obtain ⟨b, hb, hleads⟩ := exists_leads_value hplain (hfits v (by simp)).1 (hfits v (by simp)).2
    rcases vs with - | ⟨w, vs⟩
    · refine ⟨b, ?_, hleads⟩
      rw [flatten_mapM_singleton, hb]
    · obtain ⟨b', hb', hleads'⟩ := ih (fun u hu ↦ hfits u (by simp [hu])) (List.cons_ne_nil _ _)
      obtain ⟨parts, hparts, heq⟩ := Except.bind_eq_ok_iff.1 hb'
      cases heq
      refine ⟨b ++ parts.flatten, ?_, fun old target hentry ↦ ?_⟩
      · rw [List.mapM_cons, hb, Except.bind_of_ok, hparts]
        rfl
      · have hfirst := hleads old target hentry
        have hrest := hleads' (old ++ [v]) (Assoc.set code (.vals (old ++ [v])) target)
          (by rw [Assoc.get?_set_self, listEntry_of_ne_nil (by simp)])
        rw [Assoc.set_set, List.append_assoc] at hrest
        exact hfirst.append hrest

/-- Work below a nested map; nothing there counts as an empty one. -/
theorem run_inNested {code : Int} {work : Method (SubMap Bytes) Unit} {sub sub' : SubMap Bytes}
    (h : Assoc.get? code m = some (.node sub) ∨ sub = [] ∧ Assoc.get? code m = none)
    (hwork : work.run sub = .ok () sub') :
    (inNested code work).run m = .ok () (Assoc.set code (.node sub') m) := by
  rw [inNested, run_onPart]
  rcases h with hget | ⟨rfl, hget⟩
  · rw [hget]
    dsimp only
    rw [hwork]
  · rw [hget]
    dsimp only
    rw [hwork]

/-- A nested chain is stored as a map of its own. -/
theorem exists_leads_nested {code : Int} {child : Attribute} {chain : Bytes}
    (hnested : nestedTlv D parent code = some child) (hcode : IsOctet code)
    (hlength : chain.length ≤ 253) (hchain : Leads D (some child) chain [] m) :
    ∃ b, packItem code (.bytes chain) = .ok b ∧ ∀ target, code ∉ Assoc.keys target →
      Leads D parent b target (target ++ [(code, .node m)]) := by
  obtain ⟨b, hb⟩ := (sized_packItem code chain).succeeds_iff.2 ⟨hcode, hlength⟩
  obtain ⟨a, rfl, hacode, rfl⟩ := exists_avp_of_packItem hb
  refine ⟨_, hb, fun target htarget ↦ leads_item ?_⟩
  rw [IsCode] at hacode
  have hrun := hchain.run_chain le_rfl
  rw [storeItem, storeItemValue, hacode, hnested]
  dsimp only
  rw [run_inNested (.inr ⟨rfl, Assoc.get?_eq_none_iff.2 htarget⟩) hrun,
    Assoc.set_of_not_mem htarget]

end

/-! ### Trees -/

mutual

/-- A map as the dictionary declares it: lists of values, and maps exactly under the codes of nested
TLVs. Nothing in it is empty, and no code stands in it twice. -/
def IsTree (D : Dictionary) (parent : Option Attribute) : SubMap Bytes → Prop
  | [] => True
  | (code, stored) :: rest =>
    IsBranch D parent code stored ∧ code ∉ Assoc.keys rest ∧ IsTree D parent rest
  termination_by structural l => l

/-- What a tree has under one code. -/
def IsBranch (D : Dictionary) (parent : Option Attribute) (code : Int) : Stored Bytes → Prop
  | .vals vs => vs ≠ [] ∧ nestedTlv D parent code = none
  | .node m => m ≠ [] ∧ ∃ child, nestedTlv D parent code = some child ∧ IsTree D (some child) m
  termination_by structural s => s

end

mutual

/-- **A chain** is read back into the map it was made of. -/
theorem exists_leads_chain {D : Dictionary} {parent : Option Attribute} (m : SubMap Bytes)
    (htree : IsTree D parent m) (hfits : ChainFits m) :
    ∃ b, encodeTlvChain (Stored.mapSub .bytes m) = .ok b ∧ b.length = chainSize m ∧
      ∀ target, (∀ k ∈ Assoc.keys m, k ∉ Assoc.keys target) →
        Leads D parent b target (target ++ m) := by
  match m with
  | [] =>
    refine ⟨[], rfl, rfl, fun target _ ↦ ?_⟩
    rw [List.append_nil]
    exact leads_nil target
  | (code, stored) :: rest =>
    rw [IsTree] at htree
    rw [ChainFits] at hfits
    obtain ⟨hbranch, hfresh, hrest⟩ := htree
    obtain ⟨b, hb, hleads⟩ := exists_leads_branch code stored hbranch hfits.1
    obtain ⟨b', hb', hlength', hleads'⟩ := exists_leads_chain rest hrest hfits.2
    have hencode : encodeTlvChain (Stored.mapSub .bytes ((code, stored) :: rest)) = .ok (b ++ b') := by
      rw [Stored.mapSub, encodeTlvChain, hb, Except.bind_of_ok, hb']
      rfl
    refine ⟨b ++ b', hencode, (sized_encodeTlvChain _).length_eq hencode, fun target htarget ↦ ?_⟩
    have hfirst := hleads target (htarget code (by simp))
    have hsecond := hleads' (target ++ [(code, stored)]) fun k hk ↦ by
      have hne : k ≠ code := by
        rintro rfl
        exact hfresh hk
      simpa [hne] using htarget k (by simp [hk])
    rw [List.append_assoc] at hsecond
    exact hfirst.append hsecond
  termination_by structural m

theorem exists_leads_branch {D : Dictionary} {parent : Option Attribute} (code : Int)
    (stored : Stored Bytes) (hbranch : IsBranch D parent code stored) (hfits : ItemFits code stored) :
    ∃ b, encodeTlvChainItem code (stored.map .bytes) = .ok b ∧
      ∀ target, code ∉ Assoc.keys target → Leads D parent b target (target ++ [(code, stored)]) := by
  match stored with
  | .vals vs =>
    rw [IsBranch] at hbranch
    rw [ItemFits] at hfits
    obtain ⟨b, hb, hleads⟩ := exists_leads_values hbranch.2 hfits hbranch.1
    refine ⟨b, ?_, fun target htarget ↦ ?_⟩
    · rw [Stored.map, encodeTlvChainItem, mapM_map_bytes, hb]
    · have hlist := hleads [] target (Assoc.get?_eq_none_iff.2 htarget)
      rwa [List.nil_append, Assoc.set_of_not_mem htarget] at hlist
  | .node m =>
    rw [IsBranch] at hbranch
    rw [ItemFits] at hfits
    obtain ⟨-, child, hnested, htree⟩ := hbranch
    obtain ⟨chain, hchain, hlength, hleads⟩ := exists_leads_chain m htree hfits.1
    obtain ⟨b, hb, hnode⟩ := exists_leads_nested hnested hfits.2.1 (hlength ▸ hfits.2.2)
      (hleads [] fun _ _ ↦ List.not_mem_nil)
    refine ⟨b, ?_, hnode⟩
    rw [Stored.map, encodeTlvChainItem, hchain, Except.bind_of_ok, hb]
  termination_by structural stored

end

/-! ### Rounds -/

/-- The map after `i` rounds, with every list as far as it has gone out. -/
def takeRounds (i : ℕ) (m : SubMap Bytes) : SubMap Bytes := m.map fun e ↦ (e.1, e.2.takeVals i)

section

variable {D : Dictionary} {parent : Option Attribute} {p : Packet}

theorem keys_takeRounds (i : ℕ) (m : SubMap Bytes) :
    Assoc.keys (takeRounds i m) = Assoc.keys m := by
  rw [takeRounds, Assoc.keys, List.map_map]
  rfl

theorem encodeTlvChain_eq_mapM (m : SubMap PyVal) :
    encodeTlvChain m = (do return (← m.mapM fun e ↦ encodeTlvChainItem e.1 e.2).flatten) := by
  induction m with
  | nil => rfl
  | cons e m ih =>
    rw [encodeTlvChain, ih, List.mapM_cons]
    generalize (m.mapM fun e ↦ encodeTlvChainItem e.1 e.2) = items
    rcases encodeTlvChainItem e.1 e.2 with err | item
    · rfl
    · rcases items with err | items <;> rfl

theorem encodeTlvRound_eq_mapM (p : Packet) (m : SubMap Bytes) (i : ℕ) :
    p.encodeTlvRound (Stored.mapSub .bytes m) i = (do
      return (← m.mapM fun e ↦ p.encodeTlvSlot i e.1 (e.2.map .bytes)).flatten) := by
  rw [encodeTlvRound, mapSub_eq_map, List.mapM_map]
  rfl

/-- The first round is the chain of the first values and the nested maps. -/
theorem encodeTlvRound_zero (p : Packet) (m : SubMap Bytes) :
    p.encodeTlvRound (Stored.mapSub .bytes m) 0 =
      encodeTlvChain (Stored.mapSub .bytes (takeRounds 1 m)) := by
  have hslot (e : Int × Stored Bytes) : p.encodeTlvSlot 0 e.1 (e.2.map .bytes) =
      encodeTlvChainItem e.1 ((e.2.takeVals 1).map .bytes) := by
    rcases e with ⟨code, (- | ⟨v, vs⟩) | m⟩
    · rfl
    · have hsingle := flatten_mapM_singleton (PyVal.bytes v) (packItem code)
      rw [Stored.takeVals, Stored.map, Stored.map, encodeTlvChainItem]
      exact hsingle.symm
    · rw [Stored.takeVals, Stored.map, encodeTlvChainItem]
      rfl
  rw [encodeTlvRound_eq_mapM, encodeTlvChain_eq_mapM, mapSub_eq_map, takeRounds, List.mapM_map,
    List.mapM_map]
  simp only [hslot]
  rfl

theorem isTree_takeRounds {i : ℕ} (hi : 0 < i) {m : SubMap Bytes} (h : IsTree D parent m) :
    IsTree D parent (takeRounds i m) := by
  induction m with
  | nil => trivial
  | cons e m ih =>
    rw [IsTree] at h
    obtain ⟨hbranch, hfresh, hrest⟩ := h
    rw [takeRounds, List.map_cons, IsTree]
    refine ⟨?_, ?_, ih hrest⟩
    · rcases e with ⟨code, vs | m⟩
      · rw [IsBranch] at hbranch
        rw [Stored.takeVals, IsBranch]
        refine ⟨?_, hbranch.2⟩
        rw [← List.length_pos_iff, List.length_take]
        exact lt_min hi (List.length_pos_iff.2 hbranch.1)
      · exact hbranch
    · have hkeys := keys_takeRounds i m
      rw [takeRounds] at hkeys
      rwa [hkeys]

theorem chainFits_iff (m : SubMap Bytes) : ChainFits m ↔ ∀ e ∈ m, ItemFits e.1 e.2 := by
  induction m with
  | nil => simp [ChainFits]
  | cons e m ih => rw [ChainFits, ih, List.forall_mem_cons]

theorem itemFits_takeVals (i : ℕ) {code : Int} {stored : Stored Bytes} (h : ItemFits code stored) :
    ItemFits code (stored.takeVals i) := by
  rcases stored with vs | m
  · rw [ItemFits] at h
    rw [Stored.takeVals, ItemFits]
    exact fun v hv ↦ h v (List.mem_of_mem_take hv)
  · exact h

/-- A present key is assigned in its place. -/
theorem set_append_cons {code : Int} {pre post : SubMap Bytes} {v w : Stored Bytes}
    (h : code ∉ Assoc.keys pre) :
    Assoc.set code w (pre ++ (code, v) :: post) = pre ++ (code, w) :: post ∧
      Assoc.get? code (pre ++ (code, v) :: post) = some v := by
  induction pre with
  | nil => simp [Assoc.set]
  | cons e pre ih =>
    rw [Assoc.keys_cons, List.mem_cons, not_or] at h
    obtain ⟨hset, hget⟩ := ih h.2
    rw [List.cons_append, Assoc.set, if_neg h.1, hset, Assoc.get?_cons_ne h.1, hget]
    exact ⟨rfl, rfl⟩

/-- **One of the later rounds** puts the next value behind every list that is not yet complete. -/
theorem exists_leads_slots {i : ℕ} (hi : 0 < i) (done : SubMap Bytes) {todo : SubMap Bytes}
    (htree : IsTree D parent todo) (hfits : ∀ e ∈ todo, ItemFits e.1 e.2)
    (hkeys : ∀ k ∈ Assoc.keys todo, k ∉ Assoc.keys done) :
    ∃ b, (do return (← todo.mapM fun e : Int × Stored Bytes ↦
        p.encodeTlvSlot i e.1 (e.2.map .bytes)).flatten) = .ok b ∧
      Leads D parent b (done ++ takeRounds i todo) (done ++ takeRounds (i + 1) todo) := by
  induction todo generalizing done with
  | nil => exact ⟨[], rfl, leads_nil _⟩
  | cons e todo ih =>
    rw [IsTree] at htree
    obtain ⟨hbranch, hfresh, hrest⟩ := htree
    have hnotDone : e.1 ∉ Assoc.keys done := hkeys e.1 (by simp)
    obtain ⟨b', hb', hleads'⟩ := ih (done ++ [(e.1, e.2.takeVals (i + 1))]) hrest
      (fun e' he' ↦ hfits e' (by simp [he'])) fun k hk ↦ by
        have hne : k ≠ e.1 := by
          rintro rfl
          exact hfresh hk
        simpa [hne] using hkeys k (by simp [hk])
    obtain ⟨parts, hparts, heq⟩ := Except.bind_eq_ok_iff.1 hb'
    cases heq
    have hslot : ∃ b, p.encodeTlvSlot i e.1 (e.2.map .bytes) = .ok b ∧
        Leads D parent b (done ++ (e.1, e.2.takeVals i) :: takeRounds i todo)
          (done ++ (e.1, e.2.takeVals (i + 1)) :: takeRounds i todo) := by
      rcases e with ⟨code, vs | m⟩
      · rw [IsBranch] at hbranch
        rw [Stored.map, encodeTlvSlot, List.getElem?_map]
        rcases hget : vs[i]? with - | v
        · -- the list is complete already
          have hle : vs.length ≤ i := List.getElem?_eq_none_iff.1 hget
          refine ⟨[], rfl, ?_⟩
          rw [Stored.takeVals, Stored.takeVals, List.take_of_length_le hle,
            List.take_of_length_le (by omega)]
          exact leads_nil _
        · have hfit := hfits (code, .vals vs) (by simp)
          rw [ItemFits] at hfit
          obtain ⟨hcode, hlength⟩ := hfit v (List.mem_of_getElem? hget)
          obtain ⟨b, hb, hleads⟩ := exists_leads_value hbranch.2 hcode hlength
          obtain ⟨hset, hgets⟩ := @set_append_cons code _ (takeRounds i todo) (.vals (vs.take i))
            (.vals (vs.take i ++ [v])) hnotDone
          have htake : vs.take i ≠ [] := by
            rw [← List.length_pos_iff, List.length_take]
            exact lt_min hi (List.length_pos_iff.2 hbranch.1)
          refine ⟨b, hb, ?_⟩
          have hlist := hleads (vs.take i) (done ++ (code, .vals (vs.take i)) :: takeRounds i todo)
            (by rw [hgets, listEntry_of_ne_nil htake])
          rw [hset] at hlist
          rw [Stored.takeVals, Stored.takeVals, List.take_add_one, hget]
          exact hlist
      · refine ⟨[], ?_, leads_nil _⟩
        rw [Stored.map, encodeTlvSlot, if_pos hi]
        rfl
    obtain ⟨b, hb, hleads⟩ := hslot
    refine ⟨b ++ parts.flatten, ?_, ?_⟩
    · rw [List.mapM_cons, hb, Except.bind_of_ok, hparts]
      rfl
    · rw [List.append_assoc, List.append_assoc] at hleads'
      exact hleads.append hleads'

/-- **A round** goes out, and leads to the map after one more round. -/
theorem exists_leads_round {m : SubMap Bytes} (htree : IsTree D parent m)
    (hfits : ∀ e ∈ m, ItemFits e.1 e.2) (i : ℕ) :
    ∃ b, p.encodeTlvRound (Stored.mapSub .bytes m) i = .ok b ∧
      Leads D parent b (if i = 0 then [] else takeRounds i m) (takeRounds (i + 1) m) := by
  rcases i with - | i
  · have hfits' : ChainFits (takeRounds 1 m) := by
      rw [chainFits_iff, takeRounds, List.forall_mem_map]
      exact fun e he ↦ itemFits_takeVals 1 (hfits e he)
    obtain ⟨b, hb, -, hleads⟩ :=
      exists_leads_chain (takeRounds 1 m) (isTree_takeRounds one_pos htree) hfits'
    refine ⟨b, by rw [encodeTlvRound_zero, hb], ?_⟩
    exact hleads [] fun _ _ ↦ List.not_mem_nil
  · obtain ⟨b, hb, hleads⟩ := exists_leads_slots (p := p) (Nat.succ_pos i) [] htree hfits
      fun _ _ ↦ List.not_mem_nil
    refine ⟨b, by rw [encodeTlvRound_eq_mapM, hb], ?_⟩
    rw [if_neg (Nat.succ_ne_zero i)]
    exact hleads

/-! ### Instances -/

/-- Several byte strings of items, one after the other. -/
inductive LeadsAll (D : Dictionary) (parent : Option Attribute) :
    List Bytes → SubMap Bytes → SubMap Bytes → Prop where
  | nil (m : SubMap Bytes) : LeadsAll D parent [] m m
  | cons {b : Bytes} {l : List Bytes} {m m' m'' : SubMap Bytes} (first : Leads D parent b m m')
      (rest : LeadsAll D parent l m' m'') : LeadsAll D parent (b :: l) m m''

theorem LeadsAll.append {l l' : List Bytes} {m m' m'' : SubMap Bytes} (h : LeadsAll D parent l m m')
    (h' : LeadsAll D parent l' m' m'') : LeadsAll D parent (l ++ l') m m'' := by
  induction h with
  | nil m => exact h'
  | cons first _ ih => exact .cons first (ih h')

/-- **Gathering** rounds into instances does not change what they lead to. -/
theorem LeadsAll.gatherRounds {rounds : List Bytes} {curr : Bytes} {m m' m'' : SubMap Bytes}
    (hcurr : Leads D parent curr m m') (h : LeadsAll D parent rounds m' m'') :
    LeadsAll D parent (gatherRounds rounds curr) m m'' := by
  induction h generalizing curr m with
  | nil m' => exact .cons hcurr (.nil m')
  | cons first rest ih =>
    rw [Packet.gatherRounds]
    split
    · exact ih (hcurr.append first)
    · exact .cons hcurr (ih first)

/-- The rounds of a tree, all of them. -/
theorem exists_leadsAll_rounds {m : SubMap Bytes} (htree : IsTree D parent m)
    (hfits : ∀ e ∈ m, ItemFits e.1 e.2) (n : ℕ) :
    ∃ l, (List.range n).mapM (p.encodeTlvRound (Stored.mapSub .bytes m)) = .ok l ∧
      LeadsAll D parent l [] (if n = 0 then [] else takeRounds n m) := by
  induction n with
  | zero => exact ⟨[], rfl, .nil []⟩
  | succ n ih =>
    obtain ⟨l, hl, hleads⟩ := ih
    obtain ⟨b, hb, hround⟩ := exists_leads_round (p := p) htree hfits n
    refine ⟨l ++ [b], ?_, ?_⟩
    · rw [List.range_succ, List.mapM_append, hl, List.mapM_cons, hb]
      rfl
    · rw [if_neg (Nat.succ_ne_zero n)]
      exact hleads.append (.cons hround (.nil _))

/-- After as many rounds as the longest list has values, everything has gone out. -/
theorem takeRounds_roundCount (m : SubMap Bytes) : takeRounds (roundCount m) m = m := by
  rw [takeRounds]
  refine (List.map_congr_left fun e he ↦ ?_).trans (List.map_id m)
  rcases e with ⟨code, vs | n⟩
  · have hle : vs.length ≤ roundCount m :=
      (le_foldl_max _ 0).2 _ (List.mem_map.2 ⟨(code, .vals vs), he, rfl⟩)
    rw [Stored.takeVals, List.take_of_length_le hle]
    rfl
  · rfl

theorem roundCount_pos {m : SubMap Bytes} (hm : m ≠ []) (htree : IsTree D parent m) :
    0 < roundCount m := by
  obtain ⟨⟨code, vs | n⟩, m, rfl⟩ := List.exists_cons_of_ne_nil hm
  · rw [IsTree, IsBranch] at htree
    have hle : vs.length ≤ roundCount ((code, .vals vs) :: m) :=
      (le_foldl_max _ 0).2 _ (List.mem_map.2 ⟨(code, .vals vs), List.mem_cons_self, rfl⟩)
    exact (List.length_pos_iff.2 htree.1.1).trans_le hle
  · exact (le_foldl_max _ 0).2 _ (List.mem_map.2 ⟨(code, .node n), List.mem_cons_self, rfl⟩)

end

section

variable {D : Dictionary} {version : RadiusVersion} {p : Packet} {attr : Attribute}
  {m m' : SubMap Bytes} {key : Key}

/-- The map under the key; nothing there counts as an empty map. -/
def HoldsMap (key : Key) (m : SubMap Bytes) (st : DecodeState) : Prop :=
  st.attrs.get? key = some (.node m) ∨ m = [] ∧ st.attrs.get? key = none

theorem HoldsMap.run_inContainer {work : Method (SubMap Bytes) Unit} {st : DecodeState}
    (h : HoldsMap key m st) (hwork : work.run m = .ok () m') :
    (inContainer key work).run st = .ok () { st with attrs := st.attrs.set key (.node m') } := by
  rw [inContainer, run_bind_of_ok (run_get st)]
  rcases h with hget | ⟨rfl, hget⟩
  · rw [hget]
    dsimp only
    rw [run_onPart, hget]
    dsimp only
    rw [hwork]
  · rw [hget]
    dsimp only
    rw [run_onPart, hget]
    dsimp only
    rw [hwork]

/-- **One instance** of a TLV. -/
theorem HoldsMap.run_decodeTlvAttribute {st : DecodeState} {b : Bytes} (h : HoldsMap key m st)
    (hleads : Leads D (D.attributeAt? key) b m m') :
    (decodeTlvAttribute D key b).run st =
      .ok () { st with attrs := st.attrs.set key (.node m') } :=
  h.run_inContainer (hleads.run_chain le_rfl)

/-- All instances, one after the other. -/
theorem run_instances {l : List Bytes} (h : LeadsAll D (D.attributeAt? key) l m m') (hl : l ≠ [])
    {st : DecodeState} (hst : HoldsMap key m st) :
    (l.forM (decodeTlvAttribute D key)).run st =
      .ok () { st with attrs := st.attrs.set key (.node m') } := by
  induction h generalizing st with
  | nil m => exact absurd rfl hl
  | @cons b l m m' m'' first rest ih =>
    have hrun := hst.run_decodeTlvAttribute first
    show (decodeTlvAttribute D key b >>= fun _ ↦ l.forM (decodeTlvAttribute D key)).run st = _
    rw [run_bind_of_ok hrun]
    rcases l with - | ⟨b', l⟩
    · cases rest
      rfl
    · have hholds : HoldsMap key m' { st with attrs := st.attrs.set key (.node m') } :=
        .inl (OrderedDict.get?_set_self ..)
      rw [ih (List.cons_ne_nil _ _) hholds]
      show EStateM.Result.ok _ { st with attrs := (st.attrs.set key _).set key _ } = _
      rw [OrderedDict.set_set]

theorem le_of_mem_gatherSizes {l : List ℕ} {curr : ℕ} (h : ∀ n ∈ l, n ≤ 253) (hcurr : curr ≤ 253) :
    ∀ n ∈ gatherSizes l curr, n ≤ 253 := by
  induction l generalizing curr with
  | nil => simpa [gatherSizes] using hcurr
  | cons n l ih =>
    have hl : ∀ k ∈ l, k ≤ 253 := fun k hk ↦ h k (by simp [hk])
    rw [gatherSizes]
    split
    · exact ih hl (by omega)
    · exact List.forall_mem_cons.2 ⟨hcurr, ih hl (h n (by simp))⟩

/-- Values that fit, each in an attribute of its own. -/
theorem exists_avps_packItems {code : Int} (hcode : IsOctet code) {bs : List Bytes}
    (hbs : ∀ b ∈ bs, b.length ≤ 253) :
    ∃ l : List Avp, bs.mapM (fun b ↦ packItem code (.bytes b)) = .ok (l.map Avp.bytes) ∧
      (∀ a ∈ l, IsCode code a.code) ∧ l.map Avp.value = bs := by
  induction bs with
  | nil => exact ⟨[], rfl, fun a ha ↦ (List.not_mem_nil ha).elim, rfl⟩
  | cons b bs ih =>
    obtain ⟨l, hl, hcodes, hvalues⟩ := ih fun c hc ↦ hbs c (by simp [hc])
    obtain ⟨out, hout⟩ := (sized_packItem code b).succeeds_iff.2 ⟨hcode, hbs b (by simp)⟩
    obtain ⟨a, rfl, hacode, rfl⟩ := exists_avp_of_packItem hout
    refine ⟨a :: l, ?_, List.forall_mem_cons.2 ⟨hacode, hcodes⟩, by rw [List.map_cons, hvalues]⟩
    rw [List.mapM_cons, hout, Except.bind_of_ok, hl]
    rfl

/-- The rounds of a tree, gathered into instances, lead from nothing to the tree. -/
theorem exists_gathered {parent : Option Attribute} (p : Packet) (hm : m ≠ [])
    (htree : IsTree D parent m) (hfits : ∀ e ∈ m, ItemFits e.1 e.2) :
    ∃ encoded, (List.range (roundCount m)).mapM (p.encodeTlvRound (Stored.mapSub .bytes m)) =
        .ok encoded ∧
      LeadsAll D parent (gatherRounds encoded []) [] m ∧
      (gatherRounds encoded []).map List.length = instanceSizes m := by
  obtain ⟨encoded, hencoded, hleads⟩ := exists_leadsAll_rounds (p := p) htree hfits (roundCount m)
  rw [if_neg (roundCount_pos hm htree).ne', takeRounds_roundCount] at hleads
  have hsizes : encoded.map List.length = roundSizes m :=
    Except.map_length_of_mapM (sized_encodeTlvRound p m) hencoded
  refine ⟨encoded, hencoded, LeadsAll.gatherRounds (leads_nil []) hleads, ?_⟩
  rw [map_length_gatherRounds, hsizes]
  rfl

/-- What is done with the rounds of a tree. -/
theorem encodeTlv_eq_packInstances (hdict : p.dict = some D) (hattr : D.attributeAt? key = some attr)
    (hm : m ≠ []) {encoded : List Bytes} (hencoded : (List.range (roundCount m)).mapM
      (p.encodeTlvRound (Stored.mapSub .bytes m)) = .ok encoded) :
    p.encodeTlv key (.node (Stored.mapSub .bytes m)) = p.packInstances attr encoded := by
  have hm' : Stored.mapSub PyVal.bytes m ≠ [] := by
    rw [mapSub_eq_map]
    simpa using hm
  have hnamed : p.attributeNamed key = .ok attr := by
    rw [attributeNamed, hdict, Option.bind_some, hattr]
  rw [encodeTlv, hnamed, Except.bind_of_ok, Stored.items, Except.bind_of_ok, if_neg hm',
    roundCount_eq, hencoded, Except.bind_of_ok]
  rfl

/-- **A tree** goes out in instances, and these lead from nothing to the tree. -/
theorem exists_instances (hdict : p.dict = some D) (hattr : D.attributeAt? key = some attr)
    (hvendor : attr.vendor = "") (hcode : IsOctet attr.code) (hm : m ≠ [])
    (htree : IsTree D (some attr) m) (hfits : ∀ e ∈ m, ItemFits e.1 e.2)
    (hround : ∀ n ∈ roundSizes m, n ≤ 253) :
    ∃ l : List Avp, p.encodeTlv key (.node (Stored.mapSub .bytes m)) = .ok (Avp.join l) ∧
      (∀ a ∈ l, IsCode attr.code a.code) ∧ l ≠ [] ∧
        LeadsAll D (some attr) (l.map Avp.value) [] m := by
  obtain ⟨encoded, hencoded, hleads, hsizes⟩ := exists_gathered p hm htree hfits
  have hlengths : ∀ b ∈ gatherRounds encoded [], b.length ≤ 253 := by
    have hgather : ∀ n ∈ instanceSizes m, n ≤ 253 := le_of_mem_gatherSizes hround (Nat.zero_le 253)
    rw [← hsizes] at hgather
    exact fun b hb ↦ hgather _ (List.mem_map_of_mem hb)
  obtain ⟨l, hl, hcodes, hvalues⟩ := exists_avps_packItems hcode hlengths
  have hne : l ≠ [] := by
    rintro rfl
    have hnil := map_length_gatherRounds encoded []
    rw [← hvalues] at hnil
    exact gatherSizes_ne_nil _ _ hnil.symm
  refine ⟨l, ?_, hcodes, hne, by rwa [hvalues]⟩
  rw [encodeTlv_eq_packInstances hdict hattr hm hencoded, packInstances, hl, Except.bind_of_ok,
    if_pos hvendor]
  rfl

theorem WrapperAt.decodeAll_tlv {parent : Int} (h : WrapperAt D parent .tlv) {l : List Avp}
    (hcodes : ∀ a ∈ l, IsCode parent a.code) :
    decodeAll D version l = l.forM fun a ↦ decodeTlvAttribute D (.int parent) a.value := by
  induction l with
  | nil => rfl
  | cons a l ih =>
    rw [decodeAll_cons, h.decodeAvp_eq (hcodes a (by simp)), ih fun b hb ↦ hcodes b (by simp [hb])]
    rfl

/-- No pass changes a map. -/
theorem finish_node (D : Dictionary) (key : Key) (m : SubMap Bytes) :
    splitArray D key (mergeConcat D key (.node m)) = .node m := by
  rw [mergeConcat]
  unfold splitArray
  rcases D.attributeAt? key <;> rfl

/-- A map under a key that no pass changes. -/
theorem restores_node {l : List Avp} (h : ∀ flag,
    (decodeAll D version l).run { messageAuthenticator := flag } =
      .ok () { attrs := OrderedDict.set ∅ key (.node m), messageAuthenticator := flag }) :
    Restores D version (Avp.join l) (onlyAt key (.node m)) := by
  refine ⟨fun flag ↦ ⟨{ attrs := OrderedDict.set ∅ key (.node m), messageAuthenticator := flag },
    ?_, fun k ↦ ?_, rfl, rfl⟩⟩
  · rw [decodeAvps_join _ _ le_rfl]
    exact h flag
  · have hget : (OrderedDict.set ∅ key (Stored.node m)).get? k =
        if k = key then some (.node m) else none := OrderedDict.get?_set ..
    rw [get?_finishAttributes, hget, onlyAt]
    split
    · exact congrArg some (finish_node D k m)
    · rfl

/-- The tree goes out in attributes of its type. Reading them back one after the other gives the tree,
and a packet that holds them has nothing else in it. The wire types of vendor attributes and of the
Message-Authenticator go to decoders of their own. -/
def TlvRoundTrips (p : Packet) (D : Dictionary) (version : RadiusVersion) (code : Int)
    (m : SubMap Bytes) : Prop :=
  ∃ l : List Avp, p.encodeTlv (.int code) (.node (Stored.mapSub .bytes m)) = .ok (Avp.join l) ∧
    (∀ a ∈ l, IsCode code a.code) ∧
    (∀ st : DecodeState, st.attrs.get? (.int code) = none →
      (l.forM fun a ↦ decodeTlvAttribute D (.int code) a.value).run st =
        .ok () { st with attrs := st.attrs.set (.int code) (.node m) }) ∧
    (code ≠ 26 → code ≠ 80 → Restores D version (Avp.join l) (onlyAt (.int code) (.node m)))

/-- **TLV trees make the round trip**, whatever the number of instances. -/
theorem tlv_roundTrips (hdict : p.dict = some D)
    (hattr : D.attributeAt? (.int attr.code) = some attr) (htype : attr.type = .tlv)
    (hvendor : attr.vendor = "") (hcode : IsOctet attr.code) (hm : m ≠ [])
    (htree : IsTree D (some attr) m) (hfits : ∀ e ∈ m, ItemFits e.1 e.2)
    (hround : ∀ n ∈ roundSizes m, n ≤ 253) : TlvRoundTrips p D version attr.code m := by
  obtain ⟨l, hl, hcodes, hne, hleads⟩ :=
    exists_instances hdict hattr hvendor hcode hm htree hfits hround
  have hrun (st : DecodeState) (hst : st.attrs.get? (.int attr.code) = none) :
      (l.forM fun a ↦ decodeTlvAttribute D (.int attr.code) a.value).run st =
        .ok () { st with attrs := st.attrs.set (.int attr.code) (.node m) } := by
    have hvalues : (l.forM fun a ↦ decodeTlvAttribute D (.int attr.code) a.value) =
        (l.map Avp.value).forM (decodeTlvAttribute D (.int attr.code)) := (List.forM_map ..).symm
    rw [hvalues]
    rw [← hattr] at hleads
    exact run_instances hleads (by simpa using hne) (.inr ⟨rfl, hst⟩)
  refine ⟨l, hl, hcodes, hrun, fun h26 h80 ↦ restores_node fun flag ↦ ?_⟩
  have hwrapper : WrapperAt D attr.code .tlv := by
    refine ⟨h26, h80, ?_⟩
    rw [Dictionary.containerType, hattr]
    dsimp only
    rw [htype]
    rfl
  rw [hwrapper.decodeAll_tlv hcodes]
  exact hrun _ rfl

end

/-- A TLV with a plain sub-attribute and a nested TLV. -/
def treesDictionary : Dictionary where
  heap :=
    [{ name := "Box", code := 5, type := .tlv,
       subAttributes := (OrderedDict.set ∅ 1 "Box-Text").set 2 "Box-Group" },
     { name := "Box-Text", code := 1, type := .octets, isSubAttribute := true, parent := some 0 },
     { name := "Box-Group", code := 2, type := .tlv, isSubAttribute := true, parent := some 0,
       subAttributes := OrderedDict.set ∅ 3 "Group-Text" },
     { name := "Group-Text", code := 3, type := .octets, isSubAttribute := true, parent := some 2 }]
  attributes := (((OrderedDict.set ∅ "Box" 0).set "Box-Text" 1).set "Box-Group" 2).set
    "Group-Text" 3
  attrindex := (((BiDict.empty.add "Box" (.int 5)).add "Box-Text" (.tup [5, 1])).add
    "Box-Group" (.tup [5, 2])).add "Group-Text" (.tup [5, 2, 3])
  vendors := BiDict.empty.add "" 0
  vendorFormats := ∅

def treesPacket : Packet where
  dict := some treesDictionary

/-- A tree whose two rounds do not fit one instance. -/
def boxTree : SubMap Bytes :=
  [(1, .vals [List.replicate 200 7, List.replicate 100 8]), (2, .node [(3, .vals [[1], []])])]

theorem tlv_roundTrips_box : TlvRoundTrips treesPacket treesDictionary .v1_0 5 boxTree := by
  have hdict : treesPacket.dict = some treesDictionary := rfl
  have hattr : treesDictionary.attributeAt? (.int 5) = some treesDictionary.heap[0] := by rfl
  have hcode : IsOctet 5 := ⟨by decide, by decide⟩
  have hne : boxTree ≠ [] := List.cons_ne_nil _ _
  have htree : IsTree treesDictionary (some treesDictionary.heap[0]) boxTree :=
    ⟨⟨List.cons_ne_nil _ _, rfl⟩, by decide, ⟨List.cons_ne_nil _ _, treesDictionary.heap[2],
      rfl, ⟨List.cons_ne_nil _ _, rfl⟩, by decide, trivial⟩, by decide, trivial⟩
  have hfits : ∀ e ∈ boxTree, ItemFits e.1 e.2 := by
    rw [← chainFits_iff]
    refine ⟨?_, ⟨⟨?_, trivial⟩, ⟨by decide, by decide⟩, by decide⟩, trivial⟩
    · show ∀ v ∈ [List.replicate 200 7, List.replicate 100 8], (0 ≤ (1 : Int) ∧ (1 : Int) < 256) ∧ _
      decide +kernel
    · show ∀ v ∈ [[1], []], (0 ≤ (3 : Int) ∧ (3 : Int) < 256) ∧ _
      decide +kernel
  have hround : ∀ n ∈ roundSizes boxTree, n ≤ 253 := by decide +kernel
  exact @tlv_roundTrips treesDictionary .v1_0 treesPacket treesDictionary.heap[0] boxTree hdict hattr
    rfl rfl hcode hne htree hfits hround

end Packet

end Pyrad2
