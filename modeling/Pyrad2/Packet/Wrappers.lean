import Pyrad2.Packet.TlvTrees

/-!
# Extended attributes on the wire and back

What the slots of the extended wrappers go out as, and what is read back.

Every slot is a machine of its own. It has what is stored in it, below the wrapper or, for the values
of a vendor, under a key of its own; and it may have fragments of a value that wait for the last one.
An attribute moves one of these machines and leaves the others where they are. So the attributes of
different slots may be interleaved in any way that keeps the order within each.
-/

namespace Pyrad2

open EStateM

/-- A slot of a wrapper, or one of the keys in a slot for extended vendor attributes. -/
inductive Slot where
  | inner (parent extType : Int)
  | evs (parent extType vendor vsaType : Int)
  deriving DecidableEq

namespace Slot

/-- The type of the attributes that fill the slot. -/
def parent : Slot → Int
  | inner parent _ => parent
  | evs parent _ _ _ => parent

/-- The number of the slot in its wrapper. -/
def extType : Slot → Int
  | inner _ extType => extType
  | evs _ extType _ _ => extType

/-- Does the slot hold values of a vendor? -/
def isEvs : Slot → Bool
  | inner _ _ => false
  | evs _ _ _ _ => true

/-- The key under which it is stored. -/
def key : Slot → Key
  | inner parent _ => .int parent
  | evs parent extType vendor vsaType => .tup [parent, extType, vendor, vsaType]

/-- The key of the fragments. -/
def bufKey : Slot → List Int
  | inner parent extType => [parent, extType]
  | evs parent extType vendor vsaType => [parent, extType, vendor, vsaType]

theorem bufKey_inj {k k' : Slot} : k.bufKey = k'.bufKey ↔ k = k' := by
  rcases k with ⟨a, b⟩ | ⟨a, b, c, d⟩ <;> rcases k' with ⟨a', b'⟩ | ⟨a', b', c', d'⟩ <;>
    simp [bufKey]

end Slot

/-- What is stored in a slot, and the joined fragments that wait for the last one. -/
structure SlotState where
  entry : Option (Stored Bytes)
  waiting : Option Bytes

/-- What is stored below a wrapper; nothing there counts as an empty map. -/
def wrapperMap (attrs : Attrs Bytes) (parent : Int) : SubMap Bytes :=
  match attrs.get? (.int parent) with
  | some (.node m) => m
  | _ => []

/-- What is stored in a slot. -/
def slotEntry (attrs : Attrs Bytes) : Slot → Option (Stored Bytes)
  | .inner parent extType => Assoc.get? extType (wrapperMap attrs parent)
  | .evs parent extType vendor vsaType => attrs.get? (.tup [parent, extType, vendor, vsaType])

/-- The decoder as a family of slots. -/
def DecodeState.slot (st : DecodeState) (k : Slot) : SlotState :=
  ⟨slotEntry st.attrs k, st.longExtBuf.get? k.bufKey⟩

namespace Packet

/-- There is nothing but slots, and no wrapper without one. -/
structure SlotsOnly (st : DecodeState) : Prop where
  wrapper : ∀ parent s, st.attrs.get? (.int parent) = some s →
    ∃ m, s = .node m ∧ m ≠ [] ∧ (Assoc.keys m).Nodup
  other : ∀ l s, st.attrs.get? (.tup l) = some s → ∃ a b c d, l = [a, b, c, d]
  waiting : ∀ l b, st.longExtBuf.get? l = some b → ∃ k : Slot, l = k.bufKey
  continuation : st.vsaContinuationBuf = ∅

theorem slotsOnly_initial (flag : Option Bool) : SlotsOnly { messageAuthenticator := flag } where
  wrapper := fun _ _ h ↦ by cases h
  other := fun _ _ h ↦ by cases h
  waiting := fun _ _ h ↦ by cases h
  continuation := rfl

theorem slot_initial (flag : Option Bool) :
    ({ messageAuthenticator := flag } : DecodeState).slot = fun _ ↦ ⟨none, none⟩ := by
  funext k
  rcases k with ⟨parent, extType⟩ | ⟨parent, extType, vendor, vsaType⟩ <;> rfl

/-- A step of the decoder that moves one slot. -/
abbrev MovesSlot (k : Slot) (m : DecodeMethod Unit) (t t' : SlotState) : Prop :=
  Moves SlotsOnly DecodeState.slot k m t t'

section

variable {k : Slot} {e e' : Option (Stored Bytes)} {w w' : Option Bytes}

/-! ### Fragments that wait -/

/-- Whatever is done to the fragments of a slot. -/
theorem movesSlot_buffer {f : OrderedDict (List Int) Bytes → OrderedDict (List Int) Bytes}
    (hself : ∀ d, (f d).get? k.bufKey = w') (hother : ∀ d l, l ≠ k.bufKey → (f d).get? l = d.get? l) :
    MovesSlot k (modify fun st ↦ { st with longExtBuf := f st.longExtBuf }) ⟨e, w⟩ ⟨e, w'⟩ := by
  refine ⟨fun st hst hview ↦ ⟨_, rfl, ?_, ?_⟩⟩
  · refine ⟨hst.wrapper, hst.other, fun l b hl ↦ ?_, hst.continuation⟩
    by_cases hk : l = k.bufKey
    · exact ⟨k, hk⟩
    · exact hst.waiting l b (by rw [← hother _ l hk]; exact hl)
  · funext k'
    rw [Function.update_apply]
    split
    · next heq =>
      subst heq
      have hentry : slotEntry st.attrs k' = e := congrArg SlotState.entry hview
      rw [DecodeState.slot, hself, hentry]
    · next hne =>
      have hkey : k'.bufKey ≠ k.bufKey := fun h ↦ hne (Slot.bufKey_inj.1 h)
      rw [DecodeState.slot, hother _ _ hkey]
      rfl

theorem run_bufferLongExtended {bufKey : List Int} {st : DecodeState}
    (hwaiting : st.longExtBuf.get? bufKey = w) (flags : UInt8) (chunk : Bytes)
    (finish : Bytes → DecodeMethod Unit) :
    (bufferLongExtended bufKey flags chunk finish).run st = (do
      modify fun st ↦ { st with longExtBuf := st.longExtBuf.set bufKey (w.getD [] ++ chunk) }
      if flags &&& longExtendedMoreFlag = 0 then
        finish (w.getD [] ++ chunk)
        modify fun st ↦ { st with longExtBuf := st.longExtBuf.erase bufKey }
      : DecodeMethod Unit).run st := by
  subst hwaiting
  rfl

/-- A fragment with the flag that more follow waits with those before it. -/
theorem movesSlot_more {flags : UInt8} (hflags : flags &&& longExtendedMoreFlag ≠ 0) (chunk : Bytes)
    (finish : Bytes → DecodeMethod Unit) :
    MovesSlot k (bufferLongExtended k.bufKey flags chunk finish) ⟨e, w⟩
      ⟨e, some (w.getD [] ++ chunk)⟩ := by
  have hset : MovesSlot k (modify fun st ↦ { st with
      longExtBuf := st.longExtBuf.set k.bufKey (w.getD [] ++ chunk) }) ⟨e, w⟩
      ⟨e, some (w.getD [] ++ chunk)⟩ :=
    movesSlot_buffer (f := fun d ↦ d.set k.bufKey (w.getD [] ++ chunk))
      (fun d ↦ OrderedDict.get?_set_self ..) fun d l hl ↦ OrderedDict.get?_set_ne d hl _
  refine hset.of_run_eq fun st hview ↦ ?_
  rw [run_bufferLongExtended (congrArg SlotState.waiting hview), if_neg hflags]
  rfl

/-- The last fragment completes the value. -/
theorem movesSlot_last {flags : UInt8} (hflags : flags &&& longExtendedMoreFlag = 0) {chunk : Bytes}
    {finish : Bytes → DecodeMethod Unit}
    (hfinish : ∀ w', MovesSlot k (finish (w.getD [] ++ chunk)) ⟨e, w'⟩ ⟨e', w'⟩) :
    MovesSlot k (bufferLongExtended k.bufKey flags chunk finish) ⟨e, w⟩ ⟨e', none⟩ := by
  have hset : MovesSlot k (modify fun st ↦ { st with
      longExtBuf := st.longExtBuf.set k.bufKey (w.getD [] ++ chunk) }) ⟨e, w⟩
      ⟨e, some (w.getD [] ++ chunk)⟩ :=
    movesSlot_buffer (f := fun d ↦ d.set k.bufKey (w.getD [] ++ chunk))
      (fun d ↦ OrderedDict.get?_set_self ..) fun d l hl ↦ OrderedDict.get?_set_ne d hl _
  have herase (w' : Option Bytes) : MovesSlot k (modify fun st ↦ { st with
      longExtBuf := st.longExtBuf.erase k.bufKey }) ⟨e', w'⟩ ⟨e', none⟩ :=
    movesSlot_buffer (f := fun d ↦ d.erase k.bufKey)
      (fun d ↦ by rw [OrderedDict.get?_erase, if_pos rfl])
      fun d l hl ↦ by rw [OrderedDict.get?_erase, if_neg hl]
  refine (hset.bind ((hfinish _).bind (herase _))).of_run_eq fun st hview ↦ ?_
  rw [run_bufferLongExtended (congrArg SlotState.waiting hview), if_pos hflags]

end

/-! ### Values that are stored -/

/-- A complete value of a slot is stored. -/
def storeAt (D : Dictionary) : Slot → Bytes → DecodeMethod Unit
  | .inner parent extType, value => storeInSlot D parent extType value
  | .evs parent extType vendor vsaType, value =>
    appendTop (.tup [parent, extType, vendor, vsaType]) value

section

variable {D : Dictionary} {parent extType vendor vsaType : Int} {e : Option (Stored Bytes)}
  {w : Option Bytes}

theorem wrapperMap_set (attrs : Attrs Bytes) (parent parent' : Int) (m : SubMap Bytes) :
    wrapperMap (attrs.set (.int parent) (.node m)) parent' =
      if parent' = parent then m else wrapperMap attrs parent' := by
  by_cases h : parent' = parent
  · rw [wrapperMap, if_pos h, h, OrderedDict.get?_set_self]
  · rw [wrapperMap, if_neg h, OrderedDict.get?_set_ne _ (by simpa using h), wrapperMap]

theorem SlotsOnly.holdsMap {st : DecodeState} (h : SlotsOnly st) (parent : Int) :
    HoldsMap (.int parent) (wrapperMap st.attrs parent) st := by
  rcases hget : st.attrs.get? (.int parent) with - | s
  · exact .inr ⟨by rw [wrapperMap, hget], hget⟩
  · obtain ⟨m, rfl, -⟩ := h.wrapper parent s hget
    exact .inl (by rw [hget, wrapperMap, hget])

theorem SlotsOnly.nodup {st : DecodeState} (h : SlotsOnly st) (parent : Int) :
    (Assoc.keys (wrapperMap st.attrs parent)).Nodup := by
  rw [wrapperMap]
  rcases hget : st.attrs.get? (.int parent) with - | s
  · exact List.nodup_nil
  · obtain ⟨m, rfl, -, hm⟩ := h.wrapper parent s hget
    exact hm

theorem set_ne_nil (code : Int) (s : Stored Bytes) (m : SubMap Bytes) : Assoc.set code s m ≠ [] := by
  intro hnil
  have hget := Assoc.get?_set_self code s m
  rw [hnil] at hget
  cases hget

/-- Work below a wrapper that changes one entry. -/
theorem movesSlot_inContainer {work : Method (SubMap Bytes) Unit} {s : Stored Bytes}
    (hwork : ∀ target, Assoc.get? extType target = e →
      work.run target = .ok () (Assoc.set extType s target)) :
    MovesSlot (.inner parent extType) (inContainer (.int parent) work) ⟨e, w⟩ ⟨some s, w⟩ := by
  refine ⟨fun st hst hview ↦ ?_⟩
  have hentry : Assoc.get? extType (wrapperMap st.attrs parent) = e :=
    congrArg SlotState.entry hview
  refine ⟨_, (hst.holdsMap parent).run_inContainer (hwork _ hentry), ?_, ?_⟩
  · refine ⟨fun parent' s' hs' ↦ ?_, fun l s' hs' ↦ ?_, hst.waiting, hst.continuation⟩
    · rw [OrderedDict.get?_set] at hs'
      split at hs'
      · cases hs'
        exact ⟨_, rfl, set_ne_nil extType s _, Assoc.nodup_keys_set (hst.nodup parent) extType s⟩
      · exact hst.wrapper parent' s' hs'
    · rw [OrderedDict.get?_set_ne _ (by simp)] at hs'
      exact hst.other l s' hs'
  · funext k
    rw [Function.update_apply]
    rcases k with ⟨parent', extType'⟩ | ⟨a, b, c, d⟩
    · simp only [DecodeState.slot, slotEntry, wrapperMap_set, Slot.inner.injEq, Slot.bufKey]
      by_cases hparent : parent' = parent
      · subst hparent
        by_cases hext : extType' = extType
        · subst hext
          have hwaiting : st.longExtBuf.get? [parent', extType'] = w :=
            congrArg SlotState.waiting hview
          simp only [if_true, and_self, Assoc.get?_set_self, hwaiting]
        · simp only [hext, if_true, and_false, if_false, Assoc.get?_set_ne hext]
      · simp only [hparent, if_false, false_and]
    · rw [if_neg (by simp), DecodeState.slot, DecodeState.slot, slotEntry, slotEntry,
        OrderedDict.get?_set_ne _ (by simp)]

/-- A value is listed in its slot. -/
theorem movesSlot_value (hslot : D.isTlvExtendedSlot parent extType = false) (old : List Bytes)
    (v : Bytes) (w : Option Bytes) :
    MovesSlot (.inner parent extType) (storeAt D (.inner parent extType) v) ⟨listEntry old, w⟩
      ⟨listEntry (old ++ [v]), w⟩ := by
  have hne : old ++ [v] ≠ [] := by simp
  rw [storeAt, storeInSlot, hslot, if_neg Bool.false_ne_true, listEntry_of_ne_nil hne]
  refine movesSlot_inContainer fun target htarget ↦ ?_
  have hextend : extendNode extType [v] target =
      .ok (Assoc.set extType (.vals (old ++ [v])) target) := by
    rw [extendNode, htarget]
    rcases old with - | ⟨w, old⟩ <;> rfl
  rw [appendNode, run_modifyM, hextend]

/-- A tree is stored in its slot. -/
theorem movesSlot_tree (hslot : D.isTlvExtendedSlot parent extType = true) {chain : Bytes}
    {m : SubMap Bytes}
    (h : Leads D (D.tlvChildAttr (D.attributeAt? (.int parent)) extType) chain [] m)
    (w : Option Bytes) :
    MovesSlot (.inner parent extType) (storeAt D (.inner parent extType) chain) ⟨none, w⟩
      ⟨some (.node m), w⟩ := by
  rw [storeAt, storeInSlot, if_pos hslot]
  exact movesSlot_inContainer fun target htarget ↦
    run_inNested (.inr ⟨rfl, htarget⟩) (h.run_chain le_rfl)

/-- A value of a vendor is listed under its key. -/
theorem movesSlot_evs (D : Dictionary) (parent extType vendor vsaType : Int) (old : List Bytes)
    (v : Bytes) (w : Option Bytes) :
    MovesSlot (.evs parent extType vendor vsaType)
      (storeAt D (.evs parent extType vendor vsaType) v) ⟨listEntry old, w⟩
      ⟨listEntry (old ++ [v]), w⟩ := by
  have hne : old ++ [v] ≠ [] := by simp
  rw [storeAt, listEntry_of_ne_nil hne]
  refine ⟨fun st hst hview ↦ ?_⟩
  have hentry : st.attrs.get? (.tup [parent, extType, vendor, vsaType]) = listEntry old :=
    congrArg SlotState.entry hview
  have hholds : Holds (.tup [parent, extType, vendor, vsaType]) (listEntry old) st :=
    ⟨hentry, fun _ _ h ↦ by cases h⟩
  refine ⟨_, (hholds.append v).1, ?_, ?_⟩
  · refine ⟨fun parent' s hs ↦ ?_, fun l s hs ↦ ?_, hst.waiting, hst.continuation⟩
    · rw [OrderedDict.get?_set_ne _ (by simp)] at hs
      exact hst.wrapper parent' s hs
    · rw [OrderedDict.get?_set] at hs
      split at hs
      · next heq => exact ⟨_, _, _, _, Key.tup.inj heq⟩
      · exact hst.other l s hs
  · funext k
    have hmap (attrs : Attrs Bytes) (s : Stored Bytes) (parent' : Int) : wrapperMap (attrs.set
        (.tup [parent, extType, vendor, vsaType]) s) parent' = wrapperMap attrs parent' := by
      rw [wrapperMap, OrderedDict.get?_set_ne _ (by simp)]
      rfl
    rw [Function.update_apply]
    rcases k with ⟨parent', extType'⟩ | ⟨a, b, c, d⟩
    · rw [if_neg (by simp), DecodeState.slot, DecodeState.slot, slotEntry, slotEntry, hmap]
    · rw [DecodeState.slot, slotEntry, OrderedDict.get?_set]
      simp only [Key.tup.injEq, Slot.evs.injEq, List.cons.injEq, and_true]
      split
      · next heq =>
        obtain ⟨rfl, rfl, rfl, rfl⟩ := heq
        have hwaiting : st.longExtBuf.get? (Slot.evs a b c d).bufKey = w :=
          congrArg SlotState.waiting hview
        simp only [hwaiting]
      · rfl

end

/-! ### Attributes of a slot -/

/-- The branches of `decode_packet` for the wrappers. -/
def decodeWrapped (D : Dictionary) (a : Avp) : DecodeMethod Unit :=
  let code : Int := a.code.toNat
  match D.containerType (.int code) with
  | some .extended => decodeExtended D code a.value
  | some .longExtended => decodeLongExtendedFragment D code a.value
  | _ => return

/-- The wrapper is declared as its type demands, and the slot for what it holds. -/
structure SlotAt (D : Dictionary) (k : Slot) : Prop where
  wrapper : D.containerType (.int k.parent) = some (evsWrapper k.parent)
  evs : D.isEvsSlot k.parent k.extType = k.isEvs

/-- The encoder of one value of a slot. -/
def packAt : Slot → PyVal → Except Exn Bytes
  | .inner parent extType, value =>
    if parent ∈ longExtendedAttributeTypes then packLongExtended parent extType value
    else packExtended parent extType value
  | .evs parent extType vendor vsaType, value => encodeEvs parent extType vendor vsaType value

/-- A value of `n` bytes fits the slot. -/
def FitsAt (k : Slot) (n : ℕ) : Prop :=
  match k with
  | .inner parent extType =>
    IsOctet parent ∧ IsOctet extType ∧ (parent ∈ longExtendedAttributeTypes ∨ n ≤ 252)
  | .evs parent extType vendor vsaType => EvsFits parent extType vendor vsaType n

theorem succeeds_packAt_iff (k : Slot) (v : Bytes) :
    Except.Succeeds (packAt k (.bytes v)) ↔ FitsAt k v.length := by
  rcases k with ⟨parent, extType⟩ | ⟨parent, extType, vendor, vsaType⟩
  · rw [packAt, FitsAt]
    split
    · next hlong => simp [succeeds_packLongExtended_iff, hlong]
    · next hshort => simp [succeeds_packExtended_iff, hshort]
  · exact succeeds_encodeEvs_iff parent extType vendor vsaType v

/-- An attribute with a fragment for the slot. -/
structure IsFragment (D : Dictionary) (k : Slot) (flags : UInt8) (chunk : Bytes) (a : Avp) : Prop where
  code : IsCode k.parent a.code
  decode_eq : decodeWrapped D a = bufferLongExtended k.bufKey flags chunk (storeAt D k)

/-- Attributes that carry a value of the slot: they do to the slot what storing the value does, and
leave nothing waiting. -/
structure Carries (D : Dictionary) (k : Slot) (v : Bytes) (l : List Avp) : Prop where
  code : ∀ a ∈ l, IsCode k.parent a.code
  moves : ∀ e e', (∀ w, MovesSlot k (storeAt D k v) ⟨e, w⟩ ⟨e', w⟩) →
    MovesAll SlotsOnly DecodeState.slot (decodeWrapped D) k l ⟨e, none⟩ ⟨e', none⟩

section

variable {D : Dictionary} {k : Slot} {v : Bytes} {a : Avp}

theorem carries_whole (hcode : IsCode k.parent a.code) (hdecode : decodeWrapped D a = storeAt D k v) :
    Carries D k v [a] where
  code := by simpa using hcode
  moves := fun e e' h ↦ movesAll_singleton (by rw [hdecode]; exact h none)

/-- The fragments from some piece on, with the pieces before it waiting. -/
theorem movesAll_fragments {pieces : List Bytes} (hne : pieces ≠ []) {avps : List Avp}
    (h : List.Forall₂ (fun e a ↦ ∀ piece, e.1 = .bytes piece → IsFragment D k e.2 piece a)
      (withMore longExtendedMoreFlag (pieces.map .bytes)) avps)
    {e e' : Option (Stored Bytes)} {w : Option Bytes}
    (hstore : ∀ w', MovesSlot k (storeAt D k (w.getD [] ++ pieces.flatten)) ⟨e, w'⟩ ⟨e', w'⟩) :
    MovesAll SlotsOnly DecodeState.slot (decodeWrapped D) k avps ⟨e, w⟩ ⟨e', none⟩ := by
  induction pieces generalizing avps w with
  | nil => exact absurd rfl hne
  | cons piece pieces ih =>
    rcases pieces with - | ⟨next, pieces⟩
    · obtain ⟨a, rest, hfirst, hnil, rfl⟩ := List.forall₂_cons_left_iff.1 h
      rw [List.forall₂_nil_left_iff.1 hnil]
      refine movesAll_singleton ?_
      rw [(hfirst piece rfl).decode_eq]
      refine movesSlot_last (show (0 : UInt8) &&& longExtendedMoreFlag = 0 by decide) fun w' ↦ ?_
      simpa using hstore w'
    · obtain ⟨a, rest, hfirst, hrest, rfl⟩ := List.forall₂_cons_left_iff.1 h
      have hmore : longExtendedMoreFlag &&& longExtendedMoreFlag ≠ 0 := by decide
      have hstep : Moves SlotsOnly DecodeState.slot k (decodeWrapped D a) ⟨e, w⟩
          ⟨e, some (w.getD [] ++ piece)⟩ := by
        rw [(hfirst piece rfl).decode_eq]
        exact movesSlot_more hmore piece _
      refine .cons hstep (ih (List.cons_ne_nil _ _) hrest fun w' ↦ ?_)
      simpa using hstore w'

theorem carries_fragments {pieces : List Bytes} (hne : pieces ≠ []) {avps : List Avp}
    (h : List.Forall₂ (fun e a ↦ ∀ piece, e.1 = .bytes piece → IsFragment D k e.2 piece a)
      (withMore longExtendedMoreFlag (pieces.map .bytes)) avps) :
    Carries D k pieces.flatten avps where
  code := by
    intro a ha
    obtain ⟨e, he, hfragment⟩ := exists_of_forall₂ h ha
    obtain ⟨piece, -, hpiece⟩ := List.mem_map.1 (mem_of_mem_withMore
      (show (e.1, e.2) ∈ withMore longExtendedMoreFlag (pieces.map .bytes) from he))
    exact (hfragment piece hpiece.symm).code
  moves := fun e e' hstore ↦ movesAll_fragments hne h (by simpa using hstore)

/-- A value that is cut into pieces, each in a fragment of its own. -/
theorem exists_carries_fragments {max : ℕ} (hmax : 0 < max) {f : PyVal × UInt8 → Except Exn Bytes}
    (hf : ∀ e out, f e = .ok out → ∃ (a : Avp) (chunk : Bytes), e.1 = .bytes chunk ∧
      out = a.bytes ∧ IsFragment D k e.2 chunk a) {out : Bytes}
    (h : (do
      let chunks ← splitIntoChunks max (.bytes v)
      let avps ← (withMore longExtendedMoreFlag chunks).mapM f
      return avps.flatten) = .ok out) : ∃ l, out = Avp.join l ∧ Carries D k v l := by
  obtain ⟨pieces, hpieces, hne, rfl, -⟩ := exists_splitIntoChunks hmax v
  rw [hpieces, Except.bind_of_ok] at h
  obtain ⟨avps, rfl, hall⟩ := exists_avps_forall₂ (F := fun e a ↦ ∀ piece, e.1 = .bytes piece →
    IsFragment D k e.2 piece a) (fun e _ out hout ↦ by
      obtain ⟨a, chunk, hchunk, ha, hfragment⟩ := hf e out hout
      refine ⟨a, ha, fun piece hpiece ↦ ?_⟩
      rw [hchunk] at hpiece
      cases hpiece
      exact hfragment) h
  exact ⟨avps, rfl, carries_fragments hne hall⟩

/-! ### What the encoder writes for a value -/

theorem decodeWrapped_long (hslot : SlotAt D k) (hparent : k.parent ∈ longExtendedAttributeTypes)
    (hcode : IsCode k.parent a.code) :
    decodeWrapped D a = decodeLongExtendedFragment D k.parent a.value := by
  have hwrapper := hslot.wrapper
  rw [evsWrapper, if_pos hparent] at hwrapper
  rw [IsCode] at hcode
  rw [decodeWrapped, hcode, hwrapper]

theorem decodeWrapped_short (hslot : SlotAt D k) (hparent : k.parent ∉ longExtendedAttributeTypes)
    (hcode : IsCode k.parent a.code) : decodeWrapped D a = decodeExtended D k.parent a.value := by
  have hwrapper := hslot.wrapper
  rw [evsWrapper, if_neg hparent] at hwrapper
  rw [IsCode] at hcode
  rw [decodeWrapped, hcode, hwrapper]

/-- A value that fits is carried. -/
theorem exists_carries_inner {parent extType : Int} (hslot : SlotAt D (.inner parent extType))
    (hfits : FitsAt (.inner parent extType) v.length) :
    ∃ l, packAt (.inner parent extType) (.bytes v) = .ok (Avp.join l) ∧
      Carries D (.inner parent extType) v l := by
  obtain ⟨out, hout⟩ := (succeeds_packAt_iff (.inner parent extType) v).2 hfits
  have hevs : D.isEvsSlot parent extType = false := hslot.evs
  have hpack := hout
  rw [packAt] at hpack
  split at hpack
  · next hparent =>
    have hn (n : ℕ) : (4 + n : Int) = ([] : Bytes).length + n + 4 := by simp [add_comm]
    obtain ⟨l, rfl, hl⟩ := exists_carries_fragments (D := D) (k := .inner parent extType)
      (show 0 < 251 by decide) (fun e out he ↦ by
        obtain ⟨a, slot, chunk, hchunk, ha, hcode, hext, hvalue⟩ := @exists_avp_of_fragment parent
          extType _ [] hn e.1 e.2 out (by simpa only [List.append_nil] using he)
        rw [IsCode] at hext
        refine ⟨a, chunk, hchunk, ha, hcode, ?_⟩
        rw [decodeWrapped_long hslot hparent hcode, hvalue, List.nil_append]
        show decodeLongExtendedFragment D parent (slot :: e.2 :: chunk) = _
        rw [decodeLongExtendedFragment_slot (.inl (by rwa [hext])), hext]
        rfl) hpack
    exact ⟨l, hout, hl⟩
  · next hparent =>
    obtain ⟨a, slot, payload, hv, rfl, hcode, hext, hvalue⟩ := exists_avp_of_packExtended hpack
    cases hv
    rw [IsCode] at hext
    refine ⟨[a], by rw [hout, Avp.join_cons, Avp.join_nil, List.append_nil], carries_whole hcode ?_⟩
    rw [decodeWrapped_short hslot hparent hcode, hvalue]
    show decodeExtended D parent (slot :: v) = _
    rw [decodeExtended_slot (.inl (by rwa [hext])), hext]
    rfl

/-- A value of a vendor that fits is carried. -/
theorem exists_carries_evs {parent extType vendor vsaType : Int}
    (hslot : SlotAt D (.evs parent extType vendor vsaType))
    (hfits : FitsAt (.evs parent extType vendor vsaType) v.length) :
    ∃ l, packAt (.evs parent extType vendor vsaType) (.bytes v) = .ok (Avp.join l) ∧
      Carries D (.evs parent extType vendor vsaType) v l := by
  obtain ⟨out, hout⟩ := (succeeds_packAt_iff (.evs parent extType vendor vsaType) v).2 hfits
  have hevs : D.isEvsSlot parent extType = true := hslot.evs
  have hpack := hout
  rw [packAt] at hpack
  obtain ⟨field, hfield, hpack⟩ := Except.bind_eq_ok_iff.1 hpack
  obtain ⟨typeField, htype, hpack⟩ := Except.bind_eq_ok_iff.1 hpack
  have hlength : (field ++ typeField).length = 5 := by
    rw [List.length_append, (sized_packUnsigned 4 vendor).length_eq hfield,
      (sized_packUnsigned 1 vsaType).length_eq htype]
  dsimp only at hpack
  split at hpack
  · next hparent =>
    have hn (n : ℕ) : (9 + n : Int) = (field ++ typeField).length + n + 4 := by
      rw [hlength]
      omega
    obtain ⟨l, rfl, hl⟩ := exists_carries_fragments (D := D)
      (k := .evs parent extType vendor vsaType) (show 0 < 246 by decide) (fun e out he ↦ by
        obtain ⟨a, slot, chunk, hchunk, ha, hcode, hext, hvalue⟩ := exists_avp_of_fragment hn he
        rw [IsCode] at hext
        refine ⟨a, chunk, hchunk, ha, hcode, ?_⟩
        rw [decodeWrapped_long hslot hparent hcode, hvalue]
        show decodeLongExtendedFragment D parent (slot :: e.2 :: (field ++ typeField ++ chunk)) = _
        rw [decodeLongExtendedFragment_evs (by rwa [hext]) hfield htype, hext]
        rfl) hpack
    exact ⟨l, hout, hl⟩
  · next hparent =>
    obtain ⟨a, slot, payload, hv, rfl, hcode, hext, hvalue⟩ := exists_avp_of_wholeEvs hlength hpack
    cases hv
    rw [IsCode] at hext
    refine ⟨[a], by rw [hout, Avp.join_cons, Avp.join_nil, List.append_nil], carries_whole hcode ?_⟩
    rw [decodeWrapped_short hslot hparent hcode, hvalue]
    show decodeExtended D parent (slot :: (field ++ typeField ++ v)) = _
    rw [decodeExtended_evs (by rwa [hext]) hfield htype, hext]
    rfl

/-- **A value that fits its slot is carried.** -/
theorem exists_carries (hslot : SlotAt D k) (hfits : FitsAt k v.length) :
    ∃ l, packAt k (.bytes v) = .ok (Avp.join l) ∧ Carries D k v l := by
  rcases k with ⟨parent, extType⟩ | ⟨parent, extType, vendor, vsaType⟩
  · exact exists_carries_inner hslot hfits
  · exact exists_carries_evs hslot hfits

end

/-! ### Entries of a slot -/

/-- Everything that is stored in a slot goes out: every value of a list, or the chain of a tree. -/
def packEntry (k : Slot) : Stored PyVal → Except Exn Bytes
  | .node m => do packAt k (.bytes (← encodeTlvChain m))
  | .vals vs => return (← vs.mapM (packAt k)).flatten

/-- What may be stored in a slot: values that fit, or a tree that fits if the slot is declared as a
TLV. -/
inductive IsSlotEntry (D : Dictionary) : Slot → Stored Bytes → Prop
  | values {parent extType : Int} {vs : List Bytes} (ne_nil : vs ≠ [])
    (plain : D.isTlvExtendedSlot parent extType = false)
    (fits : ∀ v ∈ vs, FitsAt (.inner parent extType) v.length) :
    IsSlotEntry D (.inner parent extType) (.vals vs)
  | tree {parent extType : Int} {m : SubMap Bytes}
    (tlv : D.isTlvExtendedSlot parent extType = true)
    (tree : IsTree D (D.tlvChildAttr (D.attributeAt? (.int parent)) extType) m)
    (chain : ChainFits m) (fits : FitsAt (.inner parent extType) (chainSize m)) :
    IsSlotEntry D (.inner parent extType) (.node m)
  | evs {parent extType vendor vsaType : Int} {vs : List Bytes} (ne_nil : vs ≠ [])
    (fits : ∀ v ∈ vs, FitsAt (.evs parent extType vendor vsaType) v.length) :
    IsSlotEntry D (.evs parent extType vendor vsaType) (.vals vs)

section

variable {D : Dictionary} {k : Slot}

/-- The values of a list, one after the other. -/
theorem exists_movesAll_values (hslot : SlotAt D k) {vs : List Bytes}
    (hfits : ∀ v ∈ vs, FitsAt k v.length)
    (hstore : ∀ old v w, MovesSlot k (storeAt D k v) ⟨listEntry old, w⟩ ⟨listEntry (old ++ [v]), w⟩) :
    ∃ l, packEntry k (.vals (vs.map .bytes)) = .ok (Avp.join l) ∧ (∀ a ∈ l, IsCode k.parent a.code) ∧
      ∀ old, MovesAll SlotsOnly DecodeState.slot (decodeWrapped D) k l ⟨listEntry old, none⟩
        ⟨listEntry (old ++ vs), none⟩ := by
  rw [packEntry, mapM_map_bytes]
  induction vs with
  | nil =>
    refine ⟨[], rfl, fun a ha ↦ (List.not_mem_nil ha).elim, fun old ↦ ?_⟩
    rw [List.append_nil]
    exact .nil _
  | cons v vs ih =>
    obtain ⟨l, hl, hcarries⟩ := exists_carries hslot (hfits v (by simp))
    obtain ⟨l', hl', hcodes', hmoves'⟩ := ih fun u hu ↦ hfits u (by simp [hu])
    obtain ⟨parts, hparts, heq⟩ := Except.bind_eq_ok_iff.1 hl'
    refine ⟨l ++ l', ?_, fun a ha ↦ (List.mem_append.1 ha).elim (hcarries.code a) (hcodes' a),
      fun old ↦ ?_⟩
    · rw [List.mapM_cons, hl, Except.bind_of_ok, hparts, Avp.join_append, ← Except.ok.inj heq]
      rfl
    · have hrest := hmoves' (old ++ [v])
      rw [List.append_assoc] at hrest
      exact (hcarries.moves _ _ (hstore old v)).append hrest

/-- **What may be stored in a slot** goes out, and is stored in the slot again. -/
theorem exists_movesAll_entry (hslot : SlotAt D k) {s : Stored Bytes} (h : IsSlotEntry D k s) :
    ∃ l, packEntry k (s.map .bytes) = .ok (Avp.join l) ∧ (∀ a ∈ l, IsCode k.parent a.code) ∧
      MovesAll SlotsOnly DecodeState.slot (decodeWrapped D) k l ⟨none, none⟩ ⟨some s, none⟩ := by
  cases h with
  | values hne hplain hfits =>
    obtain ⟨l, hl, hcodes, hmoves⟩ := exists_movesAll_values hslot hfits (movesSlot_value hplain)
    have hall := hmoves []
    rw [List.nil_append, listEntry_of_ne_nil hne] at hall
    exact ⟨l, hl, hcodes, hall⟩
  | @tree parent extType m htlv htree hchain hfits =>
    obtain ⟨chain, hencode, hlength, hleads⟩ := exists_leads_chain m htree hchain
    obtain ⟨l, hl, hcarries⟩ := exists_carries hslot (v := chain) (hlength ▸ hfits)
    refine ⟨l, ?_, hcarries.code, hcarries.moves _ _ ?_⟩
    · rw [Stored.map, packEntry, hencode, Except.bind_of_ok, hl]
    · exact movesSlot_tree htlv (hleads [] fun _ _ ↦ List.not_mem_nil)
  | @evs parent extType vendor vsaType vs hne hfits =>
    obtain ⟨l, hl, hcodes, hmoves⟩ := exists_movesAll_values hslot hfits
      (movesSlot_evs D parent extType vendor vsaType)
    have hall := hmoves []
    rw [List.nil_append, listEntry_of_ne_nil hne] at hall
    exact ⟨l, hl, hcodes, hall⟩

end

/-! ### Groups -/

/-- The slots of a stored group. -/
def groupSlots : Key → Stored Bytes → List Slot
  | .int parent, .node m => m.map fun e ↦ .inner parent e.1
  | .tup [parent, extType, vendor, vsaType], .vals _ => [.evs parent extType vendor vsaType]
  | _, _ => []

/-- A group of a declared wrapper: its slots, one after the other, or the values of one vendor type
in a slot for extended vendor attributes. -/
inductive IsWrapperGroup (D : Dictionary) : Key → Stored Bytes → Prop
  | wrapper {parent : Int} {m : SubMap Bytes}
    (declared : D.containerType (.int parent) = some (evsWrapper parent))
    (notVirtual : D.isVirtualAttribute (.int parent) = false)
    (ne_nil : m ≠ []) (nodup : (Assoc.keys m).Nodup)
    (slots : ∀ e ∈ m, D.isEvsSlot parent e.1 = false ∧ IsSlotEntry D (.inner parent e.1) e.2) :
    IsWrapperGroup D (.int parent) (.node m)
  | evs {parent extType vendor vsaType : Int} {vs : List Bytes}
    (declared : D.containerType (.int parent) = some (evsWrapper parent))
    (slot : D.isEvsSlot parent extType = true)
    (notVirtual : D.isVirtualAttribute (.tup [parent, extType, vendor, vsaType]) = false)
    (notConcat : D.isConcatAttribute (.tup [parent, extType, vendor, vsaType]) = false)
    (notArray : D.isArrayAttribute (.tup [parent, extType, vendor, vsaType]) = false)
    (entry : IsSlotEntry D (.evs parent extType vendor vsaType) (.vals vs)) :
    IsWrapperGroup D (.tup [parent, extType, vendor, vsaType]) (.vals vs)

section

variable {D : Dictionary} {p : Packet} {key : Key} {stored : Stored Bytes} {groups : Attrs Bytes}

theorem IsWrapperGroup.notVirtual (h : IsWrapperGroup D key stored) :
    D.isVirtualAttribute key = false := by
  cases h with
  | wrapper _ hvirtual _ _ _ => exact hvirtual
  | evs _ _ hvirtual _ _ _ => exact hvirtual

theorem key_of_mem_groupSlots {k : Slot} (hk : k ∈ groupSlots key stored) : k.key = key := by
  unfold groupSlots at hk
  split at hk
  · obtain ⟨e, -, rfl⟩ := List.mem_map.1 hk
    rfl
  · rw [List.mem_singleton.1 hk]
    rfl
  · exact (List.not_mem_nil hk).elim

/-- Everything in a slot is one of the entries of a group. -/
theorem exists_group_of_slotEntry (hgroups : ∀ e ∈ groups.entries, IsWrapperGroup D e.1 e.2)
    {k : Slot} {s : Stored Bytes} (h : slotEntry groups k = some s) :
    SlotAt D k ∧ IsSlotEntry D k s ∧ ∃ e ∈ groups.entries, k ∈ groupSlots e.1 e.2 := by
  rcases k with ⟨parent, extType⟩ | ⟨parent, extType, vendor, vsaType⟩
  · rw [slotEntry, wrapperMap] at h
    rcases hget : groups.get? (.int parent) with - | stored
    · rw [hget] at h
      cases h
    · have hmem := OrderedDict.get?_eq_some_iff.1 hget
      have hgroup := hgroups _ hmem
      rw [hget] at h
      cases hgroup with
      | @wrapper parent m hdeclared hvirtual hne hnodup hslots =>
        have hentry : (extType, s) ∈ m := Assoc.mem_of_get?_eq_some h
        obtain ⟨hevs, hs⟩ := hslots _ hentry
        exact ⟨⟨hdeclared, hevs⟩, hs, _, hmem, List.mem_map.2 ⟨_, hentry, rfl⟩⟩
  · have hmem := OrderedDict.get?_eq_some_iff.1 (show groups.get? _ = some s from h)
    have hgroup := hgroups _ hmem
    cases hgroup with
    | evs hdeclared hslot _ _ _ hs => exact ⟨⟨hdeclared, hslot⟩, hs, _, hmem, List.mem_singleton_self _⟩

/-- The loop over the slots of a wrapper. -/
theorem encodeSlots_eq {parent : Int} {pack : Int → PyVal → Except Exn Bytes}
    (hpack : ∀ extType, packAt (.inner parent extType) = pack extType) (m : SubMap Bytes) :
    (do
      let slots ← (← (Stored.node (Stored.mapSub PyVal.bytes m)).items).mapM fun (extType, values) ↦
        match values with
        | .node m => do pack extType (.bytes (← encodeTlvChain m))
        | .vals vs => return (← vs.mapM (pack extType)).flatten
      return slots.flatten : Except Exn Bytes) = (do
      return (← m.mapM fun e ↦ packEntry (.inner parent e.1) (e.2.map .bytes)).flatten) := by
  rw [mapSub_eq_map, Stored.items, Except.bind_of_ok, List.mapM_map]
  refine congrArg (fun f ↦ m.mapM f >>= fun slots ↦ pure slots.flatten) (funext fun e ↦ ?_)
  dsimp only [Function.comp_apply]
  rcases e.2.map PyVal.bytes with vs | m
  · rw [packEntry, hpack]
  · rw [packEntry, hpack]

/-- A wrapper goes out slot by slot. -/
theorem encodeAvpGroup_wrapper (hdict : p.dict = some D) {parent : Int}
    (hdeclared : D.containerType (.int parent) = some (evsWrapper parent)) (m : SubMap Bytes) :
    p.encodeAvpGroup (.int parent) ((Stored.node m).map .bytes) = (do
      return (← m.mapM fun e ↦ packEntry (.inner parent e.1) (e.2.map .bytes)).flatten) := by
  rw [encodeAvpGroup_of_ne p (fun _ _ _ _ h ↦ by cases h), containerType_eq hdict, hdeclared,
    evsWrapper, Stored.map]
  by_cases hparent : parent ∈ longExtendedAttributeTypes
  · rw [if_pos hparent]
    exact encodeSlots_eq (fun extType ↦ funext fun v ↦ if_pos hparent) m
  · rw [if_neg hparent]
    exact encodeSlots_eq (fun extType ↦ funext fun v ↦ if_neg hparent) m

/-- **A group goes out slot by slot.** -/
theorem encodeAvpGroup_slots (hdict : p.dict = some D) (h : IsWrapperGroup D key stored)
    (hget : groups.get? key = some stored) {part : Slot → List Avp}
    (hpart : ∀ k s, slotEntry groups k = some s → packEntry k (s.map .bytes) = .ok (Avp.join (part k))) :
    p.encodeAvpGroup key (stored.map .bytes) =
      .ok (Avp.join ((groupSlots key stored).flatMap part)) := by
  cases h with
  | @wrapper parent m hdeclared hvirtual hne hnodup hslots =>
    have hentry : ∀ e ∈ m, packEntry (.inner parent e.1) (e.2.map .bytes) =
        .ok (Avp.join (part (.inner parent e.1))) := by
      intro e he
      refine hpart (.inner parent e.1) e.2 ?_
      rw [slotEntry, wrapperMap, hget]
      exact (Assoc.get?_eq_some_iff_mem hnodup).2 he
    rw [encodeAvpGroup_wrapper hdict hdeclared, Except.mapM_eq_ok hentry, ← Avp.flatten_map_join,
      groupSlots, List.map_map]
    rfl
  | @evs parent extType vendor vsaType vs hdeclared hslot hvirtual hconcat harray hs =>
    have hentry := hpart (.evs parent extType vendor vsaType) (.vals vs) hget
    rw [groupSlots, List.flatMap_singleton]
    exact hentry

theorem nodup_slots (hgroups : ∀ e ∈ groups.entries, IsWrapperGroup D e.1 e.2) :
    (groups.entries.flatMap fun e ↦ groupSlots e.1 e.2).Nodup := by
  refine List.nodup_flatMap.2 ⟨fun e he ↦ ?_, ?_⟩
  · have hgroup := hgroups e he
    rcases e with ⟨key, stored⟩
    cases hgroup with
    | @wrapper parent m _ _ _ hnodup _ =>
      have hmap : groupSlots (.int parent) (.node m) = (Assoc.keys m).map (Slot.inner parent) := by
        rw [groupSlots, Assoc.keys, List.map_map]
        rfl
      rw [hmap]
      exact hnodup.map fun _ _ h ↦ (Slot.inner.inj h).2
    | evs _ _ _ _ _ _ => exact List.nodup_singleton _
  · have hkeys : groups.entries.Pairwise fun e e' ↦ e.1 ≠ e'.1 := List.pairwise_map.1 groups.nodup
    refine hkeys.imp fun {e e'} hne ↦ ?_
    show List.Disjoint _ _
    intro k hk hk'
    exact hne ((key_of_mem_groupSlots hk).symm.trans (key_of_mem_groupSlots hk'))

/-! ### Round trips -/

/-- The same list, or the same map up to the order of its keys. -/
inductive SameEntry : Stored Bytes → Stored Bytes → Prop
  | vals (vs : List Bytes) : SameEntry (.vals vs) (.vals vs)
  | node {m m' : SubMap Bytes} (h : m.Perm m') : SameEntry (.node m) (.node m')

/-- Run from an empty packet, the decoder stores exactly these groups and leaves both buffers of
fragments empty. -/
def Recovers (D : Dictionary) (groups : Attrs Bytes) (m : DecodeMethod Unit) : Prop :=
  ∀ flag, ∃ st, m.run { messageAuthenticator := flag } = .ok () st ∧
    (∀ key, Option.Rel SameEntry ((finishAttributes (some D) st.attrs).get? key)
      (groups.get? key)) ∧
    st.longExtBuf = ∅ ∧ st.vsaContinuationBuf = ∅

/-- A wrapper that has the same slots. -/
theorem rel_wrapper {st : DecodeState} (hst : SlotsOnly st)
    (hentry : ∀ k, slotEntry st.attrs k = slotEntry groups k)
    (hgroups : ∀ e ∈ groups.entries, IsWrapperGroup D e.1 e.2) (parent : Int) :
    Option.Rel SameEntry (st.attrs.get? (.int parent)) (groups.get? (.int parent)) := by
  have hsame (extType : Int) : Assoc.get? extType (wrapperMap st.attrs parent) =
      Assoc.get? extType (wrapperMap groups parent) := hentry (.inner parent extType)
  have hwrapper (stored : Stored Bytes) (hget : groups.get? (.int parent) = some stored) :
      ∃ m, stored = .node m ∧ m ≠ [] ∧ (Assoc.keys m).Nodup := by
    cases hgroups _ (OrderedDict.get?_eq_some_iff.1 hget) with
    | wrapper _ _ hne hnodup _ => exact ⟨_, rfl, hne, hnodup⟩
  -- a map that reads as the empty one is empty
  have hnil {m : SubMap Bytes} (h : ∀ extType, Assoc.get? extType m = none) : m = [] := by
    rcases m with - | ⟨⟨code, s⟩, m⟩
    · rfl
    · have hcode := h code
      rw [Assoc.get?_cons_self] at hcode
      cases hcode
  simp only [wrapperMap] at hsame
  rcases hdecoded : st.attrs.get? (.int parent) with - | s
  · rcases hget : groups.get? (.int parent) with - | s'
    · exact .none
    · obtain ⟨m, rfl, hne, -⟩ := hwrapper s' hget
      rw [hdecoded, hget] at hsame
      exact absurd (hnil fun extType ↦ (hsame extType).symm) hne
  · obtain ⟨m, rfl, hne, hnodup⟩ := hst.wrapper parent s hdecoded
    rcases hget : groups.get? (.int parent) with - | s'
    · rw [hdecoded, hget] at hsame
      exact absurd (hnil hsame) hne
    · obtain ⟨m', rfl, -, hnodup'⟩ := hwrapper s' hget
      rw [hdecoded, hget] at hsame
      exact .some (.node (Assoc.perm_of_get? hnodup hnodup' hsame))

/-- The groups are what is stored if every slot is. -/
theorem rel_finishAttributes {st : DecodeState} (hst : SlotsOnly st)
    (hentry : ∀ k, slotEntry st.attrs k = slotEntry groups k)
    (hgroups : ∀ e ∈ groups.entries, IsWrapperGroup D e.1 e.2) (key : Key) :
    Option.Rel SameEntry ((finishAttributes (some D) st.attrs).get? key) (groups.get? key) := by
  rw [get?_finishAttributes]
  rcases key with parent | l
  · have hrel := rel_wrapper hst hentry hgroups parent
    rcases hdecoded : st.attrs.get? (.int parent) with - | s
    · rwa [hdecoded] at hrel
    · obtain ⟨m, rfl, -⟩ := hst.wrapper parent s hdecoded
      rw [hdecoded] at hrel
      rwa [Option.map_some, finish_node]
  · by_cases hl : ∃ a b c d, l = [a, b, c, d]
    · obtain ⟨a, b, c, d, rfl⟩ := hl
      have hsame : st.attrs.get? (.tup [a, b, c, d]) = groups.get? (.tup [a, b, c, d]) :=
        hentry (.evs a b c d)
      rw [hsame]
      rcases hget : groups.get? (.tup [a, b, c, d]) with - | stored
      · exact .none
      · cases hgroups _ (OrderedDict.get?_eq_some_iff.1 hget) with
        | @evs _ _ _ _ vs _ _ _ hconcat harray _ =>
          have hfinish := finishList_of_flags hconcat harray vs
          rw [finishList] at hfinish
          rw [Option.map_some, hfinish]
          exact .some (.vals vs)
    · -- no other tuple is a key on either side
      have hnone : st.attrs.get? (.tup l) = none := by
        rcases hdecoded : st.attrs.get? (.tup l) with - | s
        · rfl
        · exact absurd (hst.other l s hdecoded) hl
      have hnone' : groups.get? (.tup l) = none := by
        rcases hget : groups.get? (.tup l) with - | stored
        · rfl
        · refine absurd ?_ hl
          cases hgroups _ (OrderedDict.get?_eq_some_iff.1 hget)
          exact ⟨_, _, _, _, rfl⟩
      rw [hnone, hnone']
      exact .none

/-- The packet is encoded, slot by slot, and however the attributes of the slots are interleaved,
reading them back gives every group and nothing else. The wire types of vendor attributes and of the
Message-Authenticator go to decoders of their own. -/
def WrappersRoundTrip (p : Packet) (D : Dictionary) (version : RadiusVersion) (groups : Attrs Bytes) :
    Prop :=
  ∃ part : Slot → List Avp,
    (∀ e ∈ groups.entries, p.encodeAvpGroup e.1 (e.2.map .bytes) =
      .ok (Avp.join ((groupSlots e.1 e.2).flatMap part))) ∧
    p.encodeStored [] =
      .ok (Avp.join ((groups.entries.flatMap fun e ↦ groupSlots e.1 e.2).flatMap part)) ∧
    Interleaves part ((groups.entries.flatMap fun e ↦ groupSlots e.1 e.2).flatMap part) ∧
    ∀ l, Interleaves part l →
      Recovers D groups (l.forM (decodeWrapped D)) ∧
      ((∀ e ∈ groups.entries, ∀ k ∈ groupSlots e.1 e.2, k.parent ≠ 26 ∧ k.parent ≠ 80) →
        Recovers D groups (decodeAvps (some D) version (Avp.join l).length (Avp.join l)))

/-- Outside the two wire types, `decode_packet` reaches the branches for the wrappers. -/
theorem decodeAvp_wrapped {k : Slot} {a : Avp} (hslot : SlotAt D k) (hcode : IsCode k.parent a.code)
    (h26 : k.parent ≠ 26) (h80 : k.parent ≠ 80) (version : RadiusVersion) :
    decodeAvp (some D) version a.code a.value = decodeWrapped D a := by
  have hwrapper : WrapperAt D k.parent (evsWrapper k.parent) := ⟨h26, h80, hslot.wrapper⟩
  rw [hwrapper.decodeAvp_eq hcode]
  by_cases hparent : k.parent ∈ longExtendedAttributeTypes
  · rw [decodeWrapped_long hslot hparent hcode, evsWrapper, if_pos hparent]
  · rw [decodeWrapped_short hslot hparent hcode, evsWrapper, if_neg hparent]

/-- **Extended attributes make the round trip**, interleaved in any way. -/
theorem wrappers_roundTrip (version : RadiusVersion) (hdict : p.dict = some D)
    (hattrs : p.attrs = groups.mapValues fun _ stored ↦ stored.map .bytes)
    (hgroups : ∀ e ∈ groups.entries, IsWrapperGroup D e.1 e.2) :
    WrappersRoundTrip p D version groups := by
  have hslots {k : Slot} {s : Stored Bytes} (h : slotEntry groups k = some s) :=
    exists_group_of_slotEntry hgroups h
  -- what goes out for one slot, and what the decoder makes of it
  have hpart (k : Slot) : ∃ l : List Avp,
      (∀ s, slotEntry groups k = some s → packEntry k (s.map .bytes) = .ok (Avp.join l)) ∧
      (∀ a ∈ l, IsCode k.parent a.code ∧ SlotAt D k ∧
        ∃ e ∈ groups.entries, k ∈ groupSlots e.1 e.2) ∧
      (slotEntry groups k = none → l = []) ∧
      MovesAll SlotsOnly DecodeState.slot (decodeWrapped D) k l ⟨none, none⟩
        ⟨slotEntry groups k, none⟩ := by
    rcases hentry : slotEntry groups k with - | s
    · exact ⟨[], fun _ h ↦ (by cases h), fun _ h ↦ (List.not_mem_nil h).elim, fun _ ↦ rfl, .nil _⟩
    · obtain ⟨hslot, hs, hmem⟩ := hslots hentry
      obtain ⟨l, hl, hcodes, hmoves⟩ := exists_movesAll_entry hslot hs
      refine ⟨l, fun s' h ↦ ?_, fun a ha ↦ ⟨hcodes a ha, hslot, hmem⟩, fun h ↦ (by cases h), hmoves⟩
      cases h
      exact hl
  choose part hpack hcodes hnone hmoves using hpart
  have hgroup : ∀ e ∈ groups.entries, p.encodeAvpGroup e.1 (e.2.map .bytes) =
      .ok (Avp.join ((groupSlots e.1 e.2).flatMap part)) := fun e he ↦
    encodeAvpGroup_slots hdict (hgroups e he) (OrderedDict.get?_eq_some_iff.2 he) hpack
  have hempty : ∀ k ∉ groups.entries.flatMap fun e ↦ groupSlots e.1 e.2, part k = [] := by
    intro k hk
    rcases hentry : slotEntry groups k with - | s
    · exact hnone k hentry
    · obtain ⟨-, -, e, he, hmem⟩ := hslots hentry
      exact absurd (List.mem_flatMap.2 ⟨e, he, hmem⟩) hk
  refine ⟨part, hgroup, ?_, Interleaves.flatMap (nodup_slots hgroups) hempty, fun l hl ↦ ?_⟩
  · have hentries : p.attrs.entries = groups.entries.map fun e ↦ (e.1, e.2.map PyVal.bytes) := by
      rw [hattrs]
      rfl
    have hbody : ∀ e ∈ groups.entries, p.isVirtualAttribute e.1 = false ∧
        p.encodeAvpGroup e.1 (e.2.map PyVal.bytes) =
          .ok (Avp.join ((groupSlots e.1 e.2).flatMap part)) := by
      intro e he
      refine ⟨?_, hgroup e he⟩
      rw [isVirtualAttribute, hdict]
      exact (hgroups e he).notVirtual
    rw [encodeStored_of_entries hentries hbody, List.flatMap_assoc]
  · have hrecovers : Recovers D groups (l.forM (decodeWrapped D)) := by
      intro flag
      obtain ⟨st, hrun, hst, hview⟩ :=
        exists_run_of_interleaves hl hmoves (slotsOnly_initial flag) (slot_initial flag)
      have hentry (k : Slot) : slotEntry st.attrs k = slotEntry groups k :=
        congrArg SlotState.entry (congrFun hview k)
      have hwaiting (k : Slot) : st.longExtBuf.get? k.bufKey = none :=
        congrArg SlotState.waiting (congrFun hview k)
      refine ⟨st, hrun, rel_finishAttributes hst hentry hgroups, ?_, hst.continuation⟩
      refine eq_empty_of_forall_get? fun key ↦ ?_
      rcases hget : st.longExtBuf.get? key with - | b
      · rfl
      · obtain ⟨k, rfl⟩ := hst.waiting key b hget
        rw [hwaiting] at hget
        cases hget
    refine ⟨hrecovers, fun hparents flag ↦ ?_⟩
    -- no other branch of the decoder gets hold of these codes
    have hsame : ∀ a ∈ l, decodeAvp (some D) version a.code a.value = decodeWrapped D a := by
      intro a ha
      obtain ⟨k, hk⟩ := hl.exists_mem ha
      obtain ⟨hcode, hslot, e, he, hmem⟩ := hcodes k a hk
      obtain ⟨h26, h80⟩ := hparents e he k hmem
      exact decodeAvp_wrapped hslot hcode h26 h80 version
    have hbody : decodeAvps (some D) version (Avp.join l).length (Avp.join l) =
        l.forM (decodeWrapped D) := by
      rw [decodeAvps_join _ _ le_rfl]
      exact forM_congr_of_mem hsame
    rw [hbody]
    exact hrecovers flag

end

/-- An extended wrapper with a plain slot, a TLV and a slot for extended vendor attributes, and a
long-extended one. -/
def wrappersDictionary : Dictionary where
  heap :=
    [{ name := "Short", code := 241, type := .extended,
       subAttributes := ((OrderedDict.set ∅ 1 "Short-Text").set 2 "Short-Box").set 26 "Short-EVS" },
     { name := "Short-Text", code := 1, type := .octets, isSubAttribute := true, parent := some 0 },
     { name := "Short-Box", code := 2, type := .tlv, isSubAttribute := true, parent := some 0,
       subAttributes := OrderedDict.set ∅ 3 "Box-Item" },
     { name := "Box-Item", code := 3, type := .octets, isSubAttribute := true, parent := some 2 },
     { name := "Short-EVS", code := 26, type := .evs, isSubAttribute := true, parent := some 0 },
     { name := "Long", code := 245, type := .longExtended,
       subAttributes := (OrderedDict.set ∅ 1 "Long-Blob").set 26 "Long-EVS" },
     { name := "Long-Blob", code := 1, type := .octets, isSubAttribute := true, parent := some 5 },
     { name := "Long-EVS", code := 26, type := .evs, isSubAttribute := true, parent := some 5 }]
  attributes := (((((((OrderedDict.set ∅ "Short" 0).set "Short-Text" 1).set "Short-Box" 2).set
    "Box-Item" 3).set "Short-EVS" 4).set "Long" 5).set "Long-Blob" 6).set "Long-EVS" 7
  attrindex := (BiDict.empty.add "Short" (.int 241)).add "Long" (.int 245)
  vendors := BiDict.empty.add "" 0
  vendorFormats := ∅

/-- Groups in every kind of slot; two of the values need fragments. -/
def wrapperGroups : Attrs Bytes :=
  (((OrderedDict.set ∅ (.int 241)
    (.node [(1, .vals [[1, 2], []]), (2, .node [(3, .vals [[9], []])])])).set
    (.tup [241, 26, 9, 1]) (.vals [[5]])).set
    (.int 245) (.node [(1, .vals [List.replicate 251 7, List.replicate 252 7])])).set
    (.tup [245, 26, 9, 1]) (.vals [List.replicate 247 8, []])

theorem isWrapperGroup_wrapperGroups :
    ∀ e ∈ wrapperGroups.entries, IsWrapperGroup wrappersDictionary e.1 e.2 := by
  have hoctet {n : Int} (h : 0 ≤ n ∧ n < 256) : IsOctet n := h
  have hshort {extType : Int} {n : ℕ} (hext : 0 ≤ extType ∧ extType < 256) (hn : n ≤ 252) :
      FitsAt (.inner 241 extType) n := ⟨hoctet (by decide), hoctet hext, .inr hn⟩
  have hlong {extType : Int} (n : ℕ) (hext : 0 ≤ extType ∧ extType < 256) :
      FitsAt (.inner 245 extType) n := ⟨hoctet (by decide), hoctet hext, .inl (by decide)⟩
  have htext : IsSlotEntry wrappersDictionary (.inner 241 1) (.vals [[1, 2], []]) :=
    .values (List.cons_ne_nil _ _) rfl fun v hv ↦ hshort (by decide) (by
      have hle : ∀ u ∈ [[1, 2], ([] : Bytes)], u.length ≤ 252 := by decide
      exact hle v hv)
  have hbox : IsSlotEntry wrappersDictionary (.inner 241 2) (.node [(3, .vals [[9], []])]) := by
    refine .tree rfl ⟨⟨List.cons_ne_nil _ _, rfl⟩, List.not_mem_nil, trivial⟩ ⟨?_, trivial⟩
      (hshort (by decide) (by decide))
    intro v hv
    have hle : ∀ u ∈ [[9], ([] : Bytes)], u.length ≤ 253 := by decide
    exact ⟨hoctet (by decide), hle v hv⟩
  have hevs {parent : Int} (hparent : 0 ≤ parent ∧ parent < 256) {n : ℕ}
      (hn : parent ∈ longExtendedAttributeTypes ∨ n ≤ 247) : FitsAt (.evs parent 26 9 1) n :=
    ⟨⟨by decide, by decide⟩, ⟨by decide, by decide⟩, hoctet hparent, hoctet (by decide), hn⟩
  intro e he
  simp only [List.mem_cons, List.not_mem_nil, or_false,
    show wrapperGroups.entries = [(.int 241, .node [(1, .vals [[1, 2], []]),
      (2, .node [(3, .vals [[9], []])])]), (.tup [241, 26, 9, 1], .vals [[5]]),
      (.int 245, .node [(1, .vals [List.replicate 251 7, List.replicate 252 7])]),
      (.tup [245, 26, 9, 1], .vals [List.replicate 247 8, []])] from rfl] at he
  rcases he with rfl | rfl | rfl | rfl
  · refine .wrapper rfl rfl (List.cons_ne_nil _ _) (by decide) fun e he ↦ ?_
    simp only [List.mem_cons, List.not_mem_nil, or_false] at he
    rcases he with rfl | rfl
    · exact ⟨rfl, htext⟩
    · exact ⟨rfl, hbox⟩
  · refine .evs rfl rfl rfl rfl rfl (.evs (List.cons_ne_nil _ _) fun v hv ↦ hevs (by decide) (.inr ?_))
    rw [List.mem_singleton.1 hv]
    decide
  · refine .wrapper rfl rfl (List.cons_ne_nil _ _) (by decide) fun e he ↦ ?_
    rw [List.mem_singleton.1 he]
    exact ⟨rfl, .values (List.cons_ne_nil _ _) rfl fun v _ ↦ hlong v.length (by decide)⟩
  · exact .evs rfl rfl rfl rfl rfl (.evs (List.cons_ne_nil _ _) fun v _ ↦ hevs (by decide) (.inl (by decide)))

theorem wrappers_roundTrip_wrapperGroups :
    WrappersRoundTrip
      { dict := some wrappersDictionary
        attrs := wrapperGroups.mapValues fun _ stored ↦ stored.map .bytes }
      wrappersDictionary .v1_0 wrapperGroups :=
  wrappers_roundTrip .v1_0 rfl rfl isWrapperGroup_wrapperGroups

end Packet

end Pyrad2
