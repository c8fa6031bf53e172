import Pyrad2.Foundations.Interleave
import Pyrad2.Packet.Reorder

/-!
# Reading groups back

What the decoder stores for the attributes that groups of values were encoded as.

A group of plain attributes is delivered if decoding them appends its values under the key and
leaves no fragment behind. Groups of different keys are read back into places of their own, so their
attributes may be interleaved in any way that keeps the order within each.
-/

namespace Pyrad2

open EStateM

namespace Packet

/-! ### Bodies that are read back -/

/-- Decoding the body into an empty packet stores exactly this, and leaves both buffers of fragments
empty. -/
structure Restores (D : Dictionary) (version : RadiusVersion) (body : Bytes)
    (stored : Key → Option (Stored Bytes)) : Prop where
  exists_run : ∀ flag, ∃ st, (decodeAvps (some D) version body.length body).run
      { messageAuthenticator := flag } = .ok () st ∧
    (∀ key, (finishAttributes (some D) st.attrs).get? key = stored key) ∧
    st.vsaContinuationBuf = ∅ ∧ st.longExtBuf = ∅

section

variable {D : Dictionary} {version : RadiusVersion}

/-- Behind a header that fits, the body is what a received packet holds. -/
theorem Restores.run_decodePacket {body header : Bytes} {stored : Key → Option (Stored Bytes)}
    (h : Restores D version body stored) (hheader : header.length = 20)
    (hframed : Framed (header ++ body)) {s : PacketState} (hdict : s.pkt.dict = some D)
    (hversion : s.pkt.radiusVersion = version) :
    ∃ s', (decodePacket (header ++ body)).run s = .ok () s' ∧
      ∀ key, s'.pkt.attrs.get? key = (stored key).map (Stored.map PyVal.bytes) := by
  obtain ⟨st, hrun, hstored, -⟩ := h.exists_run s.pkt.messageAuthenticator
  obtain ⟨s', hs', hattrs, -⟩ := exists_run_decodePacket hheader hframed hdict hversion hrun
  refine ⟨s', hs', fun key ↦ ?_⟩
  rw [hattrs, OrderedDict.get?_mapValues, hstored]

theorem Restores.congr {body : Bytes} {stored stored' : Key → Option (Stored Bytes)}
    (h : Restores D version body stored) (heq : ∀ key, stored key = stored' key) :
    Restores D version body stored' := by
  rwa [← funext heq]

/-- A dictionary without keys is the empty one. -/
theorem eq_empty_of_forall_get? {K V : Type} [DecidableEq K] {d : OrderedDict K V}
    (h : ∀ k, d.get? k = none) : d = ∅ := by
  refine OrderedDict.ext (List.eq_nil_iff_forall_not_mem.2 fun e he ↦ ?_)
  have hget := OrderedDict.get?_eq_some_iff.2 (show (e.1, e.2) ∈ d.entries from he)
  rw [h] at hget
  cases hget

/-- An attribute that is read back into some places does nothing elsewhere. -/
theorem ReadsInto.confined {Z : Set Cell} {a : Avp} (h : ReadsInto D version Z a) :
    Confined (InShape D) DecodeState.cell Z (decodeAvp (some D) version a.code a.value) := by
  obtain ⟨m, hm, hrun⟩ := h.exists_touches
  have hafter (st : DecodeState) (hst : InShape D st) :
      after (decodeAvp (some D) version a.code a.value) st = after m st := by
    rw [after, hrun st hst, after]
  refine ⟨fun st hst ↦ exists_run_decodeAvp hst version a, fun st t hst ht hsame ↦ ?_,
    fun st hst c hc ↦ ?_⟩
  · rw [hafter st hst, hafter t ht]
    exact hm.sameOn st t hsame
  · rw [hafter st hst]
    exact hm.frame st c hc

/-! ### Delivered values -/

/-- What stands under a key when these values have been appended, one after the other. -/
def listEntry : List Bytes → Option (Stored Bytes)
  | [] => none
  | vs => some (.vals vs)

theorem listEntry_of_ne_nil {vs : List Bytes} (h : vs ≠ []) : listEntry vs = some (.vals vs) := by
  rcases vs with - | ⟨v, vs⟩
  · exact absurd rfl h
  · rfl

/-- The key has this entry and no fragment waits for it. -/
structure Holds (key : Key) (entry : Option (Stored Bytes)) (st : DecodeState) : Prop where
  entry : st.attrs.get? key = entry
  idle : ∀ vendor vsaType, key = .tup [vendor, vsaType] →
    st.vsaContinuationBuf.get? (vendor, vsaType) = none

theorem holds_initial (key : Key) (flag : Option Bool) :
    Holds key (listEntry []) { messageAuthenticator := flag } := ⟨rfl, fun _ _ _ ↦ rfl⟩

/-- The places of the values under a key. -/
def ownPlaces : Key → Set Cell
  | .int n => { c | c = .key (.int n) ∨ n = 80 ∧ c = .mac }
  | .tup [vendor, vsaType] => vendorPlaces vendor vsaType
  | .tup l => {Cell.key (.tup l)}

/-- Decoding these attributes appends the values under the key. -/
structure Delivers (D : Dictionary) (version : RadiusVersion) (key : Key) (vs : List Bytes)
    (l : List Avp) : Prop where
  readsInto : ∀ a ∈ l, ReadsInto D version (ownPlaces key) a
  exists_run : ∀ old st, Holds key (listEntry old) st → ∃ st',
    (decodeAll D version l).run st = .ok () st' ∧ Holds key (listEntry (old ++ vs)) st'

theorem delivers_nil (key : Key) : Delivers D version key [] [] where
  readsInto := fun _ ha ↦ (List.not_mem_nil ha).elim
  exists_run := fun old st hst ↦ ⟨st, rfl, by rwa [List.append_nil]⟩

theorem Delivers.append {key : Key} {vs vs' : List Bytes} {l l' : List Avp}
    (h : Delivers D version key vs l) (h' : Delivers D version key vs' l') :
    Delivers D version key (vs ++ vs') (l ++ l') where
  readsInto := fun a ha ↦ (List.mem_append.1 ha).elim (h.readsInto a) (h'.readsInto a)
  exists_run := by
    intro old st hst
    obtain ⟨st', hrun, hst'⟩ := h.exists_run old st hst
    obtain ⟨st'', hrun', hst''⟩ := h'.exists_run (old ++ vs) st' hst'
    refine ⟨st'', ?_, by rwa [← List.append_assoc]⟩
    rw [decodeAll_append, run_bind_of_ok hrun, hrun']

/-- The encodings of several values, one after the other. -/
theorem exists_delivers_mapM {key : Key} {f : Bytes → Except Exn Bytes} {vs : List Bytes}
    (h : ∀ v ∈ vs, ∃ l, f v = .ok (Avp.join l) ∧ Delivers D version key [v] l) :
    ∃ l, (do return (← vs.mapM f).flatten) = .ok (Avp.join l) ∧ Delivers D version key vs l := by
  induction vs with
  | nil => exact ⟨[], rfl, delivers_nil key⟩
  | cons v vs ih =>
    obtain ⟨l, hl, hdelivers⟩ := h v (by simp)
    obtain ⟨l', hl', hdelivers'⟩ := ih fun w hw ↦ h w (by simp [hw])
    obtain ⟨parts, hparts, heq⟩ := Except.bind_eq_ok_iff.1 hl'
    refine ⟨l ++ l', ?_, hdelivers.append hdelivers'⟩
    rw [List.mapM_cons, hl, Except.bind_of_ok, hparts, Avp.join_append, ← Except.ok.inj heq]
    rfl

end

/-! ### Single values -/

/-- A key whose values go out as plain attributes, and are listed under it when they come in. The
decoder takes type 26 for the attributes of vendors, and drops type 80 under RADIUS/1.1. -/
structure ListKey (D : Dictionary) (version : RadiusVersion) (key : Key) : Prop where
  notTlv : D.containerType key ≠ some .tlv
  notExtended : D.containerType key ≠ some .extended
  notLongExtended : D.containerType key ≠ some .longExtended
  notVendor : key ≠ .int 26
  notDropped : key = .int 80 → version ≠ .v1_1
  notEvs : ∀ a b c d, key ≠ .tup [a, b, c, d]

section

variable {D : Dictionary} {version : RadiusVersion} {key : Key} {old : List Bytes} {st : DecodeState}

theorem Holds.append (h : Holds key (listEntry old) st) (v : Bytes) :
    (appendTop key v).run st =
        .ok () { st with attrs := st.attrs.set key (.vals (old ++ [v])) } ∧
      Holds key (listEntry (old ++ [v])) { st with attrs := st.attrs.set key (.vals (old ++ [v])) } := by
  have hextend : extendTop key [v] st.attrs = .ok (st.attrs.set key (.vals (old ++ [v]))) := by
    rw [extendTop, h.entry]
    rcases old with - | ⟨w, old⟩ <;> rfl
  refine ⟨?_, ?_, h.idle⟩
  · rw [appendTop, run_modifyM, hextend]
    rfl
  · show (st.attrs.set key _).get? key = _
    rw [OrderedDict.get?_set_self, listEntry_of_ne_nil (by simp)]

theorem isTlvAttribute_of_ne (h : D.containerType key ≠ some .tlv) :
    D.isTlvAttribute key = false := by
  rw [Dictionary.isTlvAttribute]
  rcases hattr : D.attributeAt? key with - | attr
  · rfl
  · rw [beq_eq_false_iff_ne]
    intro htype
    refine h ?_
    rw [Dictionary.containerType, hattr]
    dsimp only
    rw [htype]
    rfl

/-- An attribute of a listed type. -/
theorem delivers_standard {n : Int} {a : Avp} (hkey : ListKey D version (.int n))
    (hcode : IsCode n a.code) : Delivers D version (.int n) [a.value] [a] := by
  have happend : Touches (ownPlaces (.int n)) (appendTop (.int n) a.value) :=
    touches_appendTop (show Cell.key (.int n) ∈ ownPlaces (.int n) from .inl rfl) a.value
  rw [IsCode] at hcode
  have hne26 : a.code ≠ 26 := fun h ↦ hkey.notVendor (by rw [← hcode, h]; rfl)
  have hdecode : decodeAvp (some D) version a.code a.value =
      if a.code = 80 then (do
        modify fun st ↦ { st with messageAuthenticator := some true }
        appendTop (.int n) a.value)
      else appendTop (.int n) a.value := by
    unfold decodeAvp
    dsimp only
    rw [if_neg hne26, hcode]
    split
    · next h80 => rw [if_pos (hkey.notDropped (by rw [← hcode, h80]; rfl))]
    · split
      · next h => exact absurd h hkey.notTlv
      · next h => exact absurd h hkey.notExtended
      · next h => exact absurd h hkey.notLongExtended
      · rfl
  refine ⟨fun b hb ↦ ?_, fun old st hst ↦ ?_⟩
  · rw [List.mem_singleton.1 hb]
    refine readsInto_of_touches ?_
    rw [hdecode]
    split
    · next h80 =>
      have hn : n = 80 := by rw [← hcode, h80]; rfl
      exact (touches_setMac (show Cell.mac ∈ ownPlaces (.int n) from .inr ⟨hn, rfl⟩)).bind
        fun _ ↦ happend
    · exact happend
  · rw [decodeAll_cons, hdecode]
    split
    · have hflag : Holds (.int n) (listEntry old) { st with messageAuthenticator := some true } :=
        ⟨hst.entry, hst.idle⟩
      obtain ⟨hrun, hst'⟩ := hflag.append a.value
      refine ⟨_, ?_, hst'⟩
      have hset : (do
          modify fun st ↦ { st with messageAuthenticator := some true }
          appendTop (.int n) a.value : DecodeMethod Unit).run st = _ := hrun
      rw [run_bind_of_ok hset]
      rfl
    · obtain ⟨hrun, hst'⟩ := hst.append a.value
      exact ⟨_, by rw [run_bind_of_ok hrun]; rfl, hst'⟩

end

/-! ### Fragments -/

theorem exists_avp_of_packItem {code : Int} {b out : Bytes} (h : packItem code (.bytes b) = .ok out) :
    ∃ a : Avp, out = a.bytes ∧ IsCode code a.code ∧ a.value = b := by
  obtain ⟨n, hn, h⟩ := Except.bind_eq_ok_iff.1 h
  cases hn
  obtain ⟨header, hheader, heq⟩ := Except.bind_eq_ok_iff.1 h
  cases heq
  obtain ⟨a, ha, hcode, hvalue⟩ := exists_avp_of_packOctets hheader b (by simp)
  exact ⟨a, ha, hcode, hvalue⟩

/-- One attribute for every element. -/
theorem exists_avps_forall₂ {β : Type} {l : List β} {f : β → Except Exn Bytes} {F : β → Avp → Prop}
    (hf : ∀ b ∈ l, ∀ out, f b = .ok out → ∃ a : Avp, out = a.bytes ∧ F b a) {out : Bytes}
    (h : (do return (← l.mapM f).flatten) = .ok out) :
    ∃ avps, out = Avp.join avps ∧ List.Forall₂ F l avps := by
  obtain ⟨parts, hparts, heq⟩ := Except.bind_eq_ok_iff.1 h
  rw [← Except.ok.inj heq]
  clear h heq
  induction l generalizing parts with
  | nil =>
    cases hparts
    exact ⟨[], rfl, .nil⟩
  | cons b l ih =>
    rw [List.mapM_cons] at hparts
    obtain ⟨first, hfirst, hparts⟩ := Except.bind_eq_ok_iff.1 hparts
    obtain ⟨rest, hrest, heq⟩ := Except.bind_eq_ok_iff.1 hparts
    cases heq
    obtain ⟨a, ha, hF⟩ := hf b (by simp) first hfirst
    obtain ⟨avps, havps, hall⟩ := ih (fun c hc ↦ hf c (by simp [hc])) rest hrest
    exact ⟨a :: avps, by rw [List.flatten_cons, ha, havps, Avp.join_cons], .cons hF hall⟩

theorem exists_of_forall₂ {β : Type} {l : List β} {avps : List Avp} {F : β → Avp → Prop}
    (h : List.Forall₂ F l avps) {a : Avp} (ha : a ∈ avps) : ∃ b ∈ l, F b a := by
  induction h with
  | nil => exact (List.not_mem_nil ha).elim
  | cons hfirst _ ih =>
    rcases List.mem_cons.1 ha with rfl | ha
    · exact ⟨_, List.mem_cons_self, hfirst⟩
    · obtain ⟨b, hb, hF⟩ := ih ha
      exact ⟨b, List.mem_cons_of_mem _ hb, hF⟩

/-- **Reassembly.** While `B buf` says that the fragments so far are `buf`, every fragment with the
flag that more follow adds to them, and the one without it completes the value. -/
theorem run_fragments {run : Avp → DecodeMethod Unit} {F : PyVal × UInt8 → Avp → Prop}
    {B Q : Bytes → DecodeState → Prop} {more : UInt8}
    (hmore : ∀ piece a buf st, F (.bytes piece, more) a → B buf st →
      ∃ st', (run a).run st = .ok () st' ∧ B (buf ++ piece) st')
    (hlast : ∀ piece a buf st, F (.bytes piece, 0) a → B buf st →
      ∃ st', (run a).run st = .ok () st' ∧ Q (buf ++ piece) st')
    {pieces : List Bytes} (hne : pieces ≠ []) {avps : List Avp}
    (h : List.Forall₂ F (withMore more (pieces.map .bytes)) avps) {buf : Bytes} {st : DecodeState}
    (hst : B buf st) :
    ∃ st', (avps.forM run).run st = .ok () st' ∧ Q (buf ++ pieces.flatten) st' := by
  induction pieces generalizing avps buf st with
  | nil => exact absurd rfl hne
  | cons piece pieces ih =>
    rcases pieces with - | ⟨next, pieces⟩
    · obtain ⟨a, rest, hF, hnil, rfl⟩ := List.forall₂_cons_left_iff.1 h
      rw [List.forall₂_nil_left_iff.1 hnil]
      obtain ⟨st', hrun, hQ⟩ := hlast piece a buf st hF hst
      refine ⟨st', ?_, by simpa using hQ⟩
      show (run a >>= fun _ ↦ pure PUnit.unit).run st = _
      rw [run_bind_of_ok hrun]
      rfl
    · obtain ⟨a, rest, hF, hrest, rfl⟩ := List.forall₂_cons_left_iff.1 h
      obtain ⟨st', hrun, hB⟩ := hmore piece a buf st hF hst
      obtain ⟨st'', hrun', hQ⟩ := ih (List.cons_ne_nil _ _) hrest hB
      refine ⟨st'', ?_, by simpa using hQ⟩
      show (run a >>= fun _ ↦ rest.forM run).run st = _
      rw [run_bind_of_ok hrun, hrun']

/-! ### Values of vendors -/

/-- An attribute with a value, or a fragment of one, under a key of a vendor. -/
structure VendorAvp (D : Dictionary) (vendor vsaType : Int) (continuation : Option UInt8)
    (payload : Bytes) (a : Avp) : Prop where
  code_eq : a.code = 26
  continues : continuation.isSome = (D.vendorFormat vendor).hasContinuation
  exists_parts : ∃ field inner, packUnsigned 4 vendor = .ok field ∧
    packVsaInner vsaType (.bytes payload) (D.vendorFormat vendor) continuation = .ok inner ∧
      a.value = field ++ inner

section

variable {D : Dictionary} {version : RadiusVersion} {vendor vsaType : Int} {payload : Bytes}
  {continuation : Option UInt8} {a : Avp}

theorem exists_vendorAvp (hcont : continuation.isSome = (D.vendorFormat vendor).hasContinuation)
    {out : Bytes} (h : (do packVsa vendor (← packVsaInner vsaType (.bytes payload)
      (D.vendorFormat vendor) continuation)) = .ok out) :
    ∃ a : Avp, out = a.bytes ∧ VendorAvp D vendor vsaType continuation payload a := by
  obtain ⟨inner, hinner, h⟩ := Except.bind_eq_ok_iff.1 h
  obtain ⟨field, hfield, h⟩ := Except.bind_eq_ok_iff.1 h
  obtain ⟨a, ha, hcode, hvalue⟩ := exists_avp_of_packItem h
  exact ⟨a, ha, UInt8.toNat_inj.1 (Int.ofNat_inj.1 hcode), hcont, field, inner, hfield, hinner,
    hvalue⟩

theorem VendorAvp.readsInto (h : VendorAvp D vendor vsaType continuation payload a)
    (hkey : D.isTlvAttribute (.tup [vendor, vsaType]) = false) :
    ReadsInto D version (ownPlaces (.tup [vendor, vsaType])) a := by
  obtain ⟨field, inner, hfield, hinner, hvalue⟩ := h.exists_parts
  exact readsInto_vendor hkey h.code_eq hfield h.continues hinner hvalue

theorem VendorAvp.decodeAvp_eq (h : VendorAvp D vendor vsaType continuation payload a) :
    decodeAvp (some D) version a.code a.value = (do
      (← takeVendor D vendor vsaType continuation a.value payload).forM
        fun (key, value) ↦ appendTop key value) := by
  obtain ⟨field, inner, hfield, hinner, hvalue⟩ := h.exists_parts
  rw [h.code_eq, hvalue, ← decodeVendorAttribute_packed h.continues hinner hfield]
  rfl

theorem run_bufferContinuation {bufKey : Int × Int} {st : DecodeState} {buf : Bytes}
    (hbuf : (st.vsaContinuationBuf.get? bufKey).getD [] = buf) (more : Bool) (payload : Bytes) :
    (bufferContinuation bufKey more payload).run st =
      if more then
        .ok none { st with
          vsaContinuationBuf := st.vsaContinuationBuf.set bufKey (buf ++ payload) }
      else
        .ok (some (buf ++ payload)) { st with
          vsaContinuationBuf := st.vsaContinuationBuf.erase bufKey } := by
  subst hbuf
  rcases more <;> rfl

/-- A complete value is listed under its key. -/
theorem VendorAvp.run_whole (h : VendorAvp D vendor vsaType none payload a)
    (hkey : D.isTlvAttribute (.tup [vendor, vsaType]) = false) {old : List Bytes} {st : DecodeState}
    (hst : Holds (.tup [vendor, vsaType]) (listEntry old) st) :
    ∃ st', (decodeAvp (some D) version a.code a.value).run st = .ok () st' ∧
      Holds (.tup [vendor, vsaType]) (listEntry (old ++ [payload])) st' := by
  obtain ⟨hrun, hst'⟩ := hst.append payload
  refine ⟨_, ?_, hst'⟩
  rw [h.decodeAvp_eq, takeVendor, pure_bind]
  dsimp only
  rw [storeVendor_of_value hkey, pure_bind]
  show (appendTop _ payload >>= fun _ ↦ pure PUnit.unit).run st = _
  rw [run_bind_of_ok hrun]
  rfl

/-- While fragments wait, the list under the key is as before. -/
structure Waiting (vendor vsaType : Int) (old : List Bytes) (buf : Bytes) (st : DecodeState) :
    Prop where
  entry : st.attrs.get? (.tup [vendor, vsaType]) = listEntry old
  buffered : (st.vsaContinuationBuf.get? (vendor, vsaType)).getD [] = buf

theorem VendorAvp.run_more (h : VendorAvp D vendor vsaType (some vsaContinuationMore) payload a)
    {old : List Bytes} {buf : Bytes} {st : DecodeState} (hst : Waiting vendor vsaType old buf st) :
    ∃ st', (decodeAvp (some D) version a.code a.value).run st = .ok () st' ∧
      Waiting vendor vsaType old (buf ++ payload) st' := by
  have hrun := run_bufferContinuation hst.buffered true payload
  rw [if_pos rfl] at hrun
  refine ⟨{ st with
    vsaContinuationBuf := st.vsaContinuationBuf.set (vendor, vsaType) (buf ++ payload) }, ?_,
    hst.entry, ?_⟩
  · rw [h.decodeAvp_eq, takeVendor, bind_assoc]
    show (bufferContinuation (vendor, vsaType) true payload >>= _).run st = _
    rw [run_bind_of_ok hrun]
    rfl
  · show ((st.vsaContinuationBuf.set _ _).get? _).getD [] = _
    rw [OrderedDict.get?_set_self, Option.getD_some]

theorem VendorAvp.run_last (h : VendorAvp D vendor vsaType (some 0) payload a)
    (hkey : D.isTlvAttribute (.tup [vendor, vsaType]) = false) {old : List Bytes} {buf : Bytes}
    {st : DecodeState} (hst : Waiting vendor vsaType old buf st) :
    ∃ st', (decodeAvp (some D) version a.code a.value).run st = .ok () st' ∧
      Holds (.tup [vendor, vsaType]) (listEntry (old ++ [buf ++ payload])) st' := by
  have hrun := run_bufferContinuation hst.buffered false payload
  rw [if_neg Bool.false_ne_true] at hrun
  have hidle : Holds (.tup [vendor, vsaType]) (listEntry old)
      { st with vsaContinuationBuf := st.vsaContinuationBuf.erase (vendor, vsaType) } := by
    refine ⟨hst.entry, fun vendor' vsaType' heq ↦ ?_⟩
    cases heq
    show (st.vsaContinuationBuf.erase _).get? _ = none
    rw [OrderedDict.get?_erase, if_pos rfl]
  obtain ⟨happend, hst'⟩ := hidle.append (buf ++ payload)
  refine ⟨_, ?_, hst'⟩
  rw [h.decodeAvp_eq, takeVendor, bind_assoc]
  show (bufferContinuation (vendor, vsaType) false payload >>= _).run st = _
  rw [run_bind_of_ok hrun]
  dsimp only
  rw [storeVendor_of_value hkey, pure_bind]
  show (appendTop _ _ >>= fun _ ↦ pure PUnit.unit).run _ = _
  rw [run_bind_of_ok happend]
  rfl

end

section

variable {D : Dictionary} {version : RadiusVersion} {p : Packet}

/-- A value of a vendor, whole or in fragments. -/
theorem exists_delivers_vendor (hdict : p.dict = some D) {vendor vsaType : Int}
    (hkey : D.isTlvAttribute (.tup [vendor, vsaType]) = false) {v : Bytes}
    (hfits : AttributeFits (some D) (.tup [vendor, vsaType]) v.length) :
    ∃ l, p.encodeAttribute (.tup [vendor, vsaType]) (.bytes v) = .ok (Avp.join l) ∧
      Delivers D version (.tup [vendor, vsaType]) [v] l := by
  rw [← hdict] at hfits
  obtain ⟨out, hout⟩ := (succeeds_encodeAttribute_iff p (.tup [vendor, vsaType]) v).2 hfits
  have hformat : p.vendorFormat vendor = D.vendorFormat vendor := by rw [vendorFormat, hdict]
  have hencode := hout
  rw [encodeAttribute, hformat] at hencode
  split at hencode
  · next hcont =>
    have htype := (D.vendorFormat vendor).typeLen_mem
    have hlen := (D.vendorFormat vendor).lenLen_le
    have hmax : 0 < 255 - 2 - 4 - (D.vendorFormat vendor).typeLen -
        (D.vendorFormat vendor).lenLen - 1 := by omega
    obtain ⟨pieces, hpieces, hne, hflatten, -⟩ := exists_splitIntoChunks hmax v
    rw [encodeContinuationVsa] at hencode
    dsimp only at hencode
    rw [hpieces, Except.bind_of_ok] at hencode
    -- one attribute for every piece
    obtain ⟨avps, rfl, hall⟩ := exists_avps_forall₂ (F := fun e a ↦ ∀ piece, e.1 = .bytes piece →
      VendorAvp D vendor vsaType (some e.2) piece a) (fun e he out hpack ↦ by
        obtain ⟨piece, -, hpiece⟩ := List.mem_map.1 (mem_of_mem_withMore
          (show (e.1, e.2) ∈ withMore vsaContinuationMore (pieces.map .bytes) from he))
        rw [← hpiece] at hpack
        obtain ⟨a, ha, hvendor⟩ := exists_vendorAvp (D := D) (by rw [hcont]; rfl) hpack
        refine ⟨a, ha, fun piece' hpiece' ↦ ?_⟩
        rw [← hpiece] at hpiece'
        cases hpiece'
        exact hvendor) hencode
    refine ⟨avps, hout, fun a ha ↦ ?_, fun old st hst ↦ ?_⟩
    · obtain ⟨e, he, hF⟩ := exists_of_forall₂ hall ha
      obtain ⟨piece, -, hpiece⟩ := List.mem_map.1 (mem_of_mem_withMore
        (show (e.1, e.2) ∈ withMore vsaContinuationMore (pieces.map .bytes) from he))
      exact (hF piece hpiece.symm).readsInto hkey
    · have hwaiting : Waiting vendor vsaType old [] st :=
        ⟨hst.entry, by rw [hst.idle vendor vsaType rfl]; rfl⟩
      obtain ⟨st', hrun, hQ⟩ := run_fragments
        (Q := fun v st ↦ Holds (.tup [vendor, vsaType]) (listEntry (old ++ [v])) st)
        (fun piece a buf st hF hst ↦ (hF piece rfl).run_more hst)
        (fun piece a buf st hF hst ↦ (hF piece rfl).run_last hkey hst) hne hall hwaiting
      rw [List.nil_append, hflatten] at hQ
      exact ⟨st', hrun, hQ⟩
  · next hcont =>
    rw [Bool.not_eq_true] at hcont
    have hnone : (none : Option UInt8).isSome = (D.vendorFormat vendor).hasContinuation := by
      rw [hcont]
      rfl
    obtain ⟨a, rfl, ha⟩ := exists_vendorAvp hnone hencode
    refine ⟨[a], by rw [hout, Avp.join_cons, Avp.join_nil, List.append_nil], fun b hb ↦ ?_,
      fun old st hst ↦ ?_⟩
    · rw [List.mem_singleton.1 hb]
      exact ha.readsInto hkey
    · obtain ⟨st', hrun, hst'⟩ := ha.run_whole hkey hst
      refine ⟨st', ?_, hst'⟩
      rw [decodeAll_cons, run_bind_of_ok (hrun : (decodeAvp (some D) version _ _).run st = _)]
      rfl

/-- **A value that fits is delivered.** -/
theorem exists_delivers (hdict : p.dict = some D) {key : Key} (hkey : ListKey D version key)
    {v : Bytes} (hfits : AttributeFits (some D) key v.length) :
    ∃ l, p.encodeAttribute key (.bytes v) = .ok (Avp.join l) ∧ Delivers D version key [v] l := by
  rcases key with n | (- | ⟨vendor, - | ⟨vsaType, - | ⟨c, l⟩⟩⟩)
  · rw [← hdict] at hfits
    obtain ⟨out, hout⟩ := (succeeds_encodeAttribute_iff p (.int n) v).2 hfits
    obtain ⟨a, rfl, hcode, rfl⟩ := exists_avp_of_packItem hout
    exact ⟨[a], by rw [hout, Avp.join_cons, Avp.join_nil, List.append_nil],
      delivers_standard hkey hcode⟩
  · exact hfits.elim
  · exact hfits.elim
  · exact exists_delivers_vendor hdict (isTlvAttribute_of_ne hkey.notTlv) hfits
  · exact hfits.elim

end

/-! ### Interleaved groups -/

theorem key_mem_ownPlaces {key key' : Key} : Cell.key key' ∈ ownPlaces key ↔ key' = key := by
  rcases key with n | (- | ⟨vendor, - | ⟨vsaType, - | ⟨c, l⟩⟩⟩) <;>
    simp [ownPlaces, vendorPlaces]

theorem continuation_mem_ownPlaces {key : Key} {vendor vsaType : Int} :
    Cell.continuation (vendor, vsaType) ∈ ownPlaces key ↔ key = .tup [vendor, vsaType] := by
  rcases key with n | (- | ⟨vendor', - | ⟨vsaType', - | ⟨c, l⟩⟩⟩)
  · simp [ownPlaces]
  · simp [ownPlaces]
  · simp [ownPlaces]
  · simp only [ownPlaces, vendorPlaces, Set.mem_ofPred_eq, reduceCtorEq, false_or,
      Cell.continuation.injEq, Prod.mk.injEq, Key.tup.injEq, List.cons.injEq, and_true]
    exact ⟨fun h ↦ ⟨h.1.symm, h.2.symm⟩, fun h ↦ ⟨h.1.symm, h.2.symm⟩⟩
  · simp [ownPlaces]

theorem long_notMem_ownPlaces (key : Key) (bufKey : List Int) : Cell.long bufKey ∉ ownPlaces key := by
  rcases key with n | (- | ⟨vendor, - | ⟨vsaType, - | ⟨c, l⟩⟩⟩) <;>
    simp [ownPlaces, vendorPlaces]

theorem mac_mem_ownPlaces {key : Key} : Cell.mac ∈ ownPlaces key ↔ key = .int 80 := by
  rcases key with n | (- | ⟨vendor, - | ⟨vsaType, - | ⟨c, l⟩⟩⟩) <;>
    simp [ownPlaces, vendorPlaces]

/-- Every key has places of its own. -/
theorem disjoint_ownPlaces {key key' : Key} (h : key ≠ key') :
    Disjoint (ownPlaces key) (ownPlaces key') := by
  refine Set.disjoint_left.2 fun c hc hc' ↦ h ?_
  rcases c with k | k | ⟨vendor, vsaType⟩ | _
  · rw [← key_mem_ownPlaces.1 hc, ← key_mem_ownPlaces.1 hc']
  · exact absurd hc (long_notMem_ownPlaces key k)
  · rw [continuation_mem_ownPlaces.1 hc, continuation_mem_ownPlaces.1 hc']
  · rw [mac_mem_ownPlaces.1 hc, mac_mem_ownPlaces.1 hc']

section

variable {D : Dictionary} {version : RadiusVersion}

/-- What the two passes over the attributes make of a list. -/
def finishList (D : Dictionary) (key : Key) (vs : List Bytes) : Stored Bytes :=
  splitArray D key (mergeConcat D key (.vals vs))

theorem get?_finishAttributes (D : Dictionary) (attrs : Attrs Bytes) (key : Key) :
    (finishAttributes (some D) attrs).get? key =
      (attrs.get? key).map fun stored ↦ splitArray D key (mergeConcat D key stored) := by
  rw [finishAttributes, OrderedDict.get?_mapValues, OrderedDict.get?_mapValues, Option.map_map]
  rfl

/-- **Interleaved groups are read back.** -/
theorem restores_of_interleaves {groups : OrderedDict Key (List Bytes)} {part : Key → List Avp}
    (hpart : ∀ key vs, groups.get? key = some vs → vs ≠ [] ∧ Delivers D version key vs (part key))
    (hnone : ∀ key, groups.get? key = none → part key = []) {l : List Avp}
    (h : Interleaves part l) :
    Restores D version (Avp.join l) fun key ↦ (groups.get? key).map (finishList D key) := by
  refine ⟨fun flag ↦ ?_⟩
  have hreads (key : Key) : ∀ a ∈ part key, Confined (InShape D) DecodeState.cell (ownPlaces key)
      (decodeAvp (some D) version a.code a.value) := by
    intro a ha
    rcases hget : groups.get? key with - | vs
    · rw [hnone key hget] at ha
      exact (List.not_mem_nil ha).elim
    · exact ((hpart key vs hget).2.readsInto a ha).confined
  obtain ⟨⟨hrun, -⟩, hown, hother⟩ := run_forM_of_interleaves h hreads
    (fun key key' hne ↦ disjoint_ownPlaces hne) (inShape_initial D flag)
  set st := after (l.forM fun a ↦ decodeAvp (some D) version a.code a.value)
    { messageAuthenticator := flag }
  -- each key ends up as if its own attributes had come alone
  have hholds (key : Key) : Holds key (listEntry ((groups.get? key).getD [])) st := by
    have halone : Holds key (listEntry ((groups.get? key).getD [])) (after ((part key).forM fun a ↦
        decodeAvp (some D) version a.code a.value) { messageAuthenticator := flag }) := by
      rcases hget : groups.get? key with - | vs
      · rw [hnone key hget]
        exact holds_initial key flag
      · obtain ⟨st', hst', hholds⟩ := (hpart key vs hget).2.exists_run [] _ (holds_initial key flag)
        rw [decodeAll] at hst'
        rw [after_of_ok hst']
        exact hholds
    have hcell := hown key
    refine ⟨(hcell (.key key) (key_mem_ownPlaces.2 rfl)).trans halone.entry, ?_⟩
    intro vendor vsaType hkey
    exact (hcell (.continuation (vendor, vsaType)) (continuation_mem_ownPlaces.2 hkey)).trans
      (halone.idle vendor vsaType hkey)
  refine ⟨st, ?_, fun key ↦ ?_, ?_, ?_⟩
  · rw [decodeAvps_join _ _ le_rfl]
    exact hrun
  · rw [get?_finishAttributes, (hholds key).entry]
    rcases hget : groups.get? key with - | vs
    · rfl
    · rw [Option.getD_some, listEntry_of_ne_nil (hpart key vs hget).1]
      rfl
  · exact eq_empty_of_forall_get? fun k ↦ (hholds (.tup [k.1, k.2])).idle k.1 k.2 rfl
  · exact eq_empty_of_forall_get? fun k ↦
      hother (.long k) fun key ↦ long_notMem_ownPlaces key k

end

end Packet

end Pyrad2
