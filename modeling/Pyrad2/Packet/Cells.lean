import Pyrad2.Foundations.Footprint
import Pyrad2.Packet.Decode

/-!
# What decoding an attribute touches

The state of the decoder is one entry for each key, the two buffers and the flag. An attribute
touches the entries and buffers of its own code, and what it does depends on nothing else, so
attributes of different types can be decoded in either order.
-/

namespace Pyrad2

open EStateM

/-- A place in the state of the decoder. -/
inductive Cell where
  | key (key : Key)
  | long (bufKey : List Int)
  | continuation (bufKey : Int × Int)
  | mac
  deriving DecidableEq

namespace Cell

/-- What is at a place. -/
def Content : Cell → Type
  | key _ => Option (Stored Bytes)
  | long _ => Option Bytes
  | continuation _ => Option Bytes
  | mac => Option Bool

/-- The code of the attributes that may touch the place. -/
def code : Cell → Option Int
  | key (.int n) => some n
  | key (.tup [_, _]) => some 26
  | key (.tup [parent, _, _, _]) => some parent
  | key (.tup _) => none
  | long (parent :: _) => some parent
  | long [] => none
  | continuation _ => some 26
  | mac => some 80

end Cell

/-- What the state has at a place. -/
def DecodeState.cell (st : DecodeState) : (c : Cell) → c.Content
  | .key key => st.attrs.get? key
  | .long bufKey => st.longExtBuf.get? bufKey
  | .continuation bufKey => st.vsaContinuationBuf.get? bufKey
  | .mac => st.messageAuthenticator

/-- Reads and writes these places only. -/
abbrev Touches {α : Type} (Z : Set Cell) (m : DecodeMethod α) : Prop :=
  Within DecodeState.cell Z m

namespace Method

theorem outcome_catchException_pure {σ α : Type} (m : Method σ α) (a : α) (s : σ) :
    outcome (catchException m (pure a)) s = match outcome m s with
      | .ok b => .ok b
      | .error .divergence => .error .divergence
      | .error _ => .ok a := by
  rcases hrun : m.run s with ⟨b, s'⟩ | ⟨e, s'⟩
  · rw [outcome_of_ok hrun, outcome_of_ok (run_catchException_of_ok hrun)]
  · rw [outcome_of_error hrun]
    rcases eq_or_ne e .divergence with rfl | he
    · rw [outcome_of_error (run_catchException_of_divergence hrun)]
    · rw [outcome, run_catchException_of_error hrun he]
      rcases e <;> first | rfl | exact absurd rfl he

/-- Falling back to a result when something is raised. -/
theorem within_catchException_pure {σ α ι : Type} {C : ι → Type} {cell : σ → (i : ι) → C i}
    {Z : Set ι} {m : Method σ α} (h : Within cell Z m) (a : α) :
    Within cell Z (catchException m (pure a)) := by
  refine ⟨fun s t hst ↦ ?_, fun s t hst ↦ ?_, fun s i hi ↦ ?_⟩
  · rw [outcome_catchException_pure, outcome_catchException_pure, h.outcome_eq s t hst]
  · rw [after_catchException_pure, after_catchException_pure]
    exact h.sameOn s t hst
  · rw [after_catchException_pure]
    exact h.frame s i hi

end Method

namespace Packet

/-! ### Storing -/

section

variable {Z : Set Cell} {key : Key}

/-- What is stored under a key concerns the key alone. -/
theorem sameOn_set {st t : DecodeState} (h : SameOn DecodeState.cell Z st t)
    (stored : Stored Bytes) :
    SameOn DecodeState.cell Z { st with attrs := st.attrs.set key stored }
      { t with attrs := t.attrs.set key stored } := by
  intro c hc
  rcases c with key' | bufKey | bufKey | _
  · show (st.attrs.set key stored).get? key' = (t.attrs.set key stored).get? key'
    rw [OrderedDict.get?_set, OrderedDict.get?_set]
    split
    · rfl
    · exact h _ hc
  · exact h _ hc
  · exact h _ hc
  · exact h _ hc

theorem cell_set (hkey : Cell.key key ∈ Z) (st : DecodeState) (stored : Stored Bytes) :
    ∀ c ∉ Z, DecodeState.cell { st with attrs := st.attrs.set key stored } c = st.cell c := by
  intro c hc
  rcases c with key' | bufKey | bufKey | _
  · refine OrderedDict.get?_set_ne st.attrs (fun h ↦ hc ?_) stored
    rwa [h]
  · rfl
  · rfl
  · rfl

theorem touches_appendTop (hkey : Cell.key key ∈ Z) (value : Bytes) :
    Touches Z (appendTop key value) := by
  refine within_modifyM (fun st t hst ↦ ?_) fun st st' hst' ↦ ?_
  · have hget : st.attrs.get? key = t.attrs.get? key := hst _ hkey
    rw [extendTop, extendTop, hget]
    rcases t.attrs.get? key with - | ⟨old | m⟩
    · exact .inr ⟨_, _, rfl, rfl, sameOn_set hst _⟩
    · exact .inr ⟨_, _, rfl, rfl, sameOn_set hst _⟩
    · exact .inl ⟨_, rfl, rfl⟩
  · rw [extendTop] at hst'
    rcases hget : st.attrs.get? key with - | ⟨old | m⟩
    all_goals rw [hget] at hst'; cases hst'
    · exact cell_set hkey st _
    · exact cell_set hkey st _

theorem touches_inContainer (hkey : Cell.key key ∈ Z) (m : Method (SubMap Bytes) Unit) :
    Touches Z (inContainer key m) := by
  refine within_get_bind (fun st t hst ↦ ?_) fun st ↦ ?_
  · have hget : st.attrs.get? key = t.attrs.get? key := hst _ hkey
    rw [hget]
  · split
    · exact within_throw _
    · refine within_onPart m (fun st t hst ↦ ?_) (fun target st t hst ↦ sameOn_set hst _)
        fun target st ↦ cell_set hkey st _
      have hget : st.attrs.get? key = t.attrs.get? key := hst _ hkey
      rw [hget]

theorem touches_decodeTlvAttribute (hkey : Cell.key key ∈ Z) (D : Dictionary) (data : Bytes) :
    Touches Z (decodeTlvAttribute D key data) := touches_inContainer hkey _

theorem touches_storeInSlot {parent : Int} (hkey : Cell.key (.int parent) ∈ Z) (D : Dictionary)
    (extType : Int) (payload : Bytes) : Touches Z (storeInSlot D parent extType payload) :=
  touches_inContainer hkey _

/-! ### Buffers -/

/-- One entry of the buffer of continuation fragments is replaced. -/
theorem touches_continuation {bufKey : Int × Int} (hkey : Cell.continuation bufKey ∈ Z)
    {g : OrderedDict (Int × Int) Bytes → OrderedDict (Int × Int) Bytes} {buf : Option Bytes}
    (hg : ∀ d k, (g d).get? k = if k = bufKey then buf else d.get? k) :
    Touches Z (modify fun st ↦ { st with vsaContinuationBuf := g st.vsaContinuationBuf } :
      DecodeMethod PUnit) := by
  let change : (c : Cell) → c.Content → c.Content
    | .continuation k => fun x ↦ if k = bufKey then buf else x
    | .key _ => fun x ↦ x
    | .long _ => fun x ↦ x
    | .mac => fun x ↦ x
  refine within_modify_cellwise change (fun st c ↦ ?_) fun c hc x ↦ ?_
  · rcases c with key | k | k | _
    · rfl
    · rfl
    · exact hg st.vsaContinuationBuf k
    · rfl
  · rcases c with key | k | k | _
    · rfl
    · rfl
    · refine if_neg fun h ↦ hc ?_
      rwa [h]
    · rfl

/-- One entry of the buffer of long-extended fragments is replaced. -/
theorem touches_longExt {bufKey : List Int} (hkey : Cell.long bufKey ∈ Z)
    {g : OrderedDict (List Int) Bytes → OrderedDict (List Int) Bytes} {buf : Option Bytes}
    (hg : ∀ d k, (g d).get? k = if k = bufKey then buf else d.get? k) :
    Touches Z (modify fun st ↦ { st with longExtBuf := g st.longExtBuf } : DecodeMethod PUnit) := by
  let change : (c : Cell) → c.Content → c.Content
    | .long k => fun x ↦ if k = bufKey then buf else x
    | .key _ => fun x ↦ x
    | .continuation _ => fun x ↦ x
    | .mac => fun x ↦ x
  refine within_modify_cellwise change (fun st c ↦ ?_) fun c hc x ↦ ?_
  · rcases c with key | k | k | _
    · rfl
    · exact hg st.longExtBuf k
    · rfl
    · rfl
  · rcases c with key | k | k | _
    · rfl
    · refine if_neg fun h ↦ hc ?_
      rwa [h]
    · rfl
    · rfl

theorem touches_setMac (hmac : Cell.mac ∈ Z) :
    Touches Z (modify fun st ↦ { st with messageAuthenticator := some true } :
      DecodeMethod PUnit) := by
  let change : (c : Cell) → c.Content → c.Content
    | .mac => fun _ ↦ some true
    | .key _ => fun x ↦ x
    | .long _ => fun x ↦ x
    | .continuation _ => fun x ↦ x
  refine within_modify_cellwise change (fun st c ↦ ?_) fun c hc x ↦ ?_
  · rcases c with key | k | k | _ <;> rfl
  · rcases c with key | k | k | _
    · rfl
    · rfl
    · rfl
    · exact absurd hmac hc

theorem touches_bufferContinuation {bufKey : Int × Int} (hkey : Cell.continuation bufKey ∈ Z)
    (more : Bool) (payload : Bytes) : Touches Z (bufferContinuation bufKey more payload) := by
  refine within_get_bind (fun st t hst ↦ ?_) fun st ↦ ?_
  · have hget : st.vsaContinuationBuf.get? bufKey = t.vsaContinuationBuf.get? bufKey := hst _ hkey
    rw [hget]
  · rcases more
    · exact Within.bind (touches_continuation (g := fun d ↦ d.erase bufKey) hkey
        fun d k ↦ OrderedDict.get?_erase d bufKey k) fun _ ↦ within_pure _
    · exact Within.bind (touches_continuation (g := fun d ↦ d.set bufKey _) hkey
        fun d k ↦ OrderedDict.get?_set d bufKey k _) fun _ ↦ within_pure _

theorem touches_bufferLongExtended {bufKey : List Int} (hkey : Cell.long bufKey ∈ Z)
    (flags : UInt8) (chunk : Bytes) {finish : Bytes → DecodeMethod Unit}
    (hfinish : ∀ buf, Touches Z (finish buf)) :
    Touches Z (bufferLongExtended bufKey flags chunk finish) := by
  refine within_get_bind (fun st t hst ↦ ?_) fun st ↦ ?_
  · have hget : st.longExtBuf.get? bufKey = t.longExtBuf.get? bufKey := hst _ hkey
    rw [hget]
  · refine Within.bind (touches_longExt (g := fun d ↦ d.set bufKey _) hkey
      fun d k ↦ OrderedDict.get?_set d bufKey k _) fun _ ↦ ?_
    split
    · exact (hfinish _).bind fun _ ↦ touches_longExt (g := fun d ↦ d.erase bufKey) hkey
        fun d k ↦ OrderedDict.get?_erase d bufKey k
    · exact within_pure _

/-! ### Vendor attributes -/

/-- The places for attributes of a vendor. -/
def vendorZone (vendor : Int) : Set Cell :=
  { c | (∃ atype, c = .key (.tup [vendor, atype])) ∨ ∃ atype, c = .continuation (vendor, atype) }

theorem touches_decodeVendorPayload (hkey : Cell.key key ∈ Z) (D : Option Dictionary)
    (payload : Bytes) : Touches Z (decodeVendorPayload D key payload) := by
  rcases D with - | D
  · exact within_throw _
  · rw [decodeVendorPayload]
    split
    · exact (touches_decodeTlvAttribute hkey D payload).bind fun _ ↦ within_pure _
    · exact within_pure _

theorem touches_decodeVendorLoop {vendor : Int} (hZ : vendorZone vendor ⊆ Z)
    (D : Option Dictionary) (format : VendorFormat) (fuel : ℕ) (rest : Bytes)
    (tlvs : List (Key × Bytes)) :
    Touches Z (decodeVendorLoop D vendor format fuel rest tlvs) := by
  induction fuel generalizing rest tlvs with
  | zero =>
    rw [decodeVendorLoop]
    split
    · exact within_pure _
    · exact within_throw _
  | succ fuel ih =>
    rw [decodeVendorLoop]
    split
    · exact within_pure _
    dsimp only
    generalize (if format.lenLen = 0 then rest.length
      else Bytes.toNatBE ((rest.drop format.typeLen).take format.lenLen)) = n
    split
    · exact within_pure _
    have hpayload (payload : Bytes) : Touches Z (decodeVendorRest D vendor format fuel (rest.drop n)
        tlvs (Bytes.toNatBE (rest.take format.typeLen)) payload) := by
      have hkey : Cell.key (.tup [vendor, Bytes.toNatBE (rest.take format.typeLen)]) ∈ Z :=
        hZ (.inl ⟨_, rfl⟩)
      rw [decodeVendorRest]
      refine (Method.within_catchException_pure ((touches_decodeVendorPayload hkey D payload).bind
        fun _ ↦ within_pure _) none).bind fun listed ↦ ?_
      rcases listed with - | listed
      · exact within_pure _
      · dsimp only
        split
        · exact within_pure _
        · exact ih _ _
    split
    · split
      · exact within_pure _
      · refine (touches_bufferContinuation (hZ (.inr ⟨_, rfl⟩)) _ _).bind fun payload? ↦ ?_
        rcases payload? with - | payload
        · exact ih _ _
        · exact hpayload payload
    · exact hpayload _

/-- Whatever the loop lists, it lists for attributes of its vendor. -/
def ListsOf (vendor : Int) (tlvs : List (Key × Bytes)) : Prop :=
  ∀ e ∈ tlvs, ∃ atype, e.1 = .tup [vendor, atype]

theorem listsOf_decodeVendorLoop {vendor : Int} {D : Option Dictionary} {format : VendorFormat}
    {fuel : ℕ} {rest : Bytes} {tlvs : List (Key × Bytes)} (htlvs : ListsOf vendor tlvs)
    (st : DecodeState) :
    Ensures (decodeVendorLoop D vendor format fuel rest tlvs) st
      (fun listed _ ↦ ∀ l, listed = some l → ListsOf vendor l) fun _ _ ↦ True := by
  have hnone {l : List (Key × Bytes)} (hl : none = some l) : ListsOf vendor l := by cases hl
  induction fuel generalizing rest tlvs st with
  | zero =>
    rw [decodeVendorLoop]
    split
    · intro l hl
      split at hl <;> cases hl
      exact htlvs
    · trivial
  | succ fuel ih =>
    rw [decodeVendorLoop]
    split
    · intro l hl
      split at hl <;> cases hl
      exact htlvs
    dsimp only
    generalize (if format.lenLen = 0 then rest.length
      else Bytes.toNatBE ((rest.drop format.typeLen).take format.lenLen)) = n
    split
    · exact fun _ ↦ hnone
    have hpayload (payload : Bytes) (st : DecodeState) :
        Ensures (decodeVendorRest D vendor format fuel (rest.drop n) tlvs
          (Bytes.toNatBE (rest.take format.typeLen)) payload) st
        (fun listed _ ↦ ∀ l, listed = some l → ListsOf vendor l) fun _ _ ↦ True := by
      have hlists : Ensures (decodeVendorPayload D
          (.tup [vendor, Bytes.toNatBE (rest.take format.typeLen)]) payload) st
          (fun listed _ ↦ ListsOf vendor listed) fun _ _ ↦ True := by
        rcases D with - | D
        · trivial
        · rw [decodeVendorPayload]
          split
          · exact ensures_bind.2 (ensures_of_forall
              (fun _ _ _ he ↦ (List.not_mem_nil he).elim) fun _ _ ↦ trivial)
          · intro e he
            exact ⟨_, congrArg Prod.fst (List.mem_singleton.1 he)⟩
      have hcaught : Ensures (Method.catchException
          (do return some (← decodeVendorPayload D
            (.tup [vendor, Bytes.toNatBE (rest.take format.typeLen)]) payload)) (return none)) st
          (fun listed _ ↦ ∀ l, listed = some l → ListsOf vendor l) fun _ _ ↦ True := by
        refine Method.ensures_catchException (ensures_bind.2 (hlists.imp ?_ ?_))
        · rintro listed _ hlisted l ⟨⟩
          exact hlisted
        · exact fun _ _ _ ↦ ⟨fun _ ↦ trivial, fun _ _ ↦ hnone⟩
      rw [decodeVendorRest]
      refine ensures_bind.2 (hcaught.imp (fun listed st' hlisted ↦ ?_) fun _ _ h ↦ h)
      rcases listed with - | listed
      · exact fun _ ↦ hnone
      · have happend : ListsOf vendor (tlvs ++ listed) := fun e he ↦
          (List.mem_append.1 he).elim (htlvs e) (hlisted listed rfl e)
        dsimp only
        split
        · rintro l ⟨⟩
          exact happend
        · exact ih happend st'
    split
    · split
      · exact fun _ ↦ hnone
      · refine ensures_bind.2 (ensures_of_forall (fun payload? st' ↦ ?_) fun _ _ ↦ trivial)
        rcases payload? with - | payload
        · exact ih htlvs st'
        · exact hpayload payload st'
    · exact hpayload _ st

/-! ### Attributes -/

/-- The places for attributes of this type. -/
def zone (code : Int) : Set Cell := { c | c.code = some code }

theorem vendorZone_subset (vendor : Int) : vendorZone vendor ⊆ zone 26 := by
  rintro c (⟨atype, rfl⟩ | ⟨atype, rfl⟩)
  · rfl
  · rfl

/-- Whatever an attribute of type 26 lists is for a vendor, or the attribute itself. -/
theorem listed_decodeVendorAttribute (D : Option Dictionary) (data : Bytes) (st : DecodeState) :
    Ensures (decodeVendorAttribute D data) st
      (fun listed _ ↦ ∀ e ∈ listed, Cell.key e.1 ∈ zone 26) fun _ _ ↦ True := by
  have hraw : ∀ e ∈ [(Key.int 26, data)], Cell.key e.1 ∈ zone 26 := by
    intro e he
    rw [List.mem_singleton.1 he]
    rfl
  have hbody (vendor : Int) (format : VendorFormat) (inner : Bytes) :
      Ensures (do
        if inner.length < format.typeLen + format.lenLen then return [(Key.int 26, data)]
        return (← decodeVendorLoop D vendor format inner.length inner []).getD
          [(Key.int 26, data)]) st
        (fun listed _ ↦ ∀ e ∈ listed, Cell.key e.1 ∈ zone 26) fun _ _ ↦ True := by
    split
    · exact hraw
    · have hnil : ListsOf vendor [] := fun e he ↦ (List.not_mem_nil he).elim
      refine ensures_bind.2 ((listsOf_decodeVendorLoop hnil st).imp (fun listed _ hlisted ↦ ?_)
        fun _ _ h ↦ h)
      rcases listed with - | listed
      · exact hraw
      · intro e he
        obtain ⟨atype, hkey⟩ := hlisted listed rfl e he
        show Cell.key e.1 ∈ zone 26
        rw [hkey]
        rfl
  rw [decodeVendorAttribute]
  split
  · exact hraw
  · exact hbody _ _ _

theorem touches_decodeVendorAttribute (D : Option Dictionary) (data : Bytes) :
    Touches (zone 26) (decodeVendorAttribute D data) := by
  have hbody (vendor : Int) (format : VendorFormat) (inner : Bytes) :
      Touches (zone 26) (do
        if inner.length < format.typeLen + format.lenLen then return [(Key.int 26, data)]
        return (← decodeVendorLoop D vendor format inner.length inner []).getD
          [(Key.int 26, data)]) := by
    split
    · exact within_pure _
    · exact (touches_decodeVendorLoop (vendorZone_subset vendor) D format _ _ _).bind fun _ ↦
        within_pure _
  rw [decodeVendorAttribute]
  split
  · exact within_pure _
  · exact hbody _ _ _

theorem touches_decodeExtended {D : Dictionary} {parent : Int} (value : Bytes) :
    Touches (zone parent) (decodeExtended D parent value) := by
  rcases value with - | ⟨extType, payload⟩
  · exact within_pure _
  · rw [decodeExtended]
    dsimp only
    split
    · exact touches_appendTop (show Cell.key (.tup [parent, _, _, _]) ∈ zone parent from rfl) _
    · exact touches_storeInSlot (show Cell.key (.int parent) ∈ zone parent from rfl) D _ _

theorem touches_decodeLongExtendedFragment {D : Dictionary} {parent : Int} (value : Bytes) :
    Touches (zone parent) (decodeLongExtendedFragment D parent value) := by
  rcases value with - | ⟨extType, - | ⟨flags, payload⟩⟩
  · exact within_pure _
  · exact within_pure _
  · rw [decodeLongExtendedFragment]
    dsimp only
    split
    · exact touches_bufferLongExtended (show Cell.long (parent :: _) ∈ zone parent from rfl) _ _
        fun buf ↦ touches_appendTop (show Cell.key (.tup [parent, _, _, _]) ∈ zone parent from rfl) _
    · exact touches_bufferLongExtended (show Cell.long (parent :: _) ∈ zone parent from rfl) _ _
        fun buf ↦ touches_storeInSlot (show Cell.key (.int parent) ∈ zone parent from rfl) D _ _

/-- **An attribute touches the places for its type.** -/
theorem touches_decodeAvp (D : Option Dictionary) (version : RadiusVersion) (key : UInt8)
    (value : Bytes) : Touches (zone key.toNat) (decodeAvp D version key value) := by
  have happend : Touches (zone key.toNat) (appendTop (.int key.toNat) value) :=
    touches_appendTop (show Cell.key (.int key.toNat) ∈ zone key.toNat from rfl) value
  unfold decodeAvp
  dsimp only
  split
  · next hvendor =>
    rw [hvendor]
    refine (touches_decodeVendorAttribute D value).bind_of
      (P := fun listed ↦ ∀ e ∈ listed, Cell.key e.1 ∈ zone 26) (fun st listed st' hrun ↦ ?_)
      fun listed hlisted ↦ within_forM fun e he ↦ touches_appendTop (hlisted e he) e.2
    exact (listed_decodeVendorAttribute D value st).of_run_eq_ok hrun
  split
  · next hmac =>
    split
    · rw [hmac] at happend ⊢
      exact (touches_setMac (show Cell.mac ∈ zone (UInt8.toNat 80) from rfl)).bind fun _ ↦ happend
    · exact within_pure _
  rcases D with - | D
  · exact happend
  · dsimp only
    split
    · exact touches_decodeTlvAttribute (show Cell.key (.int key.toNat) ∈ zone key.toNat from rfl) D _
    · exact touches_decodeExtended value
    · exact touches_decodeLongExtendedFragment value
    · exact happend

end

end Packet

end Pyrad2
