import Pyrad2.Packet.DecodeShape

/-!
# Where the decoder stores

An attribute of the body is stored under its own code, or under keys of vendors.

So what a received packet holds under a code has come in attributes of that type: a body without
EAP-Messages makes a packet without EAP-Messages.
-/

namespace Pyrad2

open EStateM

namespace Packet

/-- Under other codes than `code` nothing has changed. Keys of vendors may have. -/
def StoresUnder (code : Int) (st st' : DecodeState) : Prop :=
  ∀ n, n ≠ code → st'.attrs.get? (.int n) = st.attrs.get? (.int n)

instance (code : Int) : IsPreorder DecodeState (StoresUnder code) where
  refl := fun _ _ _ ↦ rfl
  trans := fun _ _ _ h h' n hn ↦ (h' n hn).trans (h n hn)

variable {code : Int}

theorem storesUnder_of_eq {st st' : DecodeState} (h : st'.attrs = st.attrs) :
    StoresUnder code st st' := fun n _ ↦ by rw [h]

/-- A key that stands for the code, or for something of a vendor. -/
def KeyUnder (code : Int) (key : Key) : Prop := ∀ n, n ≠ code → key ≠ .int n

theorem keyUnder_int (code : Int) : KeyUnder code (.int code) :=
  fun n hn h ↦ by
    cases h
    exact hn rfl

theorem keyUnder_tup (code : Int) (fields : List Int) : KeyUnder code (.tup fields) :=
  fun n _ h ↦ by cases h

theorem storesUnder_set {key : Key} (hkey : KeyUnder code key) (st : DecodeState)
    (stored : Stored Bytes) :
    StoresUnder code st { st with attrs := st.attrs.set key stored } := by
  intro n hn
  exact OrderedDict.get?_set_ne st.attrs (hkey n hn).symm stored

theorem storesUnder_appendTop {key : Key} (hkey : KeyUnder code key) (value : Bytes) :
    Respects (StoresUnder code) (appendTop key value) := by
  refine respects_modifyM fun st st' hst' ↦ ?_
  rcases hget : st.attrs.get? key with - | ⟨old | m⟩ <;>
    simp only [extendTop, hget] at hst' <;> cases hst'
  · exact storesUnder_set hkey st _
  · exact storesUnder_set hkey st _

theorem storesUnder_inContainer {key : Key} (hkey : KeyUnder code key)
    (m : Method (SubMap Bytes) Unit) : Respects (StoresUnder code) (inContainer key m) := by
  refine respects_get.bind fun st ↦ ?_
  split
  · exact respects_throw _
  · exact respects_onPart m fun st _ ↦ storesUnder_set hkey st _

/-! ### Vendor attributes -/

/-- The listed values are for the raw attribute or for something of a vendor. -/
def ListsVendor (tlvs : List (Key × Bytes)) : Prop := ∀ e ∈ tlvs, KeyUnder 26 e.1

theorem listsVendor_singleton {key : Key} (hkey : KeyUnder 26 key) (value : Bytes) :
    ListsVendor [(key, value)] := by
  intro e he
  rw [List.mem_singleton.1 he]
  exact hkey

theorem ListsVendor.append {tlvs tlvs' : List (Key × Bytes)} (h : ListsVendor tlvs)
    (h' : ListsVendor tlvs') : ListsVendor (tlvs ++ tlvs') :=
  fun e he ↦ (List.mem_append.1 he).elim (h e) (h' e)

/-- What is listed, if anything, is listed for a vendor, and nothing else has been stored. -/
def VendorOnly (st : DecodeState) (listed : Option (List (Key × Bytes))) (st' : DecodeState) :
    Prop := (∀ l, listed = some l → ListsVendor l) ∧ StoresUnder 26 st st'

theorem vendorOnly_none {st st' : DecodeState} (h : StoresUnder 26 st st') :
    VendorOnly st none st' := ⟨fun l hl ↦ (by cases hl), h⟩

theorem vendorOnly_some {st st' : DecodeState} {l : List (Key × Bytes)} (hl : ListsVendor l)
    (h : StoresUnder 26 st st') : VendorOnly st (some l) st' :=
  ⟨fun l' hl' ↦ (by cases hl'; exact hl), h⟩

section

variable {D : Option Dictionary}

theorem ensures_decodeVendorPayload_keys (vendor atype : Int) (payload : Bytes)
    (st : DecodeState) :
    Ensures (decodeVendorPayload D (.tup [vendor, atype]) payload) st
      (fun listed st' ↦ VendorOnly st (some listed) st') fun _ st' ↦ StoresUnder 26 st st' := by
  rcases D with - | D
  · exact refl_of (StoresUnder 26) st
  · rw [decodeVendorPayload]
    split
    · have hstore : Ensures (decodeTlvAttribute D (.tup [vendor, atype]) payload) st
          (fun _ st' ↦ StoresUnder 26 st st') fun _ st' ↦ StoresUnder 26 st st' :=
        ensures_iff_after.2 (storesUnder_inContainer (keyUnder_tup 26 _) _ st)
      exact ensures_bind.2 (hstore.imp
        (fun _ st' hst' ↦ vendorOnly_some (fun e he ↦ (List.not_mem_nil he).elim) hst')
        fun _ _ hst' ↦ hst')
    · exact vendorOnly_some (listsVendor_singleton (keyUnder_tup 26 _) payload) (refl_of _ st)

theorem ensures_decodeVendorLoop_keys {vendor : Int} {format : VendorFormat} {fuel : ℕ}
    {rest : Bytes} {tlvs : List (Key × Bytes)} (htlvs : ListsVendor tlvs) (st : DecodeState) :
    Ensures (decodeVendorLoop D vendor format fuel rest tlvs) st
      (fun listed st' ↦ VendorOnly st listed st') fun _ st' ↦ StoresUnder 26 st st' := by
  induction fuel generalizing rest tlvs st with
  | zero =>
    rw [decodeVendorLoop]
    split
    · exact ⟨fun l hl ↦ by split at hl <;> cases hl; exact htlvs, refl_of _ st⟩
    · exact refl_of (StoresUnder 26) st
  | succ fuel ih =>
    rw [decodeVendorLoop]
    split
    · exact ⟨fun l hl ↦ by split at hl <;> cases hl; exact htlvs, refl_of _ st⟩
    dsimp only
    generalize (if format.lenLen = 0 then rest.length
      else Bytes.toNatBE ((rest.drop format.typeLen).take format.lenLen)) = n
    split
    · exact vendorOnly_none (refl_of _ st)
    -- the rest of the loop, from a state in which nothing else has been stored either
    have hrest {tlvs : List (Key × Bytes)} (htlvs : ListsVendor tlvs) {st' : DecodeState}
        (h : StoresUnder 26 st st') :
        Ensures (decodeVendorLoop D vendor format fuel (rest.drop n) tlvs) st'
          (fun listed st'' ↦ VendorOnly st listed st'') fun _ st'' ↦ StoresUnder 26 st st'' :=
      (ih htlvs st').imp (fun listed st'' hst'' ↦ ⟨hst''.1, trans_of _ h hst''.2⟩)
        fun _ _ hst'' ↦ trans_of _ h hst''
    have hpayload (payload : Bytes) {st' : DecodeState} (h : StoresUnder 26 st st') :
        Ensures (decodeVendorRest D vendor format fuel (rest.drop n) tlvs
          (Bytes.toNatBE (rest.take format.typeLen)) payload) st'
          (fun listed st'' ↦ VendorOnly st listed st'') fun _ st'' ↦ StoresUnder 26 st st'' := by
      have hcaught : Ensures (Method.catchException
          (do return some (← decodeVendorPayload D
            (.tup [vendor, Bytes.toNatBE (rest.take format.typeLen)]) payload)) (return none)) st'
          (fun listed st'' ↦ VendorOnly st' listed st'') fun _ st'' ↦ StoresUnder 26 st' st'' :=
        Method.ensures_catchException (ensures_bind.2
          ((ensures_decodeVendorPayload_keys vendor _ payload st').imp (fun _ _ hst'' ↦ hst'')
            fun e st'' hst'' ↦ ⟨fun _ ↦ hst'', fun _ ↦ vendorOnly_none hst''⟩))
      rw [decodeVendorRest]
      refine ensures_bind.2 (hcaught.imp (fun listed st'' hst'' ↦ ?_)
        fun _ _ hst'' ↦ trans_of _ h hst'')
      have hstored : StoresUnder 26 st st'' := trans_of _ h hst''.2
      rcases listed with - | listed
      · exact vendorOnly_none hstored
      · have happend := htlvs.append (hst''.1 listed rfl)
        dsimp only
        split
        · exact vendorOnly_some happend hstored
        · exact hrest happend hstored
    split
    · split
      · exact vendorOnly_none (refl_of _ st)
      next payload _ =>
      have hbuffered (bufKey : Int × Int) (more : Bool) (payload : Bytes) :
          Ensures (bufferContinuation bufKey more payload) st
            (fun _ st' ↦ StoresUnder 26 st st') fun _ st' ↦ StoresUnder 26 st st' := by
        rcases more
        · exact storesUnder_of_eq rfl
        · exact storesUnder_of_eq rfl
      refine ensures_bind.2 ((hbuffered _ _ _).imp (fun payload? st' hst' ↦ ?_) fun _ _ h ↦ h)
      rcases payload? with - | payload
      · exact hrest htlvs hst'
      · exact hpayload payload hst'
    · exact hpayload _ (refl_of _ st)

theorem ensures_decodeVendorAttribute_keys (data : Bytes) (st : DecodeState) :
    Ensures (decodeVendorAttribute D data) st
      (fun listed st' ↦ ListsVendor listed ∧ StoresUnder 26 st st')
      fun _ st' ↦ StoresUnder 26 st st' := by
  have hraw : ListsVendor [(.int 26, data)] := listsVendor_singleton (keyUnder_int 26) data
  have hbody (vendor : Int) (format : VendorFormat) (inner : Bytes) :
      Ensures (do
        if inner.length < format.typeLen + format.lenLen then return [(Key.int 26, data)]
        return (← decodeVendorLoop D vendor format inner.length inner []).getD
          [(Key.int 26, data)]) st
        (fun listed st' ↦ ListsVendor listed ∧ StoresUnder 26 st st')
        fun _ st' ↦ StoresUnder 26 st st' := by
    split
    · exact ⟨hraw, refl_of _ st⟩
    · refine ensures_bind.2 ((ensures_decodeVendorLoop_keys
        (fun e he ↦ (List.not_mem_nil he).elim) st).imp (fun listed st' hst' ↦ ?_) fun _ _ h ↦ h)
      rcases listed with - | listed
      · exact ⟨hraw, hst'.2⟩
      · exact ⟨hst'.1 listed rfl, hst'.2⟩
  rw [decodeVendorAttribute]
  split
  · exact ⟨hraw, refl_of _ st⟩
  · exact hbody _ _ _

end

/-! ### Attributes -/

theorem storesUnder_storeInSlot (D : Dictionary) (parent extType : Int) (payload : Bytes) :
    Respects (StoresUnder parent) (storeInSlot D parent extType payload) :=
  storesUnder_inContainer (keyUnder_int parent) _

theorem storesUnder_decodeExtended (D : Dictionary) (parent : Int) (value : Bytes) :
    Respects (StoresUnder parent) (decodeExtended D parent value) := by
  rcases value with - | ⟨extType, payload⟩
  · exact respects_pure _
  · rw [decodeExtended]
    dsimp only
    split
    · exact storesUnder_appendTop (keyUnder_tup _ _) _
    · exact storesUnder_storeInSlot D parent _ payload

theorem storesUnder_bufferLongExtended {bufKey : List Int} {flags : UInt8} {chunk : Bytes}
    {finish : Bytes → DecodeMethod Unit} (h : ∀ buf, Respects (StoresUnder code) (finish buf)) :
    Respects (StoresUnder code) (bufferLongExtended bufKey flags chunk finish) := by
  have hbuffered (g : DecodeState → DecodeState) (hg : ∀ st, (g st).attrs = st.attrs) :
      Respects (StoresUnder code) (modify g : DecodeMethod PUnit) :=
    respects_modify fun st ↦ storesUnder_of_eq (hg st)
  refine respects_get.bind fun st ↦ Respects.bind (hbuffered _ ?_) fun _ ↦ ?_
  · exact fun _ ↦ rfl
  split
  · exact (h _).bind fun _ ↦ hbuffered _ fun _ ↦ rfl
  · exact respects_pure _

theorem storesUnder_decodeLongExtendedFragment (D : Dictionary) (parent : Int) (value : Bytes) :
    Respects (StoresUnder parent) (decodeLongExtendedFragment D parent value) := by
  rcases value with - | ⟨extType, - | ⟨flags, payload⟩⟩
  · exact respects_pure _
  · exact respects_pure _
  · rw [decodeLongExtendedFragment]
    dsimp only
    split
    · exact storesUnder_bufferLongExtended fun buf ↦ storesUnder_appendTop (keyUnder_tup _ _) buf
    · exact storesUnder_bufferLongExtended fun buf ↦ storesUnder_storeInSlot D parent _ buf

/-- Whatever a vendor attribute is read as, it is stored under keys of vendors or as it is. -/
theorem ensures_storeVendorAttribute (D : Option Dictionary) (value : Bytes) (st : DecodeState) :
    Ensures (do (← decodeVendorAttribute D value).forM fun (key, value) ↦ appendTop key value) st
      (fun _ st' ↦ StoresUnder 26 st st') fun _ st' ↦ StoresUnder 26 st st' := by
  refine ensures_bind.2 ((ensures_decodeVendorAttribute_keys value st).imp
    (fun listed st' hst' ↦ ?_) fun _ _ h ↦ h)
  exact ensures_iff_after.2 (trans_of _ hst'.2
    (respects_forM (fun e he ↦ storesUnder_appendTop (hst'.1 e he) e.2) st'))

/-- **An attribute is stored under its own code**, or for a vendor. -/
theorem storesUnder_decodeAvp (D : Option Dictionary) (version : RadiusVersion) (key : UInt8)
    (value : Bytes) : Respects (StoresUnder key.toNat) (decodeAvp D version key value) := by
  have happend := storesUnder_appendTop (keyUnder_int (key.toNat : Int)) value
  unfold decodeAvp
  dsimp only
  split
  · next hvendor =>
    intro st
    rw [hvendor]
    exact ensures_iff_after.1 (ensures_storeVendorAttribute D value st)
  split
  · split
    · have hflag : Respects (StoresUnder key.toNat) (modify fun st ↦
          { st with messageAuthenticator := some true } : DecodeMethod PUnit) :=
        respects_modify fun st ↦ storesUnder_of_eq rfl
      exact hflag.bind fun _ ↦ happend
    · exact respects_pure _
  rcases D with - | D
  · exact happend
  · dsimp only
    split
    · exact storesUnder_inContainer (keyUnder_int _) _
    · exact storesUnder_decodeExtended D _ value
    · exact storesUnder_decodeLongExtendedFragment D _ value
    · exact happend

/-- **A sequence of attributes without a type** leaves nothing under its code. -/
theorem get?_of_forM_decodeAvp {D : Option Dictionary} {version : RadiusVersion} {l : List Avp}
    {n : UInt8} (hn : ∀ a ∈ l, a.code ≠ n) (st : DecodeState) :
    (after (l.forM fun a ↦ decodeAvp D version a.code a.value) st).attrs.get? (.int n.toNat) =
      st.attrs.get? (.int n.toNat) := by
  have hkeep (a : Avp) (ha : a ∈ l) (st : DecodeState) :
      (after (decodeAvp D version a.code a.value) st).attrs.get? (.int n.toNat) =
        st.attrs.get? (.int n.toNat) := by
    refine storesUnder_decodeAvp D version a.code a.value st n.toNat fun h ↦ hn a ha ?_
    exact (UInt8.toNat_inj.1 (Int.ofNat_inj.1 h)).symm
  have hall : Ensures (l.forM fun a ↦ decodeAvp D version a.code a.value) st
      (fun _ st' ↦ st'.attrs.get? (.int n.toNat) = st.attrs.get? (.int n.toNat))
      fun _ st' ↦ st'.attrs.get? (.int n.toNat) = st.attrs.get? (.int n.toNat) :=
    ensures_forM rfl fun a ha st' hst' ↦ ensures_iff_after.2 ((hkeep a ha st').trans hst')
  exact ensures_iff_after.1 hall

end Packet

end Pyrad2
