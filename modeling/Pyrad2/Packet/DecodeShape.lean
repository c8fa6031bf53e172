import Pyrad2.Packet.Avps

/-!
# What the decoder stores

The decoder stores a map under a key exactly if the dictionary declares a container for it, and the
same holds below every map. It decides this by the key and the dictionary alone, so no attribute
ever finds the wrong kind of entry in its place: the decoder raises no exception but `PacketError`.

Along with the shape goes what becomes of the Message-Authenticator, which every other attribute
leaves alone.
-/

namespace Pyrad2

open EStateM

/-! ### Shapes -/

namespace Dictionary

variable (D : Dictionary)

/-- Is the attribute declared as a TLV? -/
def isTlv (attr : Option Attribute) : Bool := attr.any (·.type == .tlv)

mutual

/-- An entry below a map: a map of its own under a TLV, a list otherwise. -/
def EntryShaped (attr : Option Attribute) : Stored Bytes → Prop
  | .vals _ => isTlv attr = false
  | .node m => isTlv attr = true ∧ MapShaped attr m
  termination_by structural s => s

/-- A map under `parent`. -/
def MapShaped (parent : Option Attribute) : SubMap Bytes → Prop
  | [] => True
  | (code, s) :: rest => EntryShaped (D.tlvChildAttr parent code) s ∧ MapShaped parent rest
  termination_by structural l => l

end

variable {D} {parent : Option Attribute} {m : SubMap Bytes} {code : Int} {s : Stored Bytes}

theorem mapShaped_iff :
    D.MapShaped parent m ↔ ∀ e ∈ m, D.EntryShaped (D.tlvChildAttr parent e.1) e.2 := by
  induction m with
  | nil => simp [MapShaped]
  | cons e m ih => simp [MapShaped, ih]

theorem MapShaped.get? (h : D.MapShaped parent m) (hs : Assoc.get? code m = some s) :
    D.EntryShaped (D.tlvChildAttr parent code) s :=
  mapShaped_iff.1 h _ (Assoc.mem_of_get?_eq_some hs)

theorem MapShaped.set (h : D.MapShaped parent m) (code : Int)
    (hs : D.EntryShaped (D.tlvChildAttr parent code) s) :
    D.MapShaped parent (Assoc.set code s m) := by
  induction m with
  | nil => exact ⟨hs, trivial⟩
  | cons e m ih =>
    rw [MapShaped] at h
    rw [Assoc.set]
    split
    · exact ⟨hs, h.2⟩
    · exact ⟨h.1, ih h.2⟩

end Dictionary

namespace Packet

open Dictionary

/-! ### TLV chains -/

section

variable {D : Dictionary} {parent : Option Attribute} {m : SubMap Bytes} {code : Int}

theorem ensures_appendNode (h : D.MapShaped parent m)
    (htlv : isTlv (D.tlvChildAttr parent code) = false) (value : Bytes) :
    Ensures (appendNode code value) m (fun _ m' ↦ D.MapShaped parent m') fun _ _ ↦ False := by
  have hvals (vs : List Bytes) : D.MapShaped parent (Assoc.set code (.vals vs) m) := h.set code htlv
  refine ensures_modifyM (fun m' hm' ↦ ?_) fun e he ↦ ?_
  · rw [extendNode] at hm'
    split at hm' <;> cases hm'
    · exact hvals _
    · exact hvals _
  · rw [extendNode] at he
    split at he
    · cases he
    · cases he
    · next hnode =>
      have hentry := h.get? hnode
      rw [EntryShaped, htlv] at hentry
      cases hentry.1

theorem ensures_inNested (h : D.MapShaped parent m)
    (htlv : isTlv (D.tlvChildAttr parent code) = true) {method : Method (SubMap Bytes) Unit}
    (hmethod : ∀ n, D.MapShaped (D.tlvChildAttr parent code) n →
      Ensures method n (fun _ n' ↦ D.MapShaped (D.tlvChildAttr parent code) n') fun _ _ ↦ False) :
    Ensures (inNested code method) m (fun _ m' ↦ D.MapShaped parent m') fun _ _ ↦ False := by
  rw [inNested, ensures_onPart]
  refine (hmethod _ ?_).imp (fun _ n hn ↦ h.set code ⟨htlv, hn⟩) fun _ _ hfalse ↦ hfalse
  split
  · next hget => exact (h.get? hget).2
  · trivial

/-- A TLV chain is stored in shape, and nothing is raised. -/
theorem ensures_decodeTlvChainInto {fuel : ℕ} {data : Bytes} (hfuel : data.length ≤ fuel)
    (h : D.MapShaped parent m) :
    Ensures (decodeTlvChainInto D fuel parent data) m (fun _ m' ↦ D.MapShaped parent m')
      fun _ _ ↦ False := by
  induction fuel generalizing parent data m with
  | zero =>
    rw [List.length_eq_zero_iff.1 (Nat.le_zero.1 hfuel)]
    exact h
  | succ fuel ih =>
    rcases data with - | ⟨atype, - | ⟨length, rest⟩⟩
    · exact h
    · exact h
    · have hrest : rest.length ≤ fuel := by
        simp only [List.length_cons] at hfuel
        omega
      rw [decodeTlvChainInto]
      split
      · exact h
      -- whatever this item becomes, the rest of the chain follows
      have hthen {method : Method (SubMap Bytes) Unit}
          (hitem : Ensures method m (fun _ m' ↦ D.MapShaped parent m') fun _ _ ↦ False) :
          Ensures (method >>= fun _ ↦
              decodeTlvChainInto D fuel parent (rest.drop (length.toNat - 2))) m
            (fun _ m' ↦ D.MapShaped parent m') fun _ _ ↦ False :=
        ensures_bind.2 (hitem.imp (fun _ m' hm' ↦ ih (by rw [List.length_drop]; omega) hm')
          fun _ _ hfalse ↦ hfalse)
      have hinner : (rest.take (length.toNat - 2)).length ≤ fuel := by
        rw [List.length_take]
        omega
      rcases hchild : D.tlvChildAttr parent atype.toNat with - | child
      · have htlv : isTlv (D.tlvChildAttr parent atype.toNat) = false := by rw [hchild]; rfl
        exact hthen (ensures_appendNode h htlv _)
      · dsimp only
        split
        · next htype =>
          have htlv : isTlv (D.tlvChildAttr parent atype.toNat) = true := by
            rw [hchild]
            simp [isTlv, htype]
          refine hthen (ensures_inNested h htlv fun n hn ↦ ?_)
          rw [hchild] at hn ⊢
          exact ih hinner hn
        · next htype =>
          have htlv : isTlv (D.tlvChildAttr parent atype.toNat) = false := by
            rw [hchild]
            simp [isTlv, htype]
          exact hthen (ensures_appendNode h htlv _)

end

/-! ### The attribute map -/

/-- Does the decoder store a map under the key? -/
def holdsMap (D : Option Dictionary) : Key → Bool
  | .int n => n ≠ 26 && n ≠ 80 && D.any fun D ↦ (D.containerType (.int n)).isSome
  | .tup [vendor, vsaType] => D.any fun D ↦ D.isTlvAttribute (.tup [vendor, vsaType])
  | .tup _ => false

/-- A top-level entry: a map of the declared shape where one belongs, a list elsewhere. -/
def TopShaped (D : Option Dictionary) (key : Key) : Stored Bytes → Prop
  | .vals _ => holdsMap D key = false
  | .node m => holdsMap D key = true ∧ ∀ D' ∈ D, D'.MapShaped (D'.attributeAt? key) m

/-- The attributes are in shape; `mac` is stored under code 80, and `flag` is the flag for it. -/
structure Shaped (D : Option Dictionary) (mac : Option (Stored Bytes)) (flag : Option Bool)
    (st : DecodeState) : Prop where
  shaped : ∀ key s, st.attrs.get? key = some s → TopShaped D key s
  mac : st.attrs.get? (.int 80) = mac
  flag : st.messageAuthenticator = flag

section

variable {D : Option Dictionary} {mac : Option (Stored Bytes)} {flag : Option Bool}
  {st st' : DecodeState} {key : Key}

theorem Shaped.of_eq (h : Shaped D mac flag st) (hattrs : st'.attrs = st.attrs)
    (hflag : st'.messageAuthenticator = st.messageAuthenticator) : Shaped D mac flag st' where
  shaped := by
    rw [hattrs]
    exact h.shaped
  mac := by rw [hattrs, h.mac]
  flag := hflag.trans h.flag

/-- Another key may be assigned an entry of its shape. -/
theorem Shaped.set (h : Shaped D mac flag st) (hkey : key ≠ .int 80) {s : Stored Bytes}
    (hs : TopShaped D key s) : Shaped D mac flag { st with attrs := st.attrs.set key s } where
  shaped := by
    intro k s' hk
    rw [OrderedDict.get?_set] at hk
    split at hk
    · next heq =>
      cases hk
      rw [heq]
      exact hs
    · exact h.shaped k s' hk
  mac := by
    rw [OrderedDict.get?_set_ne _ (Ne.symm hkey)]
    exact h.mac
  flag := h.flag

/-- Appending to a list that is one. -/
theorem ensures_appendTop (h : Shaped D mac flag st) (hkey : key ≠ .int 80)
    (hmap : holdsMap D key = false) (value : Bytes) :
    Ensures (appendTop key value) st (fun _ st' ↦ Shaped D mac flag st') fun _ _ ↦ False := by
  rw [appendTop]
  refine ensures_modifyM (fun st' hst' ↦ ?_) fun e he ↦ ?_
  · rcases hget : st.attrs.get? key with - | ⟨old | m⟩ <;>
      simp only [extendTop, hget] at hst' <;> cases hst'
    · exact h.set hkey hmap
    · exact h.set hkey hmap
  · rcases hget : st.attrs.get? key with - | ⟨old | m⟩ <;>
      simp only [extendTop, hget] at he <;> cases he
    have htop := h.shaped key _ hget
    rw [TopShaped, hmap] at htop
    cases htop.1

end

section

variable {D : Dictionary} {mac : Option (Stored Bytes)} {flag : Option Bool} {st : DecodeState}
  {key : Key}

/-- Working below a map that is one. -/
theorem ensures_inContainer (h : Shaped (some D) mac flag st) (hkey : key ≠ .int 80)
    (hmap : holdsMap (some D) key = true) {method : Method (SubMap Bytes) Unit}
    (hmethod : ∀ m, D.MapShaped (D.attributeAt? key) m →
      Ensures method m (fun _ m' ↦ D.MapShaped (D.attributeAt? key) m') fun _ _ ↦ False) :
    Ensures (inContainer key method) st (fun _ st' ↦ Shaped (some D) mac flag st')
      fun _ _ ↦ False := by
  have hset {m : SubMap Bytes} (hm : D.MapShaped (D.attributeAt? key) m) :
      Shaped (some D) mac flag { st with attrs := st.attrs.set key (.node m) } := by
    refine h.set hkey ⟨hmap, fun D' hD' ↦ ?_⟩
    cases hD'
    exact hm
  rw [inContainer, ensures_bind, ensures_get]
  rcases hget : st.attrs.get? key with - | ⟨old | m⟩
  · rw [ensures_onPart, hget]
    exact (hmethod [] trivial).imp (fun _ _ hm' ↦ hset hm') fun _ _ hfalse ↦ hfalse
  · have htop := h.shaped key _ hget
    rw [TopShaped, hmap] at htop
    cases htop
  · have htop := h.shaped key _ hget
    rw [ensures_onPart, hget]
    exact (hmethod m (htop.2 D rfl)).imp (fun _ _ hm' ↦ hset hm') fun _ _ hfalse ↦ hfalse

theorem ensures_decodeTlvAttribute (h : Shaped (some D) mac flag st) (hkey : key ≠ .int 80)
    (hmap : holdsMap (some D) key = true) (data : Bytes) :
    Ensures (decodeTlvAttribute D key data) st (fun _ st' ↦ Shaped (some D) mac flag st')
      fun _ _ ↦ False :=
  ensures_inContainer h hkey hmap fun _ hm ↦ ensures_decodeTlvChainInto le_rfl hm

end

/-! ### Vendor attributes -/

section

variable {D : Option Dictionary} {mac : Option (Stored Bytes)} {flag : Option Bool}
  {st : DecodeState}

/-- Values that may be appended under their keys. -/
def Listable (D : Option Dictionary) (tlvs : List (Key × Bytes)) : Prop :=
  ∀ e ∈ tlvs, e.1 ≠ .int 80 ∧ holdsMap D e.1 = false

theorem listable_raw (D : Option Dictionary) (data : Bytes) : Listable D [(.int 26, data)] := by
  intro e he
  rw [List.mem_singleton.1 he]
  exact ⟨by simp, rfl⟩

theorem Listable.append {tlvs tlvs' : List (Key × Bytes)} (h : Listable D tlvs)
    (h' : Listable D tlvs') : Listable D (tlvs ++ tlvs') :=
  fun e he ↦ (List.mem_append.1 he).elim (h e) (h' e)

/-- The `try` block stores a TLV or lists a value; without a dictionary it raises. -/
theorem ensures_decodeVendorPayload (h : Shaped D mac flag st) (vendor atype : Int)
    (payload : Bytes) :
    Ensures (decodeVendorPayload D (.tup [vendor, atype]) payload) st
      (fun listed st' ↦ Listable D listed ∧ Shaped D mac flag st')
      fun e st' ↦ e ≠ .divergence ∧ Shaped D mac flag st' := by
  rcases D with - | D
  · exact ⟨by simp, h⟩
  · rw [decodeVendorPayload]
    rcases htlv : D.isTlvAttribute (.tup [vendor, atype])
    · refine ⟨fun e he ↦ ?_, h⟩
      rw [List.mem_singleton.1 he]
      exact ⟨by simp, by simpa [holdsMap] using htlv⟩
    · refine ensures_bind.2 ((ensures_decodeTlvAttribute h (by simp) (by simpa [holdsMap] using htlv)
        payload).imp (fun _ st' hst' ↦ ?_) fun _ _ hfalse ↦ hfalse.elim)
      exact ⟨fun e he ↦ (List.not_mem_nil he).elim, hst'⟩

theorem ensures_bufferContinuation (h : Shaped D mac flag st) (bufKey : Int × Int) (more : Bool)
    (payload : Bytes) :
    Ensures (bufferContinuation bufKey more payload) st (fun _ st' ↦ Shaped D mac flag st')
      fun _ _ ↦ False := by
  rcases more
  · exact h.of_eq rfl rfl
  · exact h.of_eq rfl rfl

/-- A list of values for keys, if there is one. -/
def ListableIfAny (D : Option Dictionary) (r : Option (List (Key × Bytes))) : Prop :=
  ∀ l, r = some l → Listable D l

theorem listableIfAny_none (D : Option Dictionary) : ListableIfAny D none :=
  fun l hl ↦ by cases hl

theorem Listable.some {l : List (Key × Bytes)} (h : Listable D l) : ListableIfAny D (some l) :=
  fun l' hl ↦ by cases hl; exact h

/-- A payload is stored or listed; one that fails makes the whole attribute raw. -/
theorem ensures_catch_decodeVendorPayload (h : Shaped D mac flag st) (vendor atype : Int)
    (payload : Bytes) :
    Ensures (Method.catchException
        (do return some (← decodeVendorPayload D (.tup [vendor, atype]) payload)) (return none)) st
      (fun r st' ↦ ListableIfAny D r ∧ Shaped D mac flag st') fun _ _ ↦ False := by
  refine Method.ensures_catchException (ensures_bind.2 ?_)
  refine (ensures_decodeVendorPayload h vendor atype payload).imp
    (fun listed st' hst' ↦ ⟨hst'.1.some, hst'.2⟩) fun e st' he ↦ ⟨fun h ↦ he.1 h, fun _ ↦ ?_⟩
  exact ⟨listableIfAny_none D, he.2⟩

theorem headerLen_pos (format : VendorFormat) : 0 < format.typeLen + format.lenLen := by
  have := format.typeLen_mem
  omega

theorem ensures_decodeVendorLoop {vendor : Int} {format : VendorFormat} {fuel : ℕ} {rest : Bytes}
    (hfuel : rest.length ≤ fuel) {tlvs : List (Key × Bytes)} (htlvs : Listable D tlvs)
    (h : Shaped D mac flag st) :
    Ensures (decodeVendorLoop D vendor format fuel rest tlvs) st
      (fun r st' ↦ ListableIfAny D r ∧ Shaped D mac flag st') fun _ _ ↦ False := by
  have hpos := headerLen_pos format
  induction fuel generalizing rest tlvs st with
  | zero =>
    rw [List.length_eq_zero_iff.1 (Nat.le_zero.1 hfuel), decodeVendorLoop, List.length_nil,
      if_pos hpos]
    exact ⟨htlvs.some, h⟩
  | succ fuel ih =>
    rw [decodeVendorLoop]
    split
    · split
      · exact ⟨htlvs.some, h⟩
      · exact ⟨listableIfAny_none D, h⟩
    · dsimp only
      generalize (if format.lenLen = 0 then rest.length
        else Bytes.toNatBE ((rest.drop format.typeLen).take format.lenLen)) = n
      split
      · exact ⟨listableIfAny_none D, h⟩
      · next hn =>
        have hdrop : (rest.drop n).length ≤ fuel := by
          rw [List.length_drop]
          omega
        -- a complete payload is stored or listed, and the loop goes on
        have hpayload (payload : Bytes) {st : DecodeState} (h : Shaped D mac flag st) :
            Ensures (decodeVendorRest D vendor format fuel (rest.drop n) tlvs
              (Bytes.toNatBE (rest.take format.typeLen)) payload) st
              (fun r st' ↦ ListableIfAny D r ∧ Shaped D mac flag st') fun _ _ ↦ False := by
          rw [decodeVendorRest]
          refine ensures_bind.2 ((ensures_catch_decodeVendorPayload h _ _ payload).imp
            (fun listed st' hst' ↦ ?_) fun _ _ hfalse ↦ hfalse)
          rcases listed with - | listed
          · exact ⟨listableIfAny_none D, hst'.2⟩
          · have happend := htlvs.append (hst'.1 listed rfl)
            dsimp only
            split
            · exact ⟨happend.some, hst'.2⟩
            · exact ih hdrop happend hst'.2
        split
        · split
          · exact ⟨listableIfAny_none D, h⟩
          · refine ensures_bind.2 ((ensures_bufferContinuation h _ _ _).imp
              (fun payload? st' hst' ↦ ?_) fun _ _ hfalse ↦ hfalse)
            rcases payload? with - | payload
            · exact ih hdrop htlvs hst'
            · exact hpayload payload hst'
        · exact hpayload _ h

theorem ensures_decodeVendorAttribute (h : Shaped D mac flag st) (data : Bytes) :
    Ensures (decodeVendorAttribute D data) st
      (fun listed st' ↦ Listable D listed ∧ Shaped D mac flag st') fun _ _ ↦ False := by
  have hbody (vendor : Int) (format : VendorFormat) (inner : Bytes) :
      Ensures (do
        if inner.length < format.typeLen + format.lenLen then return [(Key.int 26, data)]
        return (← decodeVendorLoop D vendor format inner.length inner []).getD
          [(Key.int 26, data)]) st
        (fun listed st' ↦ Listable D listed ∧ Shaped D mac flag st') fun _ _ ↦ False := by
    split
    · exact ⟨listable_raw D data, h⟩
    · refine ensures_bind.2 ((ensures_decodeVendorLoop le_rfl
        (fun e he ↦ (List.not_mem_nil he).elim) h).imp (fun r st' hst' ↦ ?_)
        fun _ _ hfalse ↦ hfalse)
      rcases r with - | l
      · exact ⟨listable_raw D data, hst'.2⟩
      · exact ⟨hst'.1 l rfl, hst'.2⟩
  rw [decodeVendorAttribute]
  split
  · exact ⟨listable_raw D data, h⟩
  · exact hbody _ _ _

end

/-! ### Extended attributes -/

section

variable {D : Dictionary} {mac : Option (Stored Bytes)} {flag : Option Bool} {st : DecodeState}
  {parent : Int}

theorem isTlvExtendedSlot_eq_isTlv (D : Dictionary) (parent extType : Int) :
    D.isTlvExtendedSlot parent extType =
      isTlv (D.tlvChildAttr (D.attributeAt? (.int parent)) extType) := by
  rw [isTlvExtendedSlot, isSlotOfType]
  rcases D.tlvChildAttr (D.attributeAt? (.int parent)) extType with - | sub <;> rfl

theorem ensures_storeInSlot (h : Shaped (some D) mac flag st) (hparent : parent ≠ 80)
    (hmap : holdsMap (some D) (.int parent) = true) (extType : Int) (payload : Bytes) :
    Ensures (storeInSlot D parent extType payload) st (fun _ st' ↦ Shaped (some D) mac flag st')
      fun _ _ ↦ False := by
  refine ensures_inContainer h (by simpa using hparent) hmap fun m hm ↦ ?_
  rcases htlv : D.isTlvExtendedSlot parent extType
  · rw [isTlvExtendedSlot_eq_isTlv] at htlv
    exact ensures_appendNode hm htlv payload
  · rw [isTlvExtendedSlot_eq_isTlv] at htlv
    exact ensures_inNested hm htlv fun n hn ↦ ensures_decodeTlvChainInto le_rfl hn

theorem ensures_decodeExtended (h : Shaped (some D) mac flag st) (hparent : parent ≠ 80)
    (hmap : holdsMap (some D) (.int parent) = true) (value : Bytes) :
    Ensures (decodeExtended D parent value) st (fun _ st' ↦ Shaped (some D) mac flag st')
      fun _ _ ↦ False := by
  rcases value with - | ⟨extType, payload⟩
  · exact h
  · rw [decodeExtended]
    dsimp only
    split
    · exact ensures_appendTop h (by simp) rfl _
    · exact ensures_storeInSlot h hparent hmap _ _

theorem ensures_bufferLongExtended (h : Shaped (some D) mac flag st) (bufKey : List Int)
    (flags : UInt8) (chunk : Bytes) {finish : Bytes → DecodeMethod Unit}
    (hfinish : ∀ buf st, Shaped (some D) mac flag st →
      Ensures (finish buf) st (fun _ st' ↦ Shaped (some D) mac flag st') fun _ _ ↦ False) :
    Ensures (bufferLongExtended bufKey flags chunk finish) st
      (fun _ st' ↦ Shaped (some D) mac flag st') fun _ _ ↦ False := by
  have hset (buf : Bytes) : Shaped (some D) mac flag
      { st with longExtBuf := st.longExtBuf.set bufKey buf } := h.of_eq rfl rfl
  rw [bufferLongExtended]
  refine ensures_bind.2 (ensures_get.2 (ensures_bind.2 (ensures_modify.2 ?_)))
  split
  · refine ensures_bind.2 ((hfinish _ _ (hset _)).imp (fun _ st' hst' ↦ ?_)
      fun _ _ hfalse ↦ hfalse)
    exact hst'.of_eq rfl rfl
  · exact hset _

theorem ensures_decodeLongExtendedFragment (h : Shaped (some D) mac flag st) (hparent : parent ≠ 80)
    (hmap : holdsMap (some D) (.int parent) = true) (value : Bytes) :
    Ensures (decodeLongExtendedFragment D parent value) st
      (fun _ st' ↦ Shaped (some D) mac flag st') fun _ _ ↦ False := by
  rcases value with - | ⟨extType, - | ⟨flags, payload⟩⟩
  · exact h
  · exact h
  · rw [decodeLongExtendedFragment]
    dsimp only
    split
    · exact ensures_bufferLongExtended h _ _ _ fun buf st hst ↦
        ensures_appendTop hst (by simp) rfl buf
    · exact ensures_bufferLongExtended h _ _ _ fun buf st hst ↦
        ensures_storeInSlot hst hparent hmap _ buf

end

/-! ### The body -/

/-- What stands under code 80 when these Message-Authenticators were decoded. -/
def macEntry : List Bytes → Option (Stored Bytes)
  | [] => none
  | macs => some (.vals macs)

/-- The values of the Message-Authenticators in a sequence of attributes. -/
def macsOf (l : List Avp) : List Bytes := (l.filter Avp.isMac).map Avp.value

section

variable {D : Option Dictionary} {mac : Option (Stored Bytes)} {macs : List Bytes}
  {flag : Option Bool} {st : DecodeState}

theorem toNat_ne_eighty {key : UInt8} (hkey : key ≠ 80) : (key.toNat : Int) ≠ 80 := by
  intro h
  exact hkey (UInt8.toNat_inj.1 (Int.ofNat_inj.1 h))

/-- Under a plain code the decoder stores a map exactly if the dictionary has a container there. -/
theorem holdsMap_toNat (D : Dictionary) {key : UInt8} (h26 : key ≠ 26) (h80 : key ≠ 80) :
    holdsMap (some D) (.int key.toNat) = (D.containerType (.int key.toNat)).isSome := by
  have h26' : (key.toNat : Int) ≠ 26 := fun h ↦ h26 (UInt8.toNat_inj.1 (Int.ofNat_inj.1 h))
  simp [holdsMap, h26', toNat_ne_eighty h80]

/-- **Any other attribute** is stored in shape and leaves the Message-Authenticator alone. -/
theorem ensures_decodeAvp (h : Shaped D mac flag st) (version : RadiusVersion) {key : UInt8}
    (hkey : key ≠ 80) (value : Bytes) :
    Ensures (decodeAvp D version key value) st (fun _ st' ↦ Shaped D mac flag st')
      fun _ _ ↦ False := by
  have hcode : Key.int key.toNat ≠ .int 80 := by simpa using toNat_ne_eighty hkey
  unfold decodeAvp
  dsimp only
  split
  · refine ensures_bind.2 ((ensures_decodeVendorAttribute h value).imp (fun listed st' hst' ↦ ?_)
      fun _ _ hfalse ↦ hfalse)
    refine ensures_forM hst'.2 fun e he s hs ↦ ?_
    obtain ⟨hne, hmap⟩ := hst'.1 e he
    exact ensures_appendTop hs hne hmap _
  · next h26 =>
    rcases D with - | D
    · exact ensures_appendTop h hcode (by simp [holdsMap]) value
    · have hmap := holdsMap_toNat D h26 hkey
      dsimp only
      rcases htype : D.containerType (.int key.toNat) with - | type
      · rw [htype] at hmap
        exact ensures_appendTop h hcode hmap value
      · rw [htype] at hmap
        have hcontainer := isContainer_of_containerType htype
        rcases type <;> try cases hcontainer
        · exact ensures_decodeTlvAttribute h hcode hmap value
        · exact ensures_decodeExtended h (toNat_ne_eighty hkey) hmap value
        · exact ensures_decodeLongExtendedFragment h (toNat_ne_eighty hkey) hmap value

/-- The decoder starts with nothing stored. -/
theorem shaped_initial (D : Option Dictionary) (flag : Option Bool) :
    Shaped D (macEntry []) flag { messageAuthenticator := flag } where
  shaped := by
    intro key s hs
    rw [OrderedDict.get?_empty] at hs
    cases hs
  mac := rfl
  flag := rfl

theorem macEntry_append (macs : List Bytes) (value : Bytes) :
    macEntry (macs ++ [value]) = some (.vals (macs ++ [value])) := by
  rcases macs <;> rfl

/-- **A Message-Authenticator** is appended to those before it, and sets the flag. -/
theorem ensures_decodeAvp_mac (h : Shaped D (macEntry macs) flag st) (value : Bytes) :
    Ensures (decodeAvp D .v1_0 80 value) st
      (fun _ st' ↦ Shaped D (macEntry (macs ++ [value])) (some true) st') fun _ _ ↦ False := by
  have hextend : extendTop (.int 80) [value] st.attrs =
      .ok (st.attrs.set (.int 80) (.vals (macs ++ [value]))) := by
    rw [extendTop, h.mac]
    rcases macs with - | ⟨a, macs⟩ <;> rfl
  have hset : Shaped D (macEntry (macs ++ [value])) (some true)
      { st with
        attrs := st.attrs.set (.int 80) (.vals (macs ++ [value]))
        messageAuthenticator := some true } := by
    refine ⟨fun k s hk ↦ ?_, ?_, rfl⟩
    · rw [OrderedDict.get?_set] at hk
      split at hk
      · next heq =>
        cases hk
        rw [heq]
        simp [TopShaped, holdsMap]
      · exact h.shaped k s hk
    · rw [OrderedDict.get?_set_self, macEntry_append]
  have hrun : (decodeAvp D .v1_0 80 value).run st = .ok ()
      { st with
        attrs := st.attrs.set (.int 80) (.vals (macs ++ [value]))
        messageAuthenticator := some true } := by
    have happend : (appendTop (.int 80) value).run { st with messageAuthenticator := some true } =
        .ok () { st with
          attrs := st.attrs.set (.int 80) (.vals (macs ++ [value]))
          messageAuthenticator := some true } := by
      rw [appendTop, run_modifyM]
      simp only [hextend]
      rfl
    exact happend
  exact .of_ok hrun hset

/-- Decoding a sequence of attributes keeps the shape and collects the Message-Authenticators. -/
theorem ensures_forM_decodeAvp (l : List Avp) (h : Shaped D (macEntry macs) flag st) :
    Ensures (l.forM fun a ↦ decodeAvp D .v1_0 a.code a.value) st
      (fun _ st' ↦ Shaped D (macEntry (macs ++ macsOf l))
        (if macsOf l = [] then flag else some true) st') fun _ _ ↦ False := by
  induction l generalizing macs flag st with
  | nil =>
    rw [macsOf, List.filter_nil, List.map_nil, List.append_nil, if_pos rfl]
    exact h
  | cons a l ih =>
    refine ensures_bind.2 ?_
    by_cases hcode : a.code = 80
    · have hmacs : macsOf (a :: l) = a.value :: macsOf l := by
        simp [macsOf, Avp.isMac, hcode]
      dsimp only
      rw [hcode, hmacs, if_neg (List.cons_ne_nil _ _)]
      refine (ensures_decodeAvp_mac h a.value).imp (fun _ st' hst' ↦ ?_) fun _ _ hfalse ↦ hfalse
      refine (ih hst').imp (fun _ st'' hst'' ↦ ?_) fun _ _ hfalse ↦ hfalse
      rwa [List.append_assoc, ite_self] at hst''
    · have hmacs : macsOf (a :: l) = macsOf l := by
        simp [macsOf, Avp.isMac, hcode]
      rw [hmacs]
      exact (ensures_decodeAvp h .v1_0 hcode a.value).imp (fun _ _ hst' ↦ ih hst')
        fun _ _ hfalse ↦ hfalse

/-- Under RADIUS/1.1 a Message-Authenticator is skipped. -/
theorem decodeAvp_mac_v11 (D : Option Dictionary) (value : Bytes) :
    decodeAvp D .v1_1 80 value = pure () := rfl

/-- Under either version an attribute leaves the map in shape, and nothing is raised. -/
theorem ensures_decodeAvp_any (h : Shaped D (macEntry macs) flag st) (version : RadiusVersion)
    (key : UInt8) (value : Bytes) :
    Ensures (decodeAvp D version key value) st
      (fun _ st' ↦ ∃ macs flag, Shaped D (macEntry macs) flag st') fun _ _ ↦ False := by
  by_cases hkey : key = 80
  · rw [hkey]
    rcases version
    · exact (ensures_decodeAvp_mac h value).imp (fun _ _ hst' ↦ ⟨_, _, hst'⟩) fun _ _ hfalse ↦ hfalse
    · rw [decodeAvp_mac_v11]
      exact ⟨macs, flag, h⟩
  · exact (ensures_decodeAvp h version hkey value).imp (fun _ _ hst' ↦ ⟨macs, flag, hst'⟩)
      fun _ _ hfalse ↦ hfalse

/-- **The decoder raises nothing but `PacketError`**, and what it stores is in shape. -/
theorem ensures_decodeAvps (version : RadiusVersion) {fuel : ℕ} {body : Bytes}
    (hfuel : body.length ≤ fuel) (h : Shaped D (macEntry macs) flag st) :
    Ensures (decodeAvps D version fuel body) st
      (fun _ st' ↦ ∃ macs flag, Shaped D (macEntry macs) flag st')
      fun e _ ↦ e.isPacketError = true := by
  induction fuel generalizing body macs flag st with
  | zero =>
    rw [List.length_eq_zero_iff.1 (Nat.le_zero.1 hfuel)]
    exact ⟨macs, flag, h⟩
  | succ fuel ih =>
    rcases body with - | ⟨key, - | ⟨attrlen, rest⟩⟩
    · exact ⟨macs, flag, h⟩
    · exact rfl
    · have hrest : (rest.drop (attrlen.toNat - 2)).length ≤ fuel := by
        simp only [List.length_cons] at hfuel
        rw [List.length_drop]
        omega
      rw [decodeAvps]
      split
      · exact rfl
      · refine ensures_bind.2 ((ensures_decodeAvp_any h version key _).imp (fun _ st' hst' ↦ ?_)
          fun _ _ hfalse ↦ hfalse.elim)
        obtain ⟨macs', flag', hst'⟩ := hst'
        exact ih hrest hst'

end

end Packet

end Pyrad2
