import Pyrad2.Packet.RoundTrip

/-!
# Plain groups on the wire and back

What a list of values under a standard or a vendor key goes out as, and what is read back.

Every value goes out in an attribute of its own, with two exceptions: several values of an `array`
attribute are packed into one, and a long value of a `concat` attribute is cut into pieces. Two
passes over the decoded lists undo both. The round trip therefore comes down to two questions:
whether each of the values that go out fits an attribute, and whether the two passes give back the
list.
-/

namespace Pyrad2

open EStateM

namespace Packet

/-! ### What goes out -/

/-- The values that go out, one in an attribute. -/
def wireValues (D : Dictionary) (key : Key) (vs : List Bytes) : List Bytes :=
  if D.isArrayAttribute key = true ∧ vs.length > 1 then [vs.flatten]
  else if D.isConcatAttribute key then
    vs.flatMap fun v ↦ if v.length > 253 then Bytes.chunksOf 253 v else [v]
  else vs

section

variable {D : Dictionary} {version : RadiusVersion} {p : Packet} {key : Key}

theorem flatten_mapM_singleton {β : Type} (b : β) (f : β → Except Exn Bytes) :
    (do return (← [b].mapM f).flatten) = f b := by
  rw [List.mapM_cons]
  rcases f b with e | out
  · rfl
  · show Except.ok [out].flatten = Except.ok out
    rw [List.flatten_singleton]

/-- The encodings for all elements of all lists. -/
theorem flatten_mapM_flatMap {α β : Type} {l : List α} {g : α → List β} {f : β → Except Exn Bytes} :
    (do return (← (l.flatMap g).mapM f).flatten) =
      (do return (← l.mapM fun a ↦ do return (← (g a).mapM f).flatten).flatten) := by
  induction l with
  | nil => rfl
  | cons a l ih =>
    have hsplit (l l' : List β) : (do return (← (l ++ l').mapM f).flatten) = (do
        let first ← (do return (← l.mapM f).flatten)
        let rest ← (do return (← l'.mapM f).flatten)
        return first ++ rest) := by
      rw [List.mapM_append]
      rcases l.mapM f with e | first
      · rfl
      · rcases l'.mapM f with e | rest
        · rfl
        · show Except.ok (first ++ rest).flatten = Except.ok (first.flatten ++ rest.flatten)
          rw [List.flatten_append]
    have hcombine (x : Except Exn Bytes) (y : Except Exn (List Bytes)) : (do
        let first ← x
        let rest ← (do return (← y).flatten)
        return first ++ rest) = (do
        return (← (do
          let first ← x
          let rest ← y
          return first :: rest)).flatten) := by
      rcases x with e | first
      · rfl
      · rcases y with e | rest <;> rfl
    rw [List.flatMap_cons, hsplit, ih, List.mapM_cons]
    exact hcombine _ _

theorem containerType_eq (hdict : p.dict = some D) (key : Key) :
    p.containerType key = D.containerType key := by
  rw [containerType, hdict]
  rfl

/-- One value: a long one of a `concat` attribute in pieces. -/
theorem encodePlain_bytes (hdict : p.dict = some D) (key : Key) (v : Bytes) :
    p.encodePlain key (.bytes v) = (do
      return (← (if D.isConcatAttribute key then
          if v.length > 253 then Bytes.chunksOf 253 v else [v]
        else [v]).mapM fun w ↦ p.encodeAttribute key (.bytes w)).flatten) := by
  have hconcat : p.isConcatAttribute key = D.isConcatAttribute key := by
    rw [isConcatAttribute, hdict]
    rfl
  have hsingle := flatten_mapM_singleton v fun w ↦ p.encodeAttribute key (.bytes w)
  rw [encodePlain, hconcat]
  split
  · rw [PyVal.len_bytes, Except.bind_of_ok]
    dsimp only
    split
    · next hlong =>
      have hne : v ≠ [] := by
        rintro rfl
        exact absurd hlong (by decide)
      rw [splitIntoChunks, if_neg hne, Except.bind_of_ok, mapM_map_bytes]
    · exact hsingle.symm
  · exact hsingle.symm

/-- **A plain group** is the encoding of the values that go out. -/
theorem encodeAvpGroup_list (hdict : p.dict = some D) (hkey : ListKey D version key)
    (vs : List Bytes) :
    p.encodeAvpGroup key (.vals (vs.map .bytes)) = (do
      return (← (wireValues D key vs).mapM fun v ↦ p.encodeAttribute key (.bytes v)).flatten) := by
  have harray : (p.isArrayAttribute key && decide ((vs.map PyVal.bytes).length > 1)) =
      decide (D.isArrayAttribute key = true ∧ vs.length > 1) := by
    rw [isArrayAttribute, hdict, Bool.decide_and, List.length_map]
    show (D.isArrayAttribute key && _) = _
    rw [Bool.decide_eq_true]
  have hgroup : p.encodeAvpGroup key (.vals (vs.map .bytes)) = (do
      let datalst := vs.map PyVal.bytes
      if p.isArrayAttribute key && datalst.length > 1 then
        let packed ← datalst.mapM PyVal.asBytes
        return ← p.encodeAttribute key (.bytes packed.flatten)
      return (← datalst.mapM (p.encodePlain key)).flatten) := by
    rw [encodeAvpGroup_of_ne p hkey.notEvs, containerType_eq hdict]
    split
    · next h => exact absurd h hkey.notTlv
    · next h => exact absurd h hkey.notExtended
    · next h => exact absurd h hkey.notLongExtended
    · rfl
  rw [hgroup, wireValues]
  dsimp only
  rw [harray]
  by_cases h : D.isArrayAttribute key = true ∧ vs.length > 1
  · have hpacked : (vs.map PyVal.bytes).mapM PyVal.asBytes = .ok vs := by
      have hall := Except.mapM_eq_ok (f := fun v ↦ (PyVal.bytes v).asBytes) (g := fun v ↦ v) (l := vs)
        fun v _ ↦ rfl
      rw [mapM_map_bytes, hall, List.map_id']
    have hsingle := flatten_mapM_singleton vs.flatten fun v ↦ p.encodeAttribute key (.bytes v)
    rw [if_pos (decide_eq_true h), if_pos h, hpacked, Except.bind_of_ok, hsingle]
  · rw [if_neg (by rwa [decide_eq_true_iff]), if_neg h, mapM_map_bytes]
    simp only [encodePlain_bytes hdict]
    rw [← flatten_mapM_flatMap]
    split
    · rfl
    · rw [List.flatMap_singleton']

/-- Values that fit are delivered. -/
theorem exists_delivers_list (hdict : p.dict = some D) (hkey : ListKey D version key)
    {vs : List Bytes} (hfits : ∀ v ∈ wireValues D key vs, AttributeFits (some D) key v.length) :
    ∃ l, p.encodeAvpGroup key (.vals (vs.map .bytes)) = .ok (Avp.join l) ∧
      Delivers D version key (wireValues D key vs) l := by
  rw [encodeAvpGroup_list hdict hkey]
  exact exists_delivers_mapM fun v hv ↦ exists_delivers hdict hkey (hfits v hv)

theorem wireValues_ne_nil {vs : List Bytes} (h : vs ≠ []) : wireValues D key vs ≠ [] := by
  obtain ⟨v, vs, rfl⟩ := List.exists_cons_of_ne_nil h
  rw [wireValues]
  split
  · exact List.cons_ne_nil _ _
  · split
    · rw [List.flatMap_cons]
      refine List.append_ne_nil_of_left_ne_nil ?_ _
      split
      · next hlong =>
        have hne : v ≠ [] := by
          rintro rfl
          exact absurd hlong (by decide)
        rw [Bytes.chunksOf_of_ne_nil (by decide) hne]
        exact List.cons_ne_nil _ _
      · exact List.cons_ne_nil _ _
    · exact h

/-! ### Round trips -/

/-- The same body is not read back in two ways. -/
theorem Restores.unique {body : Bytes} {stored stored' : Key → Option (Stored Bytes)}
    (h : Restores D version body stored) (h' : Restores D version body stored') :
    stored = stored' := by
  obtain ⟨st, hrun, hst, -⟩ := h.exists_run none
  obtain ⟨st', hrun', hst', -⟩ := h'.exists_run none
  rw [hrun] at hrun'
  cases hrun'
  exact funext fun key ↦ (hst key).symm.trans (hst' key)

/-- What a packet stores that holds a single group. -/
def onlyAt (key : Key) (stored : Stored Bytes) (key' : Key) : Option (Stored Bytes) :=
  if key' = key then some stored else none

/-- The packet is encoded, and reading the attributes back gives the values under the key and nothing
else. -/
def RoundTrips (p : Packet) (D : Dictionary) (version : RadiusVersion) (key : Key)
    (vs : List Bytes) : Prop :=
  ∃ body, p.encodeStored [] = .ok body ∧ Restores D version body (onlyAt key (.vals vs))

/-- A packet with a single group. -/
structure HoldsOnly (p : Packet) (D : Dictionary) (key : Key) (stored : Stored PyVal) : Prop where
  dict : p.dict = some D
  attrs : p.attrs = OrderedDict.set ∅ key stored

theorem HoldsOnly.encodeStored_eq {stored : Stored PyVal} (h : HoldsOnly p D key stored) :
    p.encodeStored [] =
      if D.isVirtualAttribute key then .ok [] else p.encodeAvpGroup key stored := by
  have hvirtual : p.isVirtualAttribute key = D.isVirtualAttribute key := by
    rw [isVirtualAttribute, h.dict]
    rfl
  have hentries : p.attrs.entries = [(key, stored)] := by
    rw [h.attrs]
    rfl
  rw [Packet.encodeStored, hentries, flatten_mapM_singleton]
  simp only [List.not_mem_nil, false_or, hvirtual]

/-- A standard key, or one of a vendor. Type 26 on the wire is the wrapper of the latter. -/
def IsAttributeKey : Key → Prop
  | .int n => n ≠ 26
  | .tup [_, _] => True
  | .tup _ => False

theorem IsAttributeKey.ne_vendor (h : IsAttributeKey key) : key ≠ .int 26 := by
  rintro rfl
  exact h rfl

theorem IsAttributeKey.ne_evs (h : IsAttributeKey key) : ∀ a b c d, key ≠ .tup [a, b, c, d] := by
  rintro a b c d rfl
  exact h

/-- Attributes of one key alone. -/
theorem restores_only {vs : List Bytes} {l : List Avp} (h : Delivers D version key vs l)
    (hvs : vs ≠ []) : Restores D version (Avp.join l) (onlyAt key (finishList D key vs)) := by
  let part : Key → List Avp := fun k ↦ if k = key then l else []
  have hinterleaves : Interleaves part l := by
    have hflat : l = [key].flatMap part := by
      rw [List.flatMap_singleton]
      exact (if_pos rfl).symm
    rw [hflat]
    exact Interleaves.flatMap (List.nodup_singleton key) fun k hk ↦
      if_neg fun heq ↦ hk (List.mem_singleton.2 heq)
  have hget (k : Key) : (OrderedDict.set ∅ key vs).get? k = if k = key then some vs else none :=
    OrderedDict.get?_set ..
  have hrestores : Restores D version (Avp.join l) fun k ↦
      ((OrderedDict.set ∅ key vs).get? k).map (finishList D k) :=
    restores_of_interleaves (fun k ws hws ↦ ?_) (fun k hnone ↦ ?_) hinterleaves
  · refine hrestores.congr fun k ↦ ?_
    rw [hget, onlyAt]
    split
    · next heq =>
      rw [heq]
      rfl
    · rfl
  · rw [hget] at hws
    split at hws
    · next heq =>
      cases hws
      subst heq
      rw [show part k = l from if_pos rfl]
      exact ⟨hvs, h⟩
    · cases hws
  · rw [hget] at hnone
    split at hnone
    · cases hnone
    · next hne => exact if_neg hne

theorem restores_nil (D : Dictionary) (version : RadiusVersion) :
    Restores D version [] fun _ ↦ none :=
  ⟨fun _ ↦ ⟨_, rfl, fun _ ↦ rfl, rfl, rfl⟩⟩

/-- Type 80 is dropped under RADIUS/1.1. -/
theorem restores_dropped {l : List Avp} (h : ∀ a ∈ l, a.code = 80) :
    Restores D .v1_1 (Avp.join l) fun _ ↦ none := by
  have hskip : (l.forM fun a ↦ decodeAvp (some D) .v1_1 a.code a.value) = pure () := by
    induction l with
    | nil => rfl
    | cons a l ih =>
      have ha : decodeAvp (some D) .v1_1 a.code a.value = pure () := by
        rw [h a (by simp)]
        rfl
      show (decodeAvp (some D) .v1_1 a.code a.value >>= fun _ ↦ _) = _
      rw [ha, pure_bind]
      exact ih fun b hb ↦ h b (by simp [hb])
  refine ⟨fun flag ↦ ⟨{ messageAuthenticator := flag }, ?_, fun _ ↦ rfl, rfl, rfl⟩⟩
  rw [decodeAvps_join _ _ le_rfl, hskip]
  rfl

/-- A list under a key that calls for a map is not encoded. -/
theorem listKey_of_encodes (hdict : p.dict = some D) (hkey : IsAttributeKey key) {vs : List PyVal}
    {body : Bytes} (h : p.encodeAvpGroup key (.vals vs) = .ok body) : ListKey D .v1_0 key := by
  rw [encodeAvpGroup_of_ne p hkey.ne_evs, containerType_eq hdict] at h
  have hnot {type : Datatype} (htype : type = .tlv ∨ type = .extended ∨ type = .longExtended) :
      D.containerType key ≠ some type := by
    intro heq
    rw [heq] at h
    rcases htype with rfl | rfl | rfl
    · obtain ⟨attr, -, h⟩ := Except.bind_eq_ok_iff.1 h
      cases h
    · cases h
    · cases h
  exact {
    notTlv := hnot (.inl rfl)
    notExtended := hnot (.inr (.inl rfl))
    notLongExtended := hnot (.inr (.inr rfl))
    notVendor := hkey.ne_vendor
    notDropped := fun _ ↦ by decide
    notEvs := hkey.ne_evs }

theorem ListKey.of_version (h : ListKey D .v1_0 key) (hdropped : key = .int 80 → version ≠ .v1_1) :
    ListKey D version key := { h with notDropped := hdropped }

/-- **When a group of values makes the round trip.** -/
theorem roundTrips_iff {vs : List Bytes} (h : HoldsOnly p D key (.vals (vs.map .bytes)))
    (hkey : IsAttributeKey key) (hvs : vs ≠ []) :
    RoundTrips p D version key vs ↔
      ListKey D version key ∧ D.isVirtualAttribute key = false ∧
        (∀ v ∈ wireValues D key vs, AttributeFits (some D) key v.length) ∧
          finishList D key (wireValues D key vs) = .vals vs := by
  rw [RoundTrips, h.encodeStored_eq]
  constructor
  · rintro ⟨body, hbody, hrestores⟩
    -- whatever leaves nothing under the key is no round trip
    have hempty : ¬ Restores D version body fun _ ↦ none := by
      intro hnone
      have hvals := congrFun (hrestores.unique hnone) key
      rw [onlyAt, if_pos rfl] at hvals
      cases hvals
    split at hbody
    · cases hbody
      exact absurd (restores_nil D version) hempty
    next hvirtual =>
    have hlist := listKey_of_encodes h.dict hkey hbody
    have hencode := hbody
    rw [encodeAvpGroup_list h.dict hlist] at hencode
    have hdropped : key = .int 80 → version ≠ .v1_1 := by
      rintro rfl rfl
      obtain ⟨l, rfl, hcode⟩ := (emits_flatten_mapM fun v _ ↦
        emits_encodeAttribute p (.int 80) (.bytes v)).exists_avps body hencode
      refine hempty (restores_dropped fun a ha ↦ ?_)
      exact UInt8.toNat_inj.1 (Int.ofNat_inj.1 (hcode a ha))
    have hfits : ∀ v ∈ wireValues D key vs, AttributeFits (some D) key v.length := by
      intro v hv
      have hsucceeds := Except.succeeds_flatten_mapM_iff.1 ⟨body, hencode⟩ v hv
      rw [succeeds_encodeAttribute_iff, h.dict] at hsucceeds
      exact hsucceeds
    refine ⟨hlist.of_version hdropped, Bool.eq_false_iff.2 hvirtual, hfits, ?_⟩
    obtain ⟨l, hl, hdelivers⟩ := exists_delivers_list h.dict (hlist.of_version hdropped) hfits
    rw [hbody] at hl
    cases hl
    have hvals := congrFun (hrestores.unique (restores_only hdelivers (wireValues_ne_nil hvs))) key
    rw [onlyAt, onlyAt, if_pos rfl, if_pos rfl] at hvals
    exact (Option.some.inj hvals).symm
  · rintro ⟨hlist, hvirtual, hfits, hfinish⟩
    obtain ⟨l, hl, hdelivers⟩ := exists_delivers_list h.dict hlist hfits
    refine ⟨Avp.join l, by rw [hvirtual, if_neg Bool.false_ne_true, hl], ?_⟩
    rw [← hfinish]
    exact restores_only hdelivers (wireValues_ne_nil hvs)

end

/-- An array of integers; a `concat` attribute of a vendor with the default format, and a plain one of
a vendor with a continuation byte. -/
def groupsDictionary : Dictionary where
  heap :=
    [{ name := "Counters", code := 5, type := .integer, array := true },
     { name := "Example-Blob", code := 1, type := .octets, vendor := "Example", concat := true },
     { name := "WiMAX-Capability", code := 1, type := .octets, vendor := "WiMAX" }]
  attributes := ((OrderedDict.set ∅ "Counters" 0).set "Example-Blob" 1).set "WiMAX-Capability" 2
  attrindex := ((BiDict.empty.add "Counters" (.int 5)).add "Example-Blob" (.tup [9, 1])).add
    "WiMAX-Capability" (.tup [24757, 1])
  vendors := ((BiDict.empty.add "" 0).add "Example" 9).add "WiMAX" 24757
  vendorFormats := OrderedDict.set ∅ 24757
    ⟨1, 1, true, vendorFormatDefault.typeLen_mem, vendorFormatDefault.lenLen_le⟩

/-- A packet with a single group. -/
def groupsPacket (key : Key) (vs : List Bytes) : Packet where
  dict := some groupsDictionary
  attrs := OrderedDict.set ∅ key (.vals (vs.map .bytes))

theorem holdsOnly_groupsPacket (key : Key) (vs : List Bytes) :
    HoldsOnly (groupsPacket key vs) groupsDictionary key (.vals (vs.map .bytes)) := ⟨rfl, rfl⟩

section

variable {D : Dictionary} {version : RadiusVersion} {p : Packet} {key : Key}

/-! ### Packed lists -/

theorem length_flatten_of_forall {w : ℕ} {vs : List Bytes} (h : ∀ v ∈ vs, v.length = w) :
    vs.flatten.length = vs.length * w := by
  induction vs with
  | nil => simp
  | cons v vs ih =>
    rw [List.flatten_cons, List.length_append, h v (by simp), ih fun u hu ↦ h u (by simp [hu]),
      List.length_cons, Nat.succ_mul, Nat.add_comm]

theorem chunksOf_flatten {w : ℕ} (hw : 0 < w) {vs : List Bytes} (h : ∀ v ∈ vs, v.length = w) :
    Bytes.chunksOf w vs.flatten = vs := by
  induction vs with
  | nil => exact Bytes.chunksOf_nil w
  | cons v vs ih =>
    rw [List.flatten_cons, Bytes.chunksOf_append hw (h v (by simp)), ih fun u hu ↦ h u (by simp [hu])]

theorem arrayTypeSize_pos {type : Datatype} {w : ℕ} (h : arrayTypeSize type = some w) :
    0 < w ∧ w ≤ 16 := by
  rcases type <;> cases h <;> decide

/-- A packed list is taken apart into its values. -/
theorem splitPacked_flatten {w : ℕ} (hw : 0 < w) {vs : List Bytes} (hvs : vs ≠ [])
    (h : ∀ v ∈ vs, v.length = w) : splitPacked w vs.flatten = vs := by
  have hlength := length_flatten_of_forall h
  have hne : vs.flatten ≠ [] := by
    rw [← List.length_pos_iff, hlength]
    exact Nat.mul_pos (List.length_pos_iff.2 hvs) hw
  have hmod : vs.flatten.length % w = 0 := by rw [hlength, Nat.mul_mod_left]
  rw [splitPacked, if_neg (not_or.2 ⟨hne, not_not.2 hmod⟩), chunksOf_flatten hw h]

/-- The second pass on a list. -/
theorem splitArray_vals {attr : Attribute} (hattr : D.attributeAt? key = some attr)
    (packed : List Bytes) :
    splitArray D key (.vals packed) =
      if attr.array then
        match arrayTypeSize attr.type with
        | some chunkSize => .vals (packed.flatMap (splitPacked chunkSize))
        | none => .vals packed
      else .vals packed := by
  rcases hsize : arrayTypeSize attr.type with - | chunkSize
  · simp [splitArray, hattr, hsize]
  · simp [splitArray, hattr, hsize]

/-- **Arrays make the round trip** exactly if the packed list fits one attribute, or can be continued,
and the attribute is put out and taken in at all. -/
theorem array_roundTrips_iff {attr : Attribute} {w : ℕ} {vs : List Bytes}
    (h : HoldsOnly p D key (.vals (vs.map .bytes))) (hkey : IsAttributeKey key)
    (hattr : D.attributeAt? key = some attr) (harray : attr.array = true)
    (hwidth : arrayTypeSize attr.type = some w) (hvs : vs ≠ []) (hlength : ∀ v ∈ vs, v.length = w) :
    RoundTrips p D version key vs ↔
      attr.virtual = false ∧ (key = .int 80 → version ≠ .v1_1) ∧
        AttributeFits (some D) key (vs.length * w) := by
  obtain ⟨hw, hle⟩ := arrayTypeSize_pos hwidth
  have hflags : D.isVirtualAttribute key = attr.virtual ∧ D.isArrayAttribute key = true := by
    rw [Dictionary.isVirtualAttribute, Dictionary.isArrayAttribute, Dictionary.flagAt,
      Dictionary.flagAt, hattr]
    exact ⟨rfl, harray⟩
  have hcontainer (type : Datatype) (htype : type = .tlv ∨ type = .extended ∨ type = .longExtended) :
      D.containerType key ≠ some type := by
    rw [Dictionary.containerType, hattr]
    dsimp only
    split
    · rintro ⟨⟩
      rcases htype with h | h | h <;> rw [h] at hwidth <;> cases hwidth
    · exact fun h ↦ by cases h
  -- one value goes out, and it is all of the list
  have hwire : wireValues D key vs = [vs.flatten] := by
    rw [wireValues]
    split
    · rfl
    · next hsingle =>
      obtain ⟨v, rfl⟩ : ∃ v, vs = [v] := by
        rcases vs with - | ⟨v, - | ⟨u, vs⟩⟩
        · exact absurd rfl hvs
        · exact ⟨v, rfl⟩
        · exact absurd ⟨hflags.2, by simp⟩ hsingle
      have hshort : ¬ v.length > 253 := by
        have := hlength v (by simp)
        omega
      simp [hshort]
  have hfinish : finishList D key [vs.flatten] = .vals vs := by
    have hmerge : mergeConcat D key (.vals [vs.flatten]) = .vals [vs.flatten] := by
      simp [mergeConcat]
    rw [finishList, hmerge, splitArray_vals hattr, if_pos harray, hwidth]
    dsimp only
    rw [List.flatMap_singleton, splitPacked_flatten hw hvs hlength]
  rw [roundTrips_iff h hkey hvs, hwire, hflags.1]
  simp only [List.mem_singleton, forall_eq, length_flatten_of_forall hlength, hfinish, and_true]
  constructor
  · rintro ⟨hlist, hvirtual, hfits⟩
    exact ⟨hvirtual, hlist.notDropped, hfits⟩
  · rintro ⟨hvirtual, hdropped, hfits⟩
    refine ⟨?_, hvirtual, hfits⟩
    exact {
      notTlv := hcontainer .tlv (.inl rfl)
      notExtended := hcontainer .extended (.inr (.inl rfl))
      notLongExtended := hcontainer .longExtended (.inr (.inr rfl))
      notVendor := hkey.ne_vendor
      notDropped := hdropped
      notEvs := hkey.ne_evs }

end

/-- Sixty-three numbers fit. -/
theorem array_roundTrips_counters :
    RoundTrips (groupsPacket (.int 5) (List.replicate 63 [0, 0, 0, 1])) groupsDictionary .v1_0
      (.int 5) (List.replicate 63 [0, 0, 0, 1]) := by
  have hattr : groupsDictionary.attributeAt? (.int 5) = some groupsDictionary.heap[0] := by rfl
  have hkey : IsAttributeKey (.int 5) := show (5 : Int) ≠ 26 by decide
  have hlength : ∀ v ∈ List.replicate 63 ([0, 0, 0, 1] : Bytes), v.length = 4 := by
    intro v hv
    rw [(List.mem_replicate.1 hv).2]
    rfl
  have hne : List.replicate 63 ([0, 0, 0, 1] : Bytes) ≠ [] := by simp
  refine (array_roundTrips_iff (holdsOnly_groupsPacket _ _) hkey hattr rfl rfl hne hlength).2
    ⟨rfl, fun h ↦ (by cases h), ⟨by decide, by decide⟩, ?_⟩
  rw [List.length_replicate]
  decide

/-- Sixty-four numbers do not: `struct.pack` refuses the length of 258 bytes. -/
theorem not_roundTrips_counters :
    ¬ RoundTrips (groupsPacket (.int 5) (List.replicate 64 [0, 0, 0, 1])) groupsDictionary .v1_0
      (.int 5) (List.replicate 64 [0, 0, 0, 1]) := by
  rintro ⟨body, hbody, -⟩
  have herror : (groupsPacket (.int 5) (List.replicate 64 [0, 0, 0, 1])).encodeStored [] =
      .error .structError := by decide +kernel
  rw [herror] at hbody
  cases hbody

section

variable {D : Dictionary} {version : RadiusVersion} {p : Packet} {key : Key}

/-! ### Values in pieces -/

/-- A value that the second pass would take for a packed list of several values. -/
def IsPacked (attr : Attribute) (v : Bytes) : Prop :=
  attr.array = true ∧ ∃ w, arrayTypeSize attr.type = some w ∧ v ≠ [] ∧ v.length % w = 0 ∧ v.length ≠ w

theorem splitArray_singleton_iff {attr : Attribute} (hattr : D.attributeAt? key = some attr)
    (v : Bytes) : splitArray D key (.vals [v]) = .vals [v] ↔ ¬ IsPacked attr v := by
  rw [splitArray_vals hattr, IsPacked]
  split
  · next harray =>
    rcases hwidth : arrayTypeSize attr.type with - | w
    · simp
    · obtain ⟨hw, -⟩ := arrayTypeSize_pos hwidth
      dsimp only
      rw [List.flatMap_singleton, Stored.vals.injEq, splitPacked]
      split
      · next hwhole =>
        refine iff_of_true rfl ?_
        rintro ⟨-, w', hw', hne, hmod, -⟩
        cases hw'
        exact hwhole.elim hne fun h ↦ h hmod
      · next hwhole =>
        rw [not_or, not_not] at hwhole
        obtain ⟨hne, hmod⟩ := hwhole
        have hpos := List.length_pos_iff.2 hne
        constructor
        · rintro hchunks ⟨-, w', hw', -, -, hlength⟩
          cases hw'
          -- the only piece is no longer than the width, and a multiple of it
          have hpiece : v.length ≤ w := Bytes.length_le_of_mem_chunksOf (by rw [hchunks]; simp)
          obtain ⟨k, hk⟩ := Nat.dvd_of_mod_eq_zero hmod
          rcases k with - | - | k
          · omega
          · omega
          · have hlong : w * 2 ≤ w * (k + 1 + 1) := Nat.mul_le_mul_left w (by omega)
            omega
        · intro hnot
          refine Bytes.chunksOf_of_length_le hne (le_of_eq ?_)
          by_contra hlength
          exact hnot ⟨harray, w, rfl, hne, hmod, hlength⟩
  · next harray => exact iff_of_true rfl fun h ↦ harray h.1

/-- **A `concat` value makes the round trip** exactly if its pieces fit, and nothing else is made of
the attribute. -/
theorem concat_roundTrips_iff {attr : Attribute} {v : Bytes}
    (h : HoldsOnly p D key (.vals [.bytes v])) (hkey : IsAttributeKey key)
    (hattr : D.attributeAt? key = some attr) (hconcat : attr.concat = true) :
    RoundTrips p D version key [v] ↔
      ListKey D version key ∧ attr.virtual = false ∧
        AttributeFits (some D) key (min v.length 253) ∧ ¬ IsPacked attr v := by
  have hflags : D.isVirtualAttribute key = attr.virtual ∧ D.isConcatAttribute key = true := by
    rw [Dictionary.isVirtualAttribute, Dictionary.isConcatAttribute, Dictionary.flagAt,
      Dictionary.flagAt, hattr]
    exact ⟨rfl, hconcat⟩
  have hwire : wireValues D key [v] = if v.length > 253 then Bytes.chunksOf 253 v else [v] := by
    simp [wireValues, hflags.2]
  -- the pieces of a long value: the first one is full, and there are several
  have hlong (hlength : v.length > 253) : ∃ rest, Bytes.chunksOf 253 v = v.take 253 :: rest ∧
      rest ≠ [] := by
    have hne : v ≠ [] := by
      rintro rfl
      exact absurd hlength (by decide)
    have hdrop : v.drop 253 ≠ [] := by
      rw [← List.length_pos_iff, List.length_drop]
      omega
    refine ⟨_, Bytes.chunksOf_of_ne_nil (by decide) hne, ?_⟩
    rw [Bytes.chunksOf_of_ne_nil (by decide) hdrop]
    exact List.cons_ne_nil _ _
  have hmerge : mergeConcat D key (.vals (wireValues D key [v])) = .vals [v] := by
    rw [hwire]
    split
    · next hlength =>
      obtain ⟨rest, hchunks, hrest⟩ := hlong hlength
      have hmany : (Bytes.chunksOf 253 v).length > 1 := by
        rw [hchunks, List.length_cons]
        have := List.length_pos_iff.2 hrest
        omega
      rw [mergeConcat, if_pos ⟨hflags.2, hmany⟩, Bytes.flatten_chunksOf (by decide)]
    · simp [mergeConcat]
  have hfits : (∀ u ∈ wireValues D key [v], AttributeFits (some D) key u.length) ↔
      AttributeFits (some D) key (min v.length 253) := by
    rw [hwire]
    split
    · next hlength =>
      rw [Nat.min_eq_right (le_of_lt hlength)]
      constructor
      · intro hall
        obtain ⟨rest, hchunks, -⟩ := hlong hlength
        have hfirst := hall (v.take 253) (by rw [hchunks]; simp)
        rwa [List.length_take, Nat.min_eq_left (le_of_lt hlength)] at hfirst
      · exact fun h u hu ↦ h.mono (Bytes.length_le_of_mem_chunksOf hu)
    · next hlength =>
      rw [Nat.min_eq_left (by omega)]
      simp
  rw [roundTrips_iff h hkey (List.cons_ne_nil v []), hflags.1, hfits, finishList, hmerge,
    splitArray_singleton_iff hattr]

end

theorem concat_roundTrips_blob :
    RoundTrips (groupsPacket (.tup [9, 1]) [List.replicate 247 7]) groupsDictionary .v1_0
      (.tup [9, 1]) [List.replicate 247 7] := by
  have hattr : groupsDictionary.attributeAt? (.tup [9, 1]) = some groupsDictionary.heap[1] := by rfl
  have hkey : IsAttributeKey (.tup [9, 1]) := trivial
  refine (concat_roundTrips_iff (holdsOnly_groupsPacket _ _) hkey hattr rfl).2 ⟨?_, rfl, ?_, ?_⟩
  · exact ⟨by decide, by decide, by decide, by decide, by decide, fun _ _ _ _ h ↦ by cases h⟩
  · rw [List.length_replicate]
    exact ⟨⟨by decide, by decide⟩, ⟨by decide, by decide⟩, .inr (by decide)⟩
  · exact fun h ↦ Bool.false_ne_true h.1

/-- A value that does not fit the attribute of a vendor is not cut for it. -/
theorem not_roundTrips_blob :
    ¬ RoundTrips (groupsPacket (.tup [9, 1]) [List.replicate 300 7]) groupsDictionary .v1_0
      (.tup [9, 1]) [List.replicate 300 7] := by
  rintro ⟨body, hbody, -⟩
  have herror : (groupsPacket (.tup [9, 1]) [List.replicate 300 7]).encodeStored [] =
      .error .structError := by decide +kernel
  rw [herror] at hbody
  cases hbody

section

variable {D : Dictionary} {version : RadiusVersion} {p : Packet} {key : Key}

/-! ### Attributes of vendors -/

/-- A key that resolves to no container, and to no flag that changes how values go out. -/
structure PlainKey (D : Dictionary) (key : Key) : Prop where
  notTlv : D.containerType key ≠ some .tlv
  notExtended : D.containerType key ≠ some .extended
  notLongExtended : D.containerType key ≠ some .longExtended
  notConcat : D.isConcatAttribute key = false
  notArray : D.isArrayAttribute key = false
  notVirtual : D.isVirtualAttribute key = false

/-- Values under a key of a vendor. Each of them fits an attribute in the format of the vendor, or
may be continued. -/
structure IsVendorList (D : Dictionary) (key : Key) (vs : List Bytes) : Prop where
  exists_vendor : ∃ vendor vsaType, key = .tup [vendor, vsaType]
  plain : PlainKey D key
  ne_nil : vs ≠ []
  fits : ∀ v ∈ vs, AttributeFits (some D) key v.length

theorem IsVendorList.listKey {vs : List Bytes} (h : IsVendorList D key vs) :
    ListKey D version key := by
  obtain ⟨vendor, vsaType, rfl⟩ := h.exists_vendor
  exact {
    notTlv := h.plain.notTlv
    notExtended := h.plain.notExtended
    notLongExtended := h.plain.notLongExtended
    notVendor := fun h ↦ by cases h
    notDropped := fun h ↦ by cases h
    notEvs := fun _ _ _ _ h ↦ by cases h }

theorem PlainKey.wireValues_eq (h : PlainKey D key) (vs : List Bytes) : wireValues D key vs = vs := by
  rw [wireValues, h.notArray, h.notConcat, if_neg (by simp), if_neg Bool.false_ne_true]

/-- Without the flags, the two passes leave a list as it is. -/
theorem finishList_of_flags (hconcat : D.isConcatAttribute key = false)
    (harray : D.isArrayAttribute key = false) (vs : List Bytes) :
    finishList D key vs = .vals vs := by
  have hmerge : mergeConcat D key (.vals vs) = .vals vs := by simp [mergeConcat, hconcat]
  rw [finishList, hmerge]
  rcases hattr : D.attributeAt? key with - | attr
  · unfold splitArray
    rw [hattr]
  · rw [Dictionary.isArrayAttribute, Dictionary.flagAt, hattr] at harray
    rw [splitArray_vals hattr, show attr.array = false from harray, if_neg Bool.false_ne_true]

theorem PlainKey.finishList_eq (h : PlainKey D key) (vs : List Bytes) :
    finishList D key vs = .vals vs :=
  finishList_of_flags h.notConcat h.notArray vs

/-- What the packet stores, one list under each key. -/
structure HoldsLists (p : Packet) (D : Dictionary) (groups : OrderedDict Key (List Bytes)) : Prop where
  dict : p.dict = some D
  attrs : p.attrs = groups.mapValues fun _ vs ↦ .vals (vs.map .bytes)

/-- The groups go out one after the other. -/
theorem encodeStored_of_entries {β : Type} {l : List β} {key : β → Key} {stored : β → Stored PyVal}
    {body : β → List Avp} (hentries : p.attrs.entries = l.map fun b ↦ (key b, stored b))
    (h : ∀ b ∈ l, p.isVirtualAttribute (key b) = false ∧
      p.encodeAvpGroup (key b) (stored b) = .ok (Avp.join (body b))) :
    p.encodeStored [] = .ok (Avp.join (l.flatMap body)) := by
  have hentry : ∀ b ∈ l, (if key b ∈ ([] : List Key) ∨ p.isVirtualAttribute (key b) then .ok []
      else p.encodeAvpGroup (key b) (stored b)) = .ok (Avp.join (body b)) := by
    intro b hb
    rw [if_neg (by simp [(h b hb).1]), (h b hb).2]
  rw [encodeStored, hentries, List.mapM_map, ← Avp.flatten_map_join]
  show (l.mapM (fun b ↦ if key b ∈ ([] : List Key) ∨ p.isVirtualAttribute (key b) then .ok []
    else p.encodeAvpGroup (key b) (stored b)) >>= _) = _
  rw [Except.mapM_eq_ok hentry]
  rfl

/-- The packet is encoded, every group as a sequence of attributes, and however these sequences are
interleaved, reading them back gives every list under its key and nothing else. -/
def RoundTripsInterleaved (p : Packet) (D : Dictionary) (version : RadiusVersion)
    (groups : OrderedDict Key (List Bytes)) : Prop :=
  ∃ part : Key → List Avp,
    (∀ key vs, groups.get? key = some vs →
      p.encodeAvpGroup key (.vals (vs.map .bytes)) = .ok (Avp.join (part key))) ∧
    p.encodeStored [] = .ok (Avp.join (groups.keys.flatMap part)) ∧
    Interleaves part (groups.keys.flatMap part) ∧
    ∀ l, Interleaves part l →
      Restores D version (Avp.join l) fun key ↦ (groups.get? key).map .vals

/-- **Attributes of vendors make the round trip**, in every format and interleaved in any way. -/
theorem vendor_roundTrips (version : RadiusVersion) {groups : OrderedDict Key (List Bytes)}
    (h : HoldsLists p D groups) (hgroups : ∀ e ∈ groups.entries, IsVendorList D e.1 e.2) :
    RoundTripsInterleaved p D version groups := by
  have hlist {key : Key} {vs : List Bytes} (hget : groups.get? key = some vs) :
      IsVendorList D key vs := hgroups _ (OrderedDict.get?_eq_some_iff.1 hget)
  have hpart (key : Key) : ∃ l, (∀ vs, groups.get? key = some vs →
      p.encodeAvpGroup key (.vals (vs.map .bytes)) = .ok (Avp.join l) ∧
        Delivers D version key vs l) ∧ (groups.get? key = none → l = []) := by
    rcases hget : groups.get? key with - | vs
    · exact ⟨[], fun _ h ↦ (by cases h), fun _ ↦ rfl⟩
    · have hvs := hlist hget
      have hfits : ∀ v ∈ wireValues D key vs, AttributeFits (some D) key v.length := by
        rw [hvs.plain.wireValues_eq]
        exact hvs.fits
      have hlistKey : ListKey D version key := hvs.listKey
      obtain ⟨l, hl⟩ := exists_delivers_list h.dict hlistKey hfits
      rw [hvs.plain.wireValues_eq] at hl
      refine ⟨l, fun vs' hvs' ↦ ?_, fun h ↦ (by cases h)⟩
      cases hvs'
      exact hl
  choose part hpart hnone using hpart
  have hnotMem : ∀ key ∉ groups.keys, part key = [] := fun key hkey ↦
    hnone key (OrderedDict.get?_eq_none_iff.2 hkey)
  refine ⟨part, fun key vs hget ↦ (hpart key vs hget).1, ?_, Interleaves.flatMap groups.nodup hnotMem,
    fun l hl ↦ ?_⟩
  · have hentries : p.attrs.entries =
        groups.entries.map fun e ↦ (e.1, Stored.vals (e.2.map PyVal.bytes)) := by
      rw [h.attrs]
      rfl
    have hbody : ∀ e ∈ groups.entries, p.isVirtualAttribute e.1 = false ∧
        p.encodeAvpGroup e.1 (.vals (e.2.map PyVal.bytes)) = .ok (Avp.join (part e.1)) := by
      intro e he
      refine ⟨?_, (hpart e.1 e.2 (OrderedDict.get?_eq_some_iff.2 he)).1⟩
      rw [isVirtualAttribute, h.dict]
      exact (hgroups e he).plain.notVirtual
    rw [encodeStored_of_entries hentries hbody, OrderedDict.keys, Assoc.keys, List.flatMap_map]
  · refine (restores_of_interleaves (fun key vs hget ↦ ⟨(hlist hget).ne_nil, (hpart key vs hget).2⟩)
      hnone hl).congr fun key ↦ ?_
    rcases hget : groups.get? key with - | vs
    · rfl
    · rw [Option.map_some, Option.map_some, (hlist hget).plain.finishList_eq]

end

/-- A value in two fragments, next to two short values of another vendor. -/
theorem vendor_roundTrips_wimax :
    RoundTripsInterleaved
      { dict := some groupsDictionary
        attrs := (OrderedDict.set ∅ (.tup [24757, 1])
          (.vals [.bytes (List.replicate 300 7)])).set (.tup [9, 2])
            (.vals [.bytes [1], .bytes []]) }
      groupsDictionary .v1_0
      ((OrderedDict.set ∅ (.tup [24757, 1]) [List.replicate 300 7]).set (.tup [9, 2]) [[1], []]) := by
  refine vendor_roundTrips .v1_0 ⟨rfl, rfl⟩ fun e he ↦ ?_
  rcases List.mem_cons.1 he with rfl | he
  · refine ⟨⟨_, _, rfl⟩, ⟨by decide, by decide, by decide, rfl, rfl, rfl⟩, by decide, fun v _ ↦ ?_⟩
    exact ⟨⟨by decide, by decide⟩, ⟨by decide, by decide⟩, .inl rfl⟩
  · rw [List.mem_singleton.1 he]
    refine ⟨⟨_, _, rfl⟩, ⟨by decide, by decide, by decide, rfl, rfl, rfl⟩, by decide, fun v hv ↦ ?_⟩
    refine ⟨⟨by decide, by decide⟩, ⟨by decide, by decide⟩, .inr ?_⟩
    have hle : v.length ≤ 1 := by
      simp only [List.mem_cons, List.not_mem_nil, or_false] at hv
      rcases hv with rfl | rfl <;> decide
    show 1 + 1 + v.length ≤ 249
    omega

end Packet

end Pyrad2
