import Pyrad2.Packet.PlainAccess
import Pyrad2.Packet.PlainGroups
import Pyrad2.Packet.Sending

/-!
# A plain attribute on the wire and back

What becomes of the values of one attribute when a packet is serialized and parsed, whatever else the
packet holds. Nothing is asked of the other attributes but that none of them goes out with the type
of this one.
-/

namespace Pyrad2

open EStateM

namespace Packet

/-- Nothing but what is stored under the code goes out with it for its type. -/
structure OnlySource (D : Dictionary) (p : Packet) (code : Int) : Prop where
  stored : ∀ key ∈ p.attrs.keys, key ≠ .int code → wireType (some D) key ≠ code
  pending : ∀ keys, p.deferredAttributeCodes = .ok keys → ∀ key ∈ keys,
    wireType (some D) key ≠ code
  mac : ∀ key, D.encodeKey "Message-Authenticator" = .ok key → wireType (some D) key ≠ code

/-- The values of the attributes of a type, in order. -/
def valuesOf (code : Int) (l : List Avp) : List Bytes :=
  (l.filter fun a ↦ (a.code.toNat : Int) = code).map Avp.value

@[simp] theorem valuesOf_append (code : Int) (l l' : List Avp) :
    valuesOf code (l ++ l') = valuesOf code l ++ valuesOf code l' := by
  rw [valuesOf, List.filter_append, List.map_append]
  rfl

theorem valuesOf_cons_of_isCode {code : Int} {a : Avp} (h : IsCode code a.code) (l : List Avp) :
    valuesOf code (a :: l) = a.value :: valuesOf code l := by
  have hcode : (a.code.toNat : Int) = code := h
  simp [valuesOf, hcode]

theorem valuesOf_cons_of_not_isCode {code : Int} {a : Avp} (h : ¬ IsCode code a.code)
    (l : List Avp) : valuesOf code (a :: l) = valuesOf code l := by
  have hcode : ¬ (a.code.toNat : Int) = code := h
  simp [valuesOf, hcode]

theorem valuesOf_eq_nil {code : Int} {l : List Avp} (h : ∀ a ∈ l, ¬ IsCode code a.code) :
    valuesOf code l = [] := by
  induction l with
  | nil => rfl
  | cons a l ih =>
    rw [valuesOf_cons_of_not_isCode (h a (by simp))]
    exact ih fun b hb ↦ h b (by simp [hb])

section

variable {D : Dictionary} {name : String} {code : Int} {type : Datatype} {version : RadiusVersion}
  {E : Env} {p : Packet} {s s' : PacketState} {vs : List Bytes}

theorem wireType_of_plain (h : D.DeclaresPlain name code type) (htype : type.isContainer = false) :
    wireType (some D) (.int code) = code := by
  obtain ⟨attr, hattr, rfl, -⟩ := h.exists_attributeAt?
  rw [wireType_int, hattr]
  dsimp only
  split
  · next htlv =>
    rw [htlv] at htype
    cases htype
  · next hextended =>
    rw [hextended] at htype
    cases htype
  · next hlong =>
    rw [hlong] at htype
    cases htype
  · rfl

/-! ### Sending -/

/-- Sending leaves the values of the attribute as they are. -/
theorem OnlySource.get?_of_refreshes (h : OnlySource D s.pkt code)
    (hD : D.DeclaresPlain name code type) (htype : type.isContainer = false)
    (hdict : s.pkt.dict = some D) (hs : Refreshes s s') :
    s'.pkt.attrs.get? (.int code) = s.pkt.attrs.get? (.int code) := by
  obtain ⟨id, authenticator, flag, attrs, hpkt, hkeep⟩ := hs
  rw [hpkt]
  refine hkeep (.int code) fun hkey ↦ ?_
  rw [encodeKey, theDict, hdict] at hkey
  exact h.mac _ hkey (wireType_of_plain hD htype)

theorem OnlySource.of_refreshes (h : OnlySource D s.pkt code) (hdict : s.pkt.dict = some D)
    (hs : Refreshes s s') : OnlySource D s'.pkt code := by
  obtain ⟨id, authenticator, flag, attrs, hpkt, hkeep⟩ := hs
  rw [hpkt]
  refine ⟨fun key hkey hne ↦ ?_, h.pending, h.mac⟩
  by_cases hmac : s.pkt.encodeKey "Message-Authenticator" = .ok key
  · rw [encodeKey, theDict, hdict] at hmac
    exact h.mac key hmac
  · obtain ⟨stored, hget⟩ := OrderedDict.mem_keys_iff.1 hkey
    rw [hkeep key hmac] at hget
    exact h.stored key (OrderedDict.mem_keys_iff.2 ⟨stored, hget⟩) hne

/-- Other entries put out no value of the attribute. -/
theorem OnlySource.valuesOf_eq_nil (h : OnlySource D p code) (hdict : p.dict = some D)
    {deferred : List Key} {entries : List (Key × Stored PyVal)}
    (hentries : ∀ e ∈ entries, e ∈ p.attrs.entries ∧ e.1 ≠ .int code) {parts : List Bytes}
    (hparts : entries.mapM (p.encodeEntry deferred) = .ok parts) :
    ∃ l, parts.flatten = Avp.join l ∧ valuesOf code l = [] := by
  have hemits (part : Bytes) (hpart : part ∈ parts) :
      ∃ l, part = Avp.join l ∧ ∀ a ∈ l, ¬ IsCode code a.code := by
    obtain ⟨e, he, hencode⟩ := Except.exists_of_mem_mapM hparts hpart
    obtain ⟨hmem, hne⟩ := hentries e he
    rw [encodeEntry] at hencode
    split at hencode
    · cases hencode
      exact ⟨[], rfl, fun a ha ↦ (List.not_mem_nil ha).elim⟩
    · obtain ⟨l, hl, hcodes⟩ := (emits_encodeAvpGroup p e.1 e.2).exists_avps part hencode
      rw [hdict] at hcodes
      refine ⟨l, hl, fun a ha hcode ↦ h.stored e.1 (List.mem_map_of_mem hmem) hne ?_⟩
      exact (hcodes a ha).symm.trans hcode
  obtain ⟨l, hl, hcodes⟩ := exists_avps_flatten (P := fun a ↦ ¬ IsCode code a.code) hemits
  exact ⟨l, hl, Packet.valuesOf_eq_nil hcodes⟩

/-- The group of the attribute puts out its values. -/
theorem exists_avps_plainGroup (hD : D.DeclaresPlain name code type)
    (htype : type.isContainer = false) (hdict : p.dict = some D) {out : Bytes}
    (h : p.encodeAvpGroup (.int code) (.vals (vs.map .bytes)) = .ok out) :
    ∃ l, out = Avp.join l ∧ valuesOf code l = vs := by
  rw [encodeAvpGroup_of_plain hD htype hdict, mapM_map_bytes] at h
  obtain ⟨l, hl, hall⟩ := exists_avps_forall₂ (F := fun b a ↦ IsCode code a.code ∧ a.value = b)
    (fun _ _ _ hb ↦ exists_avp_of_packItem hb) h
  refine ⟨l, hl, ?_⟩
  clear h hl
  induction hall with
  | nil => rfl
  | @cons b a vs l ha _ ih =>
    rw [valuesOf_cons_of_isCode ha.1, ha.2, ih]

/-- **What goes out of the attribute** is its values. -/
theorem exists_avps_encodeAttributes (honly : OnlySource D s.pkt code)
    (hD : D.DeclaresPlain name code type) (htype : type.isContainer = false)
    (hdict : s.pkt.dict = some D)
    (hstored : s.pkt.attrs.get? (.int code) = some (.vals (vs.map .bytes))) {body : Bytes}
    (hrun : (encodeAttributes E).run s = .ok body s') :
    ∃ l, body = Avp.join l ∧ valuesOf code l = vs := by
  rcases hkeys : s.pkt.deferredAttributeCodes with e | keys
  · have hraises : (liftM s.pkt.deferredAttributeCodes : PacketMethod (List Key)).run s =
        .error e s := by
      rw [hkeys]
      rfl
    have hfails : (encodeAttributes E).run s = .error e s :=
      run_bind_of_error (m := liftM s.pkt.deferredAttributeCodes) hraises
    cases hfails.symm.trans hrun
  rw [run_encodeAttributes_of_codes E hkeys] at hrun
  rcases hencode : s.pkt.encodeStored keys with e | out
  · rw [hencode] at hrun
    cases hrun
  rw [hencode] at hrun
  obtain ⟨pending, t, hpending, hpure⟩ := run_bind_eq_ok_iff.1 hrun
  cases hpure
  -- what is pending has other types
  obtain ⟨l', rfl, hcodes⟩ := (ensures_encodeDeferredObfuscated E hkeys).of_run_eq_ok hpending
  have hpendingValues : valuesOf code l' = [] := by
    refine Packet.valuesOf_eq_nil fun a ha hcode ↦ ?_
    obtain ⟨key, hkey, htypeOf⟩ := hcodes a ha
    rw [hdict] at htypeOf
    exact honly.pending keys hkeys key hkey (htypeOf.symm.trans hcode)
  have hgoes : ¬ (Key.int code ∈ keys ∨ s.pkt.isVirtualAttribute (.int code) = true) := by
    rintro (hmem | hvirtual)
    · exact honly.pending keys hkeys _ hmem (wireType_of_plain hD htype)
    · rw [isVirtualAttribute, hdict] at hvirtual
      exact absurd (hvirtual.symm.trans hD.isVirtualAttribute_eq) (by decide)
  obtain ⟨pre, post, hset, hold⟩ := s.pkt.attrs.exists_split_set (.int code)
  have hentries : s.pkt.attrs.entries = pre ++ (.int code, .vals (vs.map .bytes)) :: post := by
    rw [← hset, OrderedDict.set_of_get?_eq_some hstored]
  rw [encodeStored_eq, hentries, List.mapM_append, List.mapM_cons] at hencode
  obtain ⟨all, hall, heq⟩ := Except.bind_eq_ok_iff.1 hencode
  obtain ⟨before, hbefore, hall⟩ := Except.bind_eq_ok_iff.1 hall
  obtain ⟨rest, hrest, hall⟩ := Except.bind_eq_ok_iff.1 hall
  obtain ⟨group, hgroup, hrest⟩ := Except.bind_eq_ok_iff.1 hrest
  obtain ⟨after, hafter, hrest⟩ := Except.bind_eq_ok_iff.1 hrest
  cases heq
  cases hall
  cases hrest
  rw [encodeEntry, if_neg hgoes] at hgroup
  obtain ⟨own, rfl, hown⟩ := exists_avps_plainGroup hD htype hdict hgroup
  obtain ⟨front, hfront, hfrontValues⟩ := honly.valuesOf_eq_nil hdict
    (fun e he ↦ hold e (List.mem_append_left _ he)) hbefore
  obtain ⟨back, hback, hbackValues⟩ := honly.valuesOf_eq_nil hdict
    (fun e he ↦ hold e (List.mem_append_right _ he)) hafter
  refine ⟨front ++ own ++ back ++ l', ?_, ?_⟩
  · rw [List.flatten_append, List.flatten_cons, hfront, hback]
    simp only [Avp.join_append, List.append_assoc]
  · simp only [valuesOf_append, hfrontValues, hown, hbackValues, hpendingValues, List.nil_append,
      List.append_nil]

/-! ### Receiving -/

/-- **What comes in of the attribute** is appended to its values. -/
theorem exists_run_decodeAll_plain (hkey : ListKey D version (.int code)) (l : List Avp)
    {st : DecodeState} (hst : InShape D st) {old : List Bytes}
    (hold : Holds (.int code) (listEntry old) st) :
    ∃ st', (decodeAll D version l).run st = .ok () st' ∧
      Holds (.int code) (listEntry (old ++ valuesOf code l)) st' := by
  induction l generalizing st old with
  | nil => exact ⟨st, rfl, by rwa [valuesOf, List.filter_nil, List.map_nil, List.append_nil]⟩
  | cons a l ih =>
    obtain ⟨st', hrun, hst'⟩ := exists_run_decodeAvp hst version a
    by_cases hcode : IsCode code a.code
    · -- the value is appended
      obtain ⟨st₁, hrun₁, hold₁⟩ := (delivers_standard hkey hcode).exists_run old st hold
      rw [decodeAll_cons, run_bind_of_ok hrun] at hrun₁
      cases hrun₁
      obtain ⟨st'', hrun'', hold''⟩ := ih hst' hold₁
      refine ⟨st'', by rw [decodeAll_cons, run_bind_of_ok hrun, hrun''], ?_⟩
      rwa [valuesOf_cons_of_isCode hcode, List.append_cons]
    · -- the attribute is stored somewhere else
      have hreads : ReadsInto D version (zone a.code.toNat) a :=
        readsInto_zone (show IsCode a.code.toNat a.code from rfl)
      have hconfined := hreads.confined
      have hcell : Cell.key (.int code) ∉ zone a.code.toNat := fun hzone ↦
        hcode (Option.some.inj hzone).symm
      have hframe := hconfined.frame st hst (.key (.int code)) hcell
      rw [after_of_ok hrun] at hframe
      have hkept : Holds (.int code) (listEntry old) st' :=
        ⟨hframe.trans hold.entry, fun _ _ h ↦ by cases h⟩
      obtain ⟨st'', hrun'', hold''⟩ := ih hst' hkept
      refine ⟨st'', by rw [decodeAll_cons, run_bind_of_ok hrun, hrun''], ?_⟩
      rwa [valuesOf_cons_of_not_isCode hcode]

/-- **A plain attribute is received as it was sent.** -/
theorem exists_run_decodePacket_plain (hkey : ListKey D version (.int code))
    (hconcat : D.isConcatAttribute (.int code) = false)
    (harray : D.isArrayAttribute (.int code) = false) {raw : Bytes} (hraw : Framed raw) {l : List Avp}
    (hbody : raw.drop 20 = Avp.join l) (hvs : vs ≠ []) (hvalues : valuesOf code l = vs)
    (hdict : s.pkt.dict = some D) (hversion : s.pkt.radiusVersion = version) :
    ∃ s', (decodePacket raw).run s = .ok () s' ∧
      s'.pkt.attrs.get? (.int code) = some (.vals (vs.map .bytes)) ∧
      s'.pkt.dict = some D ∧ s'.pkt.radiusVersion = version := by
  obtain ⟨st, hrun, hst⟩ := exists_run_decodeAll_plain hkey l
    (inShape_initial D s.pkt.messageAuthenticator) (holds_initial (.int code) _)
  have hheader : (raw.take 20).length = 20 := by
    rw [List.length_take]
    exact Nat.min_eq_left hraw.header
  have happend : raw = raw.take 20 ++ Avp.join l := by rw [← hbody, List.take_append_drop]
  have hdecode : (decodeAvps (some D) version (Avp.join l).length (Avp.join l)).run
      { messageAuthenticator := s.pkt.messageAuthenticator } = .ok () st := by
    rw [decodeAvps_join _ _ le_rfl]
    exact hrun
  obtain ⟨s', hs', hattrs, hfields⟩ := exists_run_decodePacket hheader (by rwa [← happend]) hdict
    hversion hdecode
  refine ⟨s', by rw [happend]; exact hs', ?_, hfields⟩
  rw [hattrs, OrderedDict.get?_mapValues, get?_finishAttributes, hst.entry, hvalues,
    List.nil_append, listEntry_of_ne_nil hvs]
  show some (Stored.map PyVal.bytes (finishList D (.int code) vs)) = _
  rw [finishList_of_flags hconcat harray]
  rfl

/-- A new packet object holds what the bytes decode to. -/
theorem exists_run_construct_of_decode {fields : Packet} {raw : Bytes} {Q : Packet → Prop}
    (h : ∀ id w, ∃ s', (decodePacket raw).run ⟨{ fields with id, rawPacket := some raw }, w⟩ =
      .ok () s' ∧ Q s'.pkt) (w : World) :
    ∃ q w', (construct E fields (some raw) []).run w = .ok q w' ∧ Q q := by
  have hdecode (id : Option ℕ) (w : World) : Ensures (decodePacket raw)
      ⟨{ fields with id, rawPacket := some raw }, w⟩ (fun _ s ↦ Q s.pkt) fun _ _ ↦ False := by
    obtain ⟨s', hrun, hQ⟩ := h id w
    exact .of_ok hrun hQ
  have hconstruct := ensures_construct_of_decode (E := E) hdecode w
  rcases hrun : (construct E fields (some raw) []).run w with ⟨q, w'⟩ | ⟨e, w'⟩
  · exact ⟨q, w', rfl, hconstruct.of_run_eq_ok hrun⟩
  · exact (hconstruct.of_run_eq_error hrun).elim

end

end Packet

end Pyrad2
