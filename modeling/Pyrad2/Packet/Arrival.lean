import Pyrad2.Packet.Deferred
import Pyrad2.Packet.PlainGroups
import Pyrad2.Packet.Sending

/-!
# What is sent is what is read

A packet that holds lists of values is put on the wire, and its bytes make a packet on the other
side. Does that packet hold what was sent?

The groups of one packet do not disturb each other. So the answer comes down to the two passes over
the decoded lists, one key at a time: a group arrives exactly if it is put out at all, and if the two
passes make the list of the values that go out for it.
-/

/-- The entries that satisfy `f`. -/
def OrderedDict.filter {K V : Type} (f : K × V → Bool) (d : OrderedDict K V) : OrderedDict K V :=
  ⟨d.entries.filter f, d.nodup.sublist (List.filter_sublist.map _)⟩

theorem OrderedDict.get?_filter {K V : Type} [DecidableEq K] (f : K × V → Bool)
    (d : OrderedDict K V) (k : K) :
    (d.filter f).get? k = (d.get? k).filter fun v ↦ f (k, v) := by
  ext v
  rw [Option.filter_eq_some_iff, OrderedDict.get?_eq_some_iff, OrderedDict.get?_eq_some_iff]
  exact List.mem_filter

namespace Pyrad2

open EStateM

namespace Packet

/-! ### The groups that go out -/

/-- The values that go out, without the groups that put out nothing. -/
def onWire (D : Dictionary) (groups : OrderedDict Key (List Bytes)) : OrderedDict Key (List Bytes) :=
  (groups.mapValues (wireValues D)).filter fun e ↦ !D.isVirtualAttribute e.1 && !e.2.isEmpty

section

variable {D : Dictionary} {p : Packet} {key : Key} {groups : OrderedDict Key (List Bytes)}

theorem wireValues_nil : wireValues D key [] = [] := by
  rw [wireValues, if_neg (by simp)]
  split
  · rfl
  · rfl

theorem wireValues_eq_nil_iff {vs : List Bytes} : wireValues D key vs = [] ↔ vs = [] := by
  refine ⟨fun h ↦ ?_, fun h ↦ by rw [h, wireValues_nil]⟩
  by_contra hne
  exact wireValues_ne_nil hne h

theorem get?_onWire_eq_some_iff {ws : List Bytes} :
    (onWire D groups).get? key = some ws ↔
      D.isVirtualAttribute key = false ∧ ∃ vs, groups.get? key = some vs ∧ vs ≠ [] ∧
        wireValues D key vs = ws := by
  rw [onWire, OrderedDict.get?_filter, OrderedDict.get?_mapValues, Option.filter_eq_some_iff,
    Option.map_eq_some_iff]
  simp only [Bool.and_eq_true, Bool.not_eq_true', List.isEmpty_eq_false_iff]
  constructor
  · rintro ⟨⟨vs, hget, rfl⟩, hvirtual, hne⟩
    exact ⟨hvirtual, vs, hget, fun h ↦ hne (wireValues_eq_nil_iff.2 h), rfl⟩
  · rintro ⟨hvirtual, vs, hget, hne, rfl⟩
    exact ⟨⟨vs, hget, rfl⟩, hvirtual, wireValues_ne_nil hne⟩

theorem get?_onWire_eq_none (h : groups.get? key = none) : (onWire D groups).get? key = none := by
  refine Option.eq_none_iff_forall_ne_some.2 fun ws hws ↦ ?_
  obtain ⟨-, vs, hvs, -⟩ := get?_onWire_eq_some_iff.1 hws
  rw [h] at hvs
  cases hvs

/-- A group that is encoded goes out as attributes that deliver its values, or does not go out. -/
theorem exists_avps_of_encodes (hdict : p.dict = some D) (hkey : IsAttributeKey key)
    {vs : List Bytes} {out : Bytes}
    (h : (if key ∈ ([] : List Key) ∨ p.isVirtualAttribute key = true then .ok []
      else p.encodeAvpGroup key (.vals (vs.map .bytes))) = .ok out) :
    ∃ l, out = Avp.join l ∧ if D.isVirtualAttribute key = false ∧ vs ≠ [] then
      Delivers D .v1_0 key (wireValues D key vs) l else l = [] := by
  have hvirtual : p.isVirtualAttribute key = D.isVirtualAttribute key := by
    rw [isVirtualAttribute, hdict]
    rfl
  simp only [List.not_mem_nil, false_or, hvirtual] at h
  split at h
  · next hvirtual =>
    cases h
    exact ⟨[], rfl, by rw [if_neg (by simp [hvirtual])]⟩
  next hsent =>
  have hlist := listKey_of_encodes hdict hkey h
  rw [encodeAvpGroup_list hdict hlist] at h
  by_cases hvs : vs = []
  · rw [hvs, wireValues_nil] at h
    cases h
    exact ⟨[], rfl, by rw [if_neg (by simp [hvs])]⟩
  · have hfits : ∀ v ∈ wireValues D key vs, AttributeFits (some D) key v.length := by
      intro v hv
      have hsucceeds := Except.succeeds_flatten_mapM_iff.1 ⟨out, h⟩ v hv
      rwa [succeeds_encodeAttribute_iff, hdict] at hsucceeds
    obtain ⟨l, hl, hdelivers⟩ := exists_delivers_list hdict hlist hfits
    rw [encodeAvpGroup_list hdict hlist, h] at hl
    cases hl
    exact ⟨l, rfl, by rwa [if_pos ⟨Bool.eq_false_iff.2 hsent, hvs⟩]⟩

/-- **What lists are encoded as is read back** as what the two passes make of the values that go
out. -/
theorem restores_encodeStored (h : HoldsLists p D groups)
    (hkeys : ∀ e ∈ groups.entries, IsAttributeKey e.1) {body : Bytes}
    (hencode : p.encodeStored [] = .ok body) :
    Restores D .v1_0 body fun key ↦ ((onWire D groups).get? key).map (finishList D key) := by
  have hentries : p.attrs.entries =
      groups.entries.map fun e ↦ (e.1, Stored.vals (e.2.map PyVal.bytes)) := by
    rw [h.attrs]
    rfl
  rw [encodeStored, hentries, List.mapM_map] at hencode
  obtain ⟨outs, houts, heq⟩ := Except.bind_eq_ok_iff.1 hencode
  -- the attributes of each key
  have hpart (key : Key) : ∃ l,
      (∀ vs, groups.get? key = some vs →
        (if key ∈ ([] : List Key) ∨ p.isVirtualAttribute key = true then .ok []
          else p.encodeAvpGroup key (.vals (vs.map .bytes))) = .ok (Avp.join l)) ∧
      (∀ ws, (onWire D groups).get? key = some ws → ws ≠ [] ∧ Delivers D .v1_0 key ws l) ∧
      ((onWire D groups).get? key = none → l = []) := by
    rcases hget : groups.get? key with - | vs
    · refine ⟨[], fun vs h ↦ (by cases h), fun ws hws ↦ ?_, fun _ ↦ rfl⟩
      rw [get?_onWire_eq_none hget] at hws
      cases hws
    · have hmem : (key, vs) ∈ groups.entries := OrderedDict.get?_eq_some_iff.1 hget
      obtain ⟨out, -, hout⟩ := Except.exists_mem_of_mapM houts hmem
      obtain ⟨l, rfl, hl⟩ := exists_avps_of_encodes h.dict (hkeys _ hmem) hout
      refine ⟨l, fun vs' hvs' ↦ ?_, fun ws hws ↦ ?_, fun hnone ↦ ?_⟩
      · cases hvs'
        exact hout
      · obtain ⟨hvirtual, vs', hvs', hne, rfl⟩ := get?_onWire_eq_some_iff.1 hws
        obtain rfl : vs = vs' := Option.some.inj (hget.symm.trans hvs')
        rw [if_pos ⟨hvirtual, hne⟩] at hl
        exact ⟨wireValues_ne_nil hne, hl⟩
      · by_cases hsent : D.isVirtualAttribute key = false ∧ vs ≠ []
        · have hsome := get?_onWire_eq_some_iff.2 ⟨hsent.1, vs, hget, hsent.2, rfl⟩
          rw [hnone] at hsome
          cases hsome
        · rwa [if_neg hsent] at hl
  choose part hout hdelivers hnone using hpart
  have hall := Except.mapM_eq_ok (l := groups.entries) fun e he ↦
    hout e.1 e.2 (OrderedDict.get?_eq_some_iff.2 he)
  have hbody : body = Avp.join (groups.keys.flatMap part) := by
    obtain rfl := Except.ok.inj (houts.symm.trans hall)
    rw [← Except.ok.inj heq, OrderedDict.keys, Assoc.keys, List.flatMap_map, ← Avp.flatten_map_join]
  rw [hbody]
  refine restores_of_interleaves hdelivers hnone (Interleaves.flatMap groups.nodup fun key hkey ↦ ?_)
  exact hnone key (get?_onWire_eq_none (OrderedDict.get?_eq_none_iff.2 hkey))

end

/-! ### What is put out of a packet -/

/-- A packet of RADIUS/1.0 with nothing left to obfuscate. -/
structure Plaintext (s : PacketState) : Prop where
  version : s.pkt.radiusVersion = .v1_0
  pending : s.pkt.deferredObfuscated.entries = []

theorem Plaintext.of_refreshes {s s' : PacketState} (h : Plaintext s) (hs : Refreshes s s') :
    Plaintext s' := by
  obtain ⟨id, authenticator, flag, attrs, hpkt, -⟩ := hs
  exact ⟨by rw [hpkt]; exact h.version, by rw [hpkt]; exact h.pending⟩

/-- The bytes are a header and the attributes that the packet holds. -/
structure PutOut (s : PacketState) (raw : Bytes) : Prop where
  version : s.pkt.radiusVersion = .v1_0
  exists_wire : ∃ authenticator body, Wire s.pkt.code s.pkt.id authenticator body raw ∧
    s.pkt.encodeStored [] = .ok body

section

variable {E : Env} {s s' : PacketState}

/-- Something that changes what sending changes, in front of a serializer. -/
theorem ensures_bind_putOut {α : Type} {m : PacketMethod α} {f : α → PacketMethod Bytes}
    (hm : Respects Refreshes m) (hs : Plaintext s)
    (hf : ∀ a s', Plaintext s' → Ensures (f a) s' (fun raw s'' ↦ PutOut s'' raw) fun _ _ ↦ True) :
    Ensures (m >>= f) s (fun raw s' ↦ PutOut s' raw) fun _ _ ↦ True := by
  have hafter := hm s
  rw [ensures_bind]
  rcases hrun : m.run s with ⟨a, s'⟩ | ⟨e, s'⟩
  · rw [after_of_ok hrun] at hafter
    exact .of_ok hrun (hf a s' (hs.of_refreshes hafter))
  · exact .of_error hrun trivial

/-- Without pending values, encoding leaves the packet as it is. -/
theorem ensures_encodeAttributes_bind_putOut {f : Bytes → PacketMethod Bytes} (hs : Plaintext s)
    (hf : ∀ body, s.pkt.encodeStored [] = .ok body →
      Ensures (f body) s (fun raw s' ↦ PutOut s' raw) fun _ _ ↦ True) :
    Ensures (encodeAttributes E >>= f) s (fun raw s' ↦ PutOut s' raw) fun _ _ ↦ True := by
  rw [ensures_bind]
  rcases hbody : s.pkt.encodeStored [] with e | body
  · exact .of_error (run_encodeAttributes_of_error E hs.pending hbody) trivial
  · exact .of_ok (run_encodeAttributes_of_ok E hs.pending hbody) (hf body hbody)

theorem putOut_encodeV10RequestWithRandomAuthenticator (hs : Plaintext s) :
    Ensures (encodeV10RequestWithRandomAuthenticator E) s (fun raw s' ↦ PutOut s' raw)
      fun _ _ ↦ True := by
  rw [encodeV10RequestWithRandomAuthenticator]
  refine ensures_bind_putOut refreshes_ensureAuthenticator hs fun _ s hs ↦
    ensures_bind_putOut (refreshes_refreshIfCarried E) hs fun _ s hs ↦ ?_
  refine ensures_encodeAttributes_bind_putOut hs fun body hbody ↦ ensures_bind.2 (ensures_get.2
    (ensures_bind.2 (ensures_liftM (fun front hfront ↦ ?_) fun _ _ ↦ trivial)))
  refine ensures_bind.2 (ensures_liftM (fun authenticator _ ↦ ?_) fun _ _ ↦ trivial)
  refine ⟨hs.version, _, body, wire_append hfront ?_, hbody⟩
  rw [List.length_take, List.length_append, List.length_replicate]
  omega

theorem putOut_encodeV10RequestWithBodyMd5Authenticator (hs : Plaintext s) :
    Ensures (encodeV10RequestWithBodyMd5Authenticator E) s (fun raw s' ↦ PutOut s' raw)
      fun _ _ ↦ True := by
  rw [encodeV10RequestWithBodyMd5Authenticator]
  refine ensures_bind_putOut (refreshes_refreshIfCarried E) hs fun _ s hs ↦ ?_
  refine ensures_encodeAttributes_bind_putOut hs fun body hbody ↦ ensures_bind.2 (ensures_get.2
    (ensures_bind.2 (ensures_liftM (fun front hfront ↦ ?_) fun _ _ ↦ trivial)))
  refine ensures_bind.2 (ensures_modify.2
    ⟨hs.version, _, body, wire_append hfront (E.md5_length _), ?_⟩)
  exact (congrFun (encodeStored_congr (q := s.pkt) rfl rfl) []).trans hbody

theorem putOut_requestPacket (hs : Plaintext s) :
    Ensures (requestPacket E) s (fun raw s' ↦ PutOut s' raw) fun _ _ ↦ True := by
  rw [requestPacket]
  refine ensures_bind.2 (ensures_get.2 ?_)
  dsimp only
  split
  · exact trivial
  refine ensures_bind_putOut refreshes_ensureId hs fun _ s' hs' ↦ ?_
  split
  · next hversion =>
    rw [hs.version] at hversion
    cases hversion
  split
  · exact ensures_bind_putOut refreshes_ensureAuthenticator hs' fun _ _ hs ↦
      ensures_bind_putOut (refreshes_prepareRequestMessageAuthenticator E false) hs fun _ _ hs ↦
        putOut_encodeV10RequestWithRandomAuthenticator hs
  · exact putOut_encodeV10RequestWithRandomAuthenticator hs'
  · exact putOut_encodeV10RequestWithBodyMd5Authenticator hs'

theorem putOut_replyPacket (hs : Plaintext s) :
    Ensures (replyPacket E) s (fun raw s' ↦ PutOut s' raw) fun _ _ ↦ True := by
  rw [replyPacket]
  refine ensures_bind.2 (ensures_get.2 ?_)
  dsimp only
  split
  · next hversion =>
    rw [hs.version] at hversion
    cases hversion
  split
  · exact trivial
  · exact trivial
  refine ensures_bind_putOut (refreshes_refreshIfCarried E) hs fun _ s hs ↦ ?_
  refine ensures_encodeAttributes_bind_putOut hs fun body hbody ↦ ensures_bind.2 (ensures_get.2
    (ensures_bind.2 (ensures_liftM (fun front hfront ↦ ?_) fun _ _ ↦ trivial)))
  exact ⟨hs.version, _, body, wire_append hfront (E.md5_length _), hbody⟩

end

/-! ### What arrives -/

/-- The group is put out, and the two passes make the list of the values that go out for it. -/
structure Kept (D : Dictionary) (key : Key) (vs : List Bytes) : Prop where
  ne_nil : vs ≠ []
  notVirtual : D.isVirtualAttribute key = false
  finish : finishList D key (wireValues D key vs) = .vals vs

/-- The name is not one of a salt-encrypted attribute. -/
def Unsalted (D : Dictionary) (name : String) : Prop :=
  ∀ attr, D.lookup name = .ok attr → attr.encrypt ≠ 2

section

variable {E : Env} {D : Dictionary} {p q fields : Packet} {key : Key}
  {groups : OrderedDict Key (List Bytes)}

theorem HoldsLists.get?_eq (h : HoldsLists p D groups) (key : Key) :
    p.attrs.get? key = (groups.get? key).map fun vs ↦ .vals (vs.map .bytes) := by
  rw [h.attrs, OrderedDict.get?_mapValues]

/-- What the receiver stores under a key. -/
theorem get?_received_of_restores (raw : Bytes) {st : DecodeState}
    {stored : Key → Option (Stored Bytes)} (hdict : fields.dict = some D)
    (h : ∀ key, (finishAttributes (some D) st.attrs).get? key = stored key) (key : Key) :
    (received fields raw st).attrs.get? key = (stored key).map (Stored.map PyVal.bytes) := by
  show ((finishAttributes fields.dict st.attrs).mapValues _).get? key = _
  rw [OrderedDict.get?_mapValues, hdict, h]

/-- **What arrives.** A packet that holds lists of values goes out as a request or as a reply, and is
accepted wherever its bytes make a packet with the same dictionary. -/
theorem exists_received (fields : Packet) {s s' : PacketState} {raw : Bytes} (hs : Plaintext s)
    (hrun : (requestPacket E).run s = .ok raw s' ∨ (replyPacket E).run s = .ok raw s')
    (hlists : HoldsLists s'.pkt D groups) (hkeys : ∀ e ∈ groups.entries, IsAttributeKey e.1)
    (hlength : raw.length ≤ 8192) (hdict : fields.dict = some D)
    (hversion : fields.radiusVersion = .v1_0) (hflag : fields.messageAuthenticator = none)
    (w : World) : ∃ q w', (construct E fields (some raw) []).run w = .ok q w' ∧
      (q.code = s'.pkt.code ∧ q.id = s'.pkt.id ∧ q.secret = fields.secret) ∧
      (q.dict = some D ∧ q.radiusVersion = s'.pkt.radiusVersion) ∧
      ∀ key, q.attrs.get? key =
        (((onWire D groups).get? key).map (finishList D key)).map (Stored.map PyVal.bytes) := by
  have hput : PutOut s' raw := by
    rcases hrun with hrun | hrun
    · exact (putOut_requestPacket hs).of_run_eq_ok hrun
    · exact (putOut_replyPacket hs).of_run_eq_ok hrun
  obtain ⟨hsent, authenticator, body, hwire, hencode⟩ := hput
  have hrestores := restores_encodeStored hlists hkeys hencode
  obtain ⟨st, hst, hstored, -⟩ := hrestores.exists_run none
  have hdecoded : Decoded fields.dict raw st := by
    refine ⟨hwire.framed hlength, ?_⟩
    rw [hwire.body_eq, hdict]
    exact hst
  obtain ⟨w', hconstruct⟩ := exists_run_construct E hversion hflag hdecoded w
  exact ⟨_, w', hconstruct, ⟨hwire.wireCode_eq, hwire.id_eq.symm, rfl⟩,
    ⟨hdict, hversion.trans hsent.symm⟩, get?_received_of_restores raw hdict hstored⟩

/-- A key without flags keeps its values. -/
theorem PlainKey.kept (h : PlainKey D key) {vs : List Bytes} (hvs : vs ≠ []) : Kept D key vs where
  ne_nil := hvs
  notVirtual := h.notVirtual
  finish := by rw [h.wireValues_eq, h.finishList_eq]

end

/-- Every hash is zeros. -/
def zeroEnv : Env := Env.ofByte (fun _ ↦ 0) fun _ _ ↦ 0

/-- Both groups arrive: the array is taken apart again. -/
example : Kept groupsDictionary (.int 5) [[0, 0, 0, 1], [0, 0, 0, 2]] ∧
    Kept groupsDictionary (.tup [24757, 1]) [[1, 2]] := by
  have hplain : PlainKey groupsDictionary (.tup [24757, 1]) :=
    ⟨by decide, by decide, by decide, rfl, rfl, rfl⟩
  exact ⟨⟨by decide, rfl, rfl⟩, hplain.kept (by decide)⟩

end Packet

end Pyrad2
