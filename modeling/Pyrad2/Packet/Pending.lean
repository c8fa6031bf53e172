import Pyrad2.Packet.Emitted

/-!
# Pending values

What becomes of the values given through `set_obfuscated`.

They are encoded whenever the attributes are, and not stored. A value that is salt-encrypted draws a
salt each time, so two encodings of one packet differ. All others are encoded the same every time,
provided the packet has its authenticator.
-/

namespace Pyrad2

open EStateM

namespace Packet

/-! ### Where pending values go -/

section

variable {D : Dictionary} {attr : Attribute} {baseName : String}

/-- The key of a pending value, in the words of the loop that encodes it. -/
theorem deferredStorageKey_eq (h : D.lookup baseName = .ok attr) :
    deferredStorageKey D baseName =
      if D.isTlvSubAttribute attr then parentName D attr >>= D.encodeKey
      else D.encodeKey baseName := by
  rw [deferredStorageKey, h]
  rfl

/-- The keys of the map are among these. -/
def KeysIn {V : Type} (keys : List Key) (pending : OrderedDict Key V) : Prop :=
  ∀ key ∈ pending.keys, key ∈ keys

variable {V : Type} {keys : List Key}

theorem keysIn_empty : KeysIn keys (∅ : OrderedDict Key V) :=
  fun _ h ↦ (List.not_mem_nil h).elim

theorem KeysIn.set {pending : OrderedDict Key V} (h : KeysIn keys pending) {key : Key}
    (hkey : key ∈ keys) (v : V) : KeysIn keys (pending.set key v) := by
  intro key' hkey'
  rcases Assoc.mem_keys_set.1 hkey' with rfl | hmem
  · exact hkey
  · exact h key' hmem

theorem KeysIn.of_get? {pending : OrderedDict Key V} (h : KeysIn keys pending) {key : Key} {v : V}
    (hv : pending.get? key = some v) : key ∈ keys :=
  h key (OrderedDict.mem_keys_iff.2 ⟨v, hv⟩)

/-- The keys of the owned sub-codes are those of the pending values. -/
theorem keysIn_ownedSubCodes {names : List String} {owned : OrderedDict Key (List Int)}
    (hkeys : names.mapM (fun name ↦ deferredStorageKey D (partitionTag name).1) = .ok keys)
    (h : ownedSubCodes D names = .ok owned) : KeysIn keys owned := by
  refine Except.invariant_of_foldlM h keysIn_empty fun name hname b b' hb hstep ↦ ?_
  obtain ⟨attr, hattr, hrest⟩ := Except.bind_eq_ok_iff.1 hstep
  split at hrest
  · next htlv =>
    obtain ⟨parent, hparent, hrest⟩ := Except.bind_eq_ok_iff.1 hrest
    obtain ⟨key, hkey, heq⟩ := Except.bind_eq_ok_iff.1 hrest
    cases heq
    refine hb.set ?_ _
    obtain ⟨key', hmem, hkey'⟩ := Except.exists_mem_of_mapM hkeys hname
    rw [deferredStorageKey_eq hattr, if_pos htlv, hparent, Except.bind_of_ok, hkey] at hkey'
    cases hkey'
    exact hmem
  · cases hrest
    exact hb

theorem keysIn_extendTop {pending pending' : Attrs PyVal} (h : KeysIn keys pending) {key : Key}
    (hkey : key ∈ keys) {vs : List PyVal} (hpending : extendTop key vs pending = .ok pending') :
    KeysIn keys pending' := by
  rw [extendTop] at hpending
  split at hpending <;> cases hpending
  · exact h.set hkey _
  · exact h.set hkey _

theorem keysIn_addPending {pending pending' : Attrs PyVal} (h : KeysIn keys pending)
    (hattr : D.lookup baseName = .ok attr) {key : Key}
    (hkey : deferredStorageKey D baseName = .ok key) (hmem : key ∈ keys) {encoded : List PyVal}
    (hpending : addPending D attr baseName encoded pending = .ok pending') :
    KeysIn keys pending' := by
  rw [deferredStorageKey_eq hattr] at hkey
  rw [addPending] at hpending
  split at hpending
  · next htlv =>
    rw [if_pos htlv] at hkey
    obtain ⟨parent, hparent, hkey⟩ := Except.bind_eq_ok_iff.1 hkey
    rw [hparent, Except.bind_of_ok, hkey, Except.bind_of_ok] at hpending
    split at hpending
    · obtain ⟨m', -, heq⟩ := Except.bind_eq_ok_iff.1 hpending
      cases heq
      exact h.set hmem _
    · cases hpending
    · cases hpending
  · next htlv =>
    rw [if_neg htlv] at hkey
    rw [hkey, Except.bind_of_ok] at hpending
    exact keysIn_extendTop h hmem hpending

end

/-- The attributes have the types of these keys. -/
def HaveTypesOf (D : Option Dictionary) (keys : List Key) (b : Bytes) : Prop :=
  ∃ l, b = Avp.join l ∧ ∀ a ∈ l, ∃ key ∈ keys, IsCode (wireType D key) a.code

/-- Pending values are added under the keys of their names. -/
theorem ensures_addPending (E : Env) {D : Dictionary} {pendings : OrderedDict String (List PyVal)}
    {keys : List Key} (hnames : pendings.keys.mapM
      (fun name ↦ deferredStorageKey D (partitionTag name).1) = .ok keys)
    {seeded : Attrs PyVal} (hseeded : KeysIn keys seeded) (s : PacketState) :
    Ensures (pendings.entries.foldlM (fun pending (name, values) ↦ do
      let (baseName, tag) := partitionTag name
      let attr ← D.lookup baseName
      let encoded ← encodeDeferredValueList E attr values tag
      addPending D attr baseName encoded pending) seeded : PacketMethod (Attrs PyVal)) s
      (fun pending _ ↦ KeysIn keys pending) fun _ _ ↦ True := by
  refine ensures_foldlM hseeded fun e he pending s' hpending ↦ ?_
  have hname : e.1 ∈ pendings.keys := List.mem_map_of_mem he
  obtain ⟨key, hmem, hkey⟩ := Except.exists_mem_of_mapM hnames hname
  refine ensures_bind.2 (ensures_liftM (fun attr hattr ↦ ?_) fun _ _ ↦ trivial)
  refine ensures_bind.2 (ensures_of_forall (fun encoded s'' ↦ ?_) fun _ _ ↦ trivial)
  exact ensures_liftM (fun pending' hpending' ↦
    keysIn_addPending hpending hattr hkey hmem hpending') fun _ _ ↦ trivial

/-- **Pending values go out** under the keys they are pending for. -/
theorem ensures_encodeDeferredObfuscated (E : Env) {s : PacketState} {keys : List Key}
    (hkeys : s.pkt.deferredAttributeCodes = .ok keys) :
    Ensures (encodeDeferredObfuscated E) s (fun b _ ↦ HaveTypesOf s.pkt.dict keys b)
      fun _ _ ↦ True := by
  rw [encodeDeferredObfuscated]
  refine ensures_bind.2 (ensures_get.2 ?_)
  dsimp only
  split
  · exact ⟨[], rfl, fun a ha ↦ (List.not_mem_nil ha).elim⟩
  refine ensures_bind.2 (ensures_liftM (fun D hD ↦ ?_) fun _ _ ↦ trivial)
  have hnames : s.pkt.deferredObfuscated.keys.mapM
      (fun name ↦ deferredStorageKey D (partitionTag name).1) = .ok keys := by
    rw [← hkeys, deferredAttributeCodes, hD]
    rfl
  refine ensures_bind.2 (ensures_liftM (fun owned howned ↦ ?_) fun _ _ ↦ trivial)
  have hseeded : KeysIn keys (owned.entries.foldl (fun pending e ↦
      pending.set e.1 (s.pkt.seedParentFromStoredSiblings e.1 e.2)) (∅ : Attrs PyVal)) := by
    have hentries : ∀ e ∈ owned.entries, e.1 ∈ keys := fun e he ↦
      keysIn_ownedSubCodes hnames howned e.1 (List.mem_map_of_mem he)
    exact List.foldlRecOn owned.entries _ keysIn_empty fun pending hpending e he ↦
      hpending.set (hentries e he) _
  refine ensures_bind.2 ((ensures_addPending E hnames hseeded s).imp (fun pending s' hpending ↦ ?_)
    fun _ _ h ↦ h)
  refine ensures_bind.2 ?_
  rw [mapM_liftM]
  refine ensures_liftM (fun groups hgroups ↦ ?_) fun _ _ ↦ trivial
  refine ensures_pure.2 ?_
  rw [HaveTypesOf]
  refine exists_avps_flatten (P := fun a ↦ ∃ key ∈ keys, IsCode (wireType s.pkt.dict key) a.code)
    fun group hgroup ↦ ?_
  obtain ⟨e, he, hencode⟩ := Except.exists_of_mem_mapM hgroups hgroup
  have hkey : e.1 ∈ keys := hpending e.1 (List.mem_map_of_mem he)
  obtain ⟨l, hl, hcodes⟩ := (emits_encodeAvpGroup s.pkt e.1 e.2).exists_avps group hencode
  exact ⟨l, hl, fun a ha ↦ ⟨e.1, hkey, hcodes a ha⟩⟩

theorem dict_of_theDict {p : Packet} {D : Dictionary} (h : p.theDict = .ok D) :
    p.dict = some D := by
  rw [theDict] at h
  split at h
  · next hdict =>
    cases h
    exact hdict
  · cases h

/-! ### Encoding pending values twice -/

/-- Among the pending values none is salt-encrypted. A User-Password is encrypted in its own way. -/
def SaltFree (p : Packet) : Prop :=
  ∀ D, p.dict = some D → ∀ e ∈ p.deferredObfuscated.entries, ∀ attr,
    D.lookup (partitionTag e.1).1 = .ok attr → attr.encrypt = 2 → attr.code = 2 ∨ e.2 = []

/-- The packet is encoded twice alike: always under RADIUS/1.1; under RADIUS/1.0 if it has its
authenticator and none of the pending values is salt-encrypted. -/
structure Repeatable (p : Packet) : Prop where
  authenticated : p.radiusVersion = .v1_0 → p.cls = .auth → p.authenticator.isSome = true
  saltFree : p.radiusVersion = .v1_0 → p.SaltFree

theorem repeatable_v11 {p : Packet} (h : p.radiusVersion = .v1_1) : p.Repeatable where
  authenticated := fun h' ↦ by
    rw [h] at h'
    cases h'
  saltFree := fun h' ↦ by
    rw [h] at h'
    cases h'

/-- In all that the pending values are encoded from the packets are the same. Their identifiers and
flags may differ, and so may what they store; the authenticators, unless they hide a password. -/
structure Recoding (p q : Packet) : Prop where
  exists_eq : ∃ id authenticator flag attrs,
    q = { p with id, authenticator, messageAuthenticator := flag, attrs }
  authenticator_eq : p.cls = .auth → q.authenticator = p.authenticator

/-- The packet with other identifiers and attributes, in various worlds. -/
def recoded {ι : Type} (p : Packet) (ids : ι → Option ℕ) (attrs : ι → Attrs PyVal) (w : ι → World)
    (i : ι) : PacketState :=
  ⟨{ p with id := ids i, attrs := attrs i }, w i⟩

theorem recoding_recoded {ι : Type} (p : Packet) (ids : ι → Option ℕ) (attrs : ι → Attrs PyVal)
    (w : ι → World) (i : ι) : Recoding p (recoded p ids attrs w i).pkt :=
  ⟨⟨ids i, p.authenticator, p.messageAuthenticator, attrs i, rfl⟩, fun _ ↦ rfl⟩

theorem not_v11 {version : RadiusVersion} (h : version ≠ .v1_1) : version = .v1_0 := by
  rcases version
  · rfl
  · exact absurd rfl h

namespace Recoding

variable {p q : Packet} (h : Recoding p q)

include h

theorem radiusVersion_eq : q.radiusVersion = p.radiusVersion := by
  obtain ⟨id, authenticator, flag, attrs, rfl⟩ := h.exists_eq
  rfl

theorem cls_eq : q.cls = p.cls := by
  obtain ⟨id, authenticator, flag, attrs, rfl⟩ := h.exists_eq
  rfl

theorem secret_eq : q.secret = p.secret := by
  obtain ⟨id, authenticator, flag, attrs, rfl⟩ := h.exists_eq
  rfl

theorem dict_eq : q.dict = p.dict := by
  obtain ⟨id, authenticator, flag, attrs, rfl⟩ := h.exists_eq
  rfl

theorem theDict_eq : q.theDict = p.theDict := by rw [theDict, theDict, h.dict_eq]

theorem deferredObfuscated_eq : q.deferredObfuscated = p.deferredObfuscated := by
  obtain ⟨id, authenticator, flag, attrs, rfl⟩ := h.exists_eq
  rfl

theorem deferredAttributeCodes_eq : q.deferredAttributeCodes = p.deferredAttributeCodes := by
  obtain ⟨id, authenticator, flag, attrs, rfl⟩ := h.exists_eq
  rfl

theorem encodeAvpGroup_eq (key : Key) (stored : Stored PyVal) :
    q.encodeAvpGroup key stored = p.encodeAvpGroup key stored := by
  obtain ⟨id, authenticator, flag, attrs, rfl⟩ := h.exists_eq
  rfl

omit h in
theorem seedParentFromStoredSiblings_eq (hattrs : q.attrs = p.attrs) (key : Key) (owned : List Int) :
    q.seedParentFromStoredSiblings key owned = p.seedParentFromStoredSiblings key owned := by
  rw [seedParentFromStoredSiblings, seedParentFromStoredSiblings, hattrs]

theorem encodeStored_eq (hattrs : q.attrs = p.attrs) (deferred : List Key) :
    q.encodeStored deferred = p.encodeStored deferred := by
  obtain ⟨id, authenticator, flag, attrs, rfl⟩ := h.exists_eq
  have hsame : attrs = p.attrs := hattrs
  subst hsame
  rfl

end Recoding

section

variable {ι : Type} {E : Env} {p : Packet} {S : ι → PacketState}

theorem uniform_ensureAuthenticator (hS : ∀ i, Recoding p (S i).pkt) (hcls : p.cls = .auth)
    (hauth : p.authenticator.isSome = true) : Uniform S ensureAuthenticator := by
  have hnone (i : ι) : (S i).pkt.authenticator.isNone = false := by
    rw [(hS i).authenticator_eq hcls, Option.isNone_eq_false_iff]
    exact hauth
  refine uniform_get_bind (uniform_pure ⟨⟩) fun i ↦ ?_
  rw [if_neg (by rw [hnone i]; decide)]

theorem uniform_pwCrypt (hS : ∀ i, Recoding p (S i).pkt) (hcls : p.cls = .auth)
    (hauth : p.authenticator.isSome = true) (password : PyVal) :
    Uniform S (pwCrypt E password) := by
  have hcrypted (buf : Bytes) : Uniform S (do
      let p := (← get).pkt
      return .bytes (saltBlocks E p.secret (p.authenticator.getD []) (Bytes.chunksOf 16 buf)) :
      PacketMethod PyVal) := by
    refine uniform_get_bind (uniform_pure (.bytes (saltBlocks E p.secret (p.authenticator.getD [])
      (Bytes.chunksOf 16 buf)))) fun i ↦ ?_
    dsimp only
    rw [(hS i).secret_eq, (hS i).authenticator_eq hcls]
  have hbytes (password : PyVal) : Uniform S (do
      if (← get).pkt.radiusVersion = .v1_1 then return password
      ensureAuthenticator
      let n ← password.len
      let buf := (← password.asBytes) ++
        (if n % 16 ≠ 0 then List.replicate (16 - n % 16) 0 else [])
      let p := (← get).pkt
      return .bytes (saltBlocks E p.secret (p.authenticator.getD []) (Bytes.chunksOf 16 buf)) :
      PacketMethod PyVal) := by
    by_cases hversion : p.radiusVersion = .v1_1
    · refine uniform_get_bind (uniform_pure password) fun i ↦ ?_
      rw [(hS i).radiusVersion_eq, if_pos hversion]
    refine uniform_get_bind ?_ fun i ↦ by rw [(hS i).radiusVersion_eq, if_neg hversion]
    refine (uniform_ensureAuthenticator hS hcls hauth).bind fun _ ↦ (uniform_liftM _).bind fun n ↦
      (uniform_liftM _).bind fun b ↦ ?_
    exact hcrypted _
  unfold pwCrypt
  exact hbytes _

/-- A value that is not salt-encrypted. -/
theorem uniform_encodeValue (hS : ∀ i, Recoding p (S i).pkt) {attr : Attribute}
    (h : attr.encrypt = 2 → p.radiusVersion = .v1_1) (v : PyVal) :
    Uniform S (encodeValue E attr v) := by
  have hresult (result : PyVal) : Uniform S (do
      if attr.encrypt = 2 ∧ (← get).pkt.radiusVersion ≠ .v1_1 then
        return .bytes (← saltCrypt E result)
      return result) := by
    refine uniform_get_bind (uniform_pure result) fun i ↦ ?_
    rw [(hS i).radiusVersion_eq]
    exact if_neg fun hand ↦ hand.2 (h hand.1)
  rw [encodeValue]
  split
  · exact hresult _
  · exact (uniform_liftM _).bind hresult

theorem uniform_encodeDeferredValueList (hS : ∀ i, Recoding p (S i).pkt)
    (hauth : p.radiusVersion = .v1_0 → p.cls = .auth → p.authenticator.isSome = true)
    {attr : Attribute} {values : List PyVal}
    (hsalt : p.radiusVersion = .v1_0 → attr.encrypt = 2 → attr.code = 2 ∨ values = [])
    (tag : String) :
    Uniform S (encodeDeferredValueList E attr values tag) := by
  have htagged (encoded : PyVal) : Uniform S (do
      if tag = "" then return encoded
      prependTag attr tag encoded : PacketMethod PyVal) := by
    split
    · exact uniform_pure _
    · exact uniform_liftM _
  have hvalues : Uniform S (values.mapM fun value ↦ (do
      let encoded ←
        if (attr.code = 2 ∨ attr.encrypt = 1) ∧ p.radiusVersion ≠ .v1_1 then
          if p.cls ≠ .auth then
            throw (.packetError ("set_obfuscated requires an AuthPacket for " ++
              "User-Password obfuscation in RADIUS/1.0"))
          pwCrypt E value
        else encodeValue E attr value
      if tag = "" then return encoded
      prependTag attr tag encoded : PacketMethod PyVal)) := by
    refine uniform_mapM fun value hvalue ↦ ?_
    dsimp only
    split
    · next hcrypt =>
      split
      · exact uniform_throw_bind _ _
      · next hcls =>
        have hcls := not_not.1 hcls
        exact (uniform_pwCrypt hS hcls (hauth (not_v11 hcrypt.2) hcls) value).bind htagged
    · next hplain =>
      have hencrypt : attr.encrypt = 2 → p.radiusVersion = .v1_1 := by
        intro h2
        by_contra hversion
        rcases hsalt (not_v11 hversion) h2 with hcode | rfl
        · exact hplain ⟨.inl hcode, hversion⟩
        · exact List.not_mem_nil hvalue
      exact (uniform_encodeValue hS hencrypt value).bind htagged
  rw [encodeDeferredValueList]
  refine uniform_get_bind hvalues fun i ↦ ?_
  dsimp only
  rw [(hS i).radiusVersion_eq, (hS i).cls_eq]

/-- The encoding of the pending values, from the packet as it was. -/
theorem uniform_pendingGroups (hS : ∀ i, Recoding p (S i).pkt) (h : p.Repeatable) :
    Uniform S (do
      if p.deferredObfuscated.entries = [] then return []
      let D ← p.theDict
      let owned ← ownedSubCodes D p.deferredObfuscated.keys
      let seeded : Attrs PyVal := owned.entries.foldl (fun pending e ↦
        pending.set e.1 (p.seedParentFromStoredSiblings e.1 e.2)) ∅
      let pending ← p.deferredObfuscated.entries.foldlM (fun pending (name, values) ↦ do
        let (baseName, tag) := partitionTag name
        let attr ← D.lookup baseName
        let encoded ← encodeDeferredValueList E attr values tag
        addPending D attr baseName encoded pending) seeded
      let groups ← pending.entries.mapM fun (key, stored) ↦ do
        p.encodeAvpGroup key stored
      return groups.flatten : PacketMethod Bytes) := by
  split
  · exact uniform_pure _
  refine uniform_liftM_bind fun D hD ↦ ?_
  have hdict : p.dict = some D := dict_of_theDict hD
  refine (uniform_liftM _).bind fun owned ↦ ?_
  refine (uniform_foldlM _ fun pending e he ↦ ?_).bind fun pending ↦ ?_
  · refine uniform_liftM_bind fun attr hattr ↦ ?_
    have hsalt (hversion : p.radiusVersion = .v1_0) : attr.encrypt = 2 → attr.code = 2 ∨ e.2 = [] :=
      h.saltFree hversion D hdict e he attr hattr
    exact (uniform_encodeDeferredValueList hS h.authenticated hsalt _).bind fun _ ↦ uniform_liftM _
  · exact (uniform_mapM fun _ _ ↦ uniform_liftM _).bind fun _ ↦ uniform_pure _

/-- **Encoded twice alike.** The pending values of packets with the same siblings stored. -/
theorem uniform_encodeDeferredObfuscated (hS : ∀ i, Recoding p (S i).pkt) (h : p.Repeatable)
    (hseed : ∀ i key owned, (S i).pkt.seedParentFromStoredSiblings key owned =
      p.seedParentFromStoredSiblings key owned) :
    Uniform S (encodeDeferredObfuscated E) := by
  rw [encodeDeferredObfuscated]
  refine uniform_get_bind (uniform_pendingGroups (E := E) hS h) fun i ↦ ?_
  dsimp only
  simp only [hseed, (hS i).deferredObfuscated_eq, (hS i).theDict_eq, (hS i).encodeAvpGroup_eq]

/-- The attributes of the packet go out the same whatever its identifier is. -/
theorem uniform_encodeAttributes (hS : ∀ i, Recoding p (S i).pkt) (h : p.Repeatable)
    (hattrs : ∀ i, (S i).pkt.attrs = p.attrs) : Uniform S (encodeAttributes E) := by
  have hattributes : Uniform S (do
      let stored ← p.encodeStored (← p.deferredAttributeCodes)
      return stored ++ (← encodeDeferredObfuscated E) : PacketMethod Bytes) :=
    (uniform_liftM _).bind fun _ ↦ (uniform_liftM _).bind fun _ ↦
      (uniform_encodeDeferredObfuscated hS h fun i ↦
        Recoding.seedParentFromStoredSiblings_eq (hattrs i)).bind fun _ ↦ uniform_pure _
  rw [encodeAttributes]
  refine uniform_get_bind hattributes fun i ↦ ?_
  simp only [(hS i).deferredAttributeCodes_eq, (hS i).encodeStored_eq (hattrs i)]

end

end Packet

end Pyrad2
