import Pyrad2.Packet.Frame

/-!
# Access by name

Where a packet keeps the values of a name, and what becomes of them when a name is assigned.

A sub-attribute is declared below its parent chain: its values belong into the maps below the
outermost parent, and that is where `add_attribute` puts them. Reading, membership and assignment by
name go through one encoding of the name as a key of the packet instead. Of a sub-attribute that key
is its own code, so an assignment creates a top-level attribute with the code of the sub-attribute
and leaves the parent chain alone.
-/

namespace Pyrad2

open EStateM

variable {α : Type}

namespace Stored

/-- What is stored below a path of codes. -/
def descend : List Int → Stored α → Option (Stored α)
  | [], s => some s
  | _ :: _, vals _ => none
  | code :: path, node m => (Assoc.get? code m).bind (descend path)

/-- The values of a list. -/
def values? : Stored α → Option (List α)
  | vals vs => some vs
  | node _ => none

/-- The values below a path of codes. -/
def valuesBelow (path : List Int) (s : Stored α) : Option (List α) := (s.descend path).bind values?

@[simp] theorem valuesBelow_vals_nil (vs : List α) : (vals vs).valuesBelow [] = some vs := rfl

@[simp] theorem valuesBelow_vals_cons (code : Int) (path : List Int) (vs : List α) :
    (vals vs).valuesBelow (code :: path) = none := rfl

@[simp] theorem valuesBelow_node_nil (m : SubMap α) : (node m).valuesBelow [] = none := rfl

theorem valuesBelow_node_cons (code : Int) (path : List Int) (m : SubMap α) :
    (node m).valuesBelow (code :: path) = (Assoc.get? code m).bind (valuesBelow path) := by
  rw [valuesBelow, descend]
  rcases Assoc.get? code m with - | s <;> rfl

/-- An empty map holds nothing. -/
theorem valuesBelow_empty (path : List Int) : (node [] : Stored α).valuesBelow path = none := by
  cases path with
  | nil => rfl
  | cons code path => rfl

end Stored

namespace Packet

/-- Where values are stored: a key of the packet, and codes of the maps below it. -/
structure Location where
  key : Key
  path : List Int
  deriving DecidableEq

/-- The values that are stored in a location. -/
def valuesAt (attrs : Attrs α) (loc : Location) : Option (List α) :=
  (attrs.get? loc.key).bind (Stored.valuesBelow loc.path)

theorem valuesAt_set_self (attrs : Attrs α) (key : Key) (s : Stored α) (path : List Int) :
    valuesAt (attrs.set key s) ⟨key, path⟩ = s.valuesBelow path := by
  rw [valuesAt, OrderedDict.get?_set_self]
  rfl

theorem valuesAt_set_ne (attrs : Attrs α) {key : Key} (s : Stored α) {loc : Location}
    (h : loc.key ≠ key) : valuesAt (attrs.set key s) loc = valuesAt attrs loc := by
  rw [valuesAt, OrderedDict.get?_set_ne _ h, valuesAt]

end Packet

/-- The location a name is declared at: below the outermost attribute of its parent chain, or right
at its key. -/
def Dictionary.location (D : Dictionary) (name : String) : Except Exn Packet.Location := do
  let attr ← D.lookup name
  let chain ←
    if D.isTlvSubAttribute attr then Packet.parentChain D (D.heap.length + 1) (D.parentOf attr)
    else pure []
  match chain.reverse with
  | [] => return ⟨← D.encodeKey name, []⟩
  | top :: levels => return ⟨← D.encodeKey top.name, levels.map Attribute.code ++ [attr.code]⟩

/-- `Dictionary.location` of the dictionary of a packet. -/
def Packet.location (p : Packet) (name : String) : Except Exn Packet.Location := do
  (← p.theDict).location name

/-! ### Where add_attribute puts values -/

/-- One location has got more values, and no other has changed. -/
structure Appends (old new : List Int → Option (List α)) (path : List Int) (vs : List α) :
    Prop where
  appended : new path = some ((old path).getD [] ++ vs)
  others : ∀ path' ≠ path, new path' = old path'

theorem appends_extendNode {code : Int} {vs : List α} {m m' : SubMap α}
    (h : extendNode code vs m = .ok m') :
    Appends (fun path ↦ (Stored.node m).valuesBelow path)
      (fun path ↦ (Stored.node m').valuesBelow path) [code] vs := by
  have hset (old : List α) (hold : ((Assoc.get? code m).bind (Stored.valuesBelow [])).getD [] = old)
      (hdeep : ∀ c path, (Assoc.get? code m).bind (Stored.valuesBelow (c :: path)) = none) :
      Appends (fun path ↦ (Stored.node m).valuesBelow path)
        (fun path ↦ (Stored.node (Assoc.set code (.vals (old ++ vs)) m)).valuesBelow path)
        [code] vs := by
    constructor
    · rw [Stored.valuesBelow_node_cons, Stored.valuesBelow_node_cons, Assoc.get?_set_self, hold]
      rfl
    · rintro (- | ⟨c, path⟩) hne
      · rfl
      · rw [Stored.valuesBelow_node_cons, Stored.valuesBelow_node_cons, Assoc.get?_set]
        split
        · next hc =>
          subst hc
          obtain ⟨c', path, rfl⟩ : ∃ c' path', path = c' :: path' :=
            List.exists_cons_of_ne_nil fun hnil ↦ hne (by rw [hnil])
          rw [hdeep]
          rfl
        · rfl
  rw [extendNode] at h
  split at h
  · next hnone =>
    cases h
    exact hset [] (by rw [hnone]; rfl) fun c path ↦ by rw [hnone]; rfl
  · next old hold =>
    cases h
    exact hset old (by rw [hold]; rfl) fun c path ↦ by rw [hold]; rfl
  · cases h

theorem appends_extendPath {code : Int} {vs : List α} {path : List Int} {m m' : SubMap α}
    (h : extendPath code vs path m = .ok m') :
    Appends (fun path ↦ (Stored.node m).valuesBelow path)
      (fun path ↦ (Stored.node m').valuesBelow path) (path ++ [code]) vs := by
  induction path generalizing m m' with
  | nil => exact appends_extendNode h
  | cons level path ih =>
    -- what is below the level, and everything else about the map
    have hlevel {old new : SubMap α} (hnew : extendPath code vs path old = .ok new)
        (hold : ∀ p, (Assoc.get? level m).bind (Stored.valuesBelow p) =
          (Stored.node old).valuesBelow p) :
        Appends (fun path ↦ (Stored.node m).valuesBelow path)
          (fun path ↦ (Stored.node (Assoc.set level (.node new) m)).valuesBelow path)
          (level :: (path ++ [code])) vs := by
      have hrest := ih hnew
      constructor
      · rw [Stored.valuesBelow_node_cons, Stored.valuesBelow_node_cons, Assoc.get?_set_self, hold]
        exact hrest.appended
      · rintro (- | ⟨c, path'⟩) hne
        · rfl
        · rw [Stored.valuesBelow_node_cons, Stored.valuesBelow_node_cons, Assoc.get?_set]
          split
          · next hc =>
            subst hc
            rw [hold]
            exact hrest.others path' fun heq ↦ hne (by rw [heq])
          · rfl
    rw [extendPath] at h
    split at h
    · next hnone =>
      obtain ⟨new, hnew, heq⟩ := Except.bind_eq_ok_iff.1 h
      cases heq
      exact hlevel hnew fun p ↦ by rw [hnone, Stored.valuesBelow_empty]; rfl
    · next sub hsub =>
      obtain ⟨new, hnew, heq⟩ := Except.bind_eq_ok_iff.1 h
      cases heq
      exact hlevel hnew fun p ↦ by rw [hsub]; rfl
    · cases h

namespace Packet

theorem appends_extendTop {key : Key} {vs : List α} {attrs attrs' : Attrs α}
    (h : extendTop key vs attrs = .ok attrs') :
    valuesAt attrs' ⟨key, []⟩ = some ((valuesAt attrs ⟨key, []⟩).getD [] ++ vs) ∧
      ∀ loc ≠ ⟨key, []⟩, valuesAt attrs' loc = valuesAt attrs loc := by
  have hset (old : List α) (hold : (valuesAt attrs ⟨key, []⟩).getD [] = old)
      (hdeep : ∀ c path, valuesAt attrs ⟨key, c :: path⟩ = none) :
      valuesAt (attrs.set key (.vals (old ++ vs))) ⟨key, []⟩ =
          some ((valuesAt attrs ⟨key, []⟩).getD [] ++ vs) ∧
        ∀ loc ≠ ⟨key, []⟩, valuesAt (attrs.set key (.vals (old ++ vs))) loc =
          valuesAt attrs loc := by
    constructor
    · rw [valuesAt_set_self, hold]
      rfl
    · rintro ⟨key', path⟩ hne
      rcases eq_or_ne key' key with rfl | hkey
      · obtain ⟨c, path, rfl⟩ : ∃ c path', path = c :: path' :=
          List.exists_cons_of_ne_nil fun hnil ↦ hne (by rw [hnil])
        rw [valuesAt_set_self, hdeep]
        rfl
      · exact valuesAt_set_ne attrs _ hkey
  rw [extendTop] at h
  split at h
  · next hnone =>
    cases h
    exact hset [] (by rw [valuesAt, hnone]; rfl) fun c path ↦ by
      rw [valuesAt, hnone]
      rfl
  · next old hold =>
    cases h
    exact hset old (by rw [valuesAt, hold]; rfl) fun c path ↦ by
      rw [valuesAt, hold]
      rfl
  · cases h

section

variable {E : Env} {s s' : PacketState} {D : Dictionary} {name : String} {vs : List PyVal}
  {loc : Location}

/-- The key that values are stored under by name. -/
theorem encodeKey_of_run {key : Key} {encoded : List PyVal} (hdict : s.pkt.dict = some D)
    (h : (encodeKeyValues E name vs).run s = .ok (key, encoded) s') :
    D.encodeKey (partitionTag name).1 = .ok key := by
  obtain ⟨_, _, hget, h⟩ := run_bind_eq_ok_iff.1 h
  cases hget
  rw [Packet.theDict, hdict] at h
  obtain ⟨_, _, hD, h⟩ := run_bind_eq_ok_iff.1 h
  cases hD
  obtain ⟨attr, _, -, h⟩ := run_bind_eq_ok_iff.1 h
  obtain ⟨key', s₁, hkey, h⟩ := run_bind_eq_ok_iff.1 h
  obtain ⟨hkey, -⟩ := run_liftM_eq_ok_iff.1 hkey
  suffices heq : key' = key from heq ▸ hkey
  rw [run_ite] at h
  split at h
  · obtain ⟨_, _, -, h⟩ := run_bind_eq_ok_iff.1 h
    cases h
    rfl
  · obtain ⟨_, _, -, h⟩ := run_bind_eq_ok_iff.1 h
    cases h
    rfl

/-- The values are appended below the parent chain. -/
theorem appends_extendTlv {attr : Attribute} {key : Key} {encoded : List PyVal}
    {attrs attrs' : Attrs PyVal} (hkey : D.encodeKey name = .ok key)
    (hloc : (do
      let chain ← parentChain D (D.heap.length + 1) (D.parentOf attr)
      match chain.reverse with
      | [] => return ⟨← D.encodeKey name, []⟩
      | top :: levels =>
        return ⟨← D.encodeKey top.name, levels.map Attribute.code ++ [attr.code]⟩ :
          Except Exn Location) = .ok loc)
    (h : extendTlv D attr key encoded attrs = .ok attrs') :
    valuesAt attrs' loc = some ((valuesAt attrs loc).getD [] ++ encoded) ∧
      ∀ loc' ≠ loc, valuesAt attrs' loc' = valuesAt attrs loc' := by
  rw [extendTlv] at h
  obtain ⟨chain, hchain, h⟩ := Except.bind_eq_ok_iff.1 h
  rw [hchain, Except.bind_of_ok] at hloc
  split at h
  · next hnil =>
    rw [hnil] at hloc
    dsimp only at hloc
    rw [hkey] at hloc
    cases hloc
    exact appends_extendTop h
  · next top levels hcons =>
    rw [hcons] at hloc
    dsimp only at hloc
    obtain ⟨levelKey, hlevelKey, h⟩ := Except.bind_eq_ok_iff.1 h
    rw [hlevelKey] at hloc
    cases hloc
    -- the map below the outermost parent, which is empty if it is not there yet
    have hlevel {old new : SubMap PyVal}
        (hnew : extendPath attr.code encoded (levels.map Attribute.code) old = .ok new)
        (hold : ∀ path, valuesAt attrs ⟨levelKey, path⟩ = (Stored.node old).valuesBelow path) :
        valuesAt (attrs.set levelKey (.node new))
            ⟨levelKey, levels.map Attribute.code ++ [attr.code]⟩ =
          some ((valuesAt attrs ⟨levelKey, levels.map Attribute.code ++ [attr.code]⟩).getD [] ++
            encoded) ∧
        ∀ loc' ≠ (⟨levelKey, levels.map Attribute.code ++ [attr.code]⟩ : Location),
          valuesAt (attrs.set levelKey (.node new)) loc' = valuesAt attrs loc' := by
      have hrest := appends_extendPath hnew
      constructor
      · rw [valuesAt_set_self, hold]
        exact hrest.appended
      · rintro ⟨key', path⟩ hne
        rcases eq_or_ne key' levelKey with rfl | hkey'
        · rw [valuesAt_set_self, hold]
          exact hrest.others path fun heq ↦ hne (by rw [heq])
        · exact valuesAt_set_ne attrs _ hkey'
    split at h
    · next hnone =>
      obtain ⟨new, hnew, heq⟩ := Except.bind_eq_ok_iff.1 h
      cases heq
      exact hlevel hnew fun path ↦ by
        rw [valuesAt, hnone, Stored.valuesBelow_empty]
        rfl
    · next sub hsub =>
      obtain ⟨new, hnew, heq⟩ := Except.bind_eq_ok_iff.1 h
      cases heq
      exact hlevel hnew fun path ↦ by
        rw [valuesAt, hsub]
        rfl
    · cases h

/-- **Where `add_attribute` puts values**: they are appended to those at the declared location, and
no other location changes. -/
theorem valuesAt_of_run_addAttribute (hdict : s.pkt.dict = some D)
    (hloc : D.location (partitionTag name).1 = .ok loc)
    (h : (addAttribute E name vs).run s = .ok () s') :
    ∃ key encoded s₁, (encodeKeyValues E name vs).run s = .ok (key, encoded) s₁ ∧
      valuesAt s'.pkt.attrs loc = some ((valuesAt s.pkt.attrs loc).getD [] ++ encoded) ∧
      ∀ loc' ≠ loc, valuesAt s'.pkt.attrs loc' = valuesAt s.pkt.attrs loc' := by
  rw [addAttribute, run_bind_of_ok (run_get s), Packet.theDict, hdict] at h
  obtain ⟨_, s₀, hD, h⟩ := run_bind_eq_ok_iff.1 h
  cases hD
  obtain ⟨attr, s₀, hattr, h⟩ := run_bind_eq_ok_iff.1 h
  obtain ⟨hattr, hs₀⟩ := run_liftM_eq_ok_iff.1 hattr
  rw [hs₀] at h
  obtain ⟨⟨key, encoded⟩, s₁, hkeyValues, h⟩ := run_bind_eq_ok_iff.1 h
  have hkey := encodeKey_of_run hdict hkeyValues
  have hattrs : s₁.pkt.attrs = s.pkt.attrs := by
    obtain ⟨authenticator, hpkt, -⟩ := draws_encodeKeyValues E name vs s
    rw [after_of_ok hkeyValues] at hpkt
    rw [hpkt]
  refine ⟨key, encoded, s₁, hkeyValues, ?_⟩
  dsimp only at h
  rw [run_bind_of_ok (run_get s₁), hattrs] at h
  rw [Dictionary.location, hattr, Except.bind_of_ok] at hloc
  rw [run_ite] at h
  split at h
  · next hsub =>
    obtain ⟨attrs, s₂, hextend, h⟩ := run_bind_eq_ok_iff.1 h
    obtain ⟨hextend, -⟩ := run_liftM_eq_ok_iff.1 hextend
    cases h
    rw [if_pos hsub] at hloc
    exact appends_extendTlv hkey hloc hextend
  · next hsub =>
    obtain ⟨attrs, s₂, hextend, h⟩ := run_bind_eq_ok_iff.1 h
    obtain ⟨hextend, -⟩ := run_liftM_eq_ok_iff.1 hextend
    cases h
    rw [if_neg hsub, hkey] at hloc
    cases hloc
    exact appends_extendTop hextend

/-! ### Assigning a name -/

/-- What an assignment to a name should come to: the encoded values are at the declared location and
no other location has changed, the name is there and reads as what was assigned, and names declared
elsewhere are as before. -/
structure IsolatedAccess (E : Env) (name : String) (loc : Location) (vs encoded : List PyVal)
    (p p' : Packet) : Prop where
  stored : valuesAt p'.attrs loc = some encoded
  others : ∀ loc' ≠ loc, valuesAt p'.attrs loc' = valuesAt p.attrs loc'
  member : p'.contains name = .ok true
  reads : p'.getItem E name = .ok (.vals vs)
  elsewhere : ∀ other loc', p.location other = .ok loc' → loc' ≠ loc →
    p'.getItem E other = p.getItem E other ∧ p'.contains other = p.contains other

/-- There is nothing to assign: the encoded values are at the declared location and under the key as
well, the name reads as what is assigned, and an authenticator that the encoder draws changes no
other reading. The packet is `p`, and `p₁` once its values are encoded. -/
structure AlreadyAssigned (E : Env) (name : String) (loc : Location) (key : Key)
    (vs encoded : List PyVal) (p p₁ : Packet) : Prop where
  stored : valuesAt p.attrs loc = some encoded
  underKey : p.attrs.get? key = some (.vals encoded)
  reads : p₁.getItem E name = .ok (.vals vs)
  elsewhere : ∀ other loc', p.location other = .ok loc' → loc' ≠ loc →
    p₁.getItem E other = p.getItem E other

/-- A name that can be read is there. -/
theorem contains_of_getItem {p : Packet} {view : ItemView} (h : p.getItem E name = .ok view) :
    p.contains name = .ok true := by
  obtain ⟨D, hD, h⟩ := Except.bind_eq_ok_iff.1 h
  obtain ⟨key, hkey, h⟩ := Except.bind_eq_ok_iff.1 h
  have hencode : p.encodeKey name = .ok key := by
    rw [encodeKey, hD]
    exact hkey
  rw [contains, hencode]
  dsimp only at h ⊢
  split at h
  · next stored hstored =>
    rw [OrderedDict.contains, hstored]
    rfl
  · cases h

/-- **Assigning a sub-attribute by name** is isolated exactly when there is nothing to assign. -/
theorem isolatedAccess_iff {key : Key} {encoded : List PyVal}
    (_hloc : s.pkt.location name = .ok loc) (hnested : loc.path ≠ [])
    (hrun : (encodeKeyValues E name vs).run s = .ok (key, encoded) s') :
    IsolatedAccess E name loc vs encoded s.pkt (after (setItem E name vs) s).pkt ↔
      AlreadyAssigned E name loc key vs encoded s.pkt s'.pkt := by
  obtain ⟨authenticator, hpkt, -⟩ := draws_encodeKeyValues E name vs s
  rw [after_of_ok hrun] at hpkt
  have hattrs : s'.pkt.attrs = s.pkt.attrs := by rw [hpkt]
  have hafter : (after (setItem E name vs) s).pkt =
      { s'.pkt with attrs := s.pkt.attrs.set key (.vals encoded) } := by
    rw [setItem, after_bind_of_ok hrun, ← hattrs]
    rfl
  have hcontains (other : String) : s'.pkt.contains other = s.pkt.contains other := by
    rw [hpkt]
    rfl
  rw [hafter]
  -- under the key itself the values are found only if nothing changes
  have hsame (hkey : s.pkt.attrs.get? key = some (.vals encoded)) :
      { s'.pkt with attrs := s.pkt.attrs.set key (.vals encoded) } = s'.pkt := by
    rw [OrderedDict.set_of_get?_eq_some hkey, ← hattrs]
  constructor
  · intro h
    have htop : (⟨key, []⟩ : Location) ≠ loc := by
      rintro rfl
      exact hnested rfl
    have hvalues := h.others ⟨key, []⟩ htop
    rw [valuesAt_set_self] at hvalues
    have hkey : s.pkt.attrs.get? key = some (.vals encoded) := by
      rcases hget : s.pkt.attrs.get? key with - | stored | m
      · rw [valuesAt, hget] at hvalues
        cases hvalues
      · rw [valuesAt, hget] at hvalues
        cases hvalues
        rfl
      · rw [valuesAt, hget] at hvalues
        cases hvalues
    have hstored := h.stored
    have hreads := h.reads
    have helsewhere := h.elsewhere
    rw [hsame hkey] at hstored hreads helsewhere
    exact {
      stored := by rwa [hattrs] at hstored
      underKey := hkey
      reads := hreads
      elsewhere := fun other loc' hloc' hne ↦ (helsewhere other loc' hloc' hne).1 }
  · intro h
    rw [hsame h.underKey]
    exact {
      stored := by rw [hattrs]; exact h.stored
      others := fun loc' _ ↦ by rw [hattrs]
      member := contains_of_getItem h.reads
      reads := h.reads
      elsewhere := fun other loc' hloc' hne ↦
        ⟨h.elsewhere other loc' hloc' hne, hcontains other⟩ }

end

end Packet

/-- `Extended-Attribute-1` with a sub-attribute `1`, and a top-level attribute with code `1`. -/
def Dictionary.fragStatus : Dictionary where
  heap := [{ name := "Extended-Attribute-1", code := 241, type := .extended,
             subAttributes := OrderedDict.set ∅ 1 "Frag-Status" },
           { name := "Frag-Status", code := 1, type := .integer, isSubAttribute := true,
             parent := some 0 },
           { name := "User-Name", code := 1, type := .string }]
  attributes := ((OrderedDict.set ∅ "Extended-Attribute-1" 0).set "Frag-Status" 1).set "User-Name" 2
  attrindex := ((BiDict.empty.add "Extended-Attribute-1" (.int 241)).add "Frag-Status"
    (.tup [241, 1])).add "User-Name" (.int 1)
  vendors := BiDict.empty.add "" 0
  vendorFormats := ∅

namespace Packet

/-- A request over this dictionary. -/
def fragStatusRequest (attrs : Attrs PyVal) : PacketState where
  pkt := { cls := .auth, code := PacketType.accessRequest, secret := [1],
           dict := some .fragStatus, attrs }
  world := { rng := ⟨fun _ ↦ 0⟩ }

/-- A request that holds `5` below `Extended-Attribute-1` and under code `1`. -/
theorem isolatedAccess_fragStatusRequest :
    let E := Env.ofByte (fun _ ↦ 0) fun _ _ ↦ 0
    let encoded : List PyVal := [.bytes [0, 0, 0, 5]]
    let s := fragStatusRequest
      ((OrderedDict.set ∅ (.int 241) (.node [(1, .vals encoded)])).set (.int 1) (.vals encoded))
    IsolatedAccess E "Frag-Status" ⟨.int 241, [1]⟩ [.int 5] encoded s.pkt
      (after (setItem E "Frag-Status" [.int 5]) s).pkt := by
  intro E encoded s
  have hrun : (encodeKeyValues E "Frag-Status" [.int 5]).run s = .ok (.int 1, encoded) s := by rfl
  refine (isolatedAccess_iff (by rfl) (List.cons_ne_nil 1 []) hrun).2 ?_
  exact {
    stored := by rfl
    underKey := by rfl
    reads := by rfl
    elsewhere := fun _ _ _ _ ↦ rfl }

/-- `pkt["Frag-Status"] = 5` makes a `User-Name` appear. -/
theorem not_isolatedAccess_fragStatusRequest :
    let E := Env.ofByte (fun _ ↦ 0) fun _ _ ↦ 0
    let s := fragStatusRequest ∅
    ¬ IsolatedAccess E "Frag-Status" ⟨.int 241, [1]⟩ [.int 5] [.bytes [0, 0, 0, 5]] s.pkt
      (after (setItem E "Frag-Status" [.int 5]) s).pkt := by
  intro E s h
  have hname := (h.elsewhere "User-Name" ⟨.int 1, []⟩ (by rfl) (by decide)).2
  have hbefore : s.pkt.contains "User-Name" = .ok false := by rfl
  have hafter : (after (setItem E "Frag-Status" [.int 5]) s).pkt.contains "User-Name" =
      .ok true := by rfl
  rw [hbefore, hafter] at hname
  cases hname

end Packet

end Pyrad2
