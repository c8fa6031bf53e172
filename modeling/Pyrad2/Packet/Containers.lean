import Pyrad2.Packet.TlvTrees

/-!
# Reading containers

A container is read as a map from the names of its sub-attributes. The map is put together one
sub-attribute after the other. Where no name comes twice, each adds an entry at the end and leaves
those before it alone. A sub-attribute that the dictionary does not know has no name to be entered
under, and the reading ends there.
-/

namespace Pyrad2

/-- A declared sub-attribute: its name, and what the name stands for. -/
def Dictionary.subAttribute? (D : Dictionary) (container : Attribute) (code : Int) :
    Option (String × Attribute) :=
  (container.subAttributes.get? code).bind fun name ↦ (D.attribute? name).map fun sub ↦ (name, sub)

namespace Packet

variable (E : Env) (p : Packet) (D : Dictionary)

mutual

/-- A map shows the sub-attributes of a container: for each that is declared and holds anything, its
name with its decoded values, in their order. -/
def ShowsMap (container : Attribute) : SubMap PyVal → List (String × ItemView) → Prop
  | [], r => r = []
  | (code, stored) :: rest, r => ∃ shown r', r = shown ++ r' ∧
    ShowsEntry container code stored shown ∧ ShowsMap container rest r'
  termination_by structural m => m

/-- What is shown of one sub-attribute. -/
def ShowsEntry (container : Attribute) (code : Int) :
    Stored PyVal → List (String × ItemView) → Prop
  | .vals vs, shown => match D.subAttribute? container code with
    | none => shown = []
    | some (name, sub) => ∃ ds, vs.mapM (decodeValue E p sub) = .ok ds ∧
      shown = if ds = [] then [] else [(name, .vals ds)]
  | .node m, shown => match D.subAttribute? container code with
    | none => shown = []
    | some (name, sub) => ∃ r, ShowsMap sub m r ∧ shown = [(name, .map r)]
  termination_by structural stored => stored

end

/-- The names that sub-attributes with anything in them are shown under. -/
def shownName (container : Attribute) (e : Int × Stored PyVal) : Option String :=
  match e.2 with
  | .vals [] => none
  | _ => (D.subAttribute? container e.1).map Prod.fst

mutual

/-- Every sub-attribute is declared, at every depth, and no two of a container have one name. -/
def KnownMap (container : Attribute) : SubMap PyVal → Prop
  | [] => True
  | (code, stored) :: rest => KnownEntry container code stored ∧
    (∀ name ∈ shownName D container (code, stored),
      name ∉ rest.filterMap (shownName D container)) ∧ KnownMap container rest
  termination_by structural m => m

/-- One sub-attribute is declared, with everything below it. -/
def KnownEntry (container : Attribute) (code : Int) : Stored PyVal → Prop
  | .vals _ => ∃ name sub, D.subAttribute? container code = some (name, sub)
  | .node m => ∃ name sub, D.subAttribute? container code = some (name, sub) ∧ KnownMap sub m
  termination_by structural stored => stored

end

mutual

/-- The values of declared sub-attributes are valid for their types, at every depth. -/
def ValidMap (container : Attribute) : SubMap PyVal → Prop
  | [] => True
  | (code, stored) :: rest => ValidEntry container code stored ∧ ValidMap container rest
  termination_by structural m => m

/-- The values of one sub-attribute are valid. -/
def ValidEntry (container : Attribute) (code : Int) : Stored PyVal → Prop
  | .vals vs => ∀ name sub, D.subAttribute? container code = some (name, sub) →
    ∀ v ∈ vs, ∃ d, decodeValue E p sub v = .ok d
  | .node m => ∀ name sub, D.subAttribute? container code = some (name, sub) → ValidMap sub m
  termination_by structural stored => stored

end

variable {E p D} {container : Attribute} {code : Int}

/-! ### One sub-attribute -/

theorem decodeContainerEntry_of_unknown (h : D.subAttribute? container code = none)
    (stored : Stored PyVal) (result : List (String × ItemView)) :
    decodeContainerEntry E p D container code stored result = .error .keyError := by
  rcases hname : container.subAttributes.get? code with - | name
  · rcases stored with vs | m
    · rw [decodeContainerEntry, hname]
      rfl
    · rw [decodeContainerEntry, hname]
      rfl
  · have hlookup : D.lookup name = .error .keyError := by
      rw [Dictionary.subAttribute?, hname, Option.bind_some, Option.map_eq_none_iff] at h
      rw [Dictionary.lookup, h]
    rcases stored with vs | m
    · rw [decodeContainerEntry, hname]
      dsimp only
      rw [hlookup]
      rfl
    · rw [decodeContainerEntry, hname]
      dsimp only
      rw [hlookup]
      rfl

/-- Add a decoded value to those under a name. -/
def addShown (name : String) (result : List (String × ItemView)) (decoded : PyVal) :
    Except Exn (List (String × ItemView)) :=
  match Assoc.get? name result with
  | none => return Assoc.set name (.vals [decoded]) result
  | some (.vals old) => return Assoc.set name (.vals (old ++ [decoded])) result
  | some (.map _) => throw .attributeError

theorem of_subAttribute? {name : String} {sub : Attribute}
    (h : D.subAttribute? container code = some (name, sub)) :
    container.subAttributes.get? code = some name ∧ D.lookup name = .ok sub := by
  obtain ⟨name', hname, hsub⟩ := Option.bind_eq_some_iff.1 h
  obtain ⟨sub', hsub', hpair⟩ := Option.map_eq_some_iff.1 hsub
  cases hpair
  exact ⟨hname, by rw [Dictionary.lookup, hsub']⟩

theorem decodeContainerEntry_vals {name : String} {sub : Attribute}
    (h : D.subAttribute? container code = some (name, sub)) (vs : List PyVal)
    (result : List (String × ItemView)) :
    decodeContainerEntry E p D container code (.vals vs) result =
      vs.foldlM (fun result v ↦ decodeValue E p sub v >>= addShown name result) result := by
  obtain ⟨hname, hsub⟩ := of_subAttribute? h
  rw [decodeContainerEntry, hname]
  dsimp only
  rw [hsub]
  rfl

theorem decodeContainerEntry_node {name : String} {sub : Attribute}
    (h : D.subAttribute? container code = some (name, sub)) (m : SubMap PyVal)
    (result : List (String × ItemView)) :
    decodeContainerEntry E p D container code (.node m) result =
      (decodeContainerValues E p D sub m []).map fun r ↦ Assoc.set name (.map r) result := by
  obtain ⟨hname, hsub⟩ := of_subAttribute? h
  rw [decodeContainerEntry, hname]
  dsimp only
  rw [hsub, Except.bind_of_ok]
  rcases decodeContainerValues E p D sub m [] with e | r
  · rfl
  · rfl

/-! ### What stands before stays -/

theorem addShown_append {name : String} {front : List (String × ItemView)}
    (h : name ∉ Assoc.keys front) (result : List (String × ItemView)) (d : PyVal) :
    addShown name (front ++ result) d = (addShown name result d).map (front ++ ·) := by
  rw [addShown, addShown, Assoc.get?_append_of_not_mem h]
  rcases Assoc.get? name result with - | old | m
  · exact congrArg Except.ok (Assoc.set_append_of_not_mem h _ _)
  · exact congrArg Except.ok (Assoc.set_append_of_not_mem h _ _)
  · rfl

theorem foldlM_addShown_append {name : String} {front : List (String × ItemView)}
    (h : name ∉ Assoc.keys front) (sub : Attribute) (vs : List PyVal)
    (result : List (String × ItemView)) :
    vs.foldlM (fun result v ↦ decodeValue E p sub v >>= addShown name result) (front ++ result) =
      (vs.foldlM (fun result v ↦ decodeValue E p sub v >>= addShown name result) result).map
        (front ++ ·) := by
  induction vs generalizing result with
  | nil => rfl
  | cons v vs ih =>
    rw [List.foldlM_cons, List.foldlM_cons]
    rcases decodeValue E p sub v with e | d
    · rfl
    · rw [Except.bind_of_ok, Except.bind_of_ok, addShown_append h]
      rcases addShown name result d with e | result
      · rfl
      · exact ih result

theorem decodeContainerEntry_append {stored : Stored PyVal} {front : List (String × ItemView)}
    (h : ∀ name ∈ shownName D container (code, stored), name ∉ Assoc.keys front)
    (result : List (String × ItemView)) :
    decodeContainerEntry E p D container code stored (front ++ result) =
      (decodeContainerEntry E p D container code stored result).map (front ++ ·) := by
  rcases hsub : D.subAttribute? container code with - | ⟨name, sub⟩
  · rw [decodeContainerEntry_of_unknown hsub, decodeContainerEntry_of_unknown hsub]
    rfl
  rcases stored with (- | ⟨v, vs⟩) | m
  · rw [decodeContainerEntry_vals hsub, decodeContainerEntry_vals hsub]
    rfl
  · rw [decodeContainerEntry_vals hsub, decodeContainerEntry_vals hsub]
    exact foldlM_addShown_append (h name (by simp [shownName, hsub])) sub _ _
  · rw [decodeContainerEntry_node hsub, decodeContainerEntry_node hsub]
    have hname := h name (by simp [shownName, hsub])
    rcases decodeContainerValues E p D sub m [] with e | r
    · rfl
    · exact congrArg Except.ok (Assoc.set_append_of_not_mem hname _ _)

theorem decodeContainerValues_append {m : SubMap PyVal} {front : List (String × ItemView)}
    (h : ∀ name ∈ m.filterMap (shownName D container), name ∉ Assoc.keys front)
    (result : List (String × ItemView)) :
    decodeContainerValues E p D container m (front ++ result) =
      (decodeContainerValues E p D container m result).map (front ++ ·) := by
  induction m generalizing result with
  | nil => rfl
  | cons e m ih =>
    obtain ⟨code, stored⟩ := e
    have hfirst : ∀ name ∈ shownName D container (code, stored), name ∉ Assoc.keys front :=
      fun name hname ↦ h name (List.mem_filterMap.2 ⟨_, List.mem_cons_self, hname⟩)
    have hrest : ∀ name ∈ m.filterMap (shownName D container), name ∉ Assoc.keys front := by
      intro name hname
      obtain ⟨e, he, hname⟩ := List.mem_filterMap.1 hname
      exact h name (List.mem_filterMap.2 ⟨e, List.mem_cons_of_mem _ he, hname⟩)
    rw [decodeContainerValues, decodeContainerValues, decodeContainerEntry_append hfirst]
    rcases decodeContainerEntry E p D container code stored result with e | result
    · rfl
    · exact ih hrest result

/-! ### One sub-attribute alone -/

/-- A list of values under a name, unless it is empty. -/
def shownValues (name : String) (ds : List PyVal) : List (String × ItemView) :=
  if ds = [] then [] else [(name, .vals ds)]

theorem foldlM_addShown {name : String} (sub : Attribute) (vs old : List PyVal) :
    vs.foldlM (fun result v ↦ decodeValue E p sub v >>= addShown name result)
        [(name, .vals old)] =
      (vs.mapM (decodeValue E p sub)).map fun ds ↦ [(name, .vals (old ++ ds))] := by
  induction vs generalizing old with
  | nil => exact congrArg (fun l ↦ Except.ok [(name, ItemView.vals l)]) (List.append_nil old).symm
  | cons v vs ih =>
    rw [List.foldlM_cons, List.mapM_cons]
    rcases decodeValue E p sub v with e | d
    · rfl
    · have hadd : addShown name [(name, .vals old)] d = .ok [(name, .vals (old ++ [d]))] := by
        simp [addShown, Assoc.set]
        rfl
      rw [Except.bind_of_ok, Except.bind_of_ok, hadd, Except.bind_of_ok, ih]
      rcases vs.mapM (decodeValue E p sub) with e | ds
      · rfl
      · exact congrArg (fun l ↦ Except.ok [(name, ItemView.vals l)])
          (List.append_assoc old [d] ds)

/-- The values of a sub-attribute. -/
theorem decodeContainerEntry_vals_nil {name : String} {sub : Attribute}
    (h : D.subAttribute? container code = some (name, sub)) (vs : List PyVal) :
    decodeContainerEntry E p D container code (.vals vs) [] =
      (vs.mapM (decodeValue E p sub)).map (shownValues name) := by
  rw [decodeContainerEntry_vals h]
  rcases vs with - | ⟨v, vs⟩
  · rfl
  · rw [List.foldlM_cons, List.mapM_cons]
    rcases decodeValue E p sub v with e | d
    · rfl
    · have hadd : addShown name [] d = .ok [(name, .vals [d])] := rfl
      rw [Except.bind_of_ok, Except.bind_of_ok, hadd, Except.bind_of_ok, foldlM_addShown]
      rcases vs.mapM (decodeValue E p sub) with e | ds
      · rfl
      · rfl

theorem keys_shownValues {name : String} {ds : List PyVal} (hds : ds ≠ []) :
    Assoc.keys (shownValues name ds) = [name] := by
  rw [shownValues, if_neg hds]
  rfl

theorem ne_nil_of_mapM {f : PyVal → Except Exn PyVal} {v : PyVal} {vs ds : List PyVal}
    (h : (v :: vs).mapM f = .ok ds) : ds ≠ [] := by
  rintro rfl
  exact absurd (Except.forall₂_of_mapM_eq_ok h) (by simp)

/-- What is shown of one sub-attribute is under its name. -/
theorem keys_of_decodeContainerEntry {stored : Stored PyVal} {r : List (String × ItemView)}
    (h : decodeContainerEntry E p D container code stored [] = .ok r) :
    Assoc.keys r = (shownName D container (code, stored)).toList := by
  rcases hsub : D.subAttribute? container code with - | ⟨name, sub⟩
  · rw [decodeContainerEntry_of_unknown hsub] at h
    cases h
  rcases stored with vs | m
  · rw [decodeContainerEntry_vals_nil hsub] at h
    rcases hds : vs.mapM (decodeValue E p sub) with e | ds
    · rw [hds] at h
      cases h
    · rw [hds] at h
      cases h
      rcases vs with - | ⟨v, vs⟩
      · cases hds
        rfl
      · rw [keys_shownValues (ne_nil_of_mapM hds), shownName]
        simp [hsub]
  · rw [decodeContainerEntry_node hsub] at h
    rcases hr : decodeContainerValues E p D sub m [] with e | r
    · rw [hr] at h
      cases h
    · rw [hr] at h
      cases h
      simp [shownName, hsub, Assoc.set]

/-- A container whose names are different is read one sub-attribute after the other. -/
theorem decodeContainerValues_cons {stored : Stored PyVal} {rest : SubMap PyVal}
    (h : ∀ name ∈ shownName D container (code, stored),
      name ∉ rest.filterMap (shownName D container)) :
    decodeContainerValues E p D container ((code, stored) :: rest) [] =
      decodeContainerEntry E p D container code stored [] >>= fun shown ↦
        (decodeContainerValues E p D container rest []).map (shown ++ ·) := by
  rw [decodeContainerValues]
  rcases hshown : decodeContainerEntry E p D container code stored [] with e | shown
  · rfl
  · have hkeys := keys_of_decodeContainerEntry hshown
    have hfront : ∀ name ∈ rest.filterMap (shownName D container), name ∉ Assoc.keys shown := by
      intro name hname hmem
      rw [hkeys, Option.mem_toList] at hmem
      exact h name hmem hname
    have happend : decodeContainerValues E p D container rest (shown ++ []) =
        (decodeContainerValues E p D container rest []).map (shown ++ ·) :=
      decodeContainerValues_append hfront []
    rw [List.append_nil] at happend
    exact happend

/-! ### No name twice -/

theorem nodup_of_addShown {name : String} {result result' : List (String × ItemView)} {d : PyVal}
    (hresult : (Assoc.keys result).Nodup) (h : addShown name result d = .ok result') :
    (Assoc.keys result').Nodup := by
  rw [addShown] at h
  split at h
  · cases h
    exact Assoc.nodup_keys_set hresult _ _
  · cases h
    exact Assoc.nodup_keys_set hresult _ _
  · cases h

theorem nodup_of_foldlM_addShown {name : String} {sub : Attribute} {vs : List PyVal}
    {result result' : List (String × ItemView)} (hresult : (Assoc.keys result).Nodup)
    (h : vs.foldlM (fun result v ↦ decodeValue E p sub v >>= addShown name result) result =
      .ok result') : (Assoc.keys result').Nodup := by
  induction vs generalizing result with
  | nil =>
    cases h
    exact hresult
  | cons v vs ih =>
    rw [List.foldlM_cons] at h
    obtain ⟨result₁, hfirst, hrest⟩ := Except.bind_eq_ok_iff.1 h
    obtain ⟨d, -, hadd⟩ := Except.bind_eq_ok_iff.1 hfirst
    exact ih (nodup_of_addShown hresult hadd) hrest

theorem nodup_of_decodeContainerEntry {stored : Stored PyVal}
    {result result' : List (String × ItemView)} (hresult : (Assoc.keys result).Nodup)
    (h : decodeContainerEntry E p D container code stored result = .ok result') :
    (Assoc.keys result').Nodup := by
  rcases hsub : D.subAttribute? container code with - | ⟨name, sub⟩
  · rw [decodeContainerEntry_of_unknown hsub] at h
    cases h
  rcases stored with vs | m
  · rw [decodeContainerEntry_vals hsub] at h
    exact nodup_of_foldlM_addShown hresult h
  · rw [decodeContainerEntry_node hsub] at h
    rcases hr : decodeContainerValues E p D sub m [] with e | r
    · rw [hr] at h
      cases h
    · rw [hr] at h
      cases h
      exact Assoc.nodup_keys_set hresult _ _

/-- A map that is read has no name twice. -/
theorem nodup_of_decodeContainerValues {m : SubMap PyVal} {result result' : List (String × ItemView)}
    (hresult : (Assoc.keys result).Nodup)
    (h : decodeContainerValues E p D container m result = .ok result') :
    (Assoc.keys result').Nodup := by
  induction m generalizing result with
  | nil =>
    cases h
    exact hresult
  | cons e m ih =>
    obtain ⟨code, stored⟩ := e
    rw [decodeContainerValues] at h
    obtain ⟨result₁, hfirst, hrest⟩ := Except.bind_eq_ok_iff.1 h
    exact ih (nodup_of_decodeContainerEntry hresult hfirst) hrest

/-- Every sub-attribute with values that a map shows stands in it under its name. -/
theorem ShowsEntry.keys_eq {stored : Stored PyVal} {shown : List (String × ItemView)}
    (h : ShowsEntry E p D container code stored shown) :
    Assoc.keys shown = (shownName D container (code, stored)).toList := by
  rcases stored with vs | m
  · rw [ShowsEntry] at h
    rcases hsub : D.subAttribute? container code with - | ⟨name, sub⟩
    · rw [hsub] at h
      subst h
      rcases vs with - | ⟨v, vs⟩ <;> simp [shownName, hsub]
    · rw [hsub] at h
      obtain ⟨ds, hds, rfl⟩ := h
      rcases vs with - | ⟨v, vs⟩
      · cases hds
        rfl
      · rw [if_neg (ne_nil_of_mapM hds)]
        simp [shownName, hsub]
  · rw [ShowsEntry] at h
    rcases hsub : D.subAttribute? container code with - | ⟨name, sub⟩
    · rw [hsub] at h
      subst h
      simp [shownName, hsub]
    · rw [hsub] at h
      obtain ⟨r, -, rfl⟩ := h
      simp [shownName, hsub]

theorem ShowsMap.keys_eq {m : SubMap PyVal} {r : List (String × ItemView)}
    (h : ShowsMap E p D container m r) : Assoc.keys r = m.filterMap (shownName D container) := by
  induction m generalizing r with
  | nil =>
    rw [ShowsMap] at h
    subst h
    rfl
  | cons e m ih =>
    obtain ⟨code, stored⟩ := e
    rw [ShowsMap] at h
    obtain ⟨shown, r', rfl, hshown, hr'⟩ := h
    have hmap : Assoc.keys (shown ++ r') = Assoc.keys shown ++ Assoc.keys r' := List.map_append
    rw [hmap, hshown.keys_eq, ih hr', List.filterMap_cons]
    rcases shownName D container (code, stored) with - | name
    · rfl
    · rfl

/-! ### All sub-attributes -/

/-- Values that are valid are shown where their sub-attribute is declared. -/
theorem showsEntry_vals_iff {vs : List PyVal} (hvalid : ValidEntry E p D container code (.vals vs)) :
    (∃ shown, decodeContainerEntry E p D container code (.vals vs) [] = .ok shown ∧
      ShowsEntry E p D container code (.vals vs) shown) ↔
      KnownEntry D container code (.vals vs) := by
  simp only [ShowsEntry, KnownEntry]
  rw [ValidEntry] at hvalid
  rcases hsub : D.subAttribute? container code with - | ⟨name, sub⟩
  · simp [decodeContainerEntry_of_unknown hsub]
  · obtain ⟨ds, hds⟩ := Except.exists_mapM_eq_ok_iff.2 (hvalid name sub hsub)
    constructor
    · intro _
      exact ⟨name, sub, rfl⟩
    · intro _
      refine ⟨shownValues name ds, ?_, ds, hds, rfl⟩
      rw [decodeContainerEntry_vals_nil hsub, hds]
      rfl

/-- A nested container is shown where it is declared and read. -/
theorem showsEntry_node_iff {m : SubMap PyVal} {name : String} {sub : Attribute}
    (hsub : D.subAttribute? container code = some (name, sub)) :
    (∃ shown, decodeContainerEntry E p D container code (.node m) [] = .ok shown ∧
      ShowsEntry E p D container code (.node m) shown) ↔
      ∃ r, decodeContainerValues E p D sub m [] = .ok r ∧ ShowsMap E p D sub m r := by
  rw [decodeContainerEntry_node hsub]
  simp only [ShowsEntry, hsub]
  constructor
  · rintro ⟨shown, hdecode, r, hr, rfl⟩
    rcases hread : decodeContainerValues E p D sub m [] with e | r'
    · rw [hread] at hdecode
      cases hdecode
    · rw [hread] at hdecode
      cases hdecode
      exact ⟨r, rfl, hr⟩
  · rintro ⟨r, hread, hr⟩
    exact ⟨[(name, .map r)], by rw [hread]; rfl, r, hr, rfl⟩

/-- The first sub-attribute and the others are shown for themselves, if their names differ. -/
theorem showsMap_cons_iff {stored : Stored PyVal} {rest : SubMap PyVal} :
    (∃ r, decodeContainerValues E p D container ((code, stored) :: rest) [] = .ok r ∧
      ShowsMap E p D container ((code, stored) :: rest) r) ↔
      (∃ shown, decodeContainerEntry E p D container code stored [] = .ok shown ∧
        ShowsEntry E p D container code stored shown) ∧
      (∀ name ∈ shownName D container (code, stored),
        name ∉ rest.filterMap (shownName D container)) ∧
      ∃ r, decodeContainerValues E p D container rest [] = .ok r ∧
        ShowsMap E p D container rest r := by
  constructor
  · rintro ⟨r, hread, hshows⟩
    have hempty : (Assoc.keys ([] : List (String × ItemView))).Nodup := List.nodup_nil
    have hnodup : (Assoc.keys r).Nodup := nodup_of_decodeContainerValues hempty hread
    rw [hshows.keys_eq, List.filterMap_cons] at hnodup
    have hnames : ∀ name ∈ shownName D container (code, stored),
        name ∉ rest.filterMap (shownName D container) := by
      intro name hname
      rw [Option.mem_def.1 hname] at hnodup
      exact (List.nodup_cons.1 hnodup).1
    rw [decodeContainerValues_cons hnames] at hread
    obtain ⟨shown, hfirst, hrest⟩ := Except.bind_eq_ok_iff.1 hread
    rcases hothers : decodeContainerValues E p D container rest [] with e | others
    · rw [hothers] at hrest
      cases hrest
    rw [hothers] at hrest
    cases hrest
    rw [ShowsMap] at hshows
    obtain ⟨shown', others', heq, hshown, hshows⟩ := hshows
    -- both begin with what is under the name of the first
    have hlength : shown.length = shown'.length := by
      have hkeys := (keys_of_decodeContainerEntry hfirst).trans hshown.keys_eq.symm
      simpa [Assoc.keys] using congrArg List.length hkeys
    obtain ⟨rfl, rfl⟩ := List.append_inj heq hlength
    exact ⟨⟨shown, hfirst, hshown⟩, hnames, others, rfl, hshows⟩
  · rintro ⟨⟨shown, hfirst, hshown⟩, hnames, r, hrest, hshows⟩
    refine ⟨shown ++ r, ?_, ?_⟩
    · rw [decodeContainerValues_cons hnames, hfirst, Except.bind_of_ok, hrest]
      rfl
    · rw [ShowsMap]
      exact ⟨shown, r, rfl, hshown, hshows⟩

mutual

theorem showsMap_iff (container : Attribute) (m : SubMap PyVal)
    (hvalid : ValidMap E p D container m) :
    (∃ r, decodeContainerValues E p D container m [] = .ok r ∧ ShowsMap E p D container m r) ↔
      KnownMap D container m := by
  match m with
  | [] =>
    rw [KnownMap, iff_true]
    exact ⟨[], rfl, by rw [ShowsMap]⟩
  | (code, stored) :: rest =>
    rw [ValidMap] at hvalid
    rw [showsMap_cons_iff, KnownMap, showsEntry_iff container code stored hvalid.1,
      showsMap_iff container rest hvalid.2]
  termination_by structural m

theorem showsEntry_iff (container : Attribute) (code : Int) (stored : Stored PyVal)
    (hvalid : ValidEntry E p D container code stored) :
    (∃ shown, decodeContainerEntry E p D container code stored [] = .ok shown ∧
      ShowsEntry E p D container code stored shown) ↔ KnownEntry D container code stored := by
  match stored with
  | .vals vs => exact showsEntry_vals_iff hvalid
  | .node m =>
    rcases hsub : D.subAttribute? container code with - | ⟨name, sub⟩
    · simp [decodeContainerEntry_of_unknown hsub, KnownEntry, hsub]
    · rw [ValidEntry] at hvalid
      rw [showsEntry_node_iff hsub, showsMap_iff sub m (hvalid name sub hsub), KnownEntry]
      simp [hsub]
  termination_by structural stored

end

/-- A container whose values are valid is read, with all that its declared sub-attributes hold,
exactly when every sub-attribute in it is declared and no two have one name. -/
theorem shows_container_iff {name : String} {key : Key} {attr : Attribute} {m : SubMap PyVal}
    (hdict : p.dict = some D) (hkey : D.encodeKey name = .ok key)
    (hattr : D.attribute? name = some attr) (htype : attr.type.isContainer)
    (hstored : p.attrs.get? key = some (.node m)) (hvalid : ValidMap E p D attr m) :
    (∃ r, p.getItem E name = .ok (.map r) ∧ ShowsMap E p D attr m r) ↔ KnownMap D attr m := by
  have hlookup : D.lookup name = .ok attr := by rw [Dictionary.lookup, hattr]
  have hread : p.getItem E name = (decodeContainerValues E p D attr m []).map ItemView.map := by
    rw [getItem, theDict, hdict, Except.bind_of_ok, hkey, Except.bind_of_ok, hstored]
    dsimp only
    rw [hlookup, Except.bind_of_ok, if_pos htype]
    rcases decodeContainerValues E p D attr m [] with e | r
    · rfl
    · rfl
  rw [hread, ← showsMap_iff attr m hvalid]
  constructor
  · rintro ⟨r, hr, hshows⟩
    rcases hdecode : decodeContainerValues E p D attr m [] with e | r'
    · rw [hdecode] at hr
      cases hr
    · rw [hdecode] at hr
      cases hr
      exact ⟨r, rfl, hshows⟩
  · rintro ⟨r, hr, hshows⟩
    exact ⟨r, by rw [hr]; rfl, hshows⟩

/-- A packet with a box around the items. -/
def boxDatagram (items : Bytes) : Bytes :=
  [1, 0, 0, UInt8.ofNat (22 + items.length)] ++ List.replicate 16 0 ++
    [5, UInt8.ofNat (2 + items.length)] ++ items

/-- The packet read from it. -/
def boxPacket (items : Bytes) : Packet :=
  (EStateM.after (decodePacket (boxDatagram items)) ⟨treesPacket, default⟩).pkt

theorem shows_container_box :
    ∃ r, (boxPacket [1, 3, 7, 2, 5, 3, 3, 9, 1, 3, 8]).getItem
        (Env.ofByte (fun _ ↦ 0) fun _ _ ↦ 0) "Box" = .ok (.map r) ∧
      ShowsMap (Env.ofByte (fun _ ↦ 0) fun _ _ ↦ 0) (boxPacket [1, 3, 7, 2, 5, 3, 3, 9, 1, 3, 8])
        treesDictionary treesDictionary.heap[0]
        [(1, .vals [.bytes [7], .bytes [8]]), (2, .node [(3, .vals [.bytes [9]])])] r := by
  have htext : treesDictionary.subAttribute? treesDictionary.heap[0] 1 =
      some ("Box-Text", treesDictionary.heap[1]) := by rfl
  have hgroup : treesDictionary.subAttribute? treesDictionary.heap[0] 2 =
      some ("Box-Group", treesDictionary.heap[2]) := by rfl
  have hinner : treesDictionary.subAttribute? treesDictionary.heap[2] 3 =
      some ("Group-Text", treesDictionary.heap[3]) := by rfl
  have hkey : treesDictionary.encodeKey "Box" = .ok (.int 5) := by rfl
  refine (shows_container_iff (by rfl) hkey (by rfl) (by decide) (by rfl) ?_).2 ?_
  · refine ⟨?_, ?_, trivial⟩
    · intro name sub hsub v hv
      cases htext.symm.trans hsub
      rcases List.mem_pair.1 hv with rfl | rfl
      · exact ⟨.bytes [7], by rfl⟩
      · exact ⟨.bytes [8], by rfl⟩
    · intro name sub hsub
      cases hgroup.symm.trans hsub
      refine ⟨?_, trivial⟩
      intro name sub hsub v hv
      cases hinner.symm.trans hsub
      cases List.mem_singleton.1 hv
      exact ⟨.bytes [9], by rfl⟩
  · refine ⟨⟨_, _, htext⟩, ?_, ⟨_, _, hgroup, ⟨_, _, hinner⟩, ?_, trivial⟩, ?_, trivial⟩
    · simp [shownName, htext, hgroup]
    · simp
    · simp

/-- The box says something that the dictionary does not know. -/
theorem not_shows_container_unknown :
    (boxPacket [1, 3, 7, 4, 3, 8]).attrs.get? (.int 5) =
        some (.node [(1, .vals [.bytes [7]]), (4, .vals [.bytes [8]])]) ∧
      ValidMap (Env.ofByte (fun _ ↦ 0) fun _ _ ↦ 0) (boxPacket [1, 3, 7, 4, 3, 8]) treesDictionary
        treesDictionary.heap[0] [(1, .vals [.bytes [7]]), (4, .vals [.bytes [8]])] ∧
      ¬ ∃ r, (boxPacket [1, 3, 7, 4, 3, 8]).getItem (Env.ofByte (fun _ ↦ 0) fun _ _ ↦ 0) "Box" =
        .ok r := by
  have hread : (boxPacket [1, 3, 7, 4, 3, 8]).getItem (Env.ofByte (fun _ ↦ 0) fun _ _ ↦ 0) "Box" =
      .error .keyError := by rfl
  have htext : treesDictionary.subAttribute? treesDictionary.heap[0] 1 =
      some ("Box-Text", treesDictionary.heap[1]) := by rfl
  have hunknown : treesDictionary.subAttribute? treesDictionary.heap[0] 4 = none := by rfl
  refine ⟨by rfl, ⟨?_, ?_, trivial⟩, ?_⟩
  · intro name sub hsub v hv
    cases htext.symm.trans hsub
    cases List.mem_singleton.1 hv
    exact ⟨.bytes [7], by rfl⟩
  · intro name sub hsub
    cases hunknown.symm.trans hsub
  · rintro ⟨r, hr⟩
    cases hread.symm.trans hr

end Packet

end Pyrad2
