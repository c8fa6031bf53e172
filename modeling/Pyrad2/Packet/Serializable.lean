import Pyrad2.Packet.Deferred
import Pyrad2.Packet.Shapes

/-!
# Which packets can be serialized

Serializing may draw an authenticator and a salt for every pending value that is encrypted. Encryption
makes as many bytes of any value whatever it draws, and the encoder sees no more of a value than its
shape. So serialization succeeds for all draws or for none, and to one length: which packets can be
serialized, and to how many bytes, is a property of the packet.
-/

namespace Pyrad2

open Except EStateM

namespace World

/-- A set of worlds that drawing does not leave. -/
structure Closed (A : Set World) : Prop where
  randrange : ∀ w ∈ A, ∀ lo hi, (w.randrange lo hi).2 ∈ A
  bytes : ∀ w ∈ A, ∀ k, (w.bytes k).2 ∈ A

theorem closed_univ : Closed Set.univ := ⟨fun _ _ _ _ ↦ trivial, fun _ _ _ ↦ trivial⟩

end World

namespace Packet

/-- The packets are the same up to an authenticator that both have or both lack, and the draws to come
are those of one set of worlds here and of another one there. -/
structure UpToDraws (A B : Set World) (s t : PacketState) : Prop where
  pkt : ∃ authenticator, t.pkt = { s.pkt with authenticator } ∧
    authenticator.isSome = s.pkt.authenticator.isSome
  left : s.world ∈ A
  right : t.world ∈ B

/-- The shapes of all values. -/
def shapes (attrs : Attrs PyVal) : Attrs PyVal := attrs.mapValues fun _ ↦ Stored.map PyVal.shape

/-! ### Pending groups -/

theorem extendNode_map {α β : Type} (f : α → β) (code : Int) (vs : List α) (m : SubMap α) :
    extendNode code (vs.map f) (Stored.mapSub f m) =
      (extendNode code vs m).map (Stored.mapSub f) := by
  have hmap (m : SubMap α) : Stored.mapSub f m = m.map fun e ↦ (e.1, e.2.map f) := mapSub_eq_map f m
  have hvals (vs : List α) : Stored.vals (vs.map f) = Stored.map f (.vals vs) := rfl
  rw [extendNode, extendNode, hmap, Assoc.get?_map (fun _ ↦ Stored.map f)]
  rcases Assoc.get? code m with - | ⟨old | sub⟩
  · show Except.ok _ = Except.ok _
    rw [hvals, Assoc.set_map, hmap]
  · show Except.ok (Assoc.set code (Stored.vals (old.map f ++ vs.map f)) _) = Except.ok _
    rw [← List.map_append, hvals, Assoc.set_map, hmap]
  · rfl

theorem shapes_set (attrs : Attrs PyVal) (key : Key) (stored : Stored PyVal) :
    shapes (attrs.set key stored) = (shapes attrs).set key (stored.map PyVal.shape) :=
  OrderedDict.ext (Assoc.set_map (Stored.map PyVal.shape) key stored attrs.entries).symm

theorem get?_shapes (attrs : Attrs PyVal) (key : Key) :
    (shapes attrs).get? key = (attrs.get? key).map (Stored.map PyVal.shape) :=
  OrderedDict.get?_mapValues ..

theorem extendTop_shapes (key : Key) (vs : List PyVal) (attrs : Attrs PyVal) :
    extendTop key (vs.map PyVal.shape) (shapes attrs) = (extendTop key vs attrs).map shapes := by
  rw [extendTop, extendTop, get?_shapes]
  rcases attrs.get? key with - | ⟨old | m⟩
  · exact congrArg Except.ok (shapes_set attrs key (.vals vs)).symm
  · show Except.ok ((shapes attrs).set key (.vals (old.map PyVal.shape ++ vs.map PyVal.shape))) = _
    rw [← List.map_append]
    exact congrArg Except.ok (shapes_set attrs key (.vals (old ++ vs))).symm
  · rfl

/-- The shapes of the pending groups rest on the shapes of the values. -/
theorem addPending_shapes (D : Dictionary) (attr : Attribute) (baseName : String)
    (encoded : List PyVal) (pending : Attrs PyVal) :
    addPending D attr baseName (encoded.map PyVal.shape) (shapes pending) =
      (addPending D attr baseName encoded pending).map shapes := by
  rw [addPending, addPending]
  split
  · rcases parentName D attr with e | name
    · rfl
    rw [bind_of_ok, bind_of_ok]
    rcases D.encodeKey name with e | parentKey
    · rfl
    rw [bind_of_ok, bind_of_ok, get?_shapes]
    rcases pending.get? parentKey with - | ⟨vs | m⟩
    · rfl
    · rfl
    · show (extendNode attr.code (encoded.map PyVal.shape) (Stored.mapSub PyVal.shape m) >>=
          fun m' ↦ .ok ((shapes pending).set parentKey (.node m'))) =
        (extendNode attr.code encoded m >>=
          fun m' ↦ .ok (pending.set parentKey (.node m'))).map shapes
      rw [extendNode_map]
      rcases extendNode attr.code encoded m with e | m'
      · rfl
      · exact congrArg Except.ok (shapes_set pending parentKey (.node m')).symm
  · rcases D.encodeKey baseName with e | key
    · rfl
    · exact extendTop_shapes key encoded pending

theorem inStep_addPending (D : Dictionary) (attr : Attribute) (baseName : String)
    {vs ws : List PyVal} (hvalues : vs.map PyVal.shape = ws.map PyVal.shape)
    {pending pending' : Attrs PyVal} (hpending : shapes pending = shapes pending') :
    InStep (fun a b ↦ shapes a = shapes b) (addPending D attr baseName vs pending)
      (addPending D attr baseName ws pending') := by
  refine inStep_of_map_eq ?_
  rw [← addPending_shapes, ← addPending_shapes, hvalues, hpending]

/-- Groups of the same shapes go out in the same length. -/
theorem forall₂_groups (p : Packet) {pending pending' : Attrs PyVal}
    (h : shapes pending = shapes pending') :
    List.Forall₂ (fun e e' ↦ SameLength (p.encodeAvpGroup e.1 e.2) (p.encodeAvpGroup e'.1 e'.2))
      pending.entries pending'.entries := by
  refine (map_eq_map_iff_forall₂.1 (congrArg OrderedDict.entries h)).imp ?_
  rintro ⟨key, stored⟩ ⟨key', stored'⟩ heq
  obtain ⟨rfl, hstored⟩ := Prod.mk.inj heq
  exact sameLength_of_shape_eq (sameLength_encodeAvpGroup p key) hstored

section

variable {E : Env} {s t : PacketState} {A B : Set World}

/-- Whatever the keys are, a block becomes a block. -/
theorem length_saltBlocks_eq (secret a b : Bytes) (blocks : List Bytes) :
    (saltBlocks E secret a blocks).length = (saltBlocks E secret b blocks).length := by
  induction blocks generalizing a b with
  | nil => rfl
  | cons block rest ih =>
    have hblock : (md5KeystreamXor E secret a block).length =
        (md5KeystreamXor E secret b block).length := by
      simp [md5KeystreamXor, Bytes.xor]
    rw [saltBlocks, saltBlocks, List.length_append, List.length_append, hblock, ih]

theorem UpToDraws.isSome_saltAuthenticator (h : UpToDraws A B s t) :
    t.pkt.saltAuthenticator.isSome = s.pkt.saltAuthenticator.isSome := by
  obtain ⟨⟨authenticator, hpkt, hsome⟩, -, -⟩ := h
  rw [hpkt, saltAuthenticator, saltAuthenticator]
  rcases s.pkt.requestAuthenticator with - | a
  · exact hsome
  · rfl

theorem sameLength_saltEnDecrypt (h : UpToDraws A B s t) (data salt salt' : Bytes) :
    SameLength (saltEnDecrypt E s.pkt data salt) (saltEnDecrypt E t.pkt data salt') := by
  have hsome := h.isSome_saltAuthenticator
  obtain ⟨⟨authenticator, hpkt, -⟩, -, -⟩ := h
  have hsecret : t.pkt.secret = s.pkt.secret := by rw [hpkt]
  rw [saltEnDecrypt, saltEnDecrypt]
  rcases hs : s.pkt.saltAuthenticator with - | a
  · rw [hs] at hsome
    have hnone : t.pkt.saltAuthenticator = none := by simpa using hsome
    rw [hnone]
    exact .error _
  · rw [hs] at hsome
    obtain ⟨b, hb⟩ := Option.isSome_iff_exists.1 hsome
    rw [hb, hsecret]
    exact .ok (length_saltBlocks_eq ..)

variable (hA : World.Closed A) (hB : World.Closed B)

include hA hB

/-! ### Encryption -/

theorem upToDraws_randrange (lo hi : ℕ) :
    Lockstep (UpToDraws A B) (fun _ _ ↦ True) (randrange lo hi) (randrange lo hi) :=
  ⟨fun _ _ hst ↦ .inl ⟨_, _, _, _, rfl, rfl, trivial, hst.pkt, hA.randrange _ hst.left lo hi,
    hB.randrange _ hst.right lo hi⟩⟩

theorem upToDraws_ensureAuthenticator :
    Lockstep (UpToDraws A B) Eq ensureAuthenticator ensureAuthenticator := by
  unfold ensureAuthenticator
  refine lockstep_get_bind fun s t hst ↦ ?_
  obtain ⟨⟨authenticator, hpkt, hsome⟩, -, -⟩ := hst
  have hnone : t.pkt.authenticator.isNone = s.pkt.authenticator.isNone := by
    rw [hpkt, ← Option.not_isSome, ← Option.not_isSome, hsome]
  rw [hnone]
  split
  · -- both lack one, and each draws its own
    have hcreate : Lockstep (UpToDraws A B) (fun _ _ ↦ True) createAuthenticator
        createAuthenticator :=
      ⟨fun _ _ hst ↦ .inl ⟨_, _, _, _, rfl, rfl, trivial, hst.pkt, hA.bytes _ hst.left 16,
        hB.bytes _ hst.right 16⟩⟩
    refine hcreate.bind fun auth auth' _ ↦ ?_
    refine ⟨fun s t hst ↦ .inl ⟨⟨⟩, _, ⟨⟩, _, rfl, rfl, rfl, ?_, hst.left, hst.right⟩⟩
    obtain ⟨⟨authenticator, hpkt, -⟩, -, -⟩ := hst
    refine ⟨some auth', ?_, rfl⟩
    dsimp only
    rw [hpkt]
  · exact lockstep_pure rfl

theorem upToDraws_saltCrypt (v : PyVal) :
    Lockstep (UpToDraws A B) (fun a b ↦ a.length = b.length) (saltCrypt E v) (saltCrypt E v) := by
  have hrest (value : Bytes) : Lockstep (UpToDraws A B) (fun a b ↦ a.length = b.length)
      (do
        ensureAuthenticator
        let randomValue ← randrange 0 32767
        let salt := Bytes.ofNatBE 2 (32768 + randomValue)
        let value ← saltPlaintext value
        let crypted ← saltEnDecrypt E (← get).pkt value salt
        return salt ++ crypted : PacketMethod Bytes)
      (do
        ensureAuthenticator
        let randomValue ← randrange 0 32767
        let salt := Bytes.ofNatBE 2 (32768 + randomValue)
        let value ← saltPlaintext value
        let crypted ← saltEnDecrypt E (← get).pkt value salt
        return salt ++ crypted : PacketMethod Bytes) := by
    refine (upToDraws_ensureAuthenticator hA hB).bind_eq fun _ ↦
      (upToDraws_randrange hA hB 0 32767).bind fun _ _ _ ↦
        (lockstep_liftM _).bind_eq fun plaintext ↦ ?_
    refine lockstep_get_bind fun s t hst ↦
      (lockstep_liftM_of_inStep (sameLength_saltEnDecrypt hst plaintext _ _)).bind
        fun a b hab ↦ lockstep_pure ?_
    -- the salts may differ, but both have two bytes
    rw [List.length_append, List.length_append, hab, Bytes.length_ofNatBE, Bytes.length_ofNatBE]
  unfold saltCrypt
  split
  · exact (lockstep_pure rfl).bind_eq hrest
  · exact (lockstep_liftM _).bind_eq hrest

/-! ### Values -/

theorem upToDraws_encodeValue (attr : Attribute) (v : PyVal) :
    Lockstep (UpToDraws A B) (fun v w ↦ v.shape = w.shape) (encodeValue E attr v)
      (encodeValue E attr v) := by
  have hrest (result : PyVal) : Lockstep (UpToDraws A B) (fun v w ↦ v.shape = w.shape)
      (do
        if attr.encrypt = 2 ∧ (← get).pkt.radiusVersion ≠ .v1_1 then
          return .bytes (← saltCrypt E result)
        return result : PacketMethod PyVal)
      (do
        if attr.encrypt = 2 ∧ (← get).pkt.radiusVersion ≠ .v1_1 then
          return .bytes (← saltCrypt E result)
        return result : PacketMethod PyVal) := by
    refine lockstep_get_bind fun s t hst ↦ ?_
    obtain ⟨⟨authenticator, hpkt, -⟩, -, -⟩ := hst
    rw [hpkt]
    dsimp only
    split
    · exact (upToDraws_saltCrypt hA hB result).bind fun a b hab ↦ lockstep_pure (shape_bytes hab)
    · exact lockstep_pure rfl
  unfold encodeValue
  split
  · exact (lockstep_pure rfl).bind_eq hrest
  · exact (lockstep_liftM _).bind_eq hrest

theorem upToDraws_pwCrypt (password : PyVal) :
    Lockstep (UpToDraws A B) (fun v w ↦ v.shape = w.shape) (pwCrypt E password)
      (pwCrypt E password) := by
  have hrest (password : PyVal) : Lockstep (UpToDraws A B) (fun v w ↦ v.shape = w.shape)
      (do
        if (← get).pkt.radiusVersion = .v1_1 then return password
        ensureAuthenticator
        let n ← password.len
        let buf := (← password.asBytes) ++
          (if n % 16 ≠ 0 then List.replicate (16 - n % 16) 0 else [])
        let p := (← get).pkt
        return .bytes (saltBlocks E p.secret (p.authenticator.getD []) (Bytes.chunksOf 16 buf)) :
          PacketMethod PyVal)
      (do
        if (← get).pkt.radiusVersion = .v1_1 then return password
        ensureAuthenticator
        let n ← password.len
        let buf := (← password.asBytes) ++
          (if n % 16 ≠ 0 then List.replicate (16 - n % 16) 0 else [])
        let p := (← get).pkt
        return .bytes (saltBlocks E p.secret (p.authenticator.getD []) (Bytes.chunksOf 16 buf)) :
          PacketMethod PyVal) := by
    refine lockstep_get_bind fun s t hst ↦ ?_
    obtain ⟨⟨authenticator, hpkt, -⟩, -, -⟩ := hst
    rw [hpkt]
    dsimp only
    split
    · exact lockstep_pure rfl
    · refine (upToDraws_ensureAuthenticator hA hB).bind_eq fun _ ↦ (lockstep_liftM _).bind_eq fun n ↦
        (lockstep_liftM _).bind_eq fun buf ↦ lockstep_get_bind fun s t hst ↦ lockstep_pure ?_
      obtain ⟨⟨authenticator, hpkt, -⟩, -, -⟩ := hst
      rw [hpkt]
      exact shape_bytes (length_saltBlocks_eq ..)
  exact hrest _

omit hA hB in
theorem inStep_prependTag {v w : PyVal} (h : v.shape = w.shape) (attr : Attribute) (tag : String) :
    InStep (fun v w ↦ v.shape = w.shape) (prependTag attr tag v) (prependTag attr tag w) := by
  refine inStep_bind _ fun n ↦ inStep_bind _ fun tagByte ↦ ?_
  have hbytes : SameLength v.asBytes w.asBytes :=
    sameLength_of_shape_eq (fun v ↦ sameLength_shape (f := PyVal.asBytes) (fun _ _ hab ↦ .ok hab) v) h
  refine hbytes.bind fun a b hab ↦ .ok (shape_bytes ?_)
  split
  · -- the tag takes the place of the first byte of an integer
    rw [List.length_append, List.length_append, List.length_drop, List.length_drop, hab]
  · rw [List.length_append, List.length_append, hab]

theorem upToDraws_encodeDeferredValueList (attr : Attribute) (values : List PyVal) (tag : String) :
    Lockstep (UpToDraws A B) (fun vs ws ↦ vs.map PyVal.shape = ws.map PyVal.shape)
      (encodeDeferredValueList E attr values tag) (encodeDeferredValueList E attr values tag) := by
  have htag (v w : PyVal) (h : v.shape = w.shape) :
      Lockstep (UpToDraws A B) (fun v w ↦ v.shape = w.shape)
      (do
        if tag = "" then return v
        prependTag attr tag v : PacketMethod PyVal)
      (do
        if tag = "" then return w
        prependTag attr tag w : PacketMethod PyVal) := by
    split
    · exact lockstep_pure h
    · exact lockstep_liftM_of_inStep (inStep_prependTag h attr tag)
  unfold encodeDeferredValueList
  refine lockstep_get_bind fun s t hst ↦ ?_
  obtain ⟨⟨authenticator, hpkt, -⟩, -, -⟩ := hst
  rw [hpkt]
  refine (lockstep_mapM_of (Q := fun v w ↦ v.shape = w.shape)
    (List.forall₂_same.2 fun value _ ↦ ?_)).mono fun _ _ ↦ map_eq_map_iff_forall₂.2
  dsimp only
  split
  · -- obfuscated as a User-Password, which only an AuthPacket can do
    split
    · exact lockstep_throw_bind _
    · exact (upToDraws_pwCrypt hA hB value).bind htag
  · exact (upToDraws_encodeValue hA hB attr value).bind htag

/-! ### Serialization -/

theorem upToDraws_encodeDeferredObfuscated :
    Lockstep (UpToDraws A B) (fun a b ↦ a.length = b.length) (encodeDeferredObfuscated E)
      (encodeDeferredObfuscated E) := by
  unfold encodeDeferredObfuscated
  refine lockstep_get_bind fun s t hst ↦ ?_
  obtain ⟨⟨authenticator, hpkt, -⟩, -, -⟩ := hst
  rw [hpkt]
  dsimp only
  split
  · exact lockstep_pure rfl
  · refine (lockstep_liftM s.pkt.theDict).bind_eq fun D ↦ (lockstep_liftM _).bind_eq fun owned ↦ ?_
    refine Lockstep.bind (lockstep_foldlM_of (Q := fun a b ↦ shapes a = shapes b)
      (fun a b hab e _ ↦ ?_) rfl) fun pending pending' hpending ↦ ?_
    · -- one group of pending values after the other
      refine (lockstep_liftM _).bind_eq fun attr ↦ ?_
      exact (upToDraws_encodeDeferredValueList hA hB attr e.2 _).bind fun vs ws hvalues ↦
        lockstep_liftM_of_inStep (inStep_addPending D attr _ hvalues hab)
    · refine (lockstep_mapM_of ((forall₂_groups s.pkt hpending).imp fun _ _ ↦
        lockstep_liftM_of_inStep)).bind fun groups groups' hgroups ↦ ?_
      exact lockstep_pure (length_flatten_eq hgroups)

/-- **Serialization is in step with itself**, whatever it draws. -/
theorem upToDraws_encodeAttributes :
    Lockstep (UpToDraws A B) (fun a b ↦ a.length = b.length) (encodeAttributes E)
      (encodeAttributes E) := by
  unfold encodeAttributes
  refine lockstep_get_bind fun s t hst ↦ ?_
  obtain ⟨⟨authenticator, hpkt, -⟩, -, -⟩ := hst
  rw [hpkt]
  refine (lockstep_liftM s.pkt.deferredAttributeCodes).bind_eq fun deferred ↦
    (lockstep_liftM (s.pkt.encodeStored deferred)).bind_eq fun stored ↦
      (upToDraws_encodeDeferredObfuscated hA hB).bind fun a b hab ↦ lockstep_pure ?_
  rw [List.length_append, List.length_append, hab]

end

/-! ### Drawing an authenticator -/

/-- An authenticator is kept; there is one in the end exactly if there was one or the condition holds,
and one that was drawn is not empty. -/
structure Supplied (c : Prop) (own own' : Option Bytes) : Prop where
  isSome_iff : own'.isSome ↔ own.isSome ∨ c
  keeps : ∀ a, own = some a → own' = some a
  drawn : own = none → own' ≠ some []

theorem Supplied.trans {c d : Prop} {own own' own'' : Option Bytes} (h : Supplied c own own')
    (h' : Supplied d own' own'') : Supplied (c ∨ d) own own'' where
  isSome_iff := by rw [h'.isSome_iff, h.isSome_iff, or_assoc]
  keeps := fun a ha ↦ h'.keeps a (h.keeps a ha)
  drawn := by
    intro hnone
    rcases hown : own' with - | a
    · exact h'.drawn hown
    · rw [h'.keeps a hown, ← hown]
      exact h.drawn hnone

/-- A method that, if it returns, supplies a packet of this version with an authenticator exactly if the
condition holds. -/
def Supplies {α : Type} (version : RadiusVersion) (c : Prop) (m : PacketMethod α) : Prop :=
  ∀ s, s.pkt.radiusVersion = version → Ensures m s (fun _ s' ↦ s'.pkt.radiusVersion = version ∧
    Supplied c s.pkt.authenticator s'.pkt.authenticator) fun _ _ ↦ True

section

variable {α β γ : Type} {version : RadiusVersion} {c d : Prop} {m : PacketMethod α}

theorem Supplies.congr (h : Supplies version c m) (hcd : d ↔ c) : Supplies version d m := by
  rwa [show d = c from propext hcd]

theorem Supplies.bind {f : α → PacketMethod β} (hm : Supplies version c m)
    (hf : ∀ a, Supplies version d (f a)) : Supplies version (c ∨ d) (m >>= f) := by
  intro s hs
  refine ensures_bind.2 ((hm s hs).imp (fun a s' hs' ↦ ?_) fun _ _ h ↦ h)
  exact (hf a s' hs'.1).imp (fun _ s'' hs'' ↦ ⟨hs''.1, hs'.2.trans hs''.2⟩) fun _ _ h ↦ h

end

section

variable {E : Env} {version : RadiusVersion}

end

/-! ### The packets that can be serialized -/

/-- The attributes of the packet can be serialized, to `n` bytes. -/
def SerializesTo (E : Env) (p : Packet) (n : ℕ) : Prop :=
  ∃ w body s, (encodeAttributes E).run ⟨p, w⟩ = .ok body s ∧ body.length = n

section

variable {E : Env} {p : Packet} {n : ℕ}

/-- **Whatever is drawn**, a packet that can be serialized is. -/
theorem SerializesTo.exists_run (h : SerializesTo E p n) (w : World) :
    ∃ body s, (encodeAttributes E).run ⟨p, w⟩ = .ok body s ∧ body.length = n := by
  obtain ⟨w₀, body₀, s₀, hrun₀, hlength⟩ := h
  -- the run that is known and the run from `w` are in step
  have hstep := (upToDraws_encodeAttributes (E := E) World.closed_univ World.closed_univ).run
    ⟨p, w₀⟩ ⟨p, w⟩ ⟨⟨p.authenticator, rfl, rfl⟩, trivial, trivial⟩
  rcases hstep with ⟨a, s, b, t, hs, ht, hab, -⟩ | ⟨e, s, t, hs, -⟩
  · rw [hrun₀] at hs
    cases hs
    exact ⟨b, t, ht, by rw [← hab, hlength]⟩
  · rw [hrun₀] at hs
    cases hs

end

end Packet

end Pyrad2
