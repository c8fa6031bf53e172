import Pyrad2.Foundations.Lockstep
import Pyrad2.Packet.Authenticator

/-!
# What the serializers do not see

Two packets that differ in their source at most, and in the values under keys that are not put out.
What is put out is the same for both.

A key is not put out if the dictionary declares its attribute as virtual, or if a pending value with
the same key takes its place.
-/

namespace Pyrad2

open EStateM

theorem lockstep_catchException {σ τ α β : Type} {R : σ → τ → Prop} {Q : α → β → Prop}
    {m handler : Method σ α} {m' handler' : Method τ β} (hm : Lockstep R Q m m')
    (hhandler : Lockstep R Q handler handler') :
    Lockstep R Q (Method.catchException m handler) (Method.catchException m' handler') := by
  refine ⟨fun s t hst ↦ ?_⟩
  rcases hm.run s t hst with ⟨a, s', b, t', hs, ht, hab, hst'⟩ | ⟨e, s', t', hs, ht, hst'⟩
  · exact .inl ⟨a, s', b, t', Method.run_catchException_of_ok hs,
      Method.run_catchException_of_ok ht, hab, hst'⟩
  rcases eq_or_ne e .divergence with rfl | he
  · exact .inr ⟨_, s', t', Method.run_catchException_of_divergence hs,
      Method.run_catchException_of_divergence ht, hst'⟩
  · rw [Method.run_catchException_of_error hs he, Method.run_catchException_of_error ht he]
    exact hhandler.run s' t' hst'

/-- The same, or two lists under a hidden key. -/
def StoredAlike (H : Set Key) (key : Key) (s s' : Stored PyVal) : Prop :=
  s = s' ∨ key ∈ H ∧ (∃ vs, s = .vals vs) ∧ ∃ vs, s' = .vals vs

theorem storedAlike_refl (H : Set Key) (key : Key) (s : Stored PyVal) : StoredAlike H key s s :=
  .inl rfl

namespace Packet

/-! ### Reading -/

section

variable {E : Env} {p q : Packet}

mutual

theorem decodeContainerValues_congr (h : q.decodeValue E = p.decodeValue E) (D : Dictionary)
    (container : Attribute) (m : SubMap PyVal) (result : List (String × ItemView)) :
    decodeContainerValues E q D container m result =
      decodeContainerValues E p D container m result := by
  match m with
  | [] => rfl
  | (code, stored) :: rest =>
    rw [decodeContainerValues, decodeContainerValues,
      decodeContainerEntry_congr h D container code stored result]
    congr 1
    funext result
    exact decodeContainerValues_congr h D container rest result
  termination_by structural m

theorem decodeContainerEntry_congr (h : q.decodeValue E = p.decodeValue E) (D : Dictionary)
    (container : Attribute) (code : Int) (stored : Stored PyVal)
    (result : List (String × ItemView)) :
    decodeContainerEntry E q D container code stored result =
      decodeContainerEntry E p D container code stored result := by
  match stored with
  | .node m =>
    rw [decodeContainerEntry, decodeContainerEntry]
    split
    · congr 1
      funext sub
      rw [decodeContainerValues_congr h D sub m []]
    · rfl
  | .vals vs =>
    rw [decodeContainerEntry, decodeContainerEntry, h]
  termination_by structural stored

end

/-- What is read under a name rests on what is stored there and on how values are decoded. -/
theorem getItem_congr (h : q.decodeValue E = p.decodeValue E) (hdict : q.dict = p.dict)
    (name : String)
    (hget : ∀ key, p.encodeKey name = .ok key → q.attrs.get? key = p.attrs.get? key) :
    q.getItem E name = p.getItem E name := by
  rw [getItem, getItem, theDict, theDict, hdict]
  rcases hp : p.dict with - | D
  · rfl
  · rw [Except.bind_of_ok, Except.bind_of_ok]
    rcases hkey : D.encodeKey name with e | key
    · rfl
    · have hencode : p.encodeKey name = .ok key := by
        rw [encodeKey, theDict, hp, Except.bind_of_ok, hkey]
      rw [Except.bind_of_ok, Except.bind_of_ok, hget key hencode]
      simp only [h, decodeContainerValues_congr h]

end

/-! ### Alike packets -/

/-- The stored values of the key are not put out. -/
def Skips (p : Packet) (key : Key) : Prop :=
  p.isVirtualAttribute key = true ∨ ∀ keys, p.deferredAttributeCodes = .ok keys → key ∈ keys

/-- Packets with this code, which differ in their source at most, and in the values under hidden
keys. These are not put out, and the delay of an Accounting-Request is not among them. -/
structure Alike (H : Set Key) (code : ℕ) (p q : Packet) : Prop where
  fields : q = { p with source := q.source, attrs := q.attrs }
  attrs : OrderedDict.Related (StoredAlike H) p.attrs q.attrs
  skips : ∀ key ∈ H, p.Skips key
  code_eq : p.code = code
  acctDelay : code = PacketType.accountingRequest →
    ∀ key ∈ H, p.encodeKey "Acct-Delay-Time" ≠ .ok key

/-- Alike packets, in the same process. -/
structure StateAlike (H : Set Key) (code : ℕ) (s t : PacketState) : Prop where
  pkt : Alike H code s.pkt t.pkt
  world : s.world = t.world

/-- The method does not see what is hidden. -/
abbrev Blind (H : Set Key) (code : ℕ) {α : Type} (m : PacketMethod α) : Prop :=
  Lockstep (StateAlike H code) Eq m m

section

variable {H : Set Key} {n : ℕ} {α β : Type}

theorem Alike.exists_eq {p q : Packet} (h : Alike H n p q) :
    ∃ source attrs, q = { p with source, attrs } := ⟨q.source, q.attrs, h.fields⟩

/-- What is read of a packet without its source and its attributes is the same. -/
theorem blind_get_bind {f : PacketState → PacketMethod α}
    (h : ∀ p source attrs w, Alike H n p { p with source, attrs } →
      Lockstep (StateAlike H n) Eq (f ⟨p, w⟩) (f ⟨{ p with source, attrs }, w⟩)) :
    Blind H n (get >>= f) := by
  refine lockstep_get_bind fun s t hst ↦ ?_
  obtain ⟨p, w⟩ := s
  obtain ⟨q, w'⟩ := t
  obtain rfl : w = w' := hst.world
  obtain ⟨source, attrs, rfl⟩ := hst.pkt.exists_eq
  exact h p source attrs w hst.pkt

/-- A change of a packet that does not see what is hidden. -/
theorem blind_modify {f : PacketState → PacketState}
    (h : ∀ p source attrs w, Alike H n p { p with source, attrs } →
      StateAlike H n (f ⟨p, w⟩) (f ⟨{ p with source, attrs }, w⟩)) :
    Blind H n (modify f) := by
  refine lockstep_modify fun s t hst ↦ ?_
  obtain ⟨p, w⟩ := s
  obtain ⟨q, w'⟩ := t
  obtain rfl : w = w' := hst.world
  obtain ⟨source, attrs, rfl⟩ := hst.pkt.exists_eq
  exact h p source attrs w hst.pkt

theorem Alike.contains {p q : Packet} (h : Alike H n p q) (name : String) :
    q.contains name = p.contains name := by
  obtain ⟨source, attrs, rfl⟩ := h.exists_eq
  have hcontains := h.attrs.contains
  rw [Packet.contains, Packet.contains]
  rw [show ({ p with source, attrs } : Packet).encodeKey name = p.encodeKey name from rfl]
  rcases p.encodeKey name with e | key
  · cases e <;> rfl
  · dsimp only
    rw [← hcontains key]

theorem Alike.hasAttribute {p q : Packet} (h : Alike H n p q) (name : String) (code : Int) :
    q.hasAttribute name code = p.hasAttribute name code := by
  rw [Packet.hasAttribute, Packet.hasAttribute, h.contains, h.attrs.contains]

theorem Alike.hasEapMessage {p q : Packet} (h : Alike H n p q) :
    q.hasEapMessage = p.hasEapMessage := h.hasAttribute _ _

theorem Alike.hasMessageAuthenticator {p q : Packet} (h : Alike H n p q) :
    q.hasMessageAuthenticator = p.hasMessageAuthenticator := by
  rw [Packet.hasMessageAuthenticator, Packet.hasMessageAuthenticator, h.hasAttribute]
  obtain ⟨source, attrs, rfl⟩ := h.exists_eq
  rfl

theorem Alike.get? {p q : Packet} (h : Alike H n p q) {key : Key} (hkey : key ∉ H) :
    q.attrs.get? key = p.attrs.get? key := by
  rcases h.attrs.get? key with ⟨hp, hq⟩ | ⟨s, s', hp, hq, hss⟩
  · rw [hp, hq]
  · rcases hss with rfl | ⟨hmem, -, -⟩
    · rw [hp, hq]
    · exact absurd hmem hkey

/-- Reading a name that does not stand for a hidden key. -/
theorem Alike.getItem {p q : Packet} (h : Alike H n p q) (E : Env) {name : String}
    (hname : ∀ key ∈ H, p.encodeKey name ≠ .ok key) : q.getItem E name = p.getItem E name := by
  have hget (key : Key) (hkey : p.encodeKey name = .ok key) : q.attrs.get? key = p.attrs.get? key :=
    h.get? fun hmem ↦ hname key hmem hkey
  obtain ⟨source, attrs, rfl⟩ := h.exists_eq
  exact getItem_congr (p := p) (q := { p with source, attrs }) rfl rfl name hget

/-! ### Changes of a packet -/

theorem blind_store (key : Key) (stored : Stored PyVal) : Blind H n (store key stored) :=
  blind_modify fun _ _ _ _ h ↦
    { pkt := ⟨rfl, h.attrs.set (storedAlike_refl H key stored), h.skips, h.code_eq, h.acctDelay⟩
      world := rfl }

theorem blind_randrange (lo hi : ℕ) : Blind H n (randrange lo hi) := by
  refine ⟨fun s t hst ↦ .inl ⟨_, _, _, _, rfl, rfl, ?_, ?_⟩⟩
  · rw [hst.world]
  · exact ⟨hst.pkt, by rw [hst.world]⟩

theorem blind_createAuthenticator : Blind H n createAuthenticator := by
  refine ⟨fun s t hst ↦ .inl ⟨_, _, _, _, rfl, rfl, ?_, ?_⟩⟩
  · rw [hst.world]
  · exact ⟨hst.pkt, by rw [hst.world]⟩

theorem blind_ensureAuthenticator : Blind H n ensureAuthenticator := by
  refine blind_get_bind fun p source attrs w _ ↦ ?_
  dsimp only
  split
  · refine blind_createAuthenticator.bind_eq fun auth ↦ ?_
    exact blind_modify fun _ _ _ _ h ↦ ⟨⟨rfl, h.attrs, h.skips, h.code_eq, h.acctDelay⟩, rfl⟩
  · exact lockstep_pure rfl

theorem blind_ensureId : Blind H n ensureId := by
  refine blind_get_bind fun p source attrs w _ ↦ ?_
  dsimp only
  split
  · refine (blind_randrange 0 256).bind_eq fun id ↦ ?_
    exact blind_modify fun _ _ _ _ h ↦ ⟨⟨rfl, h.attrs, h.skips, h.code_eq, h.acctDelay⟩, rfl⟩
  · exact lockstep_pure rfl

theorem blind_setMessageAuthenticatorFlag :
    Blind H n (modify fun s ↦ { s with pkt := { s.pkt with messageAuthenticator := some true } } :
      PacketMethod PUnit) :=
  blind_modify fun _ _ _ _ h ↦ ⟨⟨rfl, h.attrs, h.skips, h.code_eq, h.acctDelay⟩, rfl⟩

/-! ### Values -/

theorem blind_saltCrypt (E : Env) (value : PyVal) : Blind H n (saltCrypt E value) := by
  have hrest (value : Bytes) : Blind H n (do
      ensureAuthenticator
      let randomValue ← randrange 0 32767
      let salt := Bytes.ofNatBE 2 (32768 + randomValue)
      let value ← saltPlaintext value
      let crypted ← saltEnDecrypt E (← get).pkt value salt
      return salt ++ crypted) := by
    refine blind_ensureAuthenticator.bind_eq fun _ ↦ (blind_randrange 0 32767).bind_eq fun _ ↦
      (lockstep_liftM _).bind_eq fun plaintext ↦ ?_
    exact blind_get_bind fun p source attrs w _ ↦
      (lockstep_liftM (saltEnDecrypt E p plaintext _)).bind_eq fun crypted ↦ lockstep_pure rfl
  unfold saltCrypt
  split
  · exact (lockstep_pure rfl).bind_eq hrest
  · exact (lockstep_liftM _).bind_eq hrest

theorem blind_encodeValue (E : Env) (attr : Attribute) (value : PyVal) :
    Blind H n (encodeValue E attr value) := by
  have hrest (result : PyVal) : Blind H n (do
      if attr.encrypt = 2 ∧ (← get).pkt.radiusVersion ≠ .v1_1 then
        return .bytes (← saltCrypt E result)
      return result : PacketMethod PyVal) := by
    refine blind_get_bind fun p source attrs w _ ↦ ?_
    dsimp only
    split
    · exact (blind_saltCrypt E result).bind_eq fun crypted ↦ lockstep_pure rfl
    · exact lockstep_pure rfl
  unfold encodeValue
  split
  · exact (lockstep_pure rfl).bind_eq hrest
  · exact (lockstep_liftM _).bind_eq hrest

theorem blind_encodeKeyValues (E : Env) (name : String) (values : List PyVal) :
    Blind H n (encodeKeyValues E name values) := by
  unfold encodeKeyValues
  refine blind_get_bind fun p source attrs w _ ↦ (lockstep_liftM p.theDict).bind_eq fun D ↦
    (lockstep_liftM _).bind_eq fun attr ↦ (lockstep_liftM _).bind_eq fun key ↦ ?_
  split
  · refine (lockstep_mapM fun v _ ↦ ?_).bind_eq fun vs ↦ lockstep_pure rfl
    exact (blind_encodeValue E attr v).bind_eq fun encoded ↦ lockstep_liftM _
  · exact (lockstep_mapM fun v _ ↦ blind_encodeValue E attr v).bind_eq fun vs ↦ lockstep_pure rfl

theorem blind_setItem (E : Env) (name : String) (values : List PyVal) :
    Blind H n (setItem E name values) :=
  (blind_encodeKeyValues E name values).bind_eq fun ⟨key, _⟩ ↦ blind_store key _

theorem blind_pwCrypt (E : Env) (password : PyVal) : Blind H n (pwCrypt E password) := by
  have hrest (password : PyVal) : Blind H n (do
      if (← get).pkt.radiusVersion = .v1_1 then return password
      ensureAuthenticator
      let n ← password.len
      let buf := (← password.asBytes) ++
        (if n % 16 ≠ 0 then List.replicate (16 - n % 16) 0 else [])
      let p := (← get).pkt
      return .bytes (saltBlocks E p.secret (p.authenticator.getD []) (Bytes.chunksOf 16 buf)) :
        PacketMethod PyVal) := by
    refine blind_get_bind fun p source attrs w _ ↦ ?_
    dsimp only
    split
    · exact lockstep_pure rfl
    · refine blind_ensureAuthenticator.bind_eq fun _ ↦ (lockstep_liftM _).bind_eq fun n ↦
        (lockstep_liftM _).bind_eq fun buf ↦ ?_
      exact blind_get_bind fun p source attrs w _ ↦ lockstep_pure rfl
  exact hrest _

/-! ### Attributes -/

theorem blind_encodeDeferredValueList (E : Env) (attr : Attribute) (values : List PyVal)
    (tag : String) : Blind H n (encodeDeferredValueList E attr values tag) := by
  unfold encodeDeferredValueList
  refine blind_get_bind fun p source attrs w _ ↦ lockstep_mapM fun value _ ↦ ?_
  have htag (encoded : PyVal) : Blind H n (do
      if tag = "" then return encoded
      prependTag attr tag encoded : PacketMethod PyVal) := by
    split
    · exact lockstep_pure rfl
    · exact lockstep_liftM _
  dsimp only
  split
  · split
    · exact lockstep_throw_bind _
    · exact (blind_pwCrypt E value).bind_eq htag
  · exact (blind_encodeValue E attr value).bind_eq htag

/-- Siblings of pending values are read off containers, where nothing is hidden. -/
theorem Alike.seedParentFromStoredSiblings {p q : Packet} (h : Alike H n p q) (key : Key)
    (owned : List Int) :
    q.seedParentFromStoredSiblings key owned = p.seedParentFromStoredSiblings key owned := by
  rw [Packet.seedParentFromStoredSiblings, Packet.seedParentFromStoredSiblings]
  rcases h.attrs.get? key with ⟨hp, hq⟩ | ⟨s, s', hp, hq, hss⟩
  · rw [hp, hq]
  · rw [hp, hq]
    rcases hss with rfl | ⟨-, ⟨vs, rfl⟩, vs', rfl⟩
    · rfl
    · rfl

theorem blind_encodeDeferredObfuscated (E : Env) : Blind H n (encodeDeferredObfuscated E) := by
  unfold encodeDeferredObfuscated
  refine blind_get_bind fun p source attrs w h ↦ ?_
  dsimp only
  split
  · exact lockstep_pure rfl
  · refine (lockstep_liftM p.theDict).bind_eq fun D ↦ (lockstep_liftM _).bind_eq fun owned ↦ ?_
    simp only [h.seedParentFromStoredSiblings]
    refine Lockstep.bind_eq (lockstep_foldlM (fun pending e _ ↦ ?_) _) fun pending ↦ ?_
    · refine (lockstep_liftM _).bind_eq fun attr ↦ ?_
      exact (blind_encodeDeferredValueList E attr e.2 _).bind_eq fun encoded ↦ lockstep_liftM _
    · refine (lockstep_mapM fun e _ ↦ ?_).bind_eq fun groups ↦ lockstep_pure rfl
      exact lockstep_liftM (p.encodeAvpGroup e.1 e.2)

theorem Alike.encodeStored {p q : Packet} (h : Alike H n p q) {deferred : List Key}
    (hdeferred : p.deferredAttributeCodes = .ok deferred) :
    q.encodeStored deferred = p.encodeStored deferred := by
  obtain ⟨source, attrs, rfl⟩ := h.exists_eq
  rw [Packet.encodeStored, Packet.encodeStored]
  congr 1
  refine (Except.mapM_eq_mapM_of_forall₂ ?_ h.attrs).symm
  rintro ⟨key, s⟩ ⟨key', s'⟩ ⟨rfl, hss⟩
  dsimp only at hss ⊢
  rcases hss with rfl | ⟨hkey, -, -⟩
  · rfl
  · have hskip : key ∈ deferred ∨ p.isVirtualAttribute key = true :=
      (h.skips key hkey).symm.imp (fun hkeys ↦ hkeys deferred hdeferred) fun h ↦ h
    rw [if_pos hskip]
    exact (if_pos hskip).symm

/-- **The attributes that go out** are the same. -/
theorem blind_encodeAttributes (E : Env) : Blind H n (encodeAttributes E) := by
  unfold encodeAttributes
  refine blind_get_bind fun p source attrs w h ↦ ?_
  dsimp only
  refine lockstep_liftM_bind (x := p.deferredAttributeCodes) fun deferred hdeferred ↦ ?_
  rw [h.encodeStored hdeferred]
  exact (lockstep_liftM _).bind_eq fun stored ↦ (blind_encodeDeferredObfuscated E).bind_eq
    fun pending ↦ lockstep_pure rfl

/-! ### Message-Authenticators -/

theorem blind_setMessageAuthenticator (E : Env) (value : PyVal) :
    Blind H n (setMessageAuthenticator E value) := blind_setItem E _ _

theorem blind_refreshMessageAuthenticator (E : Env) : Blind H n (refreshMessageAuthenticator E) := by
  unfold refreshMessageAuthenticator
  refine (blind_setMessageAuthenticator E _).bind_eq fun _ ↦
    (blind_encodeAttributes E).bind_eq fun attr ↦ blind_get_bind fun p source attrs w _ ↦ ?_
  refine (lockstep_liftM (packHeader p.code p.id _)).bind_eq fun header ↦
    (lockstep_liftM p.macAuthenticator).bind_eq fun authenticator ↦ ?_
  exact blind_setMessageAuthenticator E _

theorem blind_addMessageAuthenticator (E : Env) : Blind H n (addMessageAuthenticator E) := by
  unfold addMessageAuthenticator
  refine blind_get_bind fun p source attrs w _ ↦ ?_
  dsimp only
  split
  · exact lockstep_pure rfl
  · refine blind_setMessageAuthenticatorFlag.bind_eq fun _ ↦
      (blind_setMessageAuthenticator E _).bind_eq fun _ ↦ blind_ensureId.bind_eq fun _ ↦
      blind_get_bind fun p source attrs w _ ↦ ?_
    dsimp only
    split
    · exact blind_ensureAuthenticator.bind_eq fun _ ↦ blind_refreshMessageAuthenticator E
    · exact lockstep_pure rfl

theorem blind_ensureMessageAuthenticator (E : Env) : Blind H n (ensureMessageAuthenticator E) := by
  unfold ensureMessageAuthenticator
  refine blind_get_bind fun p source attrs w h ↦ ?_
  dsimp only
  rw [h.hasAttribute]
  split
  · exact lockstep_pure rfl
  · split
    · exact blind_setMessageAuthenticatorFlag
    · exact blind_addMessageAuthenticator E

theorem blind_prepareRequestMessageAuthenticator (E : Env) (require : Bool) :
    Blind H n (prepareRequestMessageAuthenticator E require) := by
  unfold prepareRequestMessageAuthenticator
  refine blind_get_bind fun p source attrs w h ↦ ?_
  dsimp only
  rw [h.hasEapMessage]
  split
  · exact lockstep_pure rfl
  · split
    · exact lockstep_pure rfl
    · split
      · exact blind_ensureMessageAuthenticator E
      · exact lockstep_pure rfl

theorem blind_refreshIfCarried (E : Env) : Blind H n (refreshIfCarried E) := by
  refine blind_get_bind fun p source attrs w _ ↦ ?_
  dsimp only
  split
  · exact blind_refreshMessageAuthenticator E
  · exact lockstep_pure rfl

/-! ### Whole packets -/

theorem blind_serializeV11 (E : Env) : Blind H n (serializeV11 E) :=
  (blind_encodeAttributes E).bind_eq fun attr ↦ blind_get_bind fun p _ _ _ _ ↦
    (lockstep_liftM (packV11Header p.code (20 + attr.length) p.token)).bind_eq fun _ ↦
      lockstep_pure rfl

theorem blind_encodeV10RequestWithRandomAuthenticator (E : Env) :
    Blind H n (encodeV10RequestWithRandomAuthenticator E) := by
  refine blind_ensureAuthenticator.bind_eq fun _ ↦ (blind_refreshIfCarried E).bind_eq fun _ ↦
    (blind_encodeAttributes E).bind_eq fun attr ↦ blind_get_bind fun p source attrs w _ ↦ ?_
  exact (lockstep_liftM (packHeader p.code p.id _)).bind_eq fun header ↦
    (lockstep_liftM (concatOperand p.authenticator)).bind_eq fun authenticator ↦ lockstep_pure rfl

theorem blind_encodeV10RequestWithBodyMd5Authenticator (E : Env) :
    Blind H n (encodeV10RequestWithBodyMd5Authenticator E) := by
  refine (blind_refreshIfCarried E).bind_eq fun _ ↦ (blind_encodeAttributes E).bind_eq fun attr ↦
    blind_get_bind fun p source attrs w _ ↦ ?_
  refine (lockstep_liftM (packHeader p.code p.id _)).bind_eq fun header ↦ ?_
  refine Lockstep.bind_eq (blind_modify fun _ _ _ _ h ↦ ?_) fun _ ↦ lockstep_pure rfl
  exact ⟨⟨rfl, h.attrs, h.skips, h.code_eq, h.acctDelay⟩, rfl⟩

/-- **A request** goes out the same. -/
theorem blind_requestPacket (E : Env) : Blind H n (requestPacket E) := by
  unfold requestPacket
  refine blind_get_bind fun p source attrs w _ ↦ ?_
  dsimp only
  split
  · exact lockstep_throw_bind _
  · refine blind_ensureId.bind_eq fun _ ↦ ?_
    split
    · exact blind_serializeV11 E
    · split
      · exact blind_ensureAuthenticator.bind_eq fun _ ↦
          (blind_prepareRequestMessageAuthenticator E false).bind_eq fun _ ↦
          blind_encodeV10RequestWithRandomAuthenticator E
      · exact blind_encodeV10RequestWithRandomAuthenticator E
      · exact blind_encodeV10RequestWithBodyMd5Authenticator E

/-- **A reply** goes out the same. -/
theorem blind_replyPacket (E : Env) : Blind H n (replyPacket E) := by
  unfold replyPacket
  refine blind_get_bind fun p source attrs w _ ↦ ?_
  dsimp only
  split
  · exact blind_serializeV11 E
  · have hrest (authenticator : Bytes) : Blind H n (do
        refreshIfCarried E
        let attr ← encodeAttributes E
        let p := (← get).pkt
        let header ← packHeader p.code p.id (20 + attr.length)
        return header ++ E.md5 (header ++ authenticator ++ attr ++ p.secret) ++ attr) := by
      refine (blind_refreshIfCarried E).bind_eq fun _ ↦ (blind_encodeAttributes E).bind_eq fun attr ↦
        blind_get_bind fun p source attrs w _ ↦ ?_
      exact (lockstep_liftM (packHeader p.code p.id _)).bind_eq fun header ↦ lockstep_pure rfl
    split
    · exact lockstep_throw _
    · exact lockstep_throw _
    · exact hrest _

end

/-! ### Packets from different sources -/

section

variable {p q : Packet} {n : ℕ}

theorem Alike.attrs_eq (h : Alike ∅ n p q) : q.attrs = p.attrs := by
  have hentries : p.attrs.entries = q.attrs.entries := by
    have hrelated : List.Forall₂ Eq p.attrs.entries q.attrs.entries := by
      refine h.attrs.imp fun e e' he ↦ Prod.ext he.1 ?_
      exact he.2.resolve_right fun h ↦ h.1
    exact List.forall₂_eq_eq_eq ▸ hrelated
  exact OrderedDict.ext hentries.symm

/-- A packet and the same packet from somewhere else. -/
theorem alike_source (p : Packet) (source : Option Address) :
    Alike ∅ p.code p { p with source } where
  fields := rfl
  attrs := OrderedDict.related_refl (storedAlike_refl ∅) _
  skips := fun _ h ↦ h.elim
  code_eq := rfl
  acctDelay := fun _ _ h ↦ h.elim

theorem blind_verifyAttributes (E : Env) : Blind ∅ n (verifyAttributes E) := by
  unfold verifyAttributes
  refine blind_get_bind fun p source attrs w _ ↦ ?_
  dsimp only
  split
  · exact (blind_setMessageAuthenticator E _).bind_eq fun _ ↦ blind_encodeAttributes E
  · exact (blind_setMessageAuthenticator E _).bind_eq fun _ ↦ blind_encodeAttributes E
  · exact lockstep_liftM _

theorem blind_verifyMessageAuthenticator (E : Env) (secret original : Option Bytes)
    (originalCode : Option ℕ) :
    Blind ∅ n (verifyMessageAuthenticator E secret original originalCode) := by
  unfold verifyMessageAuthenticator
  refine blind_get_bind fun p source attrs w h ↦ ?_
  have hitem : ({ p with source, attrs } : Packet).getItem E "Message-Authenticator" =
      p.getItem E "Message-Authenticator" := h.getItem E fun _ hkey ↦ hkey.elim
  dsimp only
  split
  · exact lockstep_throw_bind _
  rw [hitem]
  refine (lockstep_liftM (p.getItem E "Message-Authenticator")).bind_eq fun item ↦
    (blind_verifyAttributes E).bind_eq fun attr ↦ blind_get_bind fun p source attrs w _ ↦ ?_
  refine (lockstep_liftM (packHeader p.code p.id _)).bind_eq fun header ↦
    (lockstep_liftM (p.verifyAuthenticator original originalCode)).bind_eq fun authenticator ↦
    (lockstep_liftM item.first).bind_eq fun prev ↦
    (blind_setMessageAuthenticator E prev).bind_eq fun _ ↦ ?_
  split
  · exact lockstep_pure rfl
  · exact lockstep_throw _

theorem blind_requireValidMessageAuthenticator (E : Env) (secret original : Option Bytes)
    (originalCode : Option ℕ) :
    Blind ∅ n (requireValidMessageAuthenticator E secret original originalCode) := by
  have hcaught := lockstep_catchException
    (blind_verifyMessageAuthenticator (n := n) E secret original originalCode)
    (lockstep_throw (.packetError "Message-Authenticator is invalid"))
  refine hcaught.bind_eq fun isValid ↦ ?_
  split
  · exact lockstep_pure rfl
  · exact lockstep_throw _

theorem blind_validateMessageAuthenticatorPolicy (E : Env) (requireMa requireEapMa : Bool) :
    Blind ∅ n (validateMessageAuthenticatorPolicy E requireMa requireEapMa) := by
  unfold validateMessageAuthenticatorPolicy
  refine blind_get_bind fun p source attrs w h ↦ ?_
  dsimp only
  rw [h.hasMessageAuthenticator, h.hasEapMessage]
  split
  · exact lockstep_pure rfl
  split
  · split
    · exact lockstep_throw_bind _
    split
    · exact lockstep_throw_bind _
    split
    · exact lockstep_throw_bind _
    · exact lockstep_pure rfl
  · exact blind_requireValidMessageAuthenticator E none none none

end

end Packet

end Pyrad2
