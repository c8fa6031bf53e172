import Pyrad2.Packet.Alike
import Pyrad2.Packet.Received

/-!
# The counter of identifiers

The process counts `CURRENT_ID` up for every packet object that is made without an identifier, also for
those that a datagram is decoded into. Serializing and checking draw random numbers, and never look at
the counter.
-/

namespace Pyrad2

open EStateM

/-- The same random draws are to come; the counter may differ. -/
def SameDraws (w w' : World) : Prop := w'.rng = w.rng

namespace Packet

/-- The same packet, in processes with the same random draws to come. -/
structure SameButCounter (s t : PacketState) : Prop where
  pkt : t.pkt = s.pkt
  world : SameDraws s.world t.world

/-- The method does not look at the counter. -/
abbrev Uncounting {α : Type} (m : PacketMethod α) : Prop := Lockstep SameButCounter Eq m m

section

variable {α : Type}

/-- What is read of a packet is the same. -/
theorem uncounting_get_bind {f : PacketState → PacketMethod α}
    (h : ∀ p w w', SameDraws w w' → Lockstep SameButCounter Eq (f ⟨p, w⟩) (f ⟨p, w'⟩)) :
    Uncounting (get >>= f) := by
  refine lockstep_get_bind fun s t hst ↦ ?_
  obtain ⟨p, w⟩ := s
  obtain ⟨q, w'⟩ := t
  obtain rfl : q = p := hst.pkt
  exact h q w w' hst.world

/-- A change of the packet alone. -/
theorem uncounting_modify (f : Packet → Packet) :
    Uncounting (modify fun s ↦ { s with pkt := f s.pkt } : PacketMethod PUnit) :=
  lockstep_modify fun _ _ h ↦ ⟨by rw [h.pkt], h.world⟩

theorem uncounting_store (key : Key) (stored : Stored PyVal) : Uncounting (store key stored) :=
  lockstep_modify fun _ _ h ↦ ⟨by rw [h.pkt], h.world⟩

theorem uncounting_randrange (lo hi : ℕ) : Uncounting (randrange lo hi) := by
  refine ⟨fun s t hst ↦ .inl ⟨_, _, _, _, rfl, rfl, ?_, hst.pkt, ?_⟩⟩
  · show (s.world.rng.randrange lo hi).1 = (t.world.rng.randrange lo hi).1
    rw [show t.world.rng = s.world.rng from hst.world]
  · show (t.world.rng.randrange lo hi).2 = (s.world.rng.randrange lo hi).2
    rw [show t.world.rng = s.world.rng from hst.world]

theorem uncounting_createAuthenticator : Uncounting createAuthenticator := by
  refine ⟨fun s t hst ↦ .inl ⟨_, _, _, _, rfl, rfl, ?_, hst.pkt, ?_⟩⟩
  · show (s.world.rng.bytes 16).1 = (t.world.rng.bytes 16).1
    rw [show t.world.rng = s.world.rng from hst.world]
  · show (t.world.rng.bytes 16).2 = (s.world.rng.bytes 16).2
    rw [show t.world.rng = s.world.rng from hst.world]

theorem uncounting_ensureAuthenticator : Uncounting ensureAuthenticator := by
  refine uncounting_get_bind fun p w w' _ ↦ ?_
  dsimp only
  split
  · exact uncounting_createAuthenticator.bind_eq fun auth ↦
      uncounting_modify fun p ↦ { p with authenticator := some auth }
  · exact lockstep_pure rfl

theorem uncounting_ensureId : Uncounting ensureId := by
  refine uncounting_get_bind fun p w w' _ ↦ ?_
  dsimp only
  split
  · exact (uncounting_randrange 0 256).bind_eq fun id ↦
      uncounting_modify fun p ↦ { p with id := some id }
  · exact lockstep_pure rfl

end

section

variable (E : Env)

/-! ### Values and attributes -/

theorem uncounting_saltCrypt (value : PyVal) : Uncounting (saltCrypt E value) := by
  have hrest (value : Bytes) : Uncounting (do
      ensureAuthenticator
      let randomValue ← randrange 0 32767
      let salt := Bytes.ofNatBE 2 (32768 + randomValue)
      let value ← saltPlaintext value
      let crypted ← saltEnDecrypt E (← get).pkt value salt
      return salt ++ crypted) := by
    refine uncounting_ensureAuthenticator.bind_eq fun _ ↦
      (uncounting_randrange 0 32767).bind_eq fun _ ↦ (lockstep_liftM _).bind_eq fun plaintext ↦ ?_
    exact uncounting_get_bind fun p _ _ _ ↦
      (lockstep_liftM (saltEnDecrypt E p plaintext _)).bind_eq fun crypted ↦ lockstep_pure rfl
  unfold saltCrypt
  split
  · exact (lockstep_pure rfl).bind_eq hrest
  · exact (lockstep_liftM _).bind_eq hrest

theorem uncounting_encodeValue (attr : Attribute) (value : PyVal) :
    Uncounting (encodeValue E attr value) := by
  have hrest (result : PyVal) : Uncounting (do
      if attr.encrypt = 2 ∧ (← get).pkt.radiusVersion ≠ .v1_1 then
        return .bytes (← saltCrypt E result)
      return result : PacketMethod PyVal) := by
    refine uncounting_get_bind fun p _ _ _ ↦ ?_
    dsimp only
    split
    · exact (uncounting_saltCrypt E result).bind_eq fun crypted ↦ lockstep_pure rfl
    · exact lockstep_pure rfl
  unfold encodeValue
  split
  · exact (lockstep_pure rfl).bind_eq hrest
  · exact (lockstep_liftM _).bind_eq hrest

theorem uncounting_encodeKeyValues (name : String) (values : List PyVal) :
    Uncounting (encodeKeyValues E name values) := by
  unfold encodeKeyValues
  refine uncounting_get_bind fun p _ _ _ ↦ (lockstep_liftM p.theDict).bind_eq fun D ↦
    (lockstep_liftM _).bind_eq fun attr ↦ (lockstep_liftM _).bind_eq fun key ↦ ?_
  split
  · refine (lockstep_mapM fun v _ ↦ ?_).bind_eq fun vs ↦ lockstep_pure rfl
    exact (uncounting_encodeValue E attr v).bind_eq fun encoded ↦ lockstep_liftM _
  · exact (lockstep_mapM fun v _ ↦ uncounting_encodeValue E attr v).bind_eq fun vs ↦
      lockstep_pure rfl

theorem uncounting_setItem (name : String) (values : List PyVal) :
    Uncounting (setItem E name values) :=
  (uncounting_encodeKeyValues E name values).bind_eq fun ⟨key, _⟩ ↦ uncounting_store key _

theorem uncounting_pwCrypt (password : PyVal) : Uncounting (pwCrypt E password) := by
  have hrest (password : PyVal) : Uncounting (do
      if (← get).pkt.radiusVersion = .v1_1 then return password
      ensureAuthenticator
      let n ← password.len
      let buf := (← password.asBytes) ++
        (if n % 16 ≠ 0 then List.replicate (16 - n % 16) 0 else [])
      let p := (← get).pkt
      return .bytes (saltBlocks E p.secret (p.authenticator.getD []) (Bytes.chunksOf 16 buf)) :
        PacketMethod PyVal) := by
    refine uncounting_get_bind fun p _ _ _ ↦ ?_
    dsimp only
    split
    · exact lockstep_pure rfl
    · refine uncounting_ensureAuthenticator.bind_eq fun _ ↦ (lockstep_liftM _).bind_eq fun n ↦
        (lockstep_liftM _).bind_eq fun buf ↦ ?_
      exact uncounting_get_bind fun _ _ _ _ ↦ lockstep_pure rfl
  exact hrest _

theorem uncounting_encodeDeferredValueList (attr : Attribute) (values : List PyVal) (tag : String) :
    Uncounting (encodeDeferredValueList E attr values tag) := by
  unfold encodeDeferredValueList
  refine uncounting_get_bind fun p _ _ _ ↦ lockstep_mapM fun value _ ↦ ?_
  have htag (encoded : PyVal) : Uncounting (do
      if tag = "" then return encoded
      prependTag attr tag encoded : PacketMethod PyVal) := by
    split
    · exact lockstep_pure rfl
    · exact lockstep_liftM _
  dsimp only
  split
  · split
    · exact lockstep_throw_bind _
    · exact (uncounting_pwCrypt E value).bind_eq htag
  · exact (uncounting_encodeValue E attr value).bind_eq htag

theorem uncounting_encodeDeferredObfuscated : Uncounting (encodeDeferredObfuscated E) := by
  unfold encodeDeferredObfuscated
  refine uncounting_get_bind fun p _ _ _ ↦ ?_
  dsimp only
  split
  · exact lockstep_pure rfl
  · refine (lockstep_liftM p.theDict).bind_eq fun D ↦ (lockstep_liftM _).bind_eq fun owned ↦ ?_
    refine Lockstep.bind_eq (lockstep_foldlM (fun pending e _ ↦ ?_) _) fun pending ↦ ?_
    · refine (lockstep_liftM _).bind_eq fun attr ↦ ?_
      exact (uncounting_encodeDeferredValueList E attr e.2 _).bind_eq fun encoded ↦ lockstep_liftM _
    · refine (lockstep_mapM fun e _ ↦ ?_).bind_eq fun groups ↦ lockstep_pure rfl
      exact lockstep_liftM (p.encodeAvpGroup e.1 e.2)

/-- **The attributes that go out** are the same. -/
theorem uncounting_encodeAttributes : Uncounting (encodeAttributes E) := by
  unfold encodeAttributes
  refine uncounting_get_bind fun p _ _ _ ↦ (lockstep_liftM _).bind_eq fun deferred ↦ ?_
  exact (lockstep_liftM _).bind_eq fun stored ↦ (uncounting_encodeDeferredObfuscated E).bind_eq
    fun pending ↦ lockstep_pure rfl

/-! ### Message-Authenticators -/

theorem uncounting_refreshMessageAuthenticator : Uncounting (refreshMessageAuthenticator E) := by
  unfold refreshMessageAuthenticator
  refine (uncounting_setItem E _ _).bind_eq fun _ ↦
    (uncounting_encodeAttributes E).bind_eq fun attr ↦ uncounting_get_bind fun p _ _ _ ↦ ?_
  exact (lockstep_liftM (packHeader p.code p.id _)).bind_eq fun header ↦
    (lockstep_liftM p.macAuthenticator).bind_eq fun authenticator ↦ uncounting_setItem E _ _

theorem uncounting_addMessageAuthenticator : Uncounting (addMessageAuthenticator E) := by
  unfold addMessageAuthenticator
  refine uncounting_get_bind fun p _ _ _ ↦ ?_
  dsimp only
  split
  · exact lockstep_pure rfl
  · refine (uncounting_modify fun p ↦ { p with messageAuthenticator := some true }).bind_eq fun _ ↦
      (uncounting_setItem E _ _).bind_eq fun _ ↦ uncounting_ensureId.bind_eq fun _ ↦
      uncounting_get_bind fun p _ _ _ ↦ ?_
    dsimp only
    split
    · exact uncounting_ensureAuthenticator.bind_eq fun _ ↦ uncounting_refreshMessageAuthenticator E
    · exact lockstep_pure rfl

theorem uncounting_ensureMessageAuthenticator : Uncounting (ensureMessageAuthenticator E) := by
  unfold ensureMessageAuthenticator
  refine uncounting_get_bind fun p _ _ _ ↦ ?_
  dsimp only
  split
  · exact lockstep_pure rfl
  · split
    · exact uncounting_modify fun p ↦ { p with messageAuthenticator := some true }
    · exact uncounting_addMessageAuthenticator E

theorem uncounting_prepareRequestMessageAuthenticator (require : Bool) :
    Uncounting (prepareRequestMessageAuthenticator E require) := by
  unfold prepareRequestMessageAuthenticator
  refine uncounting_get_bind fun p _ _ _ ↦ ?_
  dsimp only
  split
  · exact lockstep_pure rfl
  split
  · exact lockstep_pure rfl
  split
  · exact uncounting_ensureMessageAuthenticator E
  · exact lockstep_pure rfl

theorem uncounting_refreshIfCarried : Uncounting (refreshIfCarried E) := by
  refine uncounting_get_bind fun p _ _ _ ↦ ?_
  dsimp only
  split
  · exact uncounting_refreshMessageAuthenticator E
  · exact lockstep_pure rfl

/-! ### Whole packets -/

theorem uncounting_serializeV11 : Uncounting (serializeV11 E) :=
  (uncounting_encodeAttributes E).bind_eq fun attr ↦ uncounting_get_bind fun p _ _ _ ↦
    (lockstep_liftM (packV11Header p.code (20 + attr.length) p.token)).bind_eq fun _ ↦
      lockstep_pure rfl

theorem uncounting_encodeV10RequestWithRandomAuthenticator :
    Uncounting (encodeV10RequestWithRandomAuthenticator E) := by
  refine uncounting_ensureAuthenticator.bind_eq fun _ ↦ (uncounting_refreshIfCarried E).bind_eq
    fun _ ↦ (uncounting_encodeAttributes E).bind_eq fun attr ↦ uncounting_get_bind fun p _ _ _ ↦ ?_
  exact (lockstep_liftM (packHeader p.code p.id _)).bind_eq fun header ↦
    (lockstep_liftM (concatOperand p.authenticator)).bind_eq fun authenticator ↦ lockstep_pure rfl

theorem uncounting_encodeV10RequestWithBodyMd5Authenticator :
    Uncounting (encodeV10RequestWithBodyMd5Authenticator E) := by
  refine (uncounting_refreshIfCarried E).bind_eq fun _ ↦
    (uncounting_encodeAttributes E).bind_eq fun attr ↦ uncounting_get_bind fun p _ _ _ ↦ ?_
  refine (lockstep_liftM (packHeader p.code p.id _)).bind_eq fun header ↦ ?_
  exact (uncounting_modify fun q ↦ { q with
    authenticator := some (E.md5 (header ++ zeros16 ++ attr ++ p.secret)) }).bind_eq fun _ ↦
      lockstep_pure rfl

/-- **A request** goes out the same. -/
theorem uncounting_requestPacket : Uncounting (requestPacket E) := by
  unfold requestPacket
  refine uncounting_get_bind fun p _ _ _ ↦ ?_
  dsimp only
  split
  · exact lockstep_throw_bind _
  refine uncounting_ensureId.bind_eq fun _ ↦ ?_
  split
  · exact uncounting_serializeV11 E
  split
  · exact uncounting_ensureAuthenticator.bind_eq fun _ ↦
      (uncounting_prepareRequestMessageAuthenticator E false).bind_eq fun _ ↦
      uncounting_encodeV10RequestWithRandomAuthenticator E
  · exact uncounting_encodeV10RequestWithRandomAuthenticator E
  · exact uncounting_encodeV10RequestWithBodyMd5Authenticator E

/-! ### Replies -/

theorem uncounting_verifyAttributes : Uncounting (verifyAttributes E) := by
  unfold verifyAttributes
  refine uncounting_get_bind fun p _ _ _ ↦ ?_
  dsimp only
  split
  · exact (uncounting_setItem E _ _).bind_eq fun _ ↦ uncounting_encodeAttributes E
  · exact (uncounting_setItem E _ _).bind_eq fun _ ↦ uncounting_encodeAttributes E
  · exact lockstep_liftM _

theorem uncounting_verifyMessageAuthenticator (secret original : Option Bytes)
    (originalCode : Option ℕ) :
    Uncounting (verifyMessageAuthenticator E secret original originalCode) := by
  unfold verifyMessageAuthenticator
  refine uncounting_get_bind fun p _ _ _ ↦ ?_
  dsimp only
  split
  · exact lockstep_throw_bind _
  refine (lockstep_liftM (p.getItem E "Message-Authenticator")).bind_eq fun item ↦
    (uncounting_verifyAttributes E).bind_eq fun attr ↦ uncounting_get_bind fun p _ _ _ ↦ ?_
  refine (lockstep_liftM (packHeader p.code p.id _)).bind_eq fun header ↦
    (lockstep_liftM (p.verifyAuthenticator original originalCode)).bind_eq fun authenticator ↦
    (lockstep_liftM item.first).bind_eq fun prev ↦ (uncounting_setItem E _ _).bind_eq fun _ ↦ ?_
  split
  · exact lockstep_pure rfl
  · exact lockstep_throw _

/-- **The check of a reply** comes to the same. -/
theorem uncounting_verifyReply (p : Packet) (raw : Bytes) (enforceMa : Bool) :
    Uncounting (verifyReply E p (some raw) enforceMa) := by
  have hvalid : Uncounting (do
      requireValidMessageAuthenticator E (some p.secret) p.authenticator (some p.code)
      return true : PacketMethod Bool) := by
    have hcaught := lockstep_catchException
      (uncounting_verifyMessageAuthenticator E (some p.secret) p.authenticator (some p.code))
      (lockstep_throw (.packetError "Message-Authenticator is invalid"))
    refine Lockstep.bind_eq (hcaught.bind_eq fun isValid ↦ ?_) fun _ ↦ lockstep_pure rfl
    split
    · exact lockstep_pure rfl
    · exact lockstep_throw _
  unfold verifyReply
  refine uncounting_get_bind fun reply _ _ _ ↦ ?_
  dsimp only
  split
  · exact lockstep_pure rfl
  split
  · exact lockstep_pure rfl
  refine (lockstep_pure rfl).bind_eq fun raw ↦ (uncounting_encodeAttributes E).bind_eq fun _ ↦
    (lockstep_liftM _).bind_eq fun authenticator ↦ ?_
  split
  · exact lockstep_pure rfl
  refine uncounting_get_bind fun reply _ _ _ ↦ ?_
  split
  · refine hvalid.tryCatch fun e ↦ ?_
    split
    · exact lockstep_pure rfl
    · exact lockstep_throw e
  · exact lockstep_pure rfl

end

/-! ### New packet objects -/

/-- The process is as it was. -/
def SameWorld (s s' : PacketState) : Prop := s'.world = s.world

instance instIsPreorderSameWorld : IsPreorder PacketState SameWorld where
  refl := fun _ ↦ rfl
  trans := fun _ _ _ h h' ↦ h'.trans h

/-- Decoding takes nothing from the process, whether or not it succeeds. -/
theorem sameWorld_decodePacket (raw : Bytes) : Respects SameWorld (decodePacket raw) := by
  have hbody (body : Bytes) : Respects SameWorld (decodeBody body) := by
    intro s
    rcases hrun : (decodeAvps s.pkt.dict s.pkt.radiusVersion body.length body).run
        { messageAuthenticator := s.pkt.messageAuthenticator } with ⟨u, st⟩ | ⟨e, st⟩
    · rw [after_of_ok (run_decodeBody_of_ok hrun)]
      rfl
    · rw [after_of_error (run_decodeBody_of_error hrun)]
      rfl
  rw [decodePacket]
  split
  · exact respects_throw_bind _ _
  refine Respects.bind (respects_modify (R := SameWorld)
    (g := fun s ↦ { s with pkt := s.pkt.withHeader raw }) fun _ ↦ rfl) fun _ ↦ ?_
  dsimp only
  split
  · exact respects_throw_bind _ _
  split
  · exact respects_throw_bind _ _
  · exact hbody _

/-- Making a packet object of bytes draws no random number. -/
theorem ensures_construct_sameDraws (E : Env) (fields : Packet) (raw : Bytes) (w : World) :
    Ensures (construct E fields (some raw) []) w (fun _ w' ↦ SameDraws w w')
      fun _ w' ↦ SameDraws w w' := by
  have hdecode (s : PacketState) : Ensures (decodePacket raw) s (fun _ s' ↦ s'.world = s.world)
      fun _ s' ↦ s'.world = s.world := by
    have hworld : SameWorld s (after (decodePacket raw) s) := sameWorld_decodePacket raw s
    rw [Ensures]
    rcases hrun : (decodePacket raw).run s with ⟨u, s'⟩ | ⟨e, s'⟩
    · rwa [after_of_ok hrun] at hworld
    · rwa [after_of_error hrun] at hworld
  have hinit (p : Packet) (w₀ : World) (hw : SameDraws w w₀) := ensures_initReceived (E := E) (p := p)
    (Q := fun s ↦ SameDraws w s.world) (R := fun _ s ↦ SameDraws w s.world)
    ((hdecode ⟨{ p with rawPacket := some raw }, w₀⟩).imp (fun _ _ h ↦ by rw [h]; exact hw)
      fun _ _ h ↦ by rw [h]; exact hw)
  rw [construct, ensures_bind, ensures_run, init, ensures_bind]
  refine ensures_get.2 ?_
  dsimp only
  split
  · exact ensures_bind.2 (ensures_modify.2 (hinit _ _ rfl))
  · exact hinit fields w rfl

/-- The same packet but for the identifier, in processes with the same random draws to come. -/
structure SameButId (s t : PacketState) : Prop where
  pkt : t.pkt = { s.pkt with id := t.pkt.id }
  world : SameDraws s.world t.world

/-- The identifier is read off the bytes. -/
theorem brings_decodePacket (raw : Bytes) :
    Brings SameButId SameButCounter (fun s t ↦ SameDraws s.world t.world) Eq (decodePacket raw)
      (decodePacket raw) := by
  have hheader : Brings SameButId SameButCounter (fun s t ↦ SameDraws s.world t.world) Eq
      (modify fun s ↦ { s with pkt := s.pkt.withHeader raw } : PacketMethod PUnit)
      (modify fun s ↦ { s with pkt := s.pkt.withHeader raw }) := by
    refine ⟨fun s t hst ↦ .inl ⟨_, _, _, _, rfl, rfl, rfl, ?_, hst.world⟩⟩
    -- the header has an identifier in either version
    exact (congrArg (·.withHeader raw) hst.pkt).trans rfl
  have hbody (body : Bytes) : Uncounting (decodeBody body) := by
    refine ⟨fun s t hst ↦ ?_⟩
    obtain ⟨p, w⟩ := s
    obtain ⟨q, w'⟩ := t
    obtain rfl : q = p := hst.pkt
    rcases hrun : (decodeAvps q.dict q.radiusVersion body.length body).run
        { messageAuthenticator := q.messageAuthenticator } with ⟨u, st⟩ | ⟨e, st⟩
    · exact .inl ⟨_, _, _, _, run_decodeBody_of_ok (s := ⟨q, w⟩) hrun,
        run_decodeBody_of_ok (s := ⟨q, w'⟩) hrun, rfl, rfl, hst.world⟩
    · exact .inr ⟨e, _, _, run_decodeBody_of_error (s := ⟨q, w⟩) hrun,
        run_decodeBody_of_error (s := ⟨q, w'⟩) hrun, rfl, hst.world⟩
  rw [decodePacket]
  split
  · exact ⟨fun s t hst ↦ .inr ⟨_, s, t, rfl, rfl, hst.world⟩⟩
  refine hheader.bind fun _ _ _ ↦ Lockstep.brings ?_ (fun _ _ h ↦ h) (fun _ _ h ↦ h)
    fun _ _ h ↦ h.world
  dsimp only
  split
  · exact lockstep_throw_bind _
  split
  · exact lockstep_throw_bind _
  · exact hbody _

/-- **A packet object that is made of bytes** is the same, whatever the counter. -/
theorem lockstep_construct (E : Env) (fields : Packet) (raw : Bytes) :
    Lockstep SameDraws Eq (construct E fields (some raw) []) (construct E fields (some raw) []) := by
  have hinit : Brings SameButCounter SameButCounter (fun s t ↦ SameDraws s.world t.world) Eq
      (init E (some raw) []) (init E (some raw) []) := by
    refine ⟨fun s t hst ↦ ?_⟩
    have hrest {s t : PacketState} (hst : SameButId s t) :=
      ((brings_decodePacket raw).bind fun _ _ _ ↦ (lockstep_pure (R := SameButCounter) rfl :
        Lockstep _ Eq (pure () : PacketMethod Unit) (pure ())).brings (fun _ _ h ↦ h)
          (fun _ _ h ↦ h) fun _ _ h ↦ h.world).run
        ⟨{ s.pkt with rawPacket := some raw }, s.world⟩ ⟨{ t.pkt with rawPacket := some raw }, t.world⟩
        ⟨by rw [hst.pkt], hst.world⟩
    obtain ⟨p, w⟩ := s
    obtain ⟨q, w'⟩ := t
    obtain rfl : q = p := hst.pkt
    rw [init, run_bind_of_ok (run_get _), run_bind_of_ok (run_get _)]
    dsimp only
    split
    · exact hrest (s := ⟨{ q with id := some w.createId.1 }, w.createId.2⟩)
        (t := ⟨{ q with id := some w'.createId.1 }, w'.createId.2⟩) ⟨rfl, hst.world⟩
    · exact hrest (s := ⟨q, w⟩) (t := ⟨q, w'⟩) ⟨rfl, hst.world⟩
  refine Lockstep.bind_eq ⟨fun w w' hw ↦ ?_⟩ fun _ ↦ lockstep_pure rfl
  rw [run_run, run_run]
  rcases hinit.run ⟨fields, w⟩ ⟨fields, w'⟩ ⟨rfl, hw⟩ with
    ⟨u, s, u', t, hs, ht, -, hst⟩ | ⟨e, s, t, hs, ht, hst⟩
  · rw [hs, ht]
    exact .inl ⟨_, _, _, _, rfl, rfl, by rw [hst.pkt], hst.world⟩
  · rw [hs, ht]
    exact .inr ⟨e, _, _, rfl, rfl, hst⟩

end Packet

end Pyrad2
