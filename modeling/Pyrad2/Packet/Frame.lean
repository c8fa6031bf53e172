import Pyrad2.Packet.Authenticator

/-!
# What methods of a packet leave alone

Assigning attributes, serializing and checking change the attribute map and nothing else of a packet,
except that salt encryption may draw the authenticator it needs.
-/

namespace Pyrad2

open EStateM

namespace Packet

/-- The packets differ at most in an authenticator that the first one had not got. -/
def Draws (s s' : PacketState) : Prop :=
  ∃ authenticator, s'.pkt = { s.pkt with authenticator } ∧
    ∀ a, s.pkt.authenticator = some a → authenticator = some a

theorem Draws.of_pkt_eq {s s' : PacketState} (h : s'.pkt = s.pkt) : Draws s s' :=
  ⟨s.pkt.authenticator, h, fun _ ha ↦ ha⟩

instance : IsPreorder PacketState Draws where
  refl := fun _ ↦ .of_pkt_eq rfl
  trans := by
    rintro s s' s'' ⟨auth, hs', hauth⟩ ⟨auth', hs'', hauth'⟩
    refine ⟨auth', by rw [hs'', hs'], fun a ha ↦ hauth' a ?_⟩
    rw [hs']
    exact hauth a ha

/-- The packets differ in their attributes at most, and in an authenticator that the first one had
not got. -/
def Recodes (s s' : PacketState) : Prop :=
  ∃ attrs authenticator, s'.pkt = { s.pkt with attrs, authenticator } ∧
    ∀ a, s.pkt.authenticator = some a → authenticator = some a

theorem Recodes.of_pkt_eq {s s' : PacketState} (h : s'.pkt = s.pkt) : Recodes s s' :=
  ⟨s.pkt.attrs, s.pkt.authenticator, h, fun _ ha ↦ ha⟩

instance : IsPreorder PacketState Recodes where
  refl := fun _ ↦ .of_pkt_eq rfl
  trans := by
    rintro s s' s'' ⟨attrs, auth, hs', hauth⟩ ⟨attrs', auth', hs'', hauth'⟩
    refine ⟨attrs', auth', by rw [hs'', hs'], fun a ha ↦ hauth' a ?_⟩
    rw [hs']
    exact hauth a ha

theorem Draws.recodes {s s' : PacketState} (h : Draws s s') : Recodes s s' := by
  obtain ⟨authenticator, hpkt, hauth⟩ := h
  exact ⟨s.pkt.attrs, authenticator, hpkt, hauth⟩

section

variable (E : Env)

/-! ### Encoding -/

theorem draws_ensureAuthenticator : Respects Draws ensureAuthenticator := by
  intro s
  rcases hauth : s.pkt.authenticator with - | a
  · refine ⟨some (s.world.bytes 16).1, ?_, fun a ha ↦ ?_⟩
    · rw [after, ensureAuthenticator]
      simp [hauth]
      rfl
    · rw [hauth] at ha
      cases ha
  · refine .of_pkt_eq ?_
    rw [after, ensureAuthenticator]
    simp [hauth]

theorem draws_saltCrypt (v : PyVal) : Respects Draws (saltCrypt E v) := by
  have hrandrange (lo hi : ℕ) : Respects Draws (randrange lo hi) := fun s ↦ .of_pkt_eq rfl
  have hcrypt (value : Bytes) : Respects Draws (do
      ensureAuthenticator
      let randomValue ← randrange 0 32767
      let salt := Bytes.ofNatBE 2 (32768 + randomValue)
      let value ← saltPlaintext value
      let crypted ← saltEnDecrypt E (← get).pkt value salt
      return salt ++ crypted) :=
    draws_ensureAuthenticator.bind fun _ ↦ (hrandrange 0 32767).bind fun _ ↦
      (respects_liftM _).bind fun _ ↦ respects_get.bind fun _ ↦ (respects_liftM _).bind fun _ ↦
        respects_pure _
  unfold saltCrypt
  rcases v with - | n | s | b
  · exact (respects_liftM _).bind hcrypt
  · exact (respects_liftM _).bind hcrypt
  · exact hcrypt _
  · exact (respects_liftM _).bind hcrypt

theorem draws_encodeValue (attr : Attribute) (v : PyVal) :
    Respects Draws (encodeValue E attr v) := by
  have hresult (result : PyVal) : Respects Draws (do
      if attr.encrypt = 2 ∧ (← get).pkt.radiusVersion ≠ .v1_1 then
        return .bytes (← saltCrypt E result)
      return result) := by
    refine respects_get.bind fun s ↦ ?_
    split
    · exact (draws_saltCrypt E result).bind fun _ ↦ respects_pure _
    · exact respects_pure _
  rw [encodeValue]
  split
  · exact hresult _
  · exact (respects_liftM _).bind hresult

theorem draws_encodeKeyValues (name : String) (values : List PyVal) :
    Respects Draws (encodeKeyValues E name values) := by
  refine respects_get.bind fun s ↦ (respects_liftM _).bind fun D ↦ (respects_liftM _).bind
    fun attr ↦ (respects_liftM _).bind fun key ↦ ?_
  split
  · refine (respects_mapM fun v _ ↦ ?_).bind fun _ ↦ respects_pure _
    exact (draws_encodeValue E attr v).bind fun _ ↦ respects_liftM _
  · exact (respects_mapM fun v _ ↦ draws_encodeValue E attr v).bind fun _ ↦ respects_pure _

theorem draws_pwCrypt (password : PyVal) : Respects Draws (pwCrypt E password) := by
  refine respects_get.bind fun s ↦ ?_
  dsimp only
  split
  · exact respects_pure _
  · exact draws_ensureAuthenticator.bind fun _ ↦ (respects_liftM _).bind fun _ ↦
      (respects_liftM _).bind fun _ ↦ respects_get.bind fun _ ↦ respects_pure _

theorem draws_encodeDeferredValueList (attr : Attribute) (values : List PyVal) (tag : String) :
    Respects Draws (encodeDeferredValueList E attr values tag) := by
  have htagged (encoded : PyVal) : Respects Draws
      (do
        if tag = "" then return encoded
        prependTag attr tag encoded : PacketMethod PyVal) := by
    split
    · exact respects_pure _
    · exact respects_liftM _
  refine respects_get.bind fun s ↦ respects_mapM fun v _ ↦ ?_
  dsimp only
  split
  · split
    · exact respects_throw_bind _ _
    · exact (draws_pwCrypt E v).bind htagged
  · exact (draws_encodeValue E attr v).bind htagged

theorem draws_encodeDeferredObfuscated : Respects Draws (encodeDeferredObfuscated E) := by
  refine respects_get.bind fun s ↦ ?_
  dsimp only
  split
  · exact respects_pure _
  · refine (respects_liftM _).bind fun D ↦ (respects_liftM _).bind fun owned ↦
      (respects_foldlM _ fun pending e _ ↦ ?_).bind fun pending ↦
        (respects_mapM fun _ _ ↦ respects_liftM _).bind fun _ ↦ respects_pure _
    exact (respects_liftM _).bind fun attr ↦
      (draws_encodeDeferredValueList E attr _ _).bind fun _ ↦ respects_liftM _

/-- **Encoding the attributes** leaves them as they are. -/
theorem draws_encodeAttributes : Respects Draws (encodeAttributes E) :=
  respects_get.bind fun _ ↦ (respects_liftM _).bind fun _ ↦ (respects_liftM _).bind fun _ ↦
    (draws_encodeDeferredObfuscated E).bind fun _ ↦ respects_pure _

theorem recodes_encodeAttributes : Respects Recodes (encodeAttributes E) :=
  (draws_encodeAttributes E).mono fun _ _ h ↦ h.recodes

/-! ### Assigning and checking -/

theorem recodes_setItem (name : String) (values : List PyVal) :
    Respects Recodes (setItem E name values) := by
  have hstore (key : Key) (stored : Stored PyVal) : Respects Recodes (store key stored) :=
    respects_modify fun s ↦ ⟨s.pkt.attrs.set key stored, s.pkt.authenticator, rfl, fun _ ha ↦ ha⟩
  have hkeyValues : Respects Recodes (encodeKeyValues E name values) :=
    (draws_encodeKeyValues E name values).mono fun _ _ h ↦ h.recodes
  exact hkeyValues.bind fun ⟨key, values⟩ ↦ hstore key (.vals values)

theorem recodes_addAttribute (name : String) (values : List PyVal) :
    Respects Recodes (addAttribute E name values) := by
  have hattrs (attrs : Attrs PyVal) : Respects Recodes
      (modify fun s ↦ { s with pkt := { s.pkt with attrs } } : PacketMethod PUnit) :=
    respects_modify fun s ↦ ⟨attrs, s.pkt.authenticator, rfl, fun _ ha ↦ ha⟩
  have hkeyValues : Respects Recodes (encodeKeyValues E name values) :=
    (draws_encodeKeyValues E name values).mono fun _ _ h ↦ h.recodes
  refine respects_get.bind fun s ↦ (respects_liftM _).bind fun D ↦ (respects_liftM _).bind
    fun attr ↦ hkeyValues.bind fun kv ↦ respects_get.bind fun s' ↦ ?_
  dsimp only
  split
  · exact (respects_liftM _).bind hattrs
  · exact (respects_liftM _).bind hattrs

theorem recodes_verifyAttributes : Respects Recodes (verifyAttributes E) := by
  refine respects_get.bind fun s ↦ ?_
  split
  · exact (recodes_setItem E _ _).bind fun _ ↦ recodes_encodeAttributes E
  · exact (recodes_setItem E _ _).bind fun _ ↦ recodes_encodeAttributes E
  · exact respects_liftM _

/-- The comparison of the digests. -/
theorem recodes_compareMessageAuthenticator (E : Env) (secret originalAuthenticator : Option Bytes)
    (originalCode : Option ℕ) (s : PacketState) : Respects Recodes (do
      let prevMa ← s.pkt.getItem E "Message-Authenticator"
      let attr ← verifyAttributes E
      let p := (← get).pkt
      let header ← packHeader p.code p.id (20 + attr.length)
      let authenticator ← p.verifyAuthenticator originalAuthenticator originalCode
      let prev ← prevMa.first
      setMessageAuthenticator E prev
      match prev with
      | .bytes prev => return decide (prev = E.hmacMd5 (match secret with
        | none | some [] => s.pkt.secret
        | some secret => secret) (header ++ authenticator ++ attr))
      | _ => throw (.typeError "unsupported operand types(s) or combination of types") :
      PacketMethod Bool) := by
  refine (respects_liftM _).bind fun prevMa ↦ (recodes_verifyAttributes E).bind fun attr ↦
    respects_get.bind fun s' ↦ (respects_liftM _).bind fun header ↦
      (respects_liftM _).bind fun authenticator ↦ (respects_liftM _).bind fun prev ↦
        (recodes_setItem E _ _).bind fun _ ↦ ?_
  split
  · exact respects_pure _
  · exact respects_throw _

theorem recodes_verifyMessageAuthenticator (secret originalAuthenticator : Option Bytes)
    (originalCode : Option ℕ) :
    Respects Recodes (verifyMessageAuthenticator E secret originalAuthenticator originalCode) := by
  refine respects_get.bind fun s ↦ ?_
  dsimp only
  split
  · exact respects_throw_bind _ _
  · exact recodes_compareMessageAuthenticator E secret originalAuthenticator originalCode s

theorem recodes_requireValidMessageAuthenticator (secret originalAuthenticator : Option Bytes)
    (originalCode : Option ℕ) : Respects Recodes
      (requireValidMessageAuthenticator E secret originalAuthenticator originalCode) := by
  refine (Method.respects_catchException (recodes_verifyMessageAuthenticator E _ _ _)
    (respects_throw _)).bind fun isValid ↦ ?_
  rcases isValid
  · exact respects_throw _
  · exact respects_pure _

theorem recodes_validateMessageAuthenticatorPolicy (requireMa requireEapMa : Bool) :
    Respects Recodes (validateMessageAuthenticatorPolicy E requireMa requireEapMa) := by
  refine respects_get.bind fun s ↦ ?_
  have hvalid := recodes_requireValidMessageAuthenticator E none none none
  dsimp only
  split
  · exact respects_pure _
  split
  · split
    · exact respects_throw_bind _ _
    split
    · exact respects_throw_bind _ _
    split
    · exact respects_throw_bind _ _
    · exact respects_pure _
  · exact hvalid

/-! ### Without pending values -/

/-- A packet with no values pending in `set_obfuscated` puts out its stored attributes and is left as
it was. -/
theorem run_encodeAttributes {s : PacketState} (h : s.pkt.deferredObfuscated.entries = []) :
    (encodeAttributes E).run s = match s.pkt.encodeStored [] with
      | .ok b => .ok b s
      | .error e => .error e s := by
  have hcodes : s.pkt.deferredAttributeCodes = .ok [] := by
    rw [deferredAttributeCodes, OrderedDict.keys, h]
    rfl
  have hdeferred : (encodeDeferredObfuscated E).run s = .ok [] s := by
    rw [encodeDeferredObfuscated]
    simp [h]
  rw [encodeAttributes]
  simp only [run_bind, run_get, hcodes, run_liftM_ok]
  rcases s.pkt.encodeStored [] with e | b
  · rfl
  · simp [hdeferred]

variable {s : PacketState}

theorem run_encodeAttributes_of_ok (h : s.pkt.deferredObfuscated.entries = []) {b : Bytes}
    (hb : s.pkt.encodeStored [] = .ok b) : (encodeAttributes E).run s = .ok b s := by
  rw [run_encodeAttributes E h, hb]

theorem run_encodeAttributes_of_error (h : s.pkt.deferredObfuscated.entries = []) {e : Exn}
    (he : s.pkt.encodeStored [] = .error e) : (encodeAttributes E).run s = .error e s := by
  rw [run_encodeAttributes E h, he]

end

/-! ### The identifier -/

/-- The identifier that is given to a packet. -/
theorem exists_run_ensureId (p : Packet) (w : World) :
    ∃ i w', ensureId.run ⟨p, w⟩ = .ok () ⟨{ p with id := some i }, w'⟩ := by
  rw [ensureId]
  simp only [run_bind, run_get]
  split
  · exact ⟨_, _, rfl⟩
  · next hsome =>
    obtain ⟨i, hi⟩ : ∃ i, p.id = some i := by
      rcases hid : p.id with - | i
      · exact absurd (by rw [hid]; rfl) hsome
      · exact ⟨i, rfl⟩
    refine ⟨i, w, ?_⟩
    rw [← hi]
    rfl

theorem run_ensureId_of_some {p : Packet} {i : ℕ} (hi : p.id = some i) (w : World) :
    ensureId.run ⟨p, w⟩ = .ok () ⟨p, w⟩ := by
  rw [ensureId]
  simp [hi]

end Packet

end Pyrad2
