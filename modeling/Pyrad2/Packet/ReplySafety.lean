import Pyrad2.Packet.EncodeSize
import Pyrad2.Packet.Raises
import Pyrad2.Packet.VerifyReply

/-!
# Replies that crash the client

Which exceptions escape when a client takes bytes from the socket for a reply.

Decoding raises `PacketError` or nothing, and a Message-Authenticator check turns every exception
into one. Between the two `verify_reply` serializes the decoded attributes once more, before anything
has been authenticated, and what the encoder raises is never a `PacketError`.
-/

namespace Pyrad2

open EStateM

namespace Packet

/-! ### Checking a Message-Authenticator ends -/

theorem onlyRaises_zeroWalk {fuel : ℕ} {b : Bytes} (hfuel : b.length ≤ fuel) :
    Except.OnlyRaises (fun e ↦ e.isPacketError = true) (zeroWalk fuel b) := by
  induction fuel generalizing b with
  | zero =>
    rw [List.length_eq_zero_iff.1 (Nat.le_zero.1 hfuel)]
    exact Except.onlyRaises_ok _
  | succ fuel ih =>
    rcases b with - | ⟨key, - | ⟨length, rest⟩⟩
    · exact Except.onlyRaises_ok _
    · exact Except.onlyRaises_error rfl
    · have hrest : (rest.drop (length.toNat - 2)).length ≤ fuel := by
        simp only [List.length_cons] at hfuel
        rw [List.length_drop]
        omega
      rw [zeroWalk_cons]
      split
      · exact Except.onlyRaises_error rfl
      split
      · exact Except.onlyRaises_error rfl
      split
      · exact Except.onlyRaises_error rfl
      · exact (ih hrest).map _

theorem onlyRaises_zeroMessageAuthenticator (b : Bytes) :
    Except.OnlyRaises (fun e ↦ e.isPacketError = true) (zeroMessageAuthenticator b) := by
  refine (onlyRaises_zeroWalk le_rfl).bind fun zn ↦ ?_
  dsimp only
  split
  · exact Except.onlyRaises_error rfl
  split
  · exact Except.onlyRaises_error rfl
  · exact Except.onlyRaises_ok _

theorem foreign_packHeader (code : ℕ) (id : Option ℕ) (length : ℕ) :
    Foreign (packHeader code id length) := by
  unfold packHeader
  split
  · split
    · exact Except.onlyRaises_ok _
    · exact foreign_error trivial
  · exact foreign_error trivial

theorem foreign_concatOperand (a : Option Bytes) : Foreign (concatOperand a) := by
  rcases a with - | a
  · exact foreign_error trivial
  · exact Except.onlyRaises_ok _

theorem foreign_verifyAuthenticator (p : Packet) (originalAuthenticator : Option Bytes)
    (originalCode : Option ℕ) :
    Foreign (p.verifyAuthenticator originalAuthenticator originalCode) := by
  have hown : Foreign (p.originalOrOwn originalAuthenticator) := by
    unfold originalOrOwn
    split
    · exact Except.onlyRaises_ok _
    · split
      · exact foreign_error trivial
      · exact foreign_error trivial
      · exact Except.onlyRaises_ok _
  rw [verifyAuthenticator]
  split
  · exact Except.onlyRaises_ok _
  split
  · split
    · exact hown
    · exact Except.onlyRaises_ok _
  split
  · exact hown
  · exact foreign_concatOperand _

section

variable {E : Env} {p : Packet} {raw : Bytes} {w : World}

/-- The check of a received packet comes to an end. -/
theorem ensures_verifyMessageAuthenticator_ne_divergence (hraw : p.rawPacket = some raw)
    (hne : raw ≠ []) (secret originalAuthenticator : Option Bytes) (originalCode : Option ℕ) :
    Ensures (verifyMessageAuthenticator E secret originalAuthenticator originalCode) ⟨p, w⟩
      (fun _ _ ↦ True) fun e _ ↦ e ≠ .divergence := by
  have hforeign {α : Type} {x : Except Exn α} (hx : Foreign x) (e : Exn) (he : x = .error e) :
      e ≠ .divergence := (hx.of_error e he).ne_divergence
  rw [verifyMessageAuthenticator]
  refine ensures_bind.2 (ensures_get.2 ?_)
  dsimp only
  split
  · exact fun h ↦ by cases h
  refine ensures_bind.2 (ensures_liftM (fun item _ ↦ ?_) (hforeign (foreign_getItem E p _)))
  refine ensures_bind.2 ?_
  rw [Ensures, run_verifyAttributes hraw hne]
  refine ensures_liftM (fun z _ ↦ ?_) fun e he ↦ ?_
  · refine ensures_bind.2 (ensures_get.2 (ensures_bind.2 (ensures_liftM (fun header _ ↦ ?_)
      (hforeign (foreign_packHeader _ _ _)))))
    refine ensures_bind.2 (ensures_liftM (fun authenticator _ ↦ ?_)
      (hforeign (foreign_verifyAuthenticator _ _ _)))
    refine ensures_bind.2 (ensures_liftM (fun prev _ ↦ ?_) (hforeign (ItemView.foreign_first item)))
    refine ensures_bind.2 (((foreign_setItem E _ _).ensures _).imp (fun _ s' _ ↦ ?_)
      fun e _ he ↦ he.ne_divergence)
    rcases prev with - | n | s | prev
    · exact fun h ↦ by cases h
    · exact fun h ↦ by cases h
    · exact fun h ↦ by cases h
    · trivial
  · have herror := (onlyRaises_zeroMessageAuthenticator _).of_error e he
    rintro rfl
    cases herror

/-- A check that fails for whatever reason raises `PacketError`. -/
theorem ensures_requireValidMessageAuthenticator_isPacketError (hraw : p.rawPacket = some raw)
    (hne : raw ≠ []) (secret originalAuthenticator : Option Bytes) (originalCode : Option ℕ) :
    Ensures (requireValidMessageAuthenticator E secret originalAuthenticator originalCode) ⟨p, w⟩
      (fun _ _ ↦ True) fun e _ ↦ e.isPacketError = true := by
  rw [requireValidMessageAuthenticator]
  refine ensures_bind.2 (Method.ensures_catchException
    ((ensures_verifyMessageAuthenticator_ne_divergence hraw hne _ _ _).imp (fun isValid s _ ↦ ?_)
      fun e s he ↦ ⟨fun h ↦ absurd h he, fun _ ↦ rfl⟩))
  rcases isValid
  · exact rfl
  · trivial

end

/-! ### What the decoder stores can stand where it does -/

section

variable {D : Option Dictionary} {key : Key} {stored : Stored Bytes}

theorem mapBelongs_of_topShaped (h : TopShaped D key stored) : MapBelongs D key stored := by
  rintro m rfl
  obtain ⟨hmap, -⟩ := h
  rcases key with n | (- | ⟨vendor, - | ⟨vsaType, - | ⟨c, l⟩⟩⟩)
  · rcases D with - | D
    · simp [holdsMap] at hmap
    · simp only [holdsMap, Option.any_some, Bool.and_eq_true] at hmap
      exact ⟨hmap.2, fun a b c d h ↦ by cases h⟩
  · cases hmap
  · cases hmap
  · rcases D with - | D
    · cases hmap
    · refine ⟨?_, fun a b c d h ↦ by cases h⟩
      have htlv : D.isTlvAttribute (.tup [vendor, vsaType]) = true := hmap
      change (D.containerType (.tup [vendor, vsaType])).isSome = true
      rw [Dictionary.isTlvAttribute] at htlv
      rw [Dictionary.containerType]
      split at htlv
      · next attr hattr =>
        have htype : attr.type = .tlv := by simpa using htlv
        rw [htype]
        rfl
      · cases htlv
  · cases hmap

theorem mergeConcat_eq_node {D : Dictionary} {m : SubMap Bytes}
    (h : mergeConcat D key stored = .node m) : stored = .node m := by
  rcases stored with chunks | m'
  · unfold mergeConcat at h
    dsimp only at h
    split at h <;> cases h
  · exact h

theorem splitArray_eq_node {D : Dictionary} {m : SubMap Bytes}
    (h : splitArray D key stored = .node m) : stored = .node m := by
  rcases stored with packed | m'
  · unfold splitArray at h
    split at h
    · split at h
      · split at h <;> cases h
      · cases h
    · exact h
  · unfold splitArray at h
    split at h
    · next heq => cases heq
    · exact h

/-- Joining and splitting lists neither adds a key nor makes a map. -/
theorem exists_of_mem_finishAttributes {attrs : Attrs Bytes} {e : Key × Stored Bytes}
    (he : e ∈ (finishAttributes D attrs).entries) :
    ∃ stored, (e.1, stored) ∈ attrs.entries ∧ ∀ m, e.2 = .node m → stored = .node m := by
  rcases D with - | D
  · exact ⟨e.2, he, fun m hm ↦ hm⟩
  · have hentries : (finishAttributes (some D) attrs).entries =
        (attrs.entries.map fun e ↦ (e.1, mergeConcat D e.1 e.2)).map
          fun e ↦ (e.1, splitArray D e.1 e.2) := rfl
    rw [hentries, List.map_map, List.mem_map] at he
    obtain ⟨⟨key, stored⟩, hmem, rfl⟩ := he
    exact ⟨stored, hmem, fun m hm ↦ mergeConcat_eq_node (splitArray_eq_node hm)⟩

theorem Decoded.mapBelongs {raw : Bytes} {st : DecodeState} (h : Decoded D raw st) :
    ∀ e ∈ (finishAttributes D st.attrs).entries, MapBelongs D e.1 e.2 := by
  intro e he
  have hshaped := ensures_decodeAvps .v1_0 (le_refl (raw.drop 20).length) (shaped_initial D none)
  obtain ⟨macs, flag, hst⟩ := hshaped.of_run_eq_ok h.run
  obtain ⟨stored, hmem, hnode⟩ := exists_of_mem_finishAttributes he
  have htop := hst.shaped e.1 stored (OrderedDict.get?_eq_some_iff.2 hmem)
  exact fun m hm ↦ mapBelongs_of_topShaped htop m (hnode m hm)

end

/-! ### Taking bytes for a reply -/

/-- `reply = pkt.create_reply(packet=raw); pkt.verify_reply(reply, raw, enforce_ma)` -/
def takeReply (E : Env) (p : Packet) (raw : Bytes) (enforceMa : Bool) : Method World Bool := do
  let reply ← createReply E p none (some raw) []
  let (accepted, _) ← reply.run (verifyReply E p (some raw) enforceMa)
  return accepted

/-- Nothing but `PacketError` comes out of it. -/
def ReplyCaught (E : Env) (p : Packet) (raw : Bytes) (enforceMa : Bool) : Prop :=
  ∀ w, (∃ accepted w', (takeReply E p raw enforceMa).run w = .ok accepted w') ∨
    ∃ msg w', (takeReply E p raw enforceMa).run w = .error (.packetError msg) w'

/-- The bytes do not decode, carry another identifier, or what they decode to can be encoded again,
for a request that has an authenticator. -/
def Reencodable (p : Packet) (raw : Bytes) : Prop :=
  ∀ st, Decoded p.dict raw st → p.id = some (wireId raw) →
    AttrsFit p.dict (finishAttributes p.dict st.attrs) ∧ p.authenticator.isSome = true

section

variable {E : Env} {p : Packet} {raw : Bytes}

/-- Of a reply that decodes, the check raises no `PacketError`; what it raises comes from encoding
the reply again. -/
theorem ensures_verifyReply_receivedReply (hversion : p.radiusVersion = .v1_0) {st : DecodeState}
    (hst : Decoded p.dict raw st) (enforceMa : Bool) (w : World) :
    Ensures (verifyReply E p (some raw) enforceMa) ⟨p.receivedReply raw st, w⟩
      (fun _ _ ↦ Reencodable p raw) fun e _ ↦ e.isPacketError = false ∧ ¬ Reencodable p raw := by
  have hne : raw ≠ [] := by
    have hheader := hst.framed.header
    rintro rfl
    exact absurd hheader (by decide)
  have hiff (hid : p.id = some (wireId raw)) : Reencodable p raw ↔
      AttrsFit p.dict (finishAttributes p.dict st.attrs) ∧ p.authenticator.isSome = true :=
    ⟨fun h ↦ h st hst hid, fun h st' hst' _ ↦ by rwa [hst'.unique hst]⟩
  rw [verifyReply]
  refine ensures_bind.2 (ensures_get.2 ?_)
  dsimp only
  rw [if_neg (by rw [hversion]; decide)]
  split
  · next hid => exact fun st _ hid' ↦ absurd hid'.symm hid
  next hid =>
  have hid' : p.id = some (wireId raw) := (not_not.1 hid).symm
  have hencode : Except.Succeeds ((p.receivedReply raw st).encodeStored []) ↔
      AttrsFit p.dict (finishAttributes p.dict st.attrs) :=
    succeeds_encodeStored_iff (p := p.receivedReply raw st) rfl hst.mapBelongs
  refine ensures_bind.2 (ensures_pure.2 (ensures_bind.2 ?_))
  rw [Ensures, run_encodeAttributes E rfl]
  rcases hstored : (p.receivedReply raw st).encodeStored [] with e | b
  · refine ⟨((foreign_encodeStored _ _).of_error e hstored).not_isPacketError, ?_⟩
    rw [hstored] at hencode
    rw [hiff hid']
    exact fun h ↦ Except.not_succeeds_error e (hencode.2 h.1)
  · rw [hstored] at hencode
    have hfit := hencode.1 (Except.succeeds_ok b)
    refine ensures_bind.2 (ensures_liftM (fun authenticator hauth ↦ ?_) fun e he ↦ ?_)
    · have hcaught : Reencodable p raw := by
        rw [hiff hid']
        refine ⟨hfit, ?_⟩
        rcases ha : p.authenticator with - | a
        · rw [ha] at hauth
          cases hauth
        · rfl
      split
      · exact hcaught
      refine ensures_bind.2 (ensures_get.2 ?_)
      split
      · refine ensures_tryCatch.2 (ensures_bind.2 ?_)
        have hvalid : Ensures (requireValidMessageAuthenticator E (some p.secret) p.authenticator
            (some p.code)) ⟨p.receivedReply raw st, w⟩ (fun _ _ ↦ True)
            fun e _ ↦ e.isPacketError = true :=
          ensures_requireValidMessageAuthenticator_isPacketError rfl hne _ _ _
        refine hvalid.imp (fun _ _ _ ↦ hcaught) fun e _ he ↦ ?_
        rw [if_pos he]
        exact hcaught
      · exact hcaught
    · refine ⟨((foreign_concatOperand _).of_error e he).not_isPacketError, ?_⟩
      rw [hiff hid']
      rintro ⟨-, hsome⟩
      rcases ha : p.authenticator with - | a
      · rw [ha] at hsome
        cases hsome
      · rw [ha] at he
        cases he

/-- **Taking a reply**: either what can be raised is a `PacketError`, or it is none. -/
theorem ensures_takeReply (hversion : p.radiusVersion = .v1_0) (enforceMa : Bool) (w : World) :
    Ensures (takeReply E p raw enforceMa) w (fun _ _ ↦ Reencodable p raw)
      fun e _ ↦ e.isPacketError = true ↔ Reencodable p raw := by
  rw [takeReply]
  refine ensures_bind.2 ((ensures_createReply hversion raw w).imp (fun reply w' hreply ↦ ?_)
    fun e w' he ↦ ?_)
  · obtain ⟨st, hst, rfl⟩ := hreply
    refine ensures_bind.2 (ensures_run.2 ?_)
    refine (ensures_verifyReply_receivedReply hversion hst enforceMa w').imp
      (fun _ _ h ↦ h) fun e _ he ↦ ?_
    exact iff_of_false (by rw [he.1]; decide) he.2
  · exact iff_of_true he.1 fun st hst ↦ absurd hst (he.2 st)

/-- Under RADIUS/1.1 the tokens are compared, and nothing is encoded. -/
theorem ensures_takeReply_v11 (hversion : p.radiusVersion = .v1_1) (enforceMa : Bool) (w : World) :
    Ensures (takeReply E p raw enforceMa) w (fun _ _ ↦ True) fun e _ ↦ e.isPacketError = true := by
  have hverify (reply : Packet) (w : World) : Ensures (verifyReply E p (some raw) enforceMa)
      ⟨reply, w⟩ (fun _ _ ↦ True) fun e _ ↦ e.isPacketError = true := by
    rw [verifyReply]
    refine ensures_bind.2 (ensures_get.2 ?_)
    dsimp only
    rw [if_pos hversion]
    trivial
  rw [takeReply, createReply_eq, makeReply_eq]
  refine ensures_bind.2 (ensures_bind.2 ((ensures_construct_isPacketError E _ raw w).imp
    (fun reply w' _ ↦ ?_) fun _ _ he ↦ he))
  exact ensures_bind.2 (ensures_run.2 (hverify _ w'))

/-- **Which replies are survived.** Under RADIUS/1.1 all of them; under RADIUS/1.0 those that, when
they decode under the identifier of the request, decode to attributes that can be encoded again. -/
theorem replyCaught_iff (E : Env) (p : Packet) (raw : Bytes) (enforceMa : Bool) :
    ReplyCaught E p raw enforceMa ↔ p.radiusVersion = .v1_1 ∨ Reencodable p raw := by
  rcases hversion : p.radiusVersion
  · rw [or_iff_right (by decide)]
    constructor
    · intro h
      have htake : Ensures (takeReply E p raw enforceMa) { rng := ⟨fun _ ↦ 0⟩ }
          (fun _ _ ↦ Reencodable p raw) fun e _ ↦ e.isPacketError = true ↔ Reencodable p raw :=
        ensures_takeReply hversion enforceMa _
      rw [Ensures] at htake
      obtain ⟨accepted, w', hrun⟩ | ⟨msg, w', hrun⟩ := h { rng := ⟨fun _ ↦ 0⟩ }
      · rwa [hrun] at htake
      · rw [hrun] at htake
        exact htake.1 rfl
    · intro h w
      exact exists_run_of_ensures ((ensures_takeReply hversion enforceMa w).imp
        (fun _ _ _ ↦ trivial) fun _ _ he ↦ he.2 h)
  · refine iff_of_true (fun w ↦ ?_) (.inl rfl)
    exact exists_run_of_ensures (ensures_takeReply_v11 hversion enforceMa w)

end

/-- A dictionary with one TLV, of code 100. -/
def tlvOnly : Dictionary where
  heap := [{ name := "Example-TLV", code := 100, type := .tlv }]
  attributes := OrderedDict.set ∅ "Example-TLV" 0
  attrindex := BiDict.empty.add "Example-TLV" (.int 100)
  vendors := BiDict.empty.add "" 0
  vendorFormats := ∅

/-- An Access-Accept whose TLV is empty, from anybody: its authenticator is all zeros. -/
def emptyTlvReply : Bytes := [2, 7, 0, 22] ++ zeros16 ++ [100, 2]

/-- The encoder takes the maximum over the sub-attributes of the TLV. -/
theorem not_replyCaught_emptyTlvReply :
    ¬ ReplyCaught (Env.ofByte (fun _ ↦ 5) fun _ _ ↦ 9)
      { accessRequest7 with dict := some tlvOnly } emptyTlvReply false := by
  intro h
  obtain ⟨w', hrun⟩ : ∃ w', (takeReply (Env.ofByte (fun _ ↦ 5) fun _ _ ↦ 9)
      { accessRequest7 with dict := some tlvOnly } emptyTlvReply false).run
        { rng := ⟨fun _ ↦ 0⟩ } = .error (.valueError "max() arg is an empty sequence") w' :=
    ⟨_, rfl⟩
  obtain ⟨accepted, w'', hok⟩ | ⟨msg, w'', herror⟩ := h { rng := ⟨fun _ ↦ 0⟩ }
  · rw [hrun] at hok
    cases hok
  · rw [hrun] at herror
    cases herror

end Packet

end Pyrad2
