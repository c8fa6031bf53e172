import Pyrad2.Packet.DecodeShape
import Pyrad2.Packet.Reply

/-!
# Received packets

What a packet built from raw bytes looks like: which bytes are accepted, and what the constructor
makes of them.

Under RADIUS/1.0 this depends on the bytes and the dictionary alone. A well-framed packet whose
attributes decode is accepted, everything else raises `PacketError`.
-/

namespace Pyrad2

open EStateM

namespace Packet

/-! ### The fields of a packet on the wire -/

/-- The code byte. -/
def wireCode (raw : Bytes) : ℕ := Bytes.toNatBE (raw.take 1)

/-- The identifier. -/
def wireId (raw : Bytes) : ℕ := Bytes.toNatBE ((raw.drop 1).take 1)

/-- The length field. -/
def wireLength (raw : Bytes) : ℕ := Bytes.toNatBE ((raw.drop 2).take 2)

/-- The authenticator. -/
def wireAuthenticator (raw : Bytes) : Bytes := (raw.drop 4).take 16

/-- A whole header, and a length field that gives the length, within the limit. -/
structure Framed (raw : Bytes) : Prop where
  header : 20 ≤ raw.length
  length_eq : raw.length = wireLength raw
  length_le : raw.length ≤ 8192

theorem wireId_lt (raw : Bytes) : wireId raw < 256 := by
  have hlt := Bytes.toNatBE_lt ((raw.drop 1).take 1)
  have hle : 256 ^ ((raw.drop 1).take 1).length ≤ 256 ^ 1 :=
    Nat.pow_le_pow_right (by norm_num) (List.length_take_le ..)
  exact lt_of_lt_of_le hlt hle

theorem wireCode_lt (raw : Bytes) : wireCode raw < 256 := by
  have hlt := Bytes.toNatBE_lt (raw.take 1)
  have hle : 256 ^ (raw.take 1).length ≤ 256 ^ 1 :=
    Nat.pow_le_pow_right (by norm_num) (List.length_take_le ..)
  exact lt_of_lt_of_le hlt hle

theorem wireCode_cons (b : UInt8) (raw : Bytes) : wireCode (b :: raw) = b.toNat := by
  simp [wireCode, Bytes.toNatBE]

/-- The header that is digested is the one that was received. -/
theorem packHeader_wire {raw : Bytes} (h : Framed raw) :
    packHeader (wireCode raw) (some (wireId raw)) raw.length = .ok (raw.take 4) := by
  obtain ⟨hheader, hlength, hle⟩ := h
  obtain ⟨a, b, c, d, rest, rfl⟩ : ∃ a b c d rest, raw = a :: b :: c :: d :: rest := by
    rcases raw with - | ⟨a, - | ⟨b, - | ⟨c, - | ⟨d, rest⟩⟩⟩⟩
    · simp at hheader
    · simp at hheader
    · simp at hheader
    · simp at hheader
    · exact ⟨a, b, c, d, rest, rfl⟩
  have hfits : (a :: b :: c :: d :: rest).length < 65536 := by omega
  have hbytes : Bytes.ofNatBE 2 (a :: b :: c :: d :: rest).length = [c, d] := by
    rw [hlength]
    exact Bytes.ofNatBE_toNatBE [c, d]
  rw [packHeader, if_pos ⟨wireCode_lt _, wireId_lt _, hfits⟩, hbytes]
  simp [wireCode, wireId, Bytes.toNatBE]

/-! ### Decoding a packet -/

/-- The bytes are accepted, and their attributes decode to `st`. -/
structure Decoded (D : Option Dictionary) (raw : Bytes) (st : DecodeState) : Prop where
  framed : Framed raw
  run : (decodeAvps D .v1_0 (raw.drop 20).length (raw.drop 20)).run {} = .ok () st

/-- The packet object that comes of them. -/
def received (fields : Packet) (raw : Bytes) (st : DecodeState) : Packet :=
  { fields with
    code := wireCode raw
    id := some (wireId raw)
    authenticator := some (wireAuthenticator raw)
    rawPacket := some raw
    attrs := (finishAttributes fields.dict st.attrs).mapValues fun _ ↦ Stored.map PyVal.bytes
    messageAuthenticator := st.messageAuthenticator }

theorem Decoded.unique {D : Option Dictionary} {raw : Bytes} {st st' : DecodeState}
    (h : Decoded D raw st) (h' : Decoded D raw st') : st = st' := by
  have hrun := h.run.symm.trans h'.run
  cases hrun
  rfl

theorem run_decodeBody_of_ok {s : PacketState} {body : Bytes} {st : DecodeState}
    (h : (decodeAvps s.pkt.dict s.pkt.radiusVersion body.length body).run
      { messageAuthenticator := s.pkt.messageAuthenticator } = .ok () st) :
    (decodeBody body).run s = .ok () { s with pkt := { s.pkt with
      attrs := (finishAttributes s.pkt.dict st.attrs).mapValues fun _ ↦ Stored.map PyVal.bytes
      messageAuthenticator := st.messageAuthenticator } } := by
  change decodeBody body s = _
  rw [decodeBody, h]

theorem run_decodeBody_of_error {s : PacketState} {body : Bytes} {st : DecodeState} {e : Exn}
    (h : (decodeAvps s.pkt.dict s.pkt.radiusVersion body.length body).run
      { messageAuthenticator := s.pkt.messageAuthenticator } = .error e st) :
    (decodeBody body).run s = .error e { s with pkt := { s.pkt with
      attrs := st.attrs.mapValues fun _ ↦ Stored.map PyVal.bytes
      messageAuthenticator := st.messageAuthenticator } } := by
  change decodeBody body s = _
  rw [decodeBody, h]

theorem ensures_decodePacket {s : PacketState} {raw : Bytes} (hraw : s.pkt.rawPacket = some raw)
    (hversion : s.pkt.radiusVersion = .v1_0) (hma : s.pkt.messageAuthenticator = none) :
    Ensures (decodePacket raw) s
      (fun _ s' ↦ ∃ st, Decoded s.pkt.dict raw st ∧ s'.pkt = received s.pkt raw st)
      fun e _ ↦ e.isPacketError = true ∧ ∀ st, ¬ Decoded s.pkt.dict raw st := by
  have hheader : s.pkt.withHeader raw = { s.pkt with
      code := wireCode raw
      id := some (wireId raw)
      authenticator := some (wireAuthenticator raw) } := by
    rw [withHeader]
    simp only [hversion]
    rfl
  rw [decodePacket]
  split
  · next hshort => exact ⟨rfl, fun st hst ↦ absurd hst.framed.header (Nat.not_le.2 hshort)⟩
  next hlong =>
  refine ensures_bind.2 (ensures_modify.2 ?_)
  dsimp only
  split
  · next hlength => exact ⟨rfl, fun st hst ↦ hlength hst.framed.length_eq⟩
  next hlength =>
  split
  · next hover =>
    refine ⟨rfl, fun st hst ↦ ?_⟩
    have hle := hst.framed.length_le
    have heq := hst.framed.length_eq
    rw [wireLength] at heq
    omega
  next hle =>
  have hframed : Framed raw := by
    refine ⟨Nat.not_lt.1 hlong, not_not.1 hlength, ?_⟩
    rw [not_not.1 hlength]
    exact Nat.not_lt.1 hle
  have hshape := ensures_decodeAvps .v1_0 (le_refl (raw.drop 20).length)
    (shaped_initial s.pkt.dict none)
  rw [Ensures] at hshape ⊢
  rcases hrun : (decodeAvps s.pkt.dict .v1_0 (raw.drop 20).length (raw.drop 20)).run {} with
    ⟨u, st⟩ | ⟨e, st⟩
  · rw [run_decodeBody_of_ok (by simpa [hheader, hversion, hma] using hrun)]
    refine ⟨st, ⟨hframed, hrun⟩, ?_⟩
    simp only [hheader, received, hraw]
  · rw [hrun] at hshape
    rw [run_decodeBody_of_error (by simpa [hheader, hversion, hma] using hrun)]
    refine ⟨hshape, fun st' hst' ↦ ?_⟩
    have hok := hst'.run
    rw [hrun] at hok
    cases hok

/-! ### Constructing a packet -/

theorem run_run {α : Type} (p : Packet) (m : PacketMethod α) (w : World) :
    (p.run m).run w = match m.run ⟨p, w⟩ with
      | .ok a s => .ok (a, s.pkt) s.world
      | .error e s => .error e s.world := rfl

theorem ensures_run {α : Type} {p : Packet} {m : PacketMethod α} {w : World}
    {Q : α × Packet → World → Prop} {R : Exn → World → Prop} :
    Ensures (p.run m) w Q R ↔
      Ensures m ⟨p, w⟩ (fun a s ↦ Q (a, s.pkt) s.world) fun e s ↦ R e s.world := by
  rw [Ensures, Ensures, run_run]
  rcases m.run ⟨p, w⟩ with ⟨a, s⟩ | ⟨e, s⟩ <;> rfl

/-- With bytes to decode, and no attributes to add. -/
theorem ensures_initReceived {E : Env} {p : Packet} {raw : Bytes} {w : World}
    {Q : PacketState → Prop} {R : Exn → PacketState → Prop}
    (h : Ensures (decodePacket raw) ⟨{ p with rawPacket := some raw }, w⟩ (fun _ s ↦ Q s) R) :
    Ensures (do
      modify fun s : PacketState ↦ { s with pkt := { s.pkt with rawPacket := some raw } }
      decodePacket raw
      ([] : KwAttributes).forM fun (key, values) ↦ addAttribute E (attributeName key) values)
      ⟨p, w⟩ (fun _ s ↦ Q s) R :=
  ensures_bind.2 (ensures_modify.2 (ensures_bind.2 (h.imp (fun _ _ h ↦ h) fun _ _ h ↦ h)))

/-- Whichever identifier a new packet is given first, what comes of its construction is what its
bytes decode to. -/
theorem ensures_construct_of_decode {E : Env} {fields : Packet} {raw : Bytes} {Q : Packet → Prop}
    {R : Exn → Prop} (h : ∀ id w, Ensures (decodePacket raw)
      ⟨{ fields with id, rawPacket := some raw }, w⟩ (fun _ s ↦ Q s.pkt) fun e _ ↦ R e) (w : World) :
    Ensures (construct E fields (some raw) []) w (fun p _ ↦ Q p) fun e _ ↦ R e := by
  have hinit (id : Option ℕ) (w : World) :=
    ensures_initReceived (E := E) (p := { fields with id }) (h id w)
  rw [construct, ensures_bind, ensures_run]
  rw [init, ensures_bind]
  refine ensures_get.2 ?_
  dsimp only
  split
  · refine ensures_bind.2 (ensures_modify.2 ?_)
    exact hinit (some w.createId.1) w.createId.2
  · exact hinit fields.id w

/-- **Construction from raw bytes**: what is accepted, and what comes of it. -/
theorem ensures_construct (E : Env) {fields : Packet} (hversion : fields.radiusVersion = .v1_0)
    (hma : fields.messageAuthenticator = none) (raw : Bytes) (w : World) :
    Ensures (construct E fields (some raw) []) w
      (fun p _ ↦ ∃ st, Decoded fields.dict raw st ∧ p = received fields raw st)
      fun e _ ↦ e.isPacketError = true ∧ ∀ st, ¬ Decoded fields.dict raw st :=
  ensures_construct_of_decode (fun _ _ ↦ ensures_decodePacket rfl hversion hma) w

/-- Accepted bytes make the packet. -/
theorem exists_run_construct (E : Env) {fields : Packet} (hversion : fields.radiusVersion = .v1_0)
    (hma : fields.messageAuthenticator = none) {raw : Bytes} {st : DecodeState}
    (h : Decoded fields.dict raw st) (w : World) :
    ∃ w', (construct E fields (some raw) []).run w = .ok (received fields raw st) w' := by
  have hconstruct := ensures_construct E hversion hma raw w
  rw [Ensures] at hconstruct
  rcases hrun : (construct E fields (some raw) []).run w with ⟨p, w'⟩ | ⟨e, w'⟩
  · rw [hrun] at hconstruct
    obtain ⟨st', hst', rfl⟩ := hconstruct
    exact ⟨w', by rw [h.unique hst']⟩
  · rw [hrun] at hconstruct
    exact absurd h (hconstruct.2 st)

/-- Decoding reads no randomness. -/
theorem ensures_decodePacket_world (s : PacketState) (raw : Bytes) :
    Ensures (decodePacket raw) s (fun _ s' ↦ s'.world = s.world) fun _ _ ↦ True := by
  rw [decodePacket]
  split
  · trivial
  refine ensures_bind.2 (ensures_modify.2 ?_)
  dsimp only
  split
  · trivial
  split
  · trivial
  rw [Ensures]
  rcases hrun : (decodeAvps (s.pkt.withHeader raw).dict (s.pkt.withHeader raw).radiusVersion
      (raw.drop 20).length (raw.drop 20)).run
        { messageAuthenticator := (s.pkt.withHeader raw).messageAuthenticator } with
    ⟨u, st⟩ | ⟨e, st⟩
  · rw [run_decodeBody_of_ok hrun]
  · rw [run_decodeBody_of_error hrun]
    trivial

/-- **Construction from raw bytes, with the process**: it takes an identifier and no randomness. -/
theorem run_construct_eq_ok_iff (E : Env) {fields : Packet} (hid : fields.id = none)
    (hversion : fields.radiusVersion = .v1_0) (hma : fields.messageAuthenticator = none) {raw : Bytes}
    {p : Packet} {w w' : World} :
    (construct E fields (some raw) []).run w = .ok p w' ↔
      (∃ st, Decoded fields.dict raw st ∧ p = received fields raw st) ∧ w' = w.createId.2 := by
  have hworld : Ensures (construct E fields (some raw) []) w (fun _ w' ↦ w' = w.createId.2)
      fun _ _ ↦ True := by
    rw [construct, ensures_bind, ensures_run, init, ensures_bind]
    refine ensures_get.2 ?_
    dsimp only
    rw [hid, if_pos Option.isNone_none]
    refine ensures_bind.2 (ensures_modify.2 ?_)
    exact ensures_initReceived (Q := fun s ↦ s.world = w.createId.2)
      ((ensures_decodePacket_world _ _).imp (fun _ _ h ↦ h) fun _ _ h ↦ h)
  constructor
  · intro h
    exact ⟨(ensures_construct E hversion hma raw w).of_run_eq_ok h, hworld.of_run_eq_ok h⟩
  · rintro ⟨⟨st, hst, rfl⟩, rfl⟩
    obtain ⟨w', hrun⟩ := exists_run_construct E hversion hma hst w
    rw [hrun, hworld.of_run_eq_ok hrun]

/-! ### Parsing is total -/

/-- The body of a packet decodes or raises `PacketError`. -/
theorem ensures_decodeBody (s : PacketState) (body : Bytes) :
    Ensures (decodeBody body) s (fun _ _ ↦ True) fun e _ ↦ e.isPacketError = true := by
  have hdecode := ensures_decodeAvps s.pkt.radiusVersion (le_refl body.length)
    (shaped_initial s.pkt.dict s.pkt.messageAuthenticator)
  rw [Ensures] at hdecode
  rcases hrun : (decodeAvps s.pkt.dict s.pkt.radiusVersion body.length body).run
      { messageAuthenticator := s.pkt.messageAuthenticator } with ⟨u, st⟩ | ⟨e, st⟩
  · exact .of_ok (run_decodeBody_of_ok hrun) trivial
  · rw [hrun] at hdecode
    exact .of_error (run_decodeBody_of_error hrun) hdecode

/-- So does a whole packet, whatever the object held before. -/
theorem ensures_decodePacket_isPacketError (s : PacketState) (raw : Bytes) :
    Ensures (decodePacket raw) s (fun _ _ ↦ True) fun e _ ↦ e.isPacketError = true := by
  rw [decodePacket]
  split
  · exact rfl
  refine ensures_bind.2 (ensures_modify.2 ?_)
  dsimp only
  split
  · exact rfl
  split
  · exact rfl
  · exact ensures_decodeBody _ _

theorem ensures_construct_isPacketError (E : Env) (fields : Packet) (raw : Bytes) (w : World) :
    Ensures (construct E fields (some raw) []) w (fun _ _ ↦ True)
      fun e _ ↦ e.isPacketError = true := by
  have hinit (p : Packet) (w : World) := ensures_initReceived (E := E) (p := p)
    ((ensures_decodePacket_isPacketError ⟨{ p with rawPacket := some raw }, w⟩ raw).imp
      (fun _ _ _ ↦ trivial) fun _ _ he ↦ he)
  rw [construct, ensures_bind, ensures_run]
  rw [init, ensures_bind]
  refine ensures_get.2 ?_
  dsimp only
  split
  · exact ensures_bind.2 (ensures_modify.2 (hinit _ _))
  · exact hinit _ _

/-- What guarantees nothing but that only `PacketError` is raised, as a statement about the run. -/
theorem exists_run_of_ensures {σ α : Type} {m : Method σ α} {s : σ}
    (h : Ensures m s (fun _ _ ↦ True) fun e _ ↦ e.isPacketError = true) :
    (∃ a s', m.run s = .ok a s') ∨ ∃ msg s', m.run s = .error (.packetError msg) s' := by
  rw [Ensures] at h
  rcases hrun : m.run s with ⟨a, s'⟩ | ⟨e, s'⟩
  · exact .inl ⟨a, s', rfl⟩
  · rw [hrun] at h
    obtain ⟨msg, rfl⟩ : ∃ msg, e = .packetError msg := by
      rcases e <;> first | exact ⟨_, rfl⟩ | cases h
    exact .inr ⟨msg, s', rfl⟩

/-- **Parsing is total up to `PacketError`.** On any bytes but none at all `parse_packet` returns a
packet or raises `PacketError`, and so does `decode_packet` of any packet object. -/
theorem parse_returns_or_raises_packetError (E : Env) (secret : Bytes) (D : Option Dictionary)
    (version : RadiusVersion) (code : UInt8) (rest : Bytes) :
    (∀ w, (∃ p w', (parsePacket E (code :: rest) secret D version).run w = .ok p w') ∨
      ∃ msg w', (parsePacket E (code :: rest) secret D version).run w =
        .error (.packetError msg) w') ∧
    ∀ s, (∃ s', (decodePacket (code :: rest)).run s = .ok () s') ∨
      ∃ msg s', (decodePacket (code :: rest)).run s = .error (.packetError msg) s' := by
  constructor
  · intro w
    exact exists_run_of_ensures (ensures_construct_isPacketError E _ (code :: rest) w)
  · intro s
    obtain ⟨u, s', hrun⟩ | hraised :=
      exists_run_of_ensures (ensures_decodePacket_isPacketError s (code :: rest))
    · exact .inl ⟨s', hrun⟩
    · exact .inr hraised

end Packet

end Pyrad2
