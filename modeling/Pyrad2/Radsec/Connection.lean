import Pyrad2.Packet.Frame
import Pyrad2.Packet.MacCoverage
import Pyrad2.Packet.Sending
import Pyrad2.Radsec.Client

/-!
# Sending on a RadSec connection

What `RadSecClient` does to a packet that it sends: it stamps the version that the connection has
negotiated, gives it a Token if that version wants one, applies the Message-Authenticator policy and
serializes it.

A packet may be sent several times, over connections of either version. What one send leaves behind
in the packet is there at the next one: a Message-Authenticator that RADIUS/1.0 asked for stays
stored, and RADIUS/1.1, which must not send it, serializes everything that is stored.
-/

namespace Pyrad2

open EStateM

/-! ### Stamping -/

/-- `TokenCounter` -/
structure TokenCounter where
  value : BitVec 32
  deriving DecidableEq

/-- `next()`: the Token, and the counter after it. -/
def TokenCounter.next (counter : TokenCounter) : Bytes × TokenCounter :=
  (Bytes.ofNatBE 4 counter.value.toNat, ⟨counter.value + 1⟩)

/-- `_negotiated_version` and `_token_counter` of a client with a connection. -/
structure Negotiated where
  version : RadiusVersion
  tokenCounter : Option TokenCounter := none

namespace Negotiated

/-- `_stamp_radius_version(packet)` -/
def stamp (conn : Negotiated) (p : Packet) : Packet × Negotiated :=
  match conn.version with
  | .v1_1 =>
    let p := { p with radiusVersion := .v1_1 }
    match p.token, conn.tokenCounter with
    | none, some counter =>
      ({ p with token := some counter.next.1 }, { conn with tokenCounter := some counter.next.2 })
    | _, _ => (p, conn)
  | .v1_0 => ({ p with radiusVersion := .v1_0, token := none }, conn)

end Negotiated

namespace Packet

/-- What `_write_packet` hands to the writer, of a packet that has been stamped. -/
def outgoing (E : Env) : PacketMethod Bytes := do
  prepareRequestMessageAuthenticator E false
  requestPacket E

/-! ### What sending changes -/

/-- **What a send leaves behind**, also one that fails. -/
theorem refreshes_outgoing (E : Env) : Respects Refreshes (outgoing E) :=
  (refreshes_prepareRequestMessageAuthenticator E false).bind fun _ ↦ refreshes_requestPacket E

/-! ### RADIUS/1.1 on the wire -/

/-- The header of a RADIUS/1.1 packet: no identifier, the Token, nothing in the reserved bytes. -/
structure HasV11Header (token : Option Bytes) (raw : Bytes) : Prop where
  id_eq : wireId raw = 0
  token_eq : token = some (wireToken raw)
  reserved_eq : (raw.drop 8).take 12 = List.replicate 12 0

/-- The bytes of a RADIUS/1.1 packet, without a Message-Authenticator. -/
structure Purely (token : Option Bytes) (raw : Bytes) : Prop extends HasV11Header token raw where
  macFree : TypeFree 80 (raw.drop 20)

theorem hasV11Header_append {code length : ℕ} {token : Option Bytes} {header : Bytes}
    (h : packV11Header code length token = .ok header) (body : Bytes) :
    HasV11Header token (header ++ body) ∧ (header ++ body).drop 20 = body := by
  obtain ⟨front, t, hfront, rfl, ht, rfl⟩ := packV11Header_eq_ok h
  obtain ⟨i, hi, -, -, -, rfl⟩ := packHeader_eq_ok hfront
  cases hi
  have hlength : (Bytes.ofNatBE 2 length).length = 2 := Bytes.length_ofNatBE ..
  obtain ⟨a, b, hab⟩ := List.length_eq_two.1 hlength
  rw [hab]
  have hdrop (rest : Bytes) : ([UInt8.ofNat code, UInt8.ofNat 0] ++ [a, b] ++ t ++ rest).drop 4 =
      t ++ rest := rfl
  have hfront8 : ([UInt8.ofNat code, UInt8.ofNat 0] ++ [a, b] ++ t).length = 8 := by
    simp [ht]
  have hfront20 : ([UInt8.ofNat code, UInt8.ofNat 0] ++ [a, b] ++ t ++
      List.replicate 12 0).length = 20 := by
    simp [ht]
  refine ⟨⟨rfl, ?_, ?_⟩, List.drop_left' hfront20⟩
  · rw [wireToken, List.append_assoc, hdrop, List.take_left' ht]
  · rw [List.append_assoc, List.drop_left' hfront8]
    rfl

section

variable {E : Env} {p : Packet}

theorem run_prepareRequestMessageAuthenticator_v11 (hversion : p.radiusVersion = .v1_1)
    (required : Bool) (w : World) :
    (prepareRequestMessageAuthenticator E required).run ⟨p, w⟩ = .ok () ⟨p, w⟩ := by
  rw [prepareRequestMessageAuthenticator]
  simp only [run_bind, run_get]
  rw [if_pos hversion]
  rfl

/-- Under RADIUS/1.1 a packet is given an identifier, which goes nowhere, and is serialized. -/
theorem run_outgoing_v11 (hversion : p.radiusVersion = .v1_1) (hcls : p.cls ≠ .packet)
    (w : World) :
    (outgoing E).run ⟨p, w⟩ = (ensureId >>= fun _ ↦ serializeV11 E).run ⟨p, w⟩ := by
  rw [outgoing, run_bind_of_ok (run_prepareRequestMessageAuthenticator_v11 hversion false w),
    requestPacket]
  simp only [run_bind, run_get]
  rw [if_neg hcls, if_pos hversion]
  rfl

theorem cls_of_outgoing {w : World} {raw : Bytes} {s : PacketState}
    (hversion : p.radiusVersion = .v1_1) (h : (outgoing E).run ⟨p, w⟩ = .ok raw s) :
    p.cls ≠ .packet := by
  intro hcls
  rw [outgoing, run_bind_of_ok (run_prepareRequestMessageAuthenticator_v11 hversion false w),
    requestPacket] at h
  simp only [run_bind, run_get] at h
  rw [if_pos hcls] at h
  cases h

theorem ensures_serializeV11 (w : World) :
    Ensures (serializeV11 E) ⟨p, w⟩
      (fun raw _ ↦ HasV11Header p.token raw ∧ (p.FreeOf 80 → TypeFree 80 (raw.drop 20)))
      fun _ _ ↦ True := by
  have hdraws := draws_encodeAttributes E ⟨p, w⟩
  rw [serializeV11]
  refine ensures_bind.2 ?_
  rw [Ensures]
  rcases hrun : (encodeAttributes E).run ⟨p, w⟩ with ⟨body, s⟩ | ⟨e, s⟩
  · rw [after_of_ok hrun] at hdraws
    obtain ⟨authenticator, hpkt, -⟩ := hdraws
    have htoken : s.pkt.token = p.token := by rw [hpkt]
    refine ensures_bind.2 (ensures_get.2 (ensures_bind.2 (ensures_liftM (fun header hheader ↦ ?_)
      fun _ _ ↦ trivial)))
    rw [htoken] at hheader
    obtain ⟨hfront, hdrop⟩ := hasV11Header_append hheader body
    refine ⟨hfront, fun hfree ↦ ?_⟩
    rw [hdrop]
    exact (ensures_encodeAttributes_typeFree hfree w).of_run_eq_ok hrun
  · trivial

/-- **What RADIUS/1.1 sends** of a packet. -/
theorem ensures_outgoing_v11 (hversion : p.radiusVersion = .v1_1) (w : World) :
    Ensures (outgoing E) ⟨p, w⟩
      (fun raw _ ↦ HasV11Header p.token raw ∧ (p.FreeOf 80 → TypeFree 80 (raw.drop 20)))
      fun _ _ ↦ True := by
  rw [Ensures]
  rcases hrun : (outgoing E).run ⟨p, w⟩ with ⟨raw, s⟩ | ⟨e, s⟩
  · obtain ⟨i, w', hid⟩ := exists_run_ensureId p w
    have hserialize : (serializeV11 E).run ⟨{ p with id := some i }, w'⟩ = .ok raw s := by
      rw [← hrun, run_outgoing_v11 hversion (cls_of_outgoing hversion hrun), run_bind_of_ok hid]
    obtain ⟨hheader, hfree⟩ := (ensures_serializeV11 w').of_run_eq_ok hserialize
    exact ⟨hheader, fun h ↦ hfree ⟨h.stored, h.pending⟩⟩
  · trivial

end

/-! ### Sending over changing connections -/

/-- One send of a packet: over which connection, what the packet was before, and what came of it. -/
structure SendRecord where
  conn : Negotiated
  before : PacketState
  result : EStateM.Result Exn PacketState Bytes

/-- The packet and the process after the send. -/
def SendRecord.left (r : SendRecord) : PacketState :=
  match r.result with
  | .ok _ s => s
  | .error _ s => s

theorem SendRecord.left_of_result {r : SendRecord} {raw : Bytes} {s : PacketState}
    (h : r.result = .ok raw s) : r.left = s := by
  rw [left, h]

/-- A send over a connection: the packet is stamped, prepared and serialized. -/
def send (E : Env) (conn : Negotiated) (s : PacketState) : SendRecord :=
  ⟨conn, s, (outgoing E).run ⟨(conn.stamp s.pkt).1, s.world⟩⟩

/-- A packet is sent over one connection after the other. -/
def sends (E : Env) : List Negotiated → PacketState → List SendRecord
  | [], _ => []
  | conn :: conns, s => send E conn s :: sends E conns (send E conn s).left

/-- Whatever is serialized under RADIUS/1.1 is what RADIUS/1.1 wants, with the Token the packet has
then. -/
def PureSends (E : Env) (conns : List Negotiated) (s : PacketState) : Prop :=
  ∀ r ∈ sends E conns s, r.conn.version = .v1_1 →
    ∀ raw s', r.result = .ok raw s' → Purely s'.pkt.token raw

/-- No send under RADIUS/1.1 finds a Message-Authenticator stored. -/
def MacFreeSends (E : Env) (conns : List Negotiated) (s : PacketState) : Prop :=
  ∀ r ∈ sends E conns s, r.conn.version = .v1_1 →
    r.before.pkt.attrs.contains (.int 80) = false

/-- The name stands for attribute 80, if the dictionary has it. -/
def NamesMessageAuthenticator (p : Packet) : Prop :=
  ∀ key, p.encodeKey "Message-Authenticator" = .ok key → key = .int 80

section

variable {E : Env} {p : Packet} {s : PacketState}

theorem left_send (E : Env) (conn : Negotiated) (s : PacketState) :
    (send E conn s).left = after (outgoing E) ⟨(conn.stamp s.pkt).1, s.world⟩ := by
  rw [SendRecord.left, send, after]
  rcases (outgoing E).run ⟨(conn.stamp s.pkt).1, s.world⟩ with ⟨raw, s'⟩ | ⟨e, s'⟩
  · rfl
  · rfl

theorem refreshes_left (conn : Negotiated) (s : PacketState) :
    Refreshes ⟨(conn.stamp s.pkt).1, s.world⟩ (send E conn s).left := by
  rw [left_send]
  exact refreshes_outgoing E _

/-- Stamping concerns the version and the Token. -/
theorem exists_stamp_eq (conn : Negotiated) (p : Packet) :
    ∃ token, (conn.stamp p).1 = { p with radiusVersion := conn.version, token } := by
  rw [Negotiated.stamp]
  split
  · next hversion =>
    rw [hversion]
    dsimp only
    split
    · exact ⟨_, rfl⟩
    · exact ⟨p.token, rfl⟩
  · next hversion =>
    rw [hversion]
    exact ⟨none, rfl⟩

/-- Refreshing leaves everything but the Message-Authenticator as it goes out. -/
theorem OnlyMac.of_refreshes {s s' : PacketState} (h : s.pkt.OnlyMac)
    (hnames : s.pkt.NamesMessageAuthenticator) (hs : Refreshes s s') : s'.pkt.OnlyMac := by
  obtain ⟨id, authenticator, flag, attrs, hpkt, hkeep⟩ := hs
  rw [hpkt]
  refine ⟨fun e he hne ↦ ?_, h.pending⟩
  have hget : attrs.get? e.1 = some e.2 := OrderedDict.get?_eq_some_iff.2 he
  rw [hkeep e.1 fun hkey ↦ hne (hnames e.1 hkey)] at hget
  exact h.stored e (OrderedDict.get?_eq_some_iff.1 hget) hne

/-- **Before every send** nothing but a stored Message-Authenticator goes out with its type. -/
theorem onlyMac_of_mem_sends {conns : List Negotiated} (h : s.pkt.OnlyMac)
    (hnames : s.pkt.NamesMessageAuthenticator) :
    ∀ r ∈ sends E conns s, r.before.pkt.OnlyMac := by
  induction conns generalizing s with
  | nil =>
    intro r hr
    exact (List.not_mem_nil hr).elim
  | cons conn conns ih =>
    intro r hr
    rw [sends, List.mem_cons] at hr
    rcases hr with rfl | hr
    · exact h
    · obtain ⟨token, hstamp⟩ := exists_stamp_eq conn s.pkt
      have hleft := refreshes_left (E := E) conn s
      rw [hstamp] at hleft
      let stamped : PacketState :=
        ⟨{ s.pkt with radiusVersion := conn.version, token }, s.world⟩
      have honly : stamped.pkt.OnlyMac := ⟨h.stored, h.pending⟩
      have hsame : stamped.pkt.NamesMessageAuthenticator := hnames
      have hnames' : NamesMessageAuthenticator (send E conn s).left.pkt := by
        obtain ⟨id, authenticator, flag, attrs, hpkt, -⟩ := hleft
        rw [hpkt]
        exact hnames
      exact ih (OnlyMac.of_refreshes (s := stamped) honly hsame hleft) hnames' r hr

/-- The Token of the packet is not touched after the stamp. -/
theorem token_of_result {conn : Negotiated} {raw : Bytes} {s' : PacketState}
    (h : (send E conn s).result = .ok raw s') : s'.pkt.token = (conn.stamp s.pkt).1.token := by
  have hleft := refreshes_left (E := E) conn s
  rw [SendRecord.left_of_result h] at hleft
  obtain ⟨id, authenticator, flag, attrs, hpkt, -⟩ := hleft
  rw [hpkt]

theorem exists_send_of_mem_sends {conns : List Negotiated} {r : SendRecord}
    (hr : r ∈ sends E conns s) : r = send E r.conn r.before := by
  induction conns generalizing s with
  | nil => exact (List.not_mem_nil hr).elim
  | cons conn conns ih =>
    rw [sends, List.mem_cons] at hr
    rcases hr with rfl | hr
    · rfl
    · exact ih hr

/-- **RADIUS/1.1 stays pure over version changes**, as long as no Message-Authenticator is stored
when it is used. -/
theorem pureSends_of_macFreeSends (h : s.pkt.OnlyMac) (hnames : s.pkt.NamesMessageAuthenticator)
    {conns : List Negotiated} (hfree : MacFreeSends E conns s) : PureSends E conns s := by
  intro r hr hversion raw s' hresult
  have honly := onlyMac_of_mem_sends h hnames r hr
  have hnone := hfree r hr hversion
  rw [exists_send_of_mem_sends hr] at hresult
  obtain ⟨token, hstamp⟩ := exists_stamp_eq r.conn r.before.pkt
  have hsent : (outgoing E).run
      ⟨{ r.before.pkt with radiusVersion := r.conn.version, token }, r.before.world⟩ = .ok raw s' := by
    rw [← hstamp]
    exact hresult
  have hall : FreeOf 80 { r.before.pkt with radiusVersion := r.conn.version, token } :=
    ⟨(honly.freeOf hnone).stored, (honly.freeOf hnone).pending⟩
  obtain ⟨hheader, hmac⟩ := (ensures_outgoing_v11 hversion r.before.world).of_run_eq_ok hsent
  rw [token_of_result hresult, hstamp]
  exact ⟨hheader, hmac hall⟩

end

/-- An Access-Request without a Message-Authenticator. -/
def plainRequest : Packet := { flaggedRequest with messageAuthenticator := none }

/-- Its version may change back and forth. -/
theorem pureSends_of_macFreeSends_plainRequest :
    PureSends sumEnv [⟨.v1_0, none⟩, ⟨.v1_1, some ⟨0⟩⟩, ⟨.v1_0, none⟩, ⟨.v1_1, some ⟨5⟩⟩]
      ⟨plainRequest, { rng := ⟨fun _ ↦ 0⟩ }⟩ := by
  have honly : plainRequest.OnlyMac :=
    (sendable_of_entries_eq_nil (E := sumEnv) Dictionary.declares_messageAuthenticatorOnly rfl rfl
      (hexFree_ofByte _ _) rfl rfl).onlyMac
  have hnames : plainRequest.NamesMessageAuthenticator := by
    intro key hkey
    cases hkey
    rfl
  refine pureSends_of_macFreeSends honly hnames fun r hr _ ↦ ?_
  have hall : ∀ r ∈ sends sumEnv [⟨.v1_0, none⟩, ⟨.v1_1, some ⟨0⟩⟩, ⟨.v1_0, none⟩, ⟨.v1_1, some ⟨5⟩⟩]
      ⟨plainRequest, { rng := ⟨fun _ ↦ 0⟩ }⟩, r.before.pkt.attrs.contains (.int 80) = false := by
    decide +kernel
  exact hall r hr

/-- A Status-Server request, to which RADIUS/1.0 adds a Message-Authenticator. -/
def statusRequest : Packet := { plainRequest with cls := .status, code := PacketType.statusServer }

/-- What goes out of it under RADIUS/1.1, once it has been sent under RADIUS/1.0. -/
def impureRaw : Bytes :=
  [12, 0, 0, 38, 0, 0, 0, 5] ++ List.replicate 12 0 ++ [80, 18] ++ List.replicate 16 171

/-- The second send serializes the Message-Authenticator of the first one. -/
theorem not_pureSends_statusRequest :
    ¬ PureSends sumEnv [⟨.v1_0, none⟩, ⟨.v1_1, some ⟨5⟩⟩]
      ⟨statusRequest, { rng := ⟨fun _ ↦ 0⟩ }⟩ := by
  intro h
  have hsent : ∃ r ∈ sends sumEnv [⟨.v1_0, none⟩, ⟨.v1_1, some ⟨5⟩⟩]
      ⟨statusRequest, { rng := ⟨fun _ ↦ 0⟩ }⟩,
      r.conn.version = .v1_1 ∧ bytesOf r.result = some impureRaw := by
    decide +kernel
  obtain ⟨r, hr, hversion, hbytes⟩ := hsent
  obtain ⟨s', hresult⟩ := exists_of_bytesOf hbytes
  obtain ⟨l, hl, hcodes⟩ := (h r hr hversion impureRaw s' hresult).macFree
  have hbody : impureRaw.drop 20 = Avp.join [⟨80, List.replicate 16 171, by decide⟩] := by decide
  have hsame := Avp.join_injective (hl.symm.trans hbody)
  rw [hsame] at hcodes
  exact hcodes _ (List.mem_singleton_self _) rfl

end Packet

end Pyrad2
