import Pyrad2.Packet.Places
import Pyrad2.Packet.Received

/-!
# Exchanging groups

Two groups that are read back into different places can be sent in either order: the receiver stores
the same.
-/

namespace Pyrad2

open EStateM

namespace Packet

section

variable {D : Dictionary} {version : RadiusVersion} {Z Z' : Set Cell} {l l' : List Avp}

/-- One attribute after the other. -/
def decodeAll (D : Dictionary) (version : RadiusVersion) (l : List Avp) : DecodeMethod Unit :=
  l.forM fun a ↦ decodeAvp (some D) version a.code a.value

theorem decodeAll_cons (D : Dictionary) (version : RadiusVersion) (a : Avp) (l : List Avp) :
    decodeAll D version (a :: l) =
      decodeAvp (some D) version a.code a.value >>= fun _ ↦ decodeAll D version l := rfl

theorem decodeAll_append (D : Dictionary) (version : RadiusVersion) (l l' : List Avp) :
    decodeAll D version (l ++ l') = decodeAll D version l >>= fun _ ↦ decodeAll D version l' := by
  induction l with
  | nil => rfl
  | cons a l ih => rw [List.cons_append, decodeAll_cons, decodeAll_cons, ih, bind_assoc]

end

/-! ### Bodies -/

section

variable {D : Dictionary} {version : RadiusVersion}

theorem run_decodePacket_of_framed {raw : Bytes} (hraw : Framed raw) (s : PacketState) :
    (decodePacket raw).run s =
      (decodeBody (raw.drop 20)).run { s with pkt := s.pkt.withHeader raw } := by
  have hheader : ¬ raw.length < 20 := Nat.not_lt.2 hraw.header
  have hlength : raw.length = Bytes.toNatBE ((raw.drop 2).take 2) := hraw.length_eq
  have hle := hraw.length_le
  rw [decodePacket, if_neg hheader]
  dsimp only
  rw [if_neg (not_not.2 hlength), if_neg (by omega)]
  rfl

/-- What the loop makes of the body, the packet holds after the two passes. -/
theorem exists_run_decodePacket {header body : Bytes} (hheader : header.length = 20)
    (hframed : Framed (header ++ body)) {s : PacketState} (hdict : s.pkt.dict = some D)
    (hversion : s.pkt.radiusVersion = version) {st : DecodeState}
    (hrun : (decodeAvps (some D) version body.length body).run
      { messageAuthenticator := s.pkt.messageAuthenticator } = .ok () st) :
    ∃ s', (decodePacket (header ++ body)).run s = .ok () s' ∧
      s'.pkt.attrs = ((finishAttributes (some D) st.attrs).mapValues fun _ ↦
        Stored.map PyVal.bytes) ∧
      s'.pkt.dict = some D ∧ s'.pkt.radiusVersion = version := by
  have hfields : (s.pkt.withHeader (header ++ body)).dict = some D ∧
      (s.pkt.withHeader (header ++ body)).radiusVersion = version ∧
      (s.pkt.withHeader (header ++ body)).messageAuthenticator = s.pkt.messageAuthenticator := by
    rw [withHeader]
    dsimp only
    split
    · exact ⟨hdict, hversion, rfl⟩
    · exact ⟨hdict, hversion, rfl⟩
  obtain ⟨hd, hv, hm⟩ := hfields
  have hbody : (decodeAvps (s.pkt.withHeader (header ++ body)).dict
      (s.pkt.withHeader (header ++ body)).radiusVersion body.length body).run
      { messageAuthenticator := (s.pkt.withHeader (header ++ body)).messageAuthenticator } =
        .ok () st := by
    rw [hd, hv, hm]
    exact hrun
  rw [run_decodePacket_of_framed hframed, List.drop_left' hheader]
  refine ⟨_, run_decodeBody_of_ok hbody, ?_, hd, hv⟩
  exact congrArg (fun D ↦ (finishAttributes D st.attrs).mapValues fun _ ↦ Stored.map PyVal.bytes) hd

end

end Packet

end Pyrad2
