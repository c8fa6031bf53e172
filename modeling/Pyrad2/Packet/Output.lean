import Pyrad2.Packet.Sending
import Pyrad2.Packet.Walks

/-!
# What the serializers return

Is what `request_packet` and `reply_packet` return a packet?

The stored values of a packet may be anything, and so may the dictionary that says how they are put
on the wire, as containers, fragments or plain attributes. Still every group of values either raises
or becomes whole attributes, and the header counts them: what is returned is delimited by its own
length field and tiled by attributes, so that the decoder of the library takes it unless it is longer
than the decoder allows.
-/

namespace Pyrad2

open EStateM

namespace Packet

/-- The length field is right, and behind the header there are whole attributes. -/
structure Delimited (raw : Bytes) : Prop where
  header : 20 ≤ raw.length
  length_eq : wireLength raw = raw.length
  tiled : Tiled (raw.drop 20)

/-- Delimited bytes, which every packet object decodes just when they are not too many. -/
structure Readable (raw : Bytes) : Prop extends Delimited raw where
  decodes_iff : ∀ s, (∃ s', (decodePacket raw).run s = .ok () s') ↔ raw.length ≤ 8192

section

variable {E : Env} {raw : Bytes}

/-- **The decoder takes delimited bytes**, up to its limit. -/
theorem Delimited.readable (h : Delimited raw) : Readable raw := by
  refine ⟨h, fun s ↦ ⟨fun haccepts ↦ ?_, fun hle ↦ ?_⟩⟩
  · by_contra hlong
    obtain ⟨s', hs'⟩ := haccepts
    have hlength : raw.length = Bytes.toNatBE ((raw.drop 2).take 2) := h.length_eq.symm
    rw [decodePacket, if_neg (Nat.not_lt.2 h.header)] at hs'
    dsimp only at hs'
    rw [if_neg (not_not.2 hlength), if_pos (by omega)] at hs'
    cases hs'
  · have hframed : Framed raw := ⟨h.header, h.length_eq.symm, hle⟩
    exact (sameGrammar_of_tiled hframed h.tiled).accepts_iff_tiled.2 h.tiled

/-- **The encoding is tiled**, whatever is stored and whatever is pending. -/
theorem tiled_encodeAttributes (E : Env) (s : PacketState) :
    Ensures (encodeAttributes E) s (fun body _ ↦ Tiled body) fun _ _ ↦ True := by
  rw [encodeAttributes]
  refine ensures_bind.2 (ensures_get.2 (ensures_bind.2 (ensures_liftM (fun keys hkeys ↦ ?_)
    fun _ _ ↦ trivial)))
  refine ensures_bind.2 (ensures_liftM (fun stored hstored ↦ ?_) fun _ _ ↦ trivial)
  refine ensures_bind.2 ((ensures_encodeDeferredObfuscated E hkeys).imp (fun pending s' hpending ↦ ?_)
    fun _ _ h ↦ h)
  rw [encodeStored_eq] at hstored
  obtain ⟨parts, hparts, heq⟩ := Except.bind_eq_ok_iff.1 hstored
  cases heq
  have hgroups : ∀ part ∈ parts, ∃ avps, part = Avp.join avps ∧ ∀ a ∈ avps, True := by
    intro part hpart
    obtain ⟨e, -, hencode⟩ := Except.exists_of_mem_mapM hparts hpart
    rw [encodeEntry] at hencode
    split at hencode
    · cases hencode
      exact ⟨[], rfl, fun _ _ ↦ trivial⟩
    · obtain ⟨avps, havps, -⟩ := (emits_encodeAvpGroup s.pkt e.1 e.2).exists_avps part hencode
      exact ⟨avps, havps, fun _ _ ↦ trivial⟩
  obtain ⟨l, hl, -⟩ := exists_avps_flatten hgroups
  obtain ⟨l', rfl, -⟩ := hpending
  exact ensures_pure.2 ⟨l ++ l', by rw [hl, Avp.join_append]⟩

/-- `reply_packet` puts a header in front of the encoding as `request_packet` does. -/
theorem encodes_replyPacket (s : PacketState) :
    Ensures (replyPacket E) s (fun raw _ ↦ Encodes E s raw) fun _ _ ↦ True := by
  rw [replyPacket]
  refine ensures_bind.2 (ensures_get.2 ?_)
  dsimp only
  split
  · exact encodes_serializeV11 s
  split
  · trivial
  · trivial
  · refine ensures_bind_encodes (refreshes_refreshIfCarried E) fun _ s ↦ ?_
    refine ensures_encodeAttributes_bind fun body s' hrun ↦ ensures_bind.2 (ensures_get.2
      (ensures_bind.2 (ensures_liftM (fun front hfront ↦ ?_) fun _ _ ↦ trivial)))
    exact encodes_append hrun hfront (E.md5_length _)

theorem Encodes.readable {s : PacketState} (h : Encodes E s raw) : Readable raw := by
  obtain ⟨s₁, s₂, -, hrun⟩ := h.exists_run
  have htiled : Tiled (raw.drop 20) := (tiled_encodeAttributes E s₁).of_run_eq_ok hrun
  exact Delimited.readable ⟨h.header, h.length_eq, htiled⟩

/-- **What the serializers return is a packet**, for every class, version and dictionary. -/
theorem readable_serialized (E : Env) (s : PacketState) :
    Ensures (requestPacket E) s (fun raw _ ↦ Readable raw) (fun _ _ ↦ True) ∧
      Ensures (replyPacket E) s (fun raw _ ↦ Readable raw) fun _ _ ↦ True :=
  ⟨(encodes_requestPacket s).imp (fun _ _ h ↦ h.readable) fun _ _ h ↦ h,
    (encodes_replyPacket s).imp (fun _ _ h ↦ h.readable) fun _ _ h ↦ h⟩

end

end Packet

end Pyrad2
