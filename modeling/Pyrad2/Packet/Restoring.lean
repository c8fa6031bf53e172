import Pyrad2.Packet.MacValue

/-!
# Putting the Message-Authenticator back

What `verify_message_authenticator` leaves behind among the stored attributes.

A packet that was not parsed gets sixteen zero bytes in place of the value before its attributes are
encoded. At the end the value that was read is assigned again, on every packet. Nothing undoes the
first assignment when the check raises in between, and the second one goes through the codec of the
attribute and stores one value.
-/

namespace Pyrad2

open EStateM

namespace Packet

section

variable {E : Env} {s s' : PacketState} {value : PyVal} {key : Key} {values : List PyVal}

/-! ### Assigning the attribute -/

theorem Draws.attrs_eq (h : Draws s s') : s'.pkt.attrs = s.pkt.attrs := by
  obtain ⟨authenticator, hpkt, -⟩ := h
  rw [hpkt]

theorem Draws.dict_eq (h : Draws s s') : s'.pkt.dict = s.pkt.dict := by
  obtain ⟨authenticator, hpkt, -⟩ := h
  rw [hpkt]

/-- The packet was parsed from bytes. -/
def HasRaw (p : Packet) : Prop := ∃ b raw, p.rawPacket = some (b :: raw)

theorem run_verifyAttributes_of_not_hasRaw (h : ¬ HasRaw s.pkt) :
    (verifyAttributes E).run s =
      (setMessageAuthenticator E (.bytes zeros16) >>= fun _ ↦ encodeAttributes E).run s := by
  rw [verifyAttributes, run_bind_of_ok (run_get s)]
  -- `if self.raw_packet` takes empty bytes for none
  rcases hraw : s.pkt.rawPacket with - | - | ⟨b, raw⟩
  · rfl
  · rfl
  · exact absurd ⟨b, raw, hraw⟩ h

variable (E) (originalAuthenticator : Option Bytes) (originalCode : Option ℕ)

/-- The check gets from the state `s` to the assignment of `prev`, the first value it had read, and
makes this assignment in the state `s'`. -/
structure WritesBack (item : ItemView) (s s' : PacketState) (prev : PyVal) : Prop where
  exists_digest : ∃ attr header authenticator, (verifyAttributes E).run s = .ok attr s' ∧
    packHeader s'.pkt.code s'.pkt.id (20 + attr.length) = .ok header ∧
    s'.pkt.verifyAuthenticator originalAuthenticator originalCode = .ok authenticator
  first : item.first = .ok prev

variable {E originalAuthenticator originalCode} {item : ItemView} {secret : Option Bytes}

section

variable (hflag : s.pkt.messageAuthenticator ≠ none)

include hflag

end

/-! ### What is left -/

/-- The state in which the value is written back is the one that gathering the attributes left. -/
theorem WritesBack.after_eq {prev : PyVal}
    (h : WritesBack E originalAuthenticator originalCode item s s' prev) :
    after (verifyAttributes E) s = s' := by
  obtain ⟨⟨attr, header, authenticator, hattr, -, -⟩, -⟩ := h
  exact after_of_ok hattr

/-- The attributes the digest covers can be had, in `n` bytes: those of a parsed packet have exactly one
Message-Authenticator, and otherwise the zeros can be assigned and the attributes be encoded. -/
def Gathers (E : Env) (p : Packet) (attr : Attribute) (key : Key) (n : ℕ) : Prop :=
  (∃ b raw, p.rawPacket = some (b :: raw) ∧ Nonempty (MacSplit ((b :: raw).drop 20)) ∧
      ((b :: raw).drop 20).length = n) ∨
    ¬ HasRaw p ∧ ∃ z, TakenAs E p attr (.bytes zeros16) z ∧
      SerializesTo E { p with attrs := p.attrs.set key (.vals [z]) } n

section

variable {p : Packet} {drawn : Prop} {own : Option Bytes}

variable {attr : Attribute} {w : World}

/-- Attributes that are gathered in one run are gathered in every one. -/
theorem Gathers.exists_run {n : ℕ} (h : Gathers E p attr key n) (hat : MacAt p attr key)
    (hsalts : ¬ HasRaw p → ¬ Salts p attr) (w : World) :
    ∃ body s', (verifyAttributes E).run ⟨p, w⟩ = .ok body s' ∧ body.length = n := by
  rcases h with ⟨b, raw, hraw, ⟨m⟩, hlength⟩ | ⟨hraw, z, hz, hserializes⟩
  · -- the attributes of a parsed packet are those that came in
    refine ⟨m.zeroed, ⟨p, w⟩, ?_, m.length_zeroed.trans hlength⟩
    rw [run_verifyAttributes hraw (List.cons_ne_nil _ _), m.zeroMessageAuthenticator_eq]
    rfl
  · obtain ⟨body, s', hrun, hlength⟩ := hserializes.exists_run w
    refine ⟨body, s', ?_, hlength⟩
    rw [run_verifyAttributes_of_not_hasRaw (s := ⟨p, w⟩) hraw,
      run_bind_of_ok (run_setMac_of_not_salts (s := ⟨p, w⟩) hat (hsalts hraw) hz.1)]
    exact hrun

end

end

/-! ### When nothing changes -/

section

variable {E : Env} {p : Packet} {attr : Attribute} {key : Key} {item : ItemView}
  {secret originalAuthenticator : Option Bytes} {originalCode : Option ℕ}

/-- The dictionary and the version are still those of the packet. -/
theorem WritesBack.congr {w : World} {s' : PacketState} {prev : PyVal}
    (h : WritesBack E originalAuthenticator originalCode item ⟨p, w⟩ s' prev) :
    s'.pkt.dict = p.dict ∧ s'.pkt.radiusVersion = p.radiusVersion := by
  obtain ⟨attrs, authenticator, hpkt, -⟩ := recodes_verifyAttributes E ⟨p, w⟩
  rw [h.after_eq] at hpkt
  rw [hpkt]
  exact ⟨rfl, rfl⟩

section

variable (secret) (hflag : p.messageAuthenticator ≠ none) (hat : MacAt p attr key)
  (hitem : p.getItem E "Message-Authenticator" = .ok item)

include hflag hat hitem

end

section

variable (hflag : p.messageAuthenticator ≠ none) (hat : MacAt p attr key)
  (hitem : p.getItem E "Message-Authenticator" = .ok item)

include hflag hat hitem

end

end

end Packet

end Pyrad2
