import Pyrad2.Packet.MessageAuthenticator
import Pyrad2.Packet.Salt
import Pyrad2.Packet.Sending
import Pyrad2.Packet.Serializable

/-!
# Assigning a Message-Authenticator

The name is looked up in the dictionary, whatever that makes of it: the attribute may have any type,
named values, and encryption. The value goes through the codec of the attribute, and is then encrypted
under a new salt if the attribute is declared so.
-/

namespace Pyrad2

open EStateM

namespace Packet

/-- The name stands for this attribute, which is stored under this key. -/
def MacAt (p : Packet) (attr : Attribute) (key : Key) : Prop :=
  ∃ D, p.dict = some D ∧ D.lookup "Message-Authenticator" = .ok attr ∧
    D.encodeKey "Message-Authenticator" = .ok key

/-- What the codec of the attribute makes of a value, before it is encrypted. -/
def macForm (E : Env) (attr : Attribute) (value : PyVal) : Except Exn PyVal :=
  match namedValue? attr value with
  | some encoded => .ok encoded
  | none => Tools.encodeAttr E attr.type value

/-- What is assigned to the attribute is encrypted under a new salt. -/
def Salts (p : Packet) (attr : Attribute) : Prop :=
  attr.encrypt = 2 ∧ p.radiusVersion ≠ .v1_1

/-- The octets of a value that can be encrypted: text, or bytes. -/
def saltOctets : PyVal → Option Bytes
  | .str s => some (Tools.utf8 s)
  | .bytes b => some b
  | _ => none

/-- A value short enough to be encrypted with its length. -/
def Saltable (value : PyVal) : Prop := ∃ b, saltOctets value = some b ∧ b.length ≤ 255

/-- The value can be assigned, and the codec makes `c` of it. -/
def TakenAs (E : Env) (p : Packet) (attr : Attribute) (value c : PyVal) : Prop :=
  macForm E attr value = .ok c ∧ (Salts p attr → Saltable c)

section

variable {E : Env} {p q : Packet} {attr : Attribute} {key key' : Key} {value c : PyVal}
  {values : List PyVal} {s s' : PacketState}

/-! ### The name -/

theorem MacAt.eq {attr' : Attribute} (h : MacAt p attr key) (h' : MacAt p attr' key') :
    attr' = attr ∧ key' = key := by
  obtain ⟨D, hdict, hattr, hkey⟩ := h
  obtain ⟨D', hdict', hattr', hkey'⟩ := h'
  cases hdict.symm.trans hdict'
  exact ⟨Except.ok.inj (hattr'.symm.trans hattr), Except.ok.inj (hkey'.symm.trans hkey)⟩

theorem salts_congr (h : q.radiusVersion = p.radiusVersion) : Salts q attr ↔ Salts p attr := by
  rw [Salts, Salts, h]

theorem TakenAs.congr (h : TakenAs E p attr value c) (hversion : q.radiusVersion = p.radiusVersion) :
    TakenAs E q attr value c :=
  ⟨h.1, fun hsalts ↦ h.2 ((salts_congr hversion).1 hsalts)⟩

theorem run_encodeKeyValues_mac (h : MacAt s.pkt attr key) :
    (encodeKeyValues E "Message-Authenticator" [value]).run s =
      (encodeValue E attr value >>= fun c ↦ pure (key, [c])).run s := by
  obtain ⟨D, hdict, hattr, hkey⟩ := h
  rw [encodeKeyValues, partitionTag_messageAuthenticator]
  simp [theDict, hdict, hattr, hkey]

/-- The value goes through the codec, and is encrypted where it has to be. -/
theorem run_encodeValue_macForm (E : Env) (attr : Attribute) (value : PyVal) (s : PacketState) :
    (encodeValue E attr value).run s = ((liftM (macForm E attr value) : PacketMethod PyVal) >>=
      fun c ↦ do
        if attr.encrypt = 2 ∧ (← get).pkt.radiusVersion ≠ .v1_1 then
          return .bytes (← saltCrypt E c)
        return c).run s := by
  rw [encodeValue, macForm]
  rcases namedValue? attr value with - | encoded
  · rfl
  · rfl

theorem run_encodeValue_of_not_salts (h : ¬ Salts s.pkt attr) (hc : macForm E attr value = .ok c) :
    (encodeValue E attr value).run s = .ok c s := by
  rw [Salts] at h
  rw [run_encodeValue_macForm, hc]
  simp only [run_bind, run_liftM_ok, run_get]
  rw [if_neg h]
  rfl

theorem run_setMac_of_not_salts (hat : MacAt s.pkt attr key) (h : ¬ Salts s.pkt attr)
    (hc : macForm E attr value = .ok c) : (setMessageAuthenticator E value).run s =
      .ok () { s with pkt := { s.pkt with attrs := s.pkt.attrs.set key (.vals [c]) } } := by
  rw [setMessageAuthenticator, setItem, run_bind, run_encodeKeyValues_mac hat,
    run_bind_of_ok (run_encodeValue_of_not_salts h hc)]
  rfl

theorem TakenAs.eq {c' : PyVal} (h : TakenAs E p attr value c) (h' : TakenAs E p attr value c') :
    c' = c :=
  Except.ok.inj (h'.1.symm.trans h.1)

end

end Packet

end Pyrad2
