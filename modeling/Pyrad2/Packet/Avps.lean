import Pyrad2.Packet.Authenticator

/-!
# Attributes on the wire

The body of a packet as a sequence of attributes, each a code, a length byte and a value.

The decoder and the walk that zeroes a Message-Authenticator go through the same bytes, each with a
loop of its own. Both are described here by the sequence they go through, so that what one of them
found can be used for the other.
-/

namespace Pyrad2

/-- An attribute on the wire: a code, and a value that leaves room for the header. -/
structure Avp where
  code : UInt8
  value : Bytes
  length_le : value.length ≤ 253

namespace Avp

/-- Code, length and value. -/
def bytes (a : Avp) : Bytes := a.code :: UInt8.ofNat (a.value.length + 2) :: a.value

/-- A sequence of attributes as bytes. -/
def join (l : List Avp) : Bytes := l.flatMap bytes

/-- Is the attribute a Message-Authenticator? -/
def isMac (a : Avp) : Bool := a.code = 80

/-- A Message-Authenticator with sixteen zero bytes in place of its value. -/
def zeroed (a : Avp) : Avp := if a.isMac then ⟨80, zeros16, by decide⟩ else a

@[simp] theorem join_nil : join [] = [] := rfl

@[simp] theorem join_cons (a : Avp) (l : List Avp) : join (a :: l) = a.bytes ++ join l := rfl

@[simp] theorem join_append (l l' : List Avp) : join (l ++ l') = join l ++ join l' :=
  List.flatMap_append

theorem flatten_map_join {β : Type} (l : List β) (f : β → List Avp) :
    (l.map fun b ↦ join (f b)).flatten = join (l.flatMap f) := by
  induction l with
  | nil => rfl
  | cons b l ih => rw [List.map_cons, List.flatten_cons, ih, List.flatMap_cons, join_append]

theorem length_bytes (a : Avp) : a.bytes.length = a.value.length + 2 := rfl

/-- The length byte. -/
theorem toNat_length (a : Avp) : (UInt8.ofNat (a.value.length + 2)).toNat = a.value.length + 2 := by
  have := a.length_le
  rw [UInt8.toNat_ofNat']
  exact Nat.mod_eq_of_lt (by omega)

theorem two_le_length (a : Avp) : ¬ UInt8.ofNat (a.value.length + 2) < 2 := by
  rw [UInt8.lt_iff_toNat_lt, toNat_length]
  exact Nat.not_lt.2 (Nat.le_add_left 2 _)

/-- The attribute that a header and enough bytes after it make up. -/
theorem exists_bytes_eq (key length : UInt8) {rest : Bytes} (h2 : ¬ length < 2)
    (hrest : ¬ rest.length < length.toNat - 2) :
    ∃ a : Avp, a.code = key ∧ a.value = rest.take (length.toNat - 2) ∧
      key :: length :: rest = a.bytes ++ rest.drop (length.toNat - 2) := by
  have h2' : 2 ≤ length.toNat := by
    rw [UInt8.lt_iff_toNat_lt] at h2
    exact Nat.not_lt.1 h2
  have hlt := length.toNat_lt
  have hvalue : (rest.take (length.toNat - 2)).length = length.toNat - 2 := by
    rw [List.length_take]
    omega
  refine ⟨⟨key, rest.take (length.toNat - 2), by omega⟩, rfl, rfl, ?_⟩
  rw [bytes]
  simp only [hvalue, Nat.sub_add_cancel h2', UInt8.ofNat_toNat, List.cons_append,
    List.take_append_drop]

end Avp

namespace Packet

/-! ### Zeroing -/

theorem zeroWalk_cons (fuel : ℕ) (key length : UInt8) (rest : Bytes) :
    zeroWalk (fuel + 1) (key :: length :: rest) =
      if length < 2 then
        .error (.packetError ("Attribute length is too small (" ++ toString length.toNat ++ ")"))
      else if rest.length < length.toNat - 2 then
        .error (.packetError "Attribute length exceeds packet length")
      else if key = 80 ∧ length ≠ 18 then
        .error (.packetError "Message-Authenticator must be 16 bytes")
      else (zeroWalk fuel (rest.drop (length.toNat - 2))).map fun zn ↦
        if key = 80 then (key :: length :: zeros16 ++ zn.1, zn.2 + 1)
        else (key :: length :: rest.take (length.toNat - 2) ++ zn.1, zn.2) := by
  rw [zeroWalk]
  split
  · rfl
  dsimp only
  split
  · rfl
  split
  · rfl
  rcases zeroWalk fuel (rest.drop (length.toNat - 2)) with e | ⟨zeroed, found⟩
  · rfl
  · change (if key = 80 then _ else _) = Except.ok (if key = 80 then _ else _)
    split <;> rfl

theorem zeroWalk_bytes_append (fuel : ℕ) (a : Avp) (rest : Bytes) :
    zeroWalk (fuel + 1) (a.bytes ++ rest) =
      if a.isMac = true ∧ a.value.length ≠ 16 then
        .error (.packetError "Message-Authenticator must be 16 bytes")
      else (zeroWalk fuel rest).map fun zn ↦
        (a.zeroed.bytes ++ zn.1, zn.2 + if a.isMac = true then 1 else 0) := by
  have hlen := a.toNat_length
  have hmac : a.isMac = true ↔ a.code = 80 := by simp [Avp.isMac]
  have h18 : UInt8.ofNat (a.value.length + 2) ≠ 18 ↔ a.value.length ≠ 16 := by
    rw [Ne, ← UInt8.toNat_inj, hlen, show (18 : UInt8).toNat = 18 from rfl]
    omega
  have hrest : ¬ (a.value ++ rest).length < a.value.length := by
    rw [List.length_append]
    omega
  rw [Avp.bytes, List.cons_append, List.cons_append, zeroWalk_cons, if_neg a.two_le_length, hlen,
    Nat.add_sub_cancel, List.drop_left, List.take_left, if_neg hrest]
  simp only [h18, ← hmac]
  split
  · rfl
  · next hlength =>
    refine congrArg (Except.map · (zeroWalk fuel rest)) (funext fun zn ↦ ?_)
    split
    · next hm =>
      have h16 : a.value.length = 16 := by
        by_contra hne
        exact hlength ⟨hm, hne⟩
      rw [Avp.zeroed, if_pos hm, h16, hmac.1 hm]
      rfl
    · next hm =>
      rw [Avp.zeroed, if_neg hm]
      rfl

/-- **What the walk accepts**: a sequence of attributes, and it zeroes the Message-Authenticators
among them. -/
theorem exists_avps_of_zeroWalk {fuel : ℕ} {b z : Bytes} {n : ℕ} (h : zeroWalk fuel b = .ok (z, n)) :
    ∃ l, b = Avp.join l ∧ z = Avp.join (l.map Avp.zeroed) ∧ n = l.countP Avp.isMac ∧
      ∀ a ∈ l, a.isMac = true → a.value.length = 16 := by
  induction fuel generalizing b z n with
  | zero =>
    rcases b with - | ⟨key, b⟩
    · cases h
      exact ⟨[], rfl, rfl, rfl, fun a ha ↦ by cases ha⟩
    · cases h
  | succ fuel ih =>
    rcases b with - | ⟨key, - | ⟨length, rest⟩⟩
    · cases h
      exact ⟨[], rfl, rfl, rfl, fun a ha ↦ by cases ha⟩
    · cases h
    · have hok := h
      rw [zeroWalk_cons] at hok
      split at hok
      · cases hok
      split at hok
      · cases hok
      next h2 hrest =>
      obtain ⟨a, -, -, ha⟩ := Avp.exists_bytes_eq key length h2 hrest
      rw [ha, zeroWalk_bytes_append] at h
      split at h
      · cases h
      next hmac =>
      rcases hwalk : zeroWalk fuel (rest.drop (length.toNat - 2)) with e | ⟨z', n'⟩
      · rw [hwalk] at h
        cases h
      · rw [hwalk] at h
        cases h
        obtain ⟨l, hrest', hz, hn, hl⟩ := ih hwalk
        refine ⟨a :: l, by rw [ha, hrest', Avp.join_cons], ?_, ?_, ?_⟩
        · rw [hz, List.map_cons, Avp.join_cons]
        · rw [hn, List.countP_cons]
        · intro c hc hmac'
          rcases List.mem_cons.1 hc with rfl | hc
          · by_contra hne
            exact hmac ⟨hmac', hne⟩
          · exact hl c hc hmac'

theorem zeroWalk_join {l : List Avp} (h : ∀ a ∈ l, a.isMac = true → a.value.length = 16) {fuel : ℕ}
    (hfuel : (Avp.join l).length ≤ fuel) :
    zeroWalk fuel (Avp.join l) = .ok (Avp.join (l.map Avp.zeroed), l.countP Avp.isMac) := by
  induction l generalizing fuel with
  | nil => rcases fuel <;> rfl
  | cons a l ih =>
    rw [Avp.join_cons, List.length_append, Avp.length_bytes] at hfuel
    obtain ⟨fuel, rfl⟩ : ∃ n, fuel = n + 1 := ⟨fuel - 1, by omega⟩
    have hl : ∀ a ∈ l, a.isMac = true → a.value.length = 16 := fun b hb ↦ h b (by simp [hb])
    have ha : ¬ (a.isMac = true ∧ a.value.length ≠ 16) := fun hmac ↦ hmac.2 (h a (by simp) hmac.1)
    rw [Avp.join_cons, zeroWalk_bytes_append, if_neg ha, ih hl (by omega), List.countP_cons]
    rfl

theorem zeroMessageAuthenticator_of_zeroWalk {attr zeroed : Bytes} {found : ℕ}
    (h : zeroWalk attr.length attr = .ok (zeroed, found)) :
    zeroMessageAuthenticator attr =
      if found = 0 then .error (.packetError "No Message-Authenticator AVP present")
      else if found > 1 then .error (.packetError "Multiple Message-Authenticator AVPs present")
      else .ok zeroed := by
  rw [zeroMessageAuthenticator, h]
  change (if found = 0 then _ else _) = _
  split
  · rfl
  · split <;> rfl

theorem map_zeroed_of_forall_ne {l : List Avp} (hl : ∀ a ∈ l, a.code ≠ 80) :
    l.map Avp.zeroed = l := by
  have hid : l.map Avp.zeroed = l.map fun a ↦ a := List.map_congr_left fun a ha ↦ by
    rw [Avp.zeroed, if_neg (by simpa [Avp.isMac] using hl a ha)]
  rw [hid, List.map_id']

theorem countP_isMac_eq_zero_iff {l : List Avp} :
    l.countP Avp.isMac = 0 ↔ ∀ a ∈ l, a.code ≠ 80 := by
  rw [List.countP_eq_zero]
  exact forall₂_congr fun a _ ↦ by simp [Avp.isMac]

theorem exists_split_of_countP_isMac_eq_one {l : List Avp} (hone : l.countP Avp.isMac = 1) :
    ∃ (front back : List Avp) (mac : Avp), l = front ++ mac :: back ∧ mac.code = 80 ∧
      ∀ a ∈ front ++ back, a.code ≠ 80 := by
  obtain ⟨mac, hmem, hmac⟩ := List.countP_pos_iff.1 (hone ▸ Nat.one_pos)
  obtain ⟨front, back, rfl⟩ := List.append_of_mem hmem
  rw [List.countP_append, List.countP_cons, if_pos hmac] at hone
  refine ⟨front, back, mac, rfl, by simpa [Avp.isMac] using hmac, ?_⟩
  refine countP_isMac_eq_zero_iff.1 ?_
  rw [List.countP_append]
  omega

/-- **What is zeroed**: a sequence of attributes with exactly one Message-Authenticator in it. -/
theorem zeroMessageAuthenticator_eq_ok_iff {attr z : Bytes} :
    zeroMessageAuthenticator attr = .ok z ↔
      ∃ (front back : List Avp) (mac : Avp), attr = Avp.join (front ++ mac :: back) ∧
        mac.code = 80 ∧ mac.value.length = 16 ∧ (∀ a ∈ front ++ back, a.code ≠ 80) ∧
        z = Avp.join (front ++ mac.zeroed :: back) := by
  constructor
  · intro h
    rcases hwalk : zeroWalk attr.length attr with e | ⟨zeroed, found⟩
    · rw [zeroMessageAuthenticator, hwalk] at h
      cases h
    · rw [zeroMessageAuthenticator_of_zeroWalk hwalk] at h
      obtain ⟨l, rfl, rfl, rfl, h16⟩ := exists_avps_of_zeroWalk hwalk
      have hone : l.countP Avp.isMac = 1 := by
        split at h
        · cases h
        split at h
        · cases h
        omega
      rw [hone] at h
      cases h
      obtain ⟨front, back, mac, rfl, hcode, hrest⟩ := exists_split_of_countP_isMac_eq_one hone
      refine ⟨front, back, mac, rfl, hcode, h16 mac (by simp) (by simp [Avp.isMac, hcode]),
        hrest, ?_⟩
      rw [List.map_append, List.map_cons,
        map_zeroed_of_forall_ne fun a ha ↦ hrest a (List.mem_append_left _ ha),
        map_zeroed_of_forall_ne fun a ha ↦ hrest a (List.mem_append_right _ ha)]
  · rintro ⟨front, back, mac, rfl, hcode, h16, hrest, rfl⟩
    have hfront : ∀ a ∈ front, a.code ≠ 80 := fun a ha ↦ hrest a (List.mem_append_left _ ha)
    have hback : ∀ a ∈ back, a.code ≠ 80 := fun a ha ↦ hrest a (List.mem_append_right _ ha)
    have hmac : mac.isMac = true := by simp [Avp.isMac, hcode]
    have hall : ∀ a ∈ front ++ mac :: back, a.isMac = true → a.value.length = 16 := by
      intro a ha ham
      have hacode : a.code = 80 := by simpa [Avp.isMac] using ham
      rcases List.mem_append.1 ha with ha | ha
      · exact absurd hacode (hfront a ha)
      · rcases List.mem_cons.1 ha with rfl | ha
        · exact h16
        · exact absurd hacode (hback a ha)
    have hone : (front ++ mac :: back).countP Avp.isMac = 1 := by
      rw [List.countP_append, List.countP_cons, if_pos hmac, countP_isMac_eq_zero_iff.2 hfront,
        countP_isMac_eq_zero_iff.2 hback]
    rw [zeroMessageAuthenticator_of_zeroWalk (zeroWalk_join hall le_rfl), hone, List.map_append,
      List.map_cons, map_zeroed_of_forall_ne hfront, map_zeroed_of_forall_ne hback]
    rfl

/-! ### Decoding -/

theorem decodeAvps_bytes_append (D : Option Dictionary) (version : RadiusVersion) (fuel : ℕ)
    (a : Avp) (rest : Bytes) :
    decodeAvps D version (fuel + 1) (a.bytes ++ rest) =
      decodeAvp D version a.code a.value >>= fun _ ↦ decodeAvps D version fuel rest := by
  rw [Avp.bytes, List.cons_append, List.cons_append, decodeAvps]
  rw [if_neg a.two_le_length, a.toNat_length, Nat.add_sub_cancel, List.drop_left, List.take_left]

/-- Decoding a sequence of attributes decodes one after the other. -/
theorem decodeAvps_join (D : Option Dictionary) (version : RadiusVersion) {l : List Avp} {fuel : ℕ}
    (hfuel : (Avp.join l).length ≤ fuel) :
    decodeAvps D version fuel (Avp.join l) =
      l.forM fun a ↦ decodeAvp D version a.code a.value := by
  induction l generalizing fuel with
  | nil => rcases fuel <;> rfl
  | cons a l ih =>
    rw [Avp.join_cons, List.length_append, Avp.length_bytes] at hfuel
    obtain ⟨fuel, rfl⟩ : ∃ n, fuel = n + 1 := ⟨fuel - 1, by omega⟩
    rw [Avp.join_cons, decodeAvps_bytes_append, ih (by omega)]
    rfl

end Packet

end Pyrad2
