import Pyrad2.Packet.ReplySafety

/-!
# Zeroing in a writable copy

`_zero_message_authenticator` as it runs: an offset that moves from attribute to attribute, a
writable copy of the bytes, and a counter.

The walk that returns the zeroed bytes front to back is the same function, and is what everything
about the HMAC is proved from. What is accepted is said here without either of them, by the offsets
at which the attributes start.
-/

namespace Pyrad2

namespace Packet

/-! ### The loop -/

/-- `b[start:stop] = value`, of a `bytearray`. -/
def setSlice (b : Bytes) (start stop : ℕ) (value : Bytes) : Bytes :=
  b.take start ++ value ++ b.drop (max start stop)

/-- The `while` loop of `_zero_message_authenticator(attr)`, from its three variables on. -/
def zeroLoop (attr : Bytes) : ℕ → ℕ → Bytes → ℕ → Except Exn (Bytes × ℕ)
  | 0, _, _, _ => .error .divergence
  | fuel + 1, offset, zeroed, found =>
    if offset < attr.length then
      if h : offset + 2 > attr.length then .error (.packetError "Attribute header is corrupt")
      else
        let key := attr[offset]
        let length := attr[offset + 1].toNat
        if length < 2 then
          .error (.packetError ("Attribute length is too small (" ++ toString length ++ ")"))
        else if offset + length > attr.length then
          .error (.packetError "Attribute length exceeds packet length")
        else if key = 80 then
          if length ≠ 18 then .error (.packetError "Message-Authenticator must be 16 bytes")
          else
            zeroLoop attr fuel (offset + length)
              (setSlice zeroed (offset + 2) (offset + length) zeros16) (found + 1)
        else zeroLoop attr fuel (offset + length) zeroed found
    else .ok (zeroed, found)

/-- `_zero_message_authenticator(attr)`, on its writable copy. -/
def zeroInPlace (attr : Bytes) : Except Exn Bytes := do
  let (zeroed, found) ← zeroLoop attr (attr.length + 1) 0 attr 0
  if found = 0 then throw (.packetError "No Message-Authenticator AVP present")
  if found > 1 then throw (.packetError "Multiple Message-Authenticator AVPs present")
  return zeroed

/-! ### What a slice assignment leaves alone -/

section

variable {b value : Bytes} {start stop : ℕ}

/-- Writing a slice of its own length changes that slice only. -/
theorem getElem?_setSlice (hle : start ≤ stop) (hstop : stop ≤ b.length)
    (hvalue : value.length = stop - start) (i : ℕ) :
    (setSlice b start stop value)[i]? =
      if start ≤ i ∧ i < stop then value[i - start]? else b[i]? := by
  have htake : (b.take start).length = start := List.length_take_of_le (hle.trans hstop)
  rw [setSlice, Nat.max_eq_right hle, List.append_assoc]
  by_cases hbefore : i < start
  · rw [List.getElem?_append_left (by omega), if_neg (by omega), List.getElem?_take_of_lt hbefore]
  rw [List.getElem?_append_right (by omega), htake]
  by_cases hinside : i < stop
  · rw [List.getElem?_append_left (by omega), if_pos (by omega)]
  · rw [List.getElem?_append_right (by omega), List.getElem?_drop, if_neg (by omega), hvalue,
      show stop + (i - start - (stop - start)) = i by omega]

theorem length_setSlice (hle : start ≤ stop) (hstop : stop ≤ b.length)
    (hvalue : value.length = stop - start) : (setSlice b start stop value).length = b.length := by
  rw [setSlice, Nat.max_eq_right hle, List.length_append, List.length_append, List.length_take,
    List.length_drop, hvalue]
  omega

end

/-- The slice between two others. -/
theorem setSlice_append (front old back value : Bytes) :
    setSlice (front ++ (old ++ back)) front.length (front.length + old.length) value =
      front ++ (value ++ back) := by
  rw [setSlice, Nat.max_eq_right (Nat.le_add_right _ _), List.take_left, ← List.append_assoc front,
    ← List.length_append, List.drop_left, List.append_assoc]

/-- Zeros over the value of a Message-Authenticator. -/
theorem setSlice_value {front zfront rest : Bytes} (hz : zfront.length = front.length)
    (h16 : 16 ≤ rest.length) :
    setSlice (zfront ++ 80 :: 18 :: rest) (front.length + 2) (front.length + 18) zeros16 =
      (zfront ++ 80 :: 18 :: zeros16) ++ rest.drop 16 := by
  have htake : (rest.take 16).length = 16 := List.length_take_of_le h16
  have hfront : (zfront ++ [80, 18]).length = front.length + 2 := by simp [hz]
  have hsplit : zfront ++ 80 :: 18 :: rest =
      (zfront ++ [80, 18]) ++ (rest.take 16 ++ rest.drop 16) := by
    simp
  rw [hsplit, ← hfront, show front.length + 18 = (zfront ++ [80, 18]).length +
    (rest.take 16).length by omega, setSlice_append]
  simp

/-! ### The loop and the walk -/

/-- **One turn** of the loop, on bytes that lie after `front`. -/
theorem zeroLoop_cons (fuel : ℕ) (front : Bytes) (key length : UInt8) (rest zeroed : Bytes)
    (found : ℕ) :
    zeroLoop (front ++ key :: length :: rest) (fuel + 1) front.length zeroed found =
      if length.toNat < 2 then
        .error (.packetError ("Attribute length is too small (" ++ toString length.toNat ++ ")"))
      else if rest.length < length.toNat - 2 then
        .error (.packetError "Attribute length exceeds packet length")
      else if key = 80 then
        if length.toNat ≠ 18 then .error (.packetError "Message-Authenticator must be 16 bytes")
        else
          zeroLoop (front ++ key :: length :: rest) fuel (front.length + length.toNat)
            (setSlice zeroed (front.length + 2) (front.length + length.toNat) zeros16) (found + 1)
      else
        zeroLoop (front ++ key :: length :: rest) fuel (front.length + length.toNat) zeroed found := by
  have hlen : (front ++ key :: length :: rest).length = front.length + (rest.length + 2) := by
    rw [List.length_append, List.length_cons, List.length_cons]
  have hoffset : front.length < (front ++ key :: length :: rest).length := by omega
  have hnext : front.length + 1 < (front ++ key :: length :: rest).length := by omega
  have hkey : (front ++ key :: length :: rest)[front.length] = key := by simp
  have hlength : (front ++ key :: length :: rest)[front.length + 1] = length := by simp
  rw [zeroLoop, if_pos (by omega), dif_neg (by omega)]
  simp only [hkey, hlength]
  refine if_ctx_congr Iff.rfl (fun _ ↦ rfl) fun h2 ↦ if_congr ?_ rfl rfl
  omega

/-- **The loop is the walk**: the copy is what the walk has put together so far, and the bytes still
to come. -/
theorem zeroLoop_append {fuel : ℕ} {front zfront rest : Bytes} (hz : zfront.length = front.length)
    (found : ℕ) (hfuel : rest.length ≤ fuel) :
    zeroLoop (front ++ rest) (fuel + 1) front.length (zfront ++ rest) found =
      (zeroWalk fuel rest).map fun zn ↦ (zfront ++ zn.1, found + zn.2) := by
  induction fuel generalizing front zfront rest found with
  | zero =>
    obtain rfl : rest = [] := List.length_eq_zero_iff.1 (Nat.le_zero.1 hfuel)
    simp [zeroLoop, zeroWalk, Except.map]
  | succ fuel ih =>
    rcases rest with - | ⟨key, - | ⟨length, rest⟩⟩
    · simp [zeroLoop, zeroWalk, Except.map]
    · simp [zeroLoop, zeroWalk, Except.map]
    rw [List.length_cons, List.length_cons] at hfuel
    rw [zeroLoop_cons, zeroWalk_cons]
    by_cases h2 : length.toNat < 2
    · rw [if_pos h2, if_pos (UInt8.lt_iff_toNat_lt.2 h2)]
      rfl
    rw [if_neg h2, if_neg fun h ↦ h2 (UInt8.lt_iff_toNat_lt.1 h)]
    by_cases hrest : rest.length < length.toNat - 2
    · rw [if_pos hrest, if_pos hrest]
      rfl
    rw [if_neg hrest, if_neg hrest]
    -- the attribute goes to what lies before the next turn
    have hturn {zvalue : Bytes} (hzvalue : zvalue.length = length.toNat - 2) (found : ℕ) :
        zeroLoop (front ++ key :: length :: rest) (fuel + 1) (front.length + length.toNat)
            ((zfront ++ key :: length :: zvalue) ++ rest.drop (length.toNat - 2)) found =
          (zeroWalk fuel (rest.drop (length.toNat - 2))).map fun zn ↦
            ((zfront ++ key :: length :: zvalue) ++ zn.1, found + zn.2) := by
      have htake : (rest.take (length.toNat - 2)).length = length.toNat - 2 :=
        List.length_take_of_le (Nat.not_lt.1 hrest)
      have hfront : front ++ key :: length :: rest =
          (front ++ key :: length :: rest.take (length.toNat - 2)) ++
            rest.drop (length.toNat - 2) := by
        simp
      have hoffset : front.length + length.toNat =
          (front ++ key :: length :: rest.take (length.toNat - 2)).length := by
        rw [List.length_append, List.length_cons, List.length_cons, htake]
        omega
      rw [hfront, hoffset]
      refine ih ?_ found ?_
      · simp only [List.length_append, List.length_cons, hz, hzvalue, htake]
      · rw [List.length_drop]
        omega
    by_cases hkey : key = 80
    · -- a Message-Authenticator is zeroed, or has the wrong length
      by_cases h18 : length = 18
      · subst h18 hkey
        rw [if_pos rfl, if_neg (by decide), if_neg (by decide),
          show (18 : UInt8).toNat = 18 from rfl, setSlice_value hz (Nat.not_lt.1 hrest)]
        refine (hturn rfl (found + 1)).trans ?_
        change Except.map _ (zeroWalk fuel (rest.drop 16)) =
          Except.map _ (Except.map _ (zeroWalk fuel (rest.drop 16)))
        rcases zeroWalk fuel (rest.drop 16) with e | zn
        · rfl
        · simp [Except.map, Nat.add_comm, Nat.add_left_comm]
      · have htoNat : length.toNat ≠ 18 := fun h ↦ h18 (UInt8.toNat_inj.1 h)
        rw [if_pos hkey, if_pos htoNat, if_pos ⟨hkey, h18⟩]
        rfl
    · rw [if_neg hkey, if_neg fun h ↦ hkey h.1]
      have hcopy : zfront ++ key :: length :: rest =
          (zfront ++ key :: length :: rest.take (length.toNat - 2)) ++
            rest.drop (length.toNat - 2) := by
        simp
      rw [hcopy]
      refine (hturn (List.length_take_of_le (Nat.not_lt.1 hrest)) found).trans ?_
      rcases zeroWalk fuel (rest.drop (length.toNat - 2)) with e | zn
      · rfl
      · simp [Except.map, hkey]

/-- **One function**: the loop over the copy and the walk front to back. -/
theorem zeroInPlace_eq (attr : Bytes) : zeroInPlace attr = zeroMessageAuthenticator attr := by
  have hloop : zeroLoop attr (attr.length + 1) 0 attr 0 =
      (zeroWalk attr.length attr).map fun zn ↦ (zn.1, 0 + zn.2) :=
    @zeroLoop_append attr.length [] [] attr rfl 0 le_rfl
  rw [zeroInPlace, zeroMessageAuthenticator]
  refine congrArg (· >>= _) (hloop.trans ?_)
  rcases zeroWalk attr.length attr with e | zn
  · rfl
  · exact congrArg Except.ok (Prod.ext rfl (Nat.zero_add _))

/-! ### Where attributes start -/

/-- Attributes fill the bytes from `offset` to the end, and start at these offsets. -/
inductive TiledFrom (attr : Bytes) : ℕ → List ℕ → Prop
  | nil : TiledFrom attr attr.length []
  | cons {offset : ℕ} {offsets : List ℕ} {length : UInt8}
      (hlength : attr[offset + 1]? = some length) (two_le : 2 ≤ length.toNat)
      (le : offset + length.toNat ≤ attr.length)
      (rest : TiledFrom attr (offset + length.toNat) offsets) :
      TiledFrom attr offset (offset :: offsets)

/-- Attributes fill the bytes, and the one of type 80 among them starts at `mac`, with eighteen
bytes. -/
def SoleMac (attr : Bytes) (mac : ℕ) : Prop :=
  ∃ offsets, TiledFrom attr 0 offsets ∧ offsets.filter (attr[·]? = some 80) = [mac] ∧
    attr[mac + 1]? = some 18

/-- Where each of the attributes starts, the first one at `offset`. -/
def startsFrom : ℕ → List Avp → List ℕ
  | _, [] => []
  | offset, a :: l => offset :: startsFrom (offset + a.bytes.length) l

theorem startsFrom_append (offset : ℕ) (l l' : List Avp) :
    startsFrom offset (l ++ l') =
      startsFrom offset l ++ startsFrom (offset + (Avp.join l).length) l' := by
  induction l generalizing offset with
  | nil => rfl
  | cons a l ih =>
    rw [List.cons_append, startsFrom, startsFrom, ih, List.cons_append, Avp.join_cons,
      List.length_append, Nat.add_assoc]

section

variable {attr : Bytes} {offset : ℕ}

theorem getElem?_drop_start {a : Avp} {rest : Bytes} (h : attr.drop offset = a.bytes ++ rest) :
    attr[offset]? = some a.code ∧
      attr[offset + 1]? = some (UInt8.ofNat (a.value.length + 2)) ∧
      attr.drop (offset + a.bytes.length) = rest := by
  refine ⟨?_, ?_, ?_⟩
  · rw [← Nat.add_zero offset, ← List.getElem?_drop, h]
    rfl
  · rw [← List.getElem?_drop, h]
    rfl
  · rw [← List.drop_drop, h, List.drop_left]

theorem tiled_of_drop_eq {l : List Avp} (hle : offset ≤ attr.length)
    (h : attr.drop offset = Avp.join l) : TiledFrom attr offset (startsFrom offset l) := by
  induction l generalizing offset with
  | nil =>
    have hlen := congrArg List.length h
    rw [List.length_drop, Avp.join_nil, List.length_nil] at hlen
    rw [show offset = attr.length by omega]
    exact .nil
  | cons a l ih =>
    rw [Avp.join_cons] at h
    obtain ⟨-, hlength, hrest⟩ := getElem?_drop_start h
    have hlen := congrArg List.length h
    rw [List.length_drop, List.length_append] at hlen
    have hle' : offset + a.bytes.length ≤ attr.length := by
      rw [Avp.length_bytes] at hlen ⊢
      omega
    have htoNat : (UInt8.ofNat (a.value.length + 2)).toNat = a.bytes.length := a.toNat_length
    refine .cons hlength ?_ ?_ ?_
    · rw [htoNat, Avp.length_bytes]
      exact Nat.le_add_left 2 _
    · rwa [htoNat]
    · rw [htoNat]
      exact ih hle' hrest

theorem exists_join_of_tiled {offsets : List ℕ} (h : TiledFrom attr offset offsets) :
    ∃ l, attr.drop offset = Avp.join l ∧ offsets = startsFrom offset l := by
  induction h with
  | nil => exact ⟨[], List.drop_length, rfl⟩
  | @cons offset offsets length hlength two_le le rest ih =>
    obtain ⟨l, hl, rfl⟩ := ih
    obtain ⟨hlt, hget⟩ := List.getElem?_eq_some_iff.1 hlength
    have hdrop : attr.drop offset =
        attr[offset] :: length :: attr.drop (offset + 2) := by
      rw [List.drop_eq_getElem_cons (by omega), List.drop_eq_getElem_cons hlt, hget]
    have hrest : ¬ (attr.drop (offset + 2)).length < length.toNat - 2 := by
      rw [List.length_drop]
      omega
    have h2 : ¬ length < 2 := fun h ↦ by
      rw [UInt8.lt_iff_toNat_lt] at h
      exact absurd h (Nat.not_lt.2 two_le)
    obtain ⟨a, -, hvalue, ha⟩ := Avp.exists_bytes_eq attr[offset] length h2 hrest
    have hlen : a.bytes.length = length.toNat := by
      rw [Avp.length_bytes, hvalue, List.length_take, List.length_drop]
      omega
    refine ⟨a :: l, ?_, ?_⟩
    · rw [hdrop, ha, List.drop_drop, show offset + 2 + (length.toNat - 2) = offset + length.toNat by
        omega, hl, Avp.join_cons]
    · rw [startsFrom, hlen]

theorem length_filter_startsFrom {l : List Avp} {rest : Bytes}
    (h : attr.drop offset = Avp.join l ++ rest) :
    ((startsFrom offset l).filter (attr[·]? = some 80)).length = l.countP Avp.isMac := by
  induction l generalizing offset with
  | nil => rfl
  | cons a l ih =>
    rw [Avp.join_cons, List.append_assoc] at h
    obtain ⟨hcode, -, hrest⟩ := getElem?_drop_start h
    rw [startsFrom, List.filter_cons, List.countP_cons, ← ih hrest, hcode]
    by_cases hmac : a.code = 80 <;> simp [Avp.isMac, hmac]

/-- The offset of a Message-Authenticator, and the attributes around it. -/
theorem filter_startsFrom_eq {front back : List Avp} {mac : Avp}
    (h : attr.drop offset = Avp.join (front ++ mac :: back)) (hmac : mac.code = 80)
    (hrest : ∀ a ∈ front ++ back, a.code ≠ 80) :
    (startsFrom offset (front ++ mac :: back)).filter (attr[·]? = some 80) =
      [offset + (Avp.join front).length] := by
  rw [Avp.join_append] at h
  have hback : attr.drop (offset + (Avp.join front).length) = mac.bytes ++ Avp.join back := by
    rw [← List.drop_drop, h, List.drop_left, Avp.join_cons]
  obtain ⟨hcode, -, hdrop⟩ := getElem?_drop_start hback
  have hnone {l : List Avp} {offset : ℕ} {rest : Bytes} (hl : ∀ a ∈ l, a.code ≠ 80)
      (h : attr.drop offset = Avp.join l ++ rest) :
      (startsFrom offset l).filter (attr[·]? = some 80) = [] := by
    rw [← List.length_eq_zero_iff, length_filter_startsFrom h]
    exact countP_isMac_eq_zero_iff.2 hl
  rw [startsFrom_append, List.filter_append, startsFrom, List.filter_cons, hcode, hmac,
    hnone (fun a ha ↦ hrest a (List.mem_append_left _ ha)) h,
    hnone (fun a ha ↦ hrest a (List.mem_append_right _ ha)) (hdrop.trans (List.append_nil _).symm)]
  simp

end

theorem getElem?_mac {attr : Bytes} {front back : List Avp} {mac : Avp}
    (h : attr = Avp.join (front ++ mac :: back)) :
    attr[(Avp.join front).length]? = some mac.code ∧
      attr[(Avp.join front).length + 1]? = some (UInt8.ofNat (mac.value.length + 2)) := by
  have hdrop : attr.drop (Avp.join front).length = mac.bytes ++ Avp.join back := by
    rw [h, Avp.join_append, List.drop_left, Avp.join_cons]
  obtain ⟨hcode, hlength, -⟩ := getElem?_drop_start hdrop
  exact ⟨hcode, hlength⟩

/-- The attributes around the one Message-Authenticator. -/
theorem soleMac_iff {attr : Bytes} {offset : ℕ} :
    SoleMac attr offset ↔
      ∃ (front back : List Avp) (mac : Avp), attr = Avp.join (front ++ mac :: back) ∧
        mac.code = 80 ∧ mac.value.length = 16 ∧ (∀ a ∈ front ++ back, a.code ≠ 80) ∧
        offset = (Avp.join front).length := by
  have h18 (mac : Avp) : UInt8.ofNat (mac.value.length + 2) = 18 ↔ mac.value.length = 16 := by
    rw [← UInt8.toNat_inj, mac.toNat_length, show (18 : UInt8).toNat = 18 from rfl]
    omega
  constructor
  · rintro ⟨offsets, htiled, hfilter, hlength⟩
    obtain ⟨l, hl, rfl⟩ := exists_join_of_tiled htiled
    have hone : l.countP Avp.isMac = 1 := by
      rw [← length_filter_startsFrom (hl.trans (List.append_nil _).symm), hfilter]
      rfl
    obtain ⟨front, back, mac, rfl, hmac, hrest⟩ := exists_split_of_countP_isMac_eq_one hone
    rw [filter_startsFrom_eq hl hmac hrest, Nat.zero_add, List.singleton_inj] at hfilter
    rw [List.drop_zero] at hl
    refine ⟨front, back, mac, hl, hmac, ?_, hrest, hfilter.symm⟩
    rw [← hfilter, (getElem?_mac hl).2, Option.some_inj] at hlength
    exact (h18 mac).1 hlength
  · rintro ⟨front, back, mac, hattr, hmac, h16, hrest, rfl⟩
    have hdrop : attr.drop 0 = Avp.join (front ++ mac :: back) := hattr
    refine ⟨_, tiled_of_drop_eq (Nat.zero_le _) hdrop, ?_, ?_⟩
    · rw [filter_startsFrom_eq hdrop hmac hrest, Nat.zero_add]
    · rw [(getElem?_mac hattr).2, (h18 mac).2 h16]

/-- Attributes with another sixteen bytes for the value of the Message-Authenticator. -/
theorem join_zeroed {front back : List Avp} {mac : Avp} (hmac : mac.code = 80)
    (h16 : mac.value.length = 16) :
    Avp.join (front ++ mac.zeroed :: back) =
      setSlice (Avp.join (front ++ mac :: back)) ((Avp.join front).length + 2)
        ((Avp.join front).length + 18) zeros16 := by
  have hbytes : mac.bytes = 80 :: 18 :: mac.value := by
    rw [Avp.bytes, hmac, h16]
    rfl
  have hzeroed : mac.zeroed.bytes = 80 :: 18 :: zeros16 := by
    rw [Avp.zeroed, if_pos (by simp [Avp.isMac, hmac])]
    rfl
  have h16' : 16 ≤ (mac.value ++ Avp.join back).length := by
    rw [List.length_append]
    omega
  rw [Avp.join_append, Avp.join_append, Avp.join_cons, Avp.join_cons, hbytes, hzeroed]
  simp only [List.cons_append]
  rw [setSlice_value rfl h16', List.drop_left' h16, List.append_assoc]
  rfl

/-! ### What is accepted, and what comes back -/

/-- **The zeroing walk**: it returns for bytes that attributes fill, with one of type 80 and
eighteen bytes among them, the same bytes with zeros for that attribute's value. For all others it
raises `PacketError`; it always ends. -/
theorem zeroInPlace_returns_iff_soleMac (attr : Bytes) :
    ((∃ zeroed, zeroInPlace attr = .ok zeroed) ↔ ∃ mac, SoleMac attr mac) ∧
      (∀ mac, SoleMac attr mac → ∃ zeroed, zeroInPlace attr = .ok zeroed ∧
        zeroed.length = attr.length ∧
        ∀ i, zeroed[i]? = if mac + 2 ≤ i ∧ i < mac + 18 then some 0 else attr[i]?) ∧
      ((¬ ∃ mac, SoleMac attr mac) →
        ∃ text, zeroInPlace attr = .error (.packetError text)) := by
  have hreturns {mac : ℕ} (h : SoleMac attr mac) :
      zeroInPlace attr = .ok (setSlice attr (mac + 2) (mac + 18) zeros16) ∧
        mac + 18 ≤ attr.length := by
    obtain ⟨front, back, a, rfl, hcode, h16, hrest, rfl⟩ := soleMac_iff.1 h
    rw [zeroInPlace_eq, ← join_zeroed hcode h16]
    refine ⟨zeroMessageAuthenticator_eq_ok_iff.2
      ⟨front, back, a, rfl, hcode, h16, hrest, rfl⟩, ?_⟩
    rw [Avp.join_append, List.length_append, Avp.join_cons, List.length_append, Avp.length_bytes]
    omega
  have hsole {zeroed : Bytes} (h : zeroInPlace attr = .ok zeroed) : ∃ mac, SoleMac attr mac := by
    rw [zeroInPlace_eq, zeroMessageAuthenticator_eq_ok_iff] at h
    obtain ⟨front, back, a, hattr, hcode, h16, hrest, -⟩ := h
    exact ⟨_, soleMac_iff.2 ⟨front, back, a, hattr, hcode, h16, hrest, rfl⟩⟩
  refine ⟨⟨?_, ?_⟩, fun mac h ↦ ?_, fun hnone ↦ ?_⟩
  · rintro ⟨zeroed, h⟩
    exact hsole h
  · rintro ⟨mac, h⟩
    exact ⟨_, (hreturns h).1⟩
  · obtain ⟨hok, hle⟩ := hreturns h
    have hwidth : zeros16.length = mac + 18 - (mac + 2) := by
      rw [List.length_replicate]
      omega
    refine ⟨_, hok, length_setSlice (by omega) hle hwidth, fun i ↦ ?_⟩
    rw [getElem?_setSlice (by omega) hle hwidth]
    refine if_ctx_congr Iff.rfl (fun hi ↦ ?_) fun _ ↦ rfl
    rw [List.getElem?_replicate, if_pos (by omega)]
  · rcases h : zeroInPlace attr with e | zeroed
    · rw [zeroInPlace_eq] at h
      have hpacket := (onlyRaises_zeroMessageAuthenticator attr).of_error e h
      cases e with
      | packetError text => exact ⟨text, rfl⟩
      | _ => cases hpacket
    · exact absurd (hsole h) hnone

example : zeroInPlace ([1, 3, 7, 80, 18] ++ List.replicate 16 9) =
    .ok ([1, 3, 7, 80, 18] ++ zeros16) := by decide +kernel

end Packet

end Pyrad2
