import Pyrad2.Packet.Received

/-!
# Two walks over one body

`decode_packet` and `_zero_message_authenticator` go through the attributes of a body by loops of
their own, one on a shrinking string, one by offset. Each loop is written down here without what it
does to an attribute: the attributes it comes to, and how it ends. The functions themselves are then
a fold of their step over that list.

A body is a sequence of attributes and a rest in which no further attribute fits. Where the rest is a
header cut short or a length byte below two, both loops stop. Where an attribute runs past the end
they part: the walk stops, the decoder takes what there is.
-/

namespace Pyrad2

open EStateM

/-- The attributes a loop comes to, and the exception it ends with. -/
structure Walk where
  seen : List Avp
  stop : Option Exn

namespace Walk

/-- A loop that comes to one more attribute first. -/
def after (a : Avp) (w : Walk) : Walk := ⟨a :: w.seen, w.stop⟩

/-- The exception of a loop, if it ends with one. -/
def finish (w : Walk) : Except Exn Unit :=
  match w.stop with
  | none => .ok ()
  | some e => .error e

end Walk

/-- The value a length byte announces fits one attribute. -/
theorem Avp.length_take_le (rest : Bytes) (length : UInt8) :
    (rest.take (length.toNat - 2)).length ≤ 253 := by
  have hlt := length.toNat_lt
  have hle := List.length_take_le (length.toNat - 2) rest
  omega

namespace Packet

/-! ### The loops -/

/-- The loop of `decode_packet`, without the decoding. -/
def decodeWalk : ℕ → Bytes → Walk
  | _, [] => ⟨[], none⟩
  | 0, _ :: _ => ⟨[], some .divergence⟩
  | _ + 1, [_] => ⟨[], some (.packetError "Attribute header is corrupt")⟩
  | fuel + 1, key :: attrlen :: rest =>
    if attrlen < 2 then
      ⟨[], some (.packetError ("Attribute length is too small (" ++ toString attrlen.toNat ++ ")"))⟩
    else
      .after ⟨key, rest.take (attrlen.toNat - 2), Avp.length_take_le rest attrlen⟩
        (decodeWalk fuel (rest.drop (attrlen.toNat - 2)))

/-- The loop of `_zero_message_authenticator`, without the zeroing. -/
def zeroingWalk : ℕ → Bytes → Walk
  | _, [] => ⟨[], none⟩
  | 0, _ :: _ => ⟨[], some .divergence⟩
  | _ + 1, [_] => ⟨[], some (.packetError "Attribute header is corrupt")⟩
  | fuel + 1, key :: length :: rest =>
    if length < 2 then
      ⟨[], some (.packetError ("Attribute length is too small (" ++ toString length.toNat ++ ")"))⟩
    else if rest.length < length.toNat - 2 then
      ⟨[], some (.packetError "Attribute length exceeds packet length")⟩
    else
      .after ⟨key, rest.take (length.toNat - 2), Avp.length_take_le rest length⟩
        (zeroingWalk fuel (rest.drop (length.toNat - 2)))

/-- What the walk does with an attribute: it refuses a Message-Authenticator of another length,
zeroes one that has sixteen bytes, and counts it. -/
def zeroStep (a : Avp) (rest : Except Exn (Bytes × ℕ)) : Except Exn (Bytes × ℕ) :=
  if a.isMac = true ∧ a.value.length ≠ 16 then
    .error (.packetError "Message-Authenticator must be 16 bytes")
  else rest.map fun zn ↦ (a.zeroed.bytes ++ zn.1, zn.2 + if a.isMac = true then 1 else 0)

/-- **The decoder** decodes the attributes its loop comes to, in order. -/
theorem decodeAvps_eq_walk (D : Option Dictionary) (version : RadiusVersion) (fuel : ℕ)
    (body : Bytes) :
    decodeAvps D version fuel body = (do
      (decodeWalk fuel body).seen.forM fun a ↦ decodeAvp D version a.code a.value
      liftM (decodeWalk fuel body).finish) := by
  induction fuel generalizing body with
  | zero => rcases body with - | ⟨key, body⟩ <;> rfl
  | succ fuel ih =>
    rcases body with - | ⟨key, - | ⟨attrlen, rest⟩⟩
    · rfl
    · rfl
    · rw [decodeAvps, decodeWalk]
      split
      · rfl
      · rw [ih]
        exact (bind_assoc _ _ _).symm

/-- **The walk** takes its step on the attributes its loop comes to, in order. -/
theorem zeroWalk_eq_walk (fuel : ℕ) (body : Bytes) :
    zeroWalk fuel body =
      (zeroingWalk fuel body).seen.foldr zeroStep
        ((zeroingWalk fuel body).finish.map fun _ ↦ ([], 0)) := by
  induction fuel generalizing body with
  | zero => rcases body with - | ⟨key, body⟩ <;> rfl
  | succ fuel ih =>
    rcases body with - | ⟨key, - | ⟨length, rest⟩⟩
    · rfl
    · rfl
    · rw [zeroingWalk]
      split
      · next h2 => rw [zeroWalk_cons, if_pos h2]; rfl
      split
      · next h2 hover => rw [zeroWalk_cons, if_neg h2, if_pos hover]; rfl
      · next h2 hover =>
        obtain ⟨a, hcode, hvalue, ha⟩ := Avp.exists_bytes_eq key length h2 hover
        have heq : (⟨key, rest.take (length.toNat - 2), Avp.length_take_le rest length⟩ : Avp) = a := by
          rcases a with ⟨code, value, hle⟩
          cases hcode
          cases hvalue
          rfl
        rw [ha, zeroWalk_bytes_append, heq, ih]
        rfl

/-! ### Whole attributes -/

theorem decodeWalk_bytes_append (fuel : ℕ) (a : Avp) (rest : Bytes) :
    decodeWalk (fuel + 1) (a.bytes ++ rest) = .after a (decodeWalk fuel rest) := by
  rw [Avp.bytes, List.cons_append, List.cons_append, decodeWalk, if_neg a.two_le_length]
  simp only [a.toNat_length, Nat.add_sub_cancel, List.drop_left, List.take_left]

theorem zeroingWalk_bytes_append (fuel : ℕ) (a : Avp) (rest : Bytes) :
    zeroingWalk (fuel + 1) (a.bytes ++ rest) = .after a (zeroingWalk fuel rest) := by
  have hrest : ¬ (a.value ++ rest).length < a.value.length := by
    rw [List.length_append]
    omega
  rw [Avp.bytes, List.cons_append, List.cons_append, zeroingWalk, if_neg a.two_le_length]
  simp only [a.toNat_length, Nat.add_sub_cancel, List.drop_left, List.take_left, if_neg hrest]

/-- Both loops go through the whole attributes at the front of a body alike. -/
theorem walks_join_append (l : List Avp) (fuel : ℕ) (tail : Bytes) :
    decodeWalk (l.length + fuel) (Avp.join l ++ tail) =
      ⟨l ++ (decodeWalk fuel tail).seen, (decodeWalk fuel tail).stop⟩ ∧
    zeroingWalk (l.length + fuel) (Avp.join l ++ tail) =
      ⟨l ++ (zeroingWalk fuel tail).seen, (zeroingWalk fuel tail).stop⟩ := by
  induction l with
  | nil =>
    rw [List.length_nil, Nat.zero_add]
    exact ⟨rfl, rfl⟩
  | cons a l ih =>
    rw [List.length_cons, Nat.add_right_comm, Avp.join_cons, List.append_assoc,
      decodeWalk_bytes_append, zeroingWalk_bytes_append, ih.1, ih.2]
    exact ⟨rfl, rfl⟩

theorem length_le_length_join (l : List Avp) : l.length ≤ (Avp.join l).length := by
  induction l with
  | nil => exact le_rfl
  | cons a l ih =>
    rw [Avp.join_cons, List.length_append, Avp.length_bytes, List.length_cons]
    omega

/-! ### What is left over -/

/-- A rest in which both loops stop: a header cut short, or a length byte below two. -/
inductive Dangling : Bytes → Prop where
  | header (key : UInt8) : Dangling [key]
  | small (key : UInt8) {length : UInt8} (rest : Bytes) (h : length < 2) :
    Dangling (key :: length :: rest)

/-- An attribute that runs past the end. -/
inductive Overrun : Bytes → Prop where
  | intro (key : UInt8) {length : UInt8} {rest : Bytes} (h2 : ¬ length < 2)
    (h : rest.length < length.toNat - 2) : Overrun (key :: length :: rest)

/-- **Every body is a sequence of attributes and a rest**, which is empty, dangling or an overrun. -/
theorem exists_split (body : Bytes) :
    ∃ l tail, body = Avp.join l ++ tail ∧ (tail = [] ∨ Dangling tail ∨ Overrun tail) := by
  induction hn : body.length using Nat.strong_induction_on generalizing body with
  | _ n ih =>
    rcases body with - | ⟨key, - | ⟨length, rest⟩⟩
    · exact ⟨[], [], rfl, .inl rfl⟩
    · exact ⟨[], [key], rfl, .inr (.inl (.header key))⟩
    · by_cases h2 : length < 2
      · exact ⟨[], _, rfl, .inr (.inl (.small key rest h2))⟩
      by_cases hover : rest.length < length.toNat - 2
      · exact ⟨[], _, rfl, .inr (.inr (.intro key h2 hover))⟩
      obtain ⟨a, -, -, ha⟩ := Avp.exists_bytes_eq key length h2 hover
      have hlt : (rest.drop (length.toNat - 2)).length < n := by
        rw [← hn, List.length_drop, List.length_cons, List.length_cons]
        omega
      obtain ⟨l, tail, hrest, htail⟩ := ih _ hlt _ rfl
      exact ⟨a :: l, tail, by rw [ha, hrest, Avp.join_cons, List.append_assoc], htail⟩

/-- The errors the walk raises for the structure of a body. -/
def isStructural : Exn → Bool
  | .packetError msg => msg ∈ ["Attribute header is corrupt", "Attribute length is too small (0)",
      "Attribute length is too small (1)", "Attribute length exceeds packet length"]
  | _ => false

theorem isStructural_small {length : UInt8} (h : length < 2) :
    isStructural (.packetError ("Attribute length is too small (" ++ toString length.toNat ++ ")")) =
      true := by
  have hlt : length.toNat < 2 := UInt8.lt_iff_toNat_lt.1 h
  obtain h0 | h1 : length.toNat = 0 ∨ length.toNat = 1 := by omega
  · rw [h0]
    decide +kernel
  · rw [h1]
    decide +kernel

section

variable {tail : Bytes} {fuel : ℕ}

/-- In a dangling rest both loops stop with the same error. -/
theorem walks_of_dangling (h : Dangling tail) (hfuel : tail.length ≤ fuel) :
    ∃ e, decodeWalk fuel tail = ⟨[], some e⟩ ∧ zeroingWalk fuel tail = ⟨[], some e⟩ ∧
      isStructural e = true := by
  rcases fuel with - | fuel
  · rcases h with key | ⟨key, rest, h⟩
    · cases hfuel
    · cases hfuel
  rcases h with key | ⟨key, rest, h⟩
  · exact ⟨_, rfl, rfl, by decide +kernel⟩
  · refine ⟨_, ?_, ?_, isStructural_small h⟩
    · rw [decodeWalk, if_pos h]
    · rw [zeroingWalk, if_pos h]

/-- At an overrun the decoder takes one more attribute, the walk stops. -/
theorem walks_of_overrun (h : Overrun tail) (hfuel : tail.length ≤ fuel) :
    (∃ a, decodeWalk fuel tail = ⟨[a], none⟩) ∧
      zeroingWalk fuel tail =
        ⟨[], some (.packetError "Attribute length exceeds packet length")⟩ := by
  obtain @⟨key, length, rest, h2, h⟩ := h
  rcases fuel with - | fuel
  · cases hfuel
  · refine ⟨⟨⟨key, _, Avp.length_take_le rest length⟩, ?_⟩, ?_⟩
    · rw [decodeWalk, if_neg h2, List.drop_eq_nil_of_le h.le]
      rcases fuel <;> rfl
    · rw [zeroingWalk, if_neg h2, if_pos h]

end

section

variable {body tail : Bytes} {l : List Avp}

/-- The two loops over a body that was split, with the whole of it as fuel. -/
theorem walks_of_split (h : body = Avp.join l ++ tail) :
    ∃ fuel, tail.length ≤ fuel ∧
      decodeWalk body.length body =
        ⟨l ++ (decodeWalk fuel tail).seen, (decodeWalk fuel tail).stop⟩ ∧
      zeroingWalk body.length body =
        ⟨l ++ (zeroingWalk fuel tail).seen, (zeroingWalk fuel tail).stop⟩ := by
  have hlen : body.length = (Avp.join l).length + tail.length := by rw [h, List.length_append]
  have hle := length_le_length_join l
  obtain ⟨fuel, hfuel⟩ : ∃ fuel, body.length = l.length + fuel := ⟨body.length - l.length, by omega⟩
  refine ⟨fuel, by omega, ?_⟩
  rw [hfuel, h]
  exact walks_join_append l fuel tail

theorem walks_of_join (h : body = Avp.join l) :
    decodeWalk body.length body = ⟨l, none⟩ ∧ zeroingWalk body.length body = ⟨l, none⟩ := by
  obtain ⟨fuel, -, hdecode, hzeroing⟩ := walks_of_split (h.trans (List.append_nil _).symm)
  have hnil : decodeWalk fuel [] = ⟨[], none⟩ ∧ zeroingWalk fuel [] = ⟨[], none⟩ := by
    rcases fuel <;> exact ⟨rfl, rfl⟩
  rw [hdecode, hzeroing, hnil.1, hnil.2, List.append_nil]
  exact ⟨rfl, rfl⟩

theorem walks_of_join_append_dangling (h : body = Avp.join l ++ tail) (htail : Dangling tail) :
    ∃ e, decodeWalk body.length body = ⟨l, some e⟩ ∧ zeroingWalk body.length body = ⟨l, some e⟩ ∧
      isStructural e = true := by
  obtain ⟨fuel, hfuel, hdecode, hzeroing⟩ := walks_of_split h
  obtain ⟨e, hd, hz, he⟩ := walks_of_dangling htail hfuel
  refine ⟨e, ?_, ?_, he⟩
  · rw [hdecode, hd, List.append_nil]
  · rw [hzeroing, hz, List.append_nil]

theorem walks_of_join_append_overrun (h : body = Avp.join l ++ tail) (htail : Overrun tail) :
    (∃ a, decodeWalk body.length body = ⟨l ++ [a], none⟩) ∧
      zeroingWalk body.length body =
        ⟨l, some (.packetError "Attribute length exceeds packet length")⟩ := by
  obtain ⟨fuel, hfuel, hdecode, hzeroing⟩ := walks_of_split h
  obtain ⟨⟨a, hd⟩, hz⟩ := walks_of_overrun htail hfuel
  refine ⟨⟨a, ?_⟩, ?_⟩
  · rw [hdecode, hd]
  · rw [hzeroing, hz, List.append_nil]

end

/-! ### What the walk raises -/

section

variable {body : Bytes} {l : List Avp}

/-- Every Message-Authenticator has sixteen bytes. -/
def MacsFit (l : List Avp) : Prop := ∀ a ∈ l, a.isMac = true → a.value.length = 16

theorem macsFit_cons {a : Avp} :
    MacsFit (a :: l) ↔ ¬ (a.isMac = true ∧ a.value.length ≠ 16) ∧ MacsFit l := by
  rw [MacsFit, List.forall_mem_cons, not_and, not_not]
  rfl

/-- A later error comes up exactly if no Message-Authenticator stops the walk before. -/
theorem foldr_zeroStep_error (e : Exn) :
    (MacsFit l ∧ l.foldr zeroStep (.error e) = .error e) ∨
      ¬ MacsFit l ∧ l.foldr zeroStep (.error e) =
        .error (.packetError "Message-Authenticator must be 16 bytes") := by
  induction l with
  | nil => exact .inl ⟨fun a ha ↦ (List.not_mem_nil ha).elim, rfl⟩
  | cons a l ih =>
    rw [macsFit_cons, List.foldr_cons, zeroStep]
    split
    · next hbad => exact .inr ⟨fun hfit ↦ hfit.1 hbad, rfl⟩
    · next hgood =>
      rcases ih with ⟨hfit, heq⟩ | ⟨hfit, heq⟩
      · rw [heq]
        exact .inl ⟨⟨hgood, hfit⟩, rfl⟩
      · rw [heq]
        exact .inr ⟨fun hfit' ↦ hfit hfit'.2, rfl⟩

/-- Without an error at the end the walk raises none for the structure. -/
theorem not_isStructural_of_foldr_zeroStep {zn : Bytes × ℕ} {e : Exn}
    (h : l.foldr zeroStep (.ok zn) = .error e) : isStructural e = false := by
  induction l with
  | nil => cases h
  | cons a l ih =>
    rw [List.foldr_cons, zeroStep] at h
    split at h
    · cases h
      decide +kernel
    · rcases hrest : l.foldr zeroStep (.ok zn) with e' | zn'
      · rw [hrest] at h
        cases h
        exact ih hrest
      · rw [hrest] at h
        cases h

theorem zeroMessageAuthenticator_of_error {e : Exn} (h : zeroWalk body.length body = .error e) :
    zeroMessageAuthenticator body = .error e := by
  rw [zeroMessageAuthenticator, h]
  rfl

/-- The walk over whole attributes raises no error for their structure. -/
theorem not_isStructural_of_join (h : body = Avp.join l) {e : Exn}
    (he : zeroMessageAuthenticator body = .error e) : isStructural e = false := by
  have hwalk := zeroWalk_eq_walk body.length body
  rw [(walks_of_join h).2] at hwalk
  rcases hfold : l.foldr zeroStep (.ok ([], 0)) with e' | ⟨zeroed, found⟩
  · rw [zeroMessageAuthenticator_of_error (hwalk.trans hfold)] at he
    cases he
    exact not_isStructural_of_foldr_zeroStep hfold
  · rw [zeroMessageAuthenticator_of_zeroWalk (hwalk.trans hfold)] at he
    split at he
    · cases he
      decide +kernel
    split at he
    · cases he
      decide +kernel
    · cases he

/-- Before a dangling rest the walk raises an error for the structure exactly if every
Message-Authenticator has sixteen bytes. -/
theorem exists_isStructural_iff_macsFit {tail : Bytes} (h : body = Avp.join l ++ tail)
    (htail : Dangling tail) :
    (∃ e, zeroMessageAuthenticator body = .error e ∧ isStructural e = true) ↔ MacsFit l := by
  obtain ⟨e, -, hzeroing, he⟩ := walks_of_join_append_dangling h htail
  have hwalk := zeroWalk_eq_walk body.length body
  rw [hzeroing] at hwalk
  rcases foldr_zeroStep_error (l := l) e with ⟨hfit, hfold⟩ | ⟨hfit, hfold⟩
  · exact ⟨fun _ ↦ hfit, fun _ ↦
      ⟨e, zeroMessageAuthenticator_of_error (hwalk.trans hfold), he⟩⟩
  · refine ⟨?_, fun hfit' ↦ absurd hfit' hfit⟩
    rintro ⟨e', he', hstructural⟩
    rw [zeroMessageAuthenticator_of_error (hwalk.trans hfold)] at he'
    cases he'
    exact absurd hstructural (by decide +kernel)

end

/-! ### What the decoder accepts -/

/-- A body decodes exactly if the loop comes to its end: the attributes themselves raise nothing. -/
theorem exists_run_decodeAvps_iff {D : Option Dictionary} (version : RadiusVersion)
    (flag : Option Bool) (fuel : ℕ) (body : Bytes) :
    (∃ st, (decodeAvps D version fuel body).run { messageAuthenticator := flag } = .ok () st) ↔
      (decodeWalk fuel body).stop = none := by
  have hshape : Ensures
      ((decodeWalk fuel body).seen.forM fun a ↦ decodeAvp D version a.code a.value)
      { messageAuthenticator := flag }
      (fun _ st' ↦ ∃ macs flag, Shaped D (macEntry macs) flag st') fun _ _ ↦ False := by
    refine ensures_forM ⟨[], flag, shaped_initial D flag⟩ fun a _ st hst ↦ ?_
    obtain ⟨macs, flag', hst⟩ := hst
    exact ensures_decodeAvp_any hst version a.code a.value
  rw [decodeAvps_eq_walk]
  rw [Ensures] at hshape
  rcases hrun : ((decodeWalk fuel body).seen.forM fun a ↦ decodeAvp D version a.code a.value).run
      { messageAuthenticator := flag } with ⟨u, st⟩ | ⟨e, st⟩
  · rw [run_bind_of_ok hrun, Walk.finish]
    rcases (decodeWalk fuel body).stop with - | e
    · exact ⟨fun _ ↦ rfl, fun _ ↦ ⟨st, rfl⟩⟩
    · refine ⟨?_, fun h ↦ by cases h⟩
      rintro ⟨st', h⟩
      cases h
  · rw [hrun] at hshape
    exact hshape.elim

/-- `decode_packet` accepts a framed packet exactly if the loop over the body comes to its end. -/
theorem exists_run_decodePacket_iff {raw : Bytes} (hraw : Framed raw) (s : PacketState) :
    (∃ s', (decodePacket raw).run s = .ok () s') ↔
      (decodeWalk (raw.drop 20).length (raw.drop 20)).stop = none := by
  have hdecode : (decodePacket raw).run s =
      (decodeBody (raw.drop 20)).run { s with pkt := s.pkt.withHeader raw } := by
    have hheader : ¬ raw.length < 20 := Nat.not_lt.2 hraw.header
    have hlength : raw.length = Bytes.toNatBE ((raw.drop 2).take 2) := hraw.length_eq
    have hle := hraw.length_le
    rw [decodePacket, if_neg hheader]
    dsimp only
    rw [if_neg (not_not.2 hlength), if_neg (by omega)]
    rfl
  rw [hdecode, ← exists_run_decodeAvps_iff (D := (s.pkt.withHeader raw).dict)
    (s.pkt.withHeader raw).radiusVersion (s.pkt.withHeader raw).messageAuthenticator]
  constructor
  · rintro ⟨s', hs'⟩
    rcases hrun : (decodeAvps (s.pkt.withHeader raw).dict (s.pkt.withHeader raw).radiusVersion
        (raw.drop 20).length (raw.drop 20)).run
        { messageAuthenticator := (s.pkt.withHeader raw).messageAuthenticator } with
      ⟨u, st⟩ | ⟨e, st⟩
    · exact ⟨st, rfl⟩
    · rw [run_decodeBody_of_error hrun] at hs'
      cases hs'
  · rintro ⟨st, hst⟩
    exact ⟨_, run_decodeBody_of_ok hst⟩

/-! ### The same grammar -/

/-- The bytes are whole attributes. -/
def Tiled (body : Bytes) : Prop := ∃ l, body = Avp.join l

/-- **Both walkers accept the same grammar** on these bytes: the packet decodes exactly if its body
is tiled by attributes, that is exactly when the walk raises no error for the structure, and if it
decodes both come to the same attributes. -/
structure SameGrammar (s : PacketState) (raw : Bytes) : Prop where
  accepts_iff_tiled : (∃ s', (decodePacket raw).run s = .ok () s') ↔ Tiled (raw.drop 20)
  tiled_iff_walk : Tiled (raw.drop 20) ↔
    ¬ ∃ e, zeroMessageAuthenticator (raw.drop 20) = .error e ∧ isStructural e = true
  seen_eq : (∃ s', (decodePacket raw).run s = .ok () s') →
    (decodeWalk (raw.drop 20).length (raw.drop 20)).seen =
      (zeroingWalk (raw.drop 20).length (raw.drop 20)).seen

/-- No attribute runs past the end, and before a rest that is no attribute every
Message-Authenticator has sixteen bytes. -/
def NoOverrun (body : Bytes) : Prop :=
  Tiled body ∨ ∃ l tail, body = Avp.join l ++ tail ∧ Dangling tail ∧ MacsFit l

section

variable {raw : Bytes} {l : List Avp} {tail : Bytes} {s : PacketState}

theorem sameGrammar_of_tiled (hraw : Framed raw) (h : Tiled (raw.drop 20)) :
    SameGrammar s raw := by
  obtain ⟨l, hl⟩ := h
  obtain ⟨hdecode, hzeroing⟩ := walks_of_join hl
  have haccepts : ∃ s', (decodePacket raw).run s = .ok () s' := by
    rw [exists_run_decodePacket_iff hraw, hdecode]
  refine ⟨⟨fun _ ↦ ⟨l, hl⟩, fun _ ↦ haccepts⟩, ⟨fun _ ↦ ?_, fun _ ↦ ⟨l, hl⟩⟩, fun _ ↦ ?_⟩
  · rintro ⟨e, he, hstructural⟩
    rw [not_isStructural_of_join hl he] at hstructural
    cases hstructural
  · rw [hdecode, hzeroing]

/-- A rest in which the loops stop is not the end of a tiled body. -/
theorem not_tiled_of_dangling (h : raw.drop 20 = Avp.join l ++ tail) (htail : Dangling tail) :
    ¬ Tiled (raw.drop 20) := by
  rintro ⟨l', hl'⟩
  obtain ⟨e, hdecode, -, -⟩ := walks_of_join_append_dangling h htail
  rw [(walks_of_join hl').1] at hdecode
  cases hdecode

theorem sameGrammar_iff_of_dangling (hraw : Framed raw) (h : raw.drop 20 = Avp.join l ++ tail)
    (htail : Dangling tail) : SameGrammar s raw ↔ MacsFit l := by
  have htiled := not_tiled_of_dangling h htail
  have hrejects : ¬ ∃ s', (decodePacket raw).run s = .ok () s' := by
    obtain ⟨e, hdecode, -, -⟩ := walks_of_join_append_dangling h htail
    rw [exists_run_decodePacket_iff hraw, hdecode]
    simp
  rw [← exists_isStructural_iff_macsFit h htail]
  constructor
  · intro hsame
    by_contra hnone
    exact htiled (hsame.tiled_iff_walk.2 hnone)
  · intro hsome
    exact ⟨iff_of_false hrejects htiled, iff_of_false htiled (not_not.2 hsome),
      fun haccepts ↦ absurd haccepts hrejects⟩

/-- An attribute that runs past the end is taken by the decoder and refused by the walk. -/
theorem not_sameGrammar_of_overrun (hraw : Framed raw) (h : raw.drop 20 = Avp.join l ++ tail)
    (htail : Overrun tail) : ¬ SameGrammar s raw ∧ ¬ NoOverrun (raw.drop 20) := by
  obtain ⟨⟨a, hdecode⟩, hzeroing⟩ := walks_of_join_append_overrun h htail
  have htiled : ¬ Tiled (raw.drop 20) := by
    rintro ⟨l', hl'⟩
    rw [(walks_of_join hl').2] at hzeroing
    cases hzeroing
  have haccepts : ∃ s', (decodePacket raw).run s = .ok () s' := by
    rw [exists_run_decodePacket_iff hraw, hdecode]
  refine ⟨fun hsame ↦ htiled (hsame.accepts_iff_tiled.1 haccepts), ?_⟩
  rintro (h' | ⟨l', tail', hl', htail', -⟩)
  · exact htiled h'
  · obtain ⟨e, hdecode', -, -⟩ := walks_of_join_append_dangling hl' htail'
    rw [hdecode] at hdecode'
    cases hdecode'

/-- **When the walkers agree**: exactly if no attribute runs past the end and no
Message-Authenticator stops the walk short of a malformed rest. -/
theorem sameGrammar_iff (hraw : Framed raw) : SameGrammar s raw ↔ NoOverrun (raw.drop 20) := by
  obtain ⟨l, tail, hsplit, rfl | htail | htail⟩ := exists_split (raw.drop 20)
  · have htiled : Tiled (raw.drop 20) := ⟨l, by rw [hsplit, List.append_nil]⟩
    exact iff_of_true (sameGrammar_of_tiled hraw htiled) (.inl htiled)
  · rw [sameGrammar_iff_of_dangling hraw hsplit htail]
    constructor
    · intro hfit
      exact .inr ⟨l, tail, hsplit, htail, hfit⟩
    · rintro (htiled | ⟨l', tail', hl', htail', hfit⟩)
      · exact absurd htiled (not_tiled_of_dangling hsplit htail)
      · rw [← exists_isStructural_iff_macsFit hl' htail'] at hfit
        rwa [← exists_isStructural_iff_macsFit hsplit htail]
  · obtain ⟨hsame, hover⟩ := not_sameGrammar_of_overrun (s := s) hraw hsplit htail
    exact iff_of_false hsame hover

end

/-- An Access-Request whose one attribute, a User-Name, announces ten bytes and has three. -/
def overrunRaw : Bytes := [1, 1, 0, 23] ++ List.replicate 16 1 ++ [1, 10, 65]

/-- A packet object to decode it. -/
def overrunState : PacketState := ⟨{ cls := .auth }, { rng := ⟨fun _ ↦ 0⟩ }⟩

theorem framed_overrunRaw : Framed overrunRaw := ⟨by decide, by decide, by decide⟩

theorem not_sameGrammar_overrunRaw : ¬ SameGrammar overrunState overrunRaw := by
  have hrest : Overrun [1, 10, 65] := .intro 1 (by decide) (by decide)
  exact (not_sameGrammar_of_overrun framed_overrunRaw (l := []) rfl hrest).1

theorem sameGrammar_iff_overrunRaw :
    Framed overrunRaw ∧ (SameGrammar overrunState overrunRaw ↔ NoOverrun (overrunRaw.drop 20)) :=
  ⟨framed_overrunRaw, sameGrammar_iff framed_overrunRaw⟩

end Packet

end Pyrad2
