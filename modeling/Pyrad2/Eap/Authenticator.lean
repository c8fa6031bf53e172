import Pyrad2.Eap.MutualAuth
import Pyrad2.Packet.Octets

/-!
# The other side of EAP-MSCHAPv2

An authenticator sends a challenge, reads the response to it, and shows in its success message that
it knows the password as well. Here its packets are those of the protocol, so that the two sides meet
in nothing but bytes.

Each side computes with its own password and compares. So the authenticator lets the object in where
the NT-Responses of the two passwords agree, and the object acknowledges the authenticator where the
authenticator responses do.
-/

namespace Pyrad2

open EStateM

/-- What an authenticator knows of a user, and the challenge that it has sent. -/
structure Authenticator where
  password : String
  challenge : Bytes
  length_challenge : challenge.length = 16

namespace Authenticator

open MschapV2Method (eapTypeMschapv2 opChallenge opResponse opSuccess)

/-- `code | id | length | type | OpCode | MS-CHAPv2-Id | MS-Length | body` -/
def mschapPacket (code eapId opCode mschapId : UInt8) (body : Bytes) : Bytes :=
  [code, eapId] ++ Bytes.ofNatBE 2 (9 + body.length) ++ [eapTypeMschapv2, opCode, mschapId] ++
    Bytes.ofNatBE 2 (4 + body.length) ++ body

/-- The challenge, with the name of the authenticator behind it. -/
def challengePacket (A : Authenticator) (eapId mschapId : UInt8) (name : Bytes) : Bytes :=
  mschapPacket 1 eapId opChallenge mschapId ([16] ++ A.challenge ++ name)

/-- What a response says. -/
structure Response where
  eapId : UInt8
  mschapId : UInt8
  peerChallenge : Bytes
  ntResponse : Bytes
  userName : Bytes

/-- A response as it is read: lengths, sizes, the reserved bytes and the flags are checked. -/
def readResponse (b : Bytes) : Option Response :=
  let value := b.drop 10
  if b.take 1 = [2] ∧ (b.drop 2).take 2 = Bytes.ofNatBE 2 b.length ∧
      (b.drop 4).take 2 = [eapTypeMschapv2, opResponse] ∧
      (b.drop 7).take 2 = Bytes.ofNatBE 2 (b.length - 5) ∧ (b.drop 9).take 1 = [49] ∧
      (value.drop 16).take 8 = List.replicate 8 0 ∧ (value.drop 48).take 1 = [0] then
    some {
      eapId := b.getD 1 0
      mschapId := b.getD 6 0
      peerChallenge := value.take 16
      ntResponse := (value.drop 24).take 24
      userName := value.drop 49 }
  else none

variable (X : Mschap)

/-- The NT-Response is the one that the password gives. -/
def Admits (A : Authenticator) (r : Response) : Prop :=
  X.generateNtResponse A.challenge r.peerChallenge r.userName A.password = .ok r.ntResponse

/-- What the authenticator shows of itself. -/
def authenticatorResponse (A : Authenticator) (r : Response) : Except Exn Bytes :=
  X.generateAuthenticatorResponse A.password r.ntResponse r.peerChallenge A.challenge r.userName

/-- The success message: the authenticator response, and text for the user. -/
def successPacket (eapId mschapId : UInt8) (response text : Bytes) : Bytes :=
  mschapPacket 1 eapId opSuccess mschapId (response ++ text)

variable {X}

/-! ### Packets in parts -/

theorem take_drop_append {before part rest : Bytes} {i n : ℕ} (hi : before.length = i)
    (hn : part.length = n) : ((before ++ (part ++ rest)).drop i).take n = part := by
  rw [← hi, ← hn, List.drop_left, List.take_left]

/-- A response is read as what it was made of. -/
theorem readResponse_eq {eapId mschapId : UInt8} {peerChallenge ntResponse userName b : Bytes}
    (hpeer : peerChallenge.length = 16) (hnt : ntResponse.length = 24)
    (hb : b = [2, eapId] ++ Bytes.ofNatBE 2 (59 + userName.length) ++
      [eapTypeMschapv2, opResponse] ++ [mschapId] ++ Bytes.ofNatBE 2 (54 + userName.length) ++ [49] ++
      (peerChallenge ++ List.replicate 8 0 ++ ntResponse ++ [0]) ++ userName) :
    readResponse b = some { eapId, mschapId, peerChallenge, ntResponse, userName } := by
  have hlength : b.length = 59 + userName.length := by
    simp only [hb, Bytes.length_ofNatBE, List.length_append, List.length_cons, List.length_nil,
      List.length_replicate, hpeer, hnt]
  have hbytes (n : ℕ) : ∃ x y, Bytes.ofNatBE 2 n = [x, y] := ⟨_, _, rfl⟩
  obtain ⟨x, y, hl⟩ := hbytes (59 + userName.length)
  obtain ⟨z, w, hk⟩ := hbytes (54 + userName.length)
  generalize hvalue : peerChallenge ++ (List.replicate 8 0 ++ (ntResponse ++ ([0] ++ userName))) =
    value
  obtain rfl : b = 2 :: eapId :: x :: y :: eapTypeMschapv2 :: opResponse :: mschapId :: z :: w ::
      49 :: value := by
    rw [hb, hl, hk, ← hvalue]
    simp only [List.append_assoc]
    rfl
  have hchecks : (value.drop 16).take 8 = List.replicate 8 0 ∧ (value.drop 48).take 1 = [0] := by
    constructor
    · rw [← hvalue]
      exact take_drop_append hpeer rfl
    · rw [← hvalue, ← List.append_assoc, ← List.append_assoc]
      exact take_drop_append (by simp [hpeer, hnt]) rfl
  have hresponse : (value.drop 24).take 24 = ntResponse := by
    rw [← hvalue, ← List.append_assoc]
    exact take_drop_append (by simp [hpeer]) hnt
  have hname : value.drop 49 = userName := by
    rw [← hvalue, ← List.append_assoc, ← List.append_assoc, ← List.append_assoc]
    exact List.drop_left' (by simp [hpeer, hnt])
  have hchallenge : value.take 16 = peerChallenge := by
    rw [← hvalue, ← hpeer, List.take_left]
  have hk' : [z, w] = Bytes.ofNatBE 2 (59 + userName.length - 5) := by
    rw [← hk]
    congr 1
    omega
  rw [readResponse, hlength]
  refine (if_pos ⟨rfl, hl.symm, rfl, hk', rfl, hchecks⟩).trans ?_
  show some (Response.mk eapId mschapId (value.take 16) ((value.drop 24).take 24) (value.drop 49)) = _
  rw [hchallenge, hresponse, hname]

theorem mschapPacket_eq (code eapId opCode mschapId : UInt8) (body : Bytes) :
    ∃ x y, mschapPacket code eapId opCode mschapId body =
      code :: eapId :: x :: y :: eapTypeMschapv2 :: opCode :: mschapId ::
        UInt8.ofNat ((4 + body.length) / 256) :: UInt8.ofNat (4 + body.length) :: body :=
  ⟨_, _, rfl⟩

end Authenticator

namespace MschapV2Method

open Eap Authenticator

/-- The packet is in the EAP-Message. The object reads the first value of it, and a packet that does
not fit goes on in the next. -/
def Conveys (challenge : Packet) (payload : Bytes) : Prop :=
  ∃ n, 253 ≤ n ∧ FirstBytes challenge eapMessageAttr (payload.take n)

variable {X : Mschap} {m : MschapV2Method} {c : Call} {eapId mschapId : UInt8}

/-! ### The response to a challenge -/

theorem run_build_eq {code x y opCode : UInt8} {message : Bytes} {challenge : Packet}
    {s : EapState MschapV2Method} (h : FirstBytes challenge eapMessageAttr
      (code :: eapId :: x :: y :: eapTypeMschapv2 :: opCode :: message)) :
    (build X challenge).run s = (buildResponseTo X
      (code :: eapId :: x :: y :: eapTypeMschapv2 :: opCode :: message) eapId opCode).run s := by
  obtain ⟨stored, hstored, hfirst⟩ := exists_firstOf_rawItem.2 h
  have hparts : unpackEapMschapv2
      (.bytes (code :: eapId :: x :: y :: eapTypeMschapv2 :: opCode :: message)) =
        .ok (_, eapId, opCode) := unpackEapMschapv2_eq_ok_iff.2 ⟨rfl, rfl, rfl, rfl⟩
  rw [build, hstored, run_bind_of_ok (run_liftM_ok ..), hfirst, run_bind_of_ok (run_liftM_ok ..),
    hparts, run_bind_of_ok (run_liftM_ok ..)]

/-- A challenge of the authenticator is one that is taken up. -/
theorem run_build_of_conveys_challenge {A : Authenticator} {name : Bytes}
    (h : Conveys c.challenge (A.challengePacket eapId mschapId name)) :
    OffersChallenge c.challenge A.challenge ∧ (build X c.challenge).run (m, c.before) =
      (answerChallenge X eapId mschapId A.challenge).run (m, c.before) := by
  obtain ⟨n, hn, hfirst⟩ := h
  obtain ⟨k, rfl⟩ := Nat.exists_eq_add_of_le' (show 26 ≤ n by omega)
  obtain ⟨x, y, hpacket⟩ := mschapPacket_eq 1 eapId opChallenge mschapId ([16] ++ A.challenge ++ name)
  have htake : (A.challenge ++ name).take (k + 16) = A.challenge ++ name.take k := by
    rw [List.take_append, List.take_of_length_le (by simp [A.length_challenge]), A.length_challenge,
      Nat.add_sub_cancel]
  rw [challengePacket, hpacket] at hfirst
  simp only [List.cons_append, List.nil_append, List.take_succ_cons, htake] at hfirst
  have hsixteen : (A.challenge ++ name.take k).take 16 = A.challenge := by
    rw [← A.length_challenge, List.take_left]
  have hlong : 16 ≤ (A.challenge ++ name.take k).length := by simp [A.length_challenge]
  refine ⟨⟨_, hfirst, rfl, rfl, by simp [A.length_challenge], rfl, hsixteen.symm⟩, ?_⟩
  rw [run_build_eq hfirst, buildResponseTo, if_pos rfl, buildResponse, if_neg]
  · show (answerChallenge X eapId mschapId ((A.challenge ++ name.take k).take 16)).run _ = _
    rw [hsixteen]
  · simp only [List.length_cons]
    omega

theorem length_of_generateNtResponse (hdes : ∀ key b, (X.desEncrypt key b).length = 8)
    {authenticatorChallenge peerChallenge userName ntResponse : Bytes} {password : String}
    (h : X.generateNtResponse authenticatorChallenge peerChallenge userName password =
      .ok ntResponse) : ntResponse.length = 24 := by
  obtain ⟨challenge, -, h⟩ := Except.bind_eq_ok_iff.1 h
  rw [Mschap.challengeResponse] at h
  split at h
  · cases h
  split at h
  · cases h
  cases h
  simp only [List.length_append, hdes]

/-- What is built for a challenge is read as the answer to it. -/
theorem readResponse_of_run (hdes : ∀ key b, (X.desEncrypt key b).length = 8)
    {challenge response : Bytes} {s s' : EapState MschapV2Method}
    (hrun : (answerChallenge X eapId mschapId challenge).run s = .ok response s') :
    ∃ ntResponse, X.generateNtResponse challenge (s.2.world.bytes 16).1 s.1.userName s.1.password =
        .ok ntResponse ∧
      readResponse response = some
        { eapId, mschapId, peerChallenge := (s.2.world.bytes 16).1, ntResponse
          userName := s.1.userName } := by
  simp only [answerChallenge, run_bind_eq_ok_iff, run_liftM_eq_ok_iff] at hrun
  obtain ⟨_, _, hfirst, _, _, htoken, _, _, hsecond, _, _, hget, nt, _, ⟨hnt, rfl⟩, _, _, hthird, header,
    _, ⟨hheader, rfl⟩, length, _, ⟨hlength, rfl⟩, hpure⟩ := hrun
  cases hfirst
  cases htoken
  cases hsecond
  cases hget
  cases hthird
  cases hpure
  obtain ⟨field, hfield, hheader⟩ := Except.bind_eq_ok_iff.1 hheader
  cases hheader
  obtain rfl := Packet.ofNatBE_of_packUnsigned hfield
  obtain rfl := Packet.ofNatBE_of_packUnsigned hlength
  have hms : 1 + 1 + 2 + 1 + 49 + s.1.userName.length = 54 + s.1.userName.length := rfl
  have heap : 5 + (54 + s.1.userName.length) = 59 + s.1.userName.length := by omega
  refine ⟨nt, hnt, readResponse_eq (s.2.world.length_bytes 16)
    (length_of_generateNtResponse hdes hnt) ?_⟩
  rw [Int.toNat_natCast, Int.toNat_natCast, hms, heap]

/-! ### The success message -/

/-- The two lengths in front of the message are not taken for the marker. -/
theorem fromMarker_of_header {a b k : UInt8} {rest : Bytes} (hb : b.toNat < 0x3D) :
    Mschap.fromMarker (a :: b :: k :: (Mschap.responseMarker ++ rest)) =
      some (Mschap.responseMarker ++ rest) := by
  have hequals : b ≠ 0x3D := fun h ↦ absurd hb (by simp [h])
  have hletter : b ≠ 0x53 := fun h ↦ absurd hb (by simp [h])
  rw [Mschap.fromMarker, if_neg, Mschap.fromMarker, if_neg, Mschap.fromMarker, if_neg]
  · rw [Mschap.responseMarker, List.cons_append, Mschap.fromMarker, if_pos]
    exact ⟨rest, rfl⟩
  all_goals simp [Mschap.responseMarker, List.cons_prefix_cons, hequals.symm, hletter.symm]

/-- A success message is acknowledged if what follows the marker is what was expected. -/
theorem produces_iff_of_conveys_success {response text : Bytes} (hlength : response.length = 42)
    (hmarker : Mschap.responseMarker <+: response) (htext : text.length ≤ 8192)
    (h : Conveys c.challenge (successPacket eapId mschapId response text)) :
    Produces X m c [2, eapId, 0, 6, 26, 3] ↔ X.generateAuthenticatorResponse m.password m.ntResponse
      m.peerChallenge m.authenticatorChallenge m.userName = .ok response := by
  obtain ⟨n, hn, hfirst⟩ := h
  obtain ⟨k, rfl⟩ := Nat.exists_eq_add_of_le' (show 51 ≤ n by omega)
  obtain ⟨x, y, hpacket⟩ := mschapPacket_eq 1 eapId opSuccess mschapId (response ++ text)
  have htake : (response ++ text).take (k + 42) = response ++ text.take k := by
    rw [List.take_append, List.take_of_length_le (by omega), hlength, Nat.add_sub_cancel]
  rw [successPacket, hpacket] at hfirst
  simp only [List.take_succ_cons, htake] at hfirst
  have hsmall : (UInt8.ofNat ((4 + (response ++ text).length) / 256)).toNat < 0x3D := by
    simp [hlength]
    omega
  generalize UInt8.ofNat ((4 + (response ++ text).length) / 256) = z at hfirst hsmall
  generalize UInt8.ofNat (4 + (response ++ text).length) = w at hfirst
  have hfound : Mschap.fromMarker (mschapId :: z :: w :: (response ++ text.take k)) =
      some (response ++ text.take k) := by
    obtain ⟨rest, rfl⟩ := hmarker
    rw [List.append_assoc]
    exact fromMarker_of_header hsmall
  have hverify : X.verifyAuthenticatorResponse m.password m.ntResponse m.peerChallenge
      m.authenticatorChallenge m.userName (mschapId :: z :: w :: (response ++ text.take k)) =
      (X.generateAuthenticatorResponse m.password m.ntResponse m.peerChallenge
        m.authenticatorChallenge m.userName).map fun expected ↦ decide (response = expected) := by
    have hresponse : (response ++ text.take k).take 42 = response := List.take_left' hlength
    rw [Mschap.verifyAuthenticatorResponse, hfound]
    simp only [hresponse]
    rfl
  have hbuild : (build X c.challenge).run (m, c.before) =
      (do
        let valid ← X.verifyAuthenticatorResponse m.password m.ntResponse m.peerChallenge
          m.authenticatorChallenge m.userName (mschapId :: z :: w :: (response ++ text.take k))
        if valid then packMschapv2Header eapId 6 opSuccess
        else throw (.valueError "EAP-MSCHAPv2 server Authenticator Response failed verification")
          : Hook Bytes).run (m, c.before) := by
    rw [run_build_eq hfirst, buildResponseTo, if_neg (by decide), if_pos rfl, buildSuccessResponse,
      run_bind_of_ok (run_get _)]
    refine congrArg (fun r : Hook Bytes ↦ r.run (m, c.before)) (if_pos ?_)
    show (Mschap.fromMarker (mschapId :: z :: w :: (response ++ text.take k))).isSome = true
    rw [hfound, Option.isSome_some]
  rw [Produces, hbuild, hverify]
  rcases X.generateAuthenticatorResponse m.password m.ntResponse m.peerChallenge
    m.authenticatorChallenge m.userName with e | expected
  · refine iff_of_false ?_ (by simp)
    rintro ⟨s, hrun⟩
    cases hrun
  · rw [Except.ok.injEq, eq_comm]
    by_cases hsame : response = expected
    · have hvalid : Except.map (fun expected ↦ decide (response = expected))
          (.ok expected : Except Exn Bytes) = .ok true := congrArg Except.ok (decide_eq_true hsame)
      rw [hvalid]
      exact iff_of_true ⟨(m, c.before), rfl⟩ hsame
    · have hvalid : Except.map (fun expected ↦ decide (response = expected))
          (.ok expected : Except Exn Bytes) = .ok false := congrArg Except.ok (decide_eq_false hsame)
      rw [hvalid]
      refine iff_of_false ?_ hsame
      rintro ⟨s, hrun⟩
      cases hrun

/-! ### Both sides -/

theorem length_of_generateAuthenticatorResponse (hX : X.DigestLengths) {password : String}
    {ntResponse peerChallenge authenticatorChallenge userName response : Bytes}
    (h : X.generateAuthenticatorResponse password ntResponse peerChallenge authenticatorChallenge
      userName = .ok response) : response.length = 42 ∧ Mschap.responseMarker <+: response := by
  have hhex (b : Bytes) : (b.flatMap Mschap.hexUpper).length = 2 * b.length := by
    induction b with
    | nil => rfl
    | cons x b ih =>
      rw [List.flatMap_cons, List.length_append, ih, List.length_cons]
      show 2 + _ = _
      omega
  rw [Mschap.generateAuthenticatorResponse] at h
  split at h
  · cases h
  obtain ⟨hashHash, -, h⟩ := Except.bind_eq_ok_iff.1 h
  obtain ⟨challenge, -, h⟩ := Except.bind_eq_ok_iff.1 h
  cases h
  refine ⟨?_, List.prefix_append ..⟩
  rw [List.length_append, hhex, hX.sha1]
  rfl

/-- An authenticator and an object meet in the response `r`. -/
structure Meets (X : Mschap) (A : Authenticator) (m₀ m : MschapV2Method) (c : Call)
    (eapId mschapId : UInt8) (r : Response) : Prop where
  identifiers : r.eapId = eapId ∧ r.mschapId = mschapId
  userName : r.userName = m₀.userName
  answers : Answers X m c ⟨A.challenge, r.peerChallenge, r.ntResponse⟩
  /-- The authenticator lets the object in. -/
  admits : A.Admits X r ↔
    X.generateNtResponse A.challenge r.peerChallenge r.userName A.password =
      X.generateNtResponse A.challenge r.peerChallenge r.userName m₀.password
  /-- The object acknowledges the authenticator, whatever it has seen in between that was no
  challenge to be answered. -/
  acknowledges : ∀ {m' : MschapV2Method} {c' : Call} {eapId' : UInt8} {response text : Bytes},
    Session X m₀ m' (some ⟨A.challenge, r.peerChallenge, r.ntResponse⟩) →
    A.authenticatorResponse X r = .ok response → text.length ≤ 8192 →
    Conveys c'.challenge (successPacket eapId' mschapId response text) →
    (Produces X m' c' [2, eapId', 0, 6, 26, 3] ↔ A.authenticatorResponse X r =
      X.generateAuthenticatorResponse m₀.password r.ntResponse r.peerChallenge A.challenge r.userName)

/-- **Mutual authentication.** The response to an authenticator's challenge is read as what it was made
of. The authenticator lets the object in exactly if their passwords have the same NT-Response, and the
object acknowledges the authenticator exactly if they have the same authenticator response. -/
theorem meets_authenticator (hX : X.DigestLengths)
    (hdes : ∀ key b, (X.desEncrypt key b).length = 8) {E : Env} {s₀ s₁ : PacketState}
    {m₀ : MschapV2Method} (hstart : (start E).run ({}, s₀) = .ok () (m₀, s₁)) {last : Option Answer}
    (h : Session X m₀ m last) {A : Authenticator} {name response : Bytes}
    (hchallenge : Conveys c.challenge (A.challengePacket eapId mschapId name))
    (hresponse : Produces X m c response) :
    ∃ r, readResponse response = some r ∧ Meets X A m₀ m c eapId mschapId r := by
  have hsha1 (b : Bytes) : 8 ≤ (X.sha1 b).length := by
    rw [hX.sha1]
    decide
  have hempty := ntResponse_of_start hstart
  have hremembers := h.remembers hsha1 hempty
  obtain ⟨hoffers, hbuild⟩ := run_build_of_conveys_challenge (X := X) (m := m) hchallenge
  obtain ⟨s, hrun⟩ := hresponse
  rw [hbuild] at hrun
  obtain ⟨ntResponse, hcomputes, hread⟩ := readResponse_of_run hdes hrun
  refine ⟨_, hread, ⟨rfl, rfl⟩, hremembers.userName, ⟨hoffers, rfl, hcomputes⟩, ?_, ?_⟩
  · rw [Admits, ← hcomputes, hremembers.password]
  · intro m' c' eapId' response text hlater hproof htext hsuccess
    obtain ⟨hlength, hmarker⟩ := length_of_generateAuthenticatorResponse hX hproof
    have hlater := hlater.remembers hsha1 hempty
    obtain ⟨hauth, hpeer, hnt, -⟩ := hlater.answer _ rfl
    rw [produces_iff_of_conveys_success hlength hmarker htext hsuccess, hproof, hauth, hpeer, hnt,
      hlater.password, hlater.userName, hremembers.userName]
    exact eq_comm

/-- Where the passwords have one hash, the exchange ends well for both. -/
theorem Meets.completes {A : Authenticator} {m₀ : MschapV2Method} {r : Response}
    (h : Meets X A m₀ m c eapId mschapId r)
    (hhash : X.ntPasswordHash A.password = X.ntPasswordHash m₀.password) :
    A.Admits X r ∧ ∀ {m' : MschapV2Method} {c' : Call} {eapId' : UInt8} {response text : Bytes},
      Session X m₀ m' (some ⟨A.challenge, r.peerChallenge, r.ntResponse⟩) →
      A.authenticatorResponse X r = .ok response → text.length ≤ 8192 →
      Conveys c'.challenge (successPacket eapId' mschapId response text) →
      Produces X m' c' [2, eapId', 0, 6, 26, 3] := by
  refine ⟨h.admits.2 (Mschap.generateNtResponse_congr hhash ..), fun hlater hproof htext hsuccess ↦
    (h.acknowledges hlater hproof htext hsuccess).2 ?_⟩
  rw [authenticatorResponse, Mschap.generateAuthenticatorResponse,
    Mschap.generateAuthenticatorResponse, hhash]

/-- The authenticator that has sent `zeroChallenge`, with a name of no bytes. -/
def zeroAuthenticator : Authenticator := ⟨"p", List.replicate 16 0, rfl⟩

theorem meets_authenticator_zeroChallenge : ∃ response r, readResponse response = some r ∧
    Meets Mschap.zero zeroAuthenticator userMethod userMethod (callWith zeroChallenge) 9 5 r := by
  obtain ⟨s, hstart⟩ := exists_run_start_userRequest
  have hproduces : ∃ response,
      Produces Mschap.zero userMethod (callWith zeroChallenge) response :=
    (exists_run_build_iff Mschap.digestLengths_zero _).2
      ⟨zeroChallenge, ⟨[], rfl⟩, rfl, .inl ⟨rfl, by decide, rfl, by decide⟩⟩
  obtain ⟨response, hresponse⟩ := hproduces
  have hconveys : Conveys (callWith zeroChallenge).challenge
      (zeroAuthenticator.challengePacket 9 5 []) := ⟨253, le_rfl, [], rfl⟩
  exact ⟨response, meets_authenticator Mschap.digestLengths_zero (fun _ _ ↦ rfl) hstart .start
    hconveys hresponse⟩

end MschapV2Method

end Pyrad2
