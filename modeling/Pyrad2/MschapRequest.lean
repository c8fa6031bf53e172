import Pyrad2.Chap
import Pyrad2.Mschap
import Pyrad2.Packet.Arrival

/-!
# MS-CHAPv2 in attributes of Microsoft

A request takes the challenge and the response to it in two attributes of octets, in the place of the
password. They are assigned by name, so the codec of octets sees them first: a challenge of the server
may happen to begin with the two bytes of a hexadecimal literal, and then it does not go out as it is,
if it goes out at all.
-/

namespace Pyrad2

open EStateM

/-- `bytes | str` -/
inductive BytesOrStr where
  | bytes (b : Bytes)
  | str (text : String)

/-- `text.encode("utf-8")`, if it is text. -/
def BytesOrStr.encodeUtf8 : BytesOrStr → Bytes
  | .bytes b => b
  | .str text => Tools.utf8 text

namespace Mschap

variable (X : Mschap)

/-- `nt_password_hash(password)` -/
def ntPasswordHashOf : BytesOrStr → Bytes
  | .bytes b => X.md4 b
  | .str text => X.ntPasswordHash text

/-- `generate_nt_response(authenticator_challenge, peer_challenge, user_name, password)` -/
def generateNtResponseOf (authenticatorChallenge peerChallenge : Bytes)
    (userName password : BytesOrStr) : Except Exn Bytes := do
  let challenge ← X.challengeHash peerChallenge authenticatorChallenge userName.encodeUtf8
  X.challengeResponse challenge (X.ntPasswordHashOf password)

/-- `build_mschap2_response(ident, peer_challenge, nt_response, flags=flags)` -/
def buildMschap2Response (ident : Int) (peerChallenge ntResponse : Bytes) (flags : Int) :
    Except Exn Bytes := do
  if ¬ (0 ≤ ident ∧ ident ≤ 0xff) then
    throw (.valueError ("Ident must fit in one byte, got " ++ toString ident))
  if ¬ (0 ≤ flags ∧ flags ≤ 0xff) then
    throw (.valueError ("Flags must fit in one byte, got " ++ toString flags))
  if peerChallenge.length ≠ 16 then throw (badLength "Peer challenge" 16 peerChallenge)
  if ntResponse.length ≠ 24 then throw (badLength "NT response" 24 ntResponse)
  return [UInt8.ofNat ident.toNat, UInt8.ofNat flags.toNat] ++ peerChallenge ++ List.replicate 8 0 ++
    ntResponse

/-- `prepare_mschap2_request(pkt, ...)` -/
def prepareMschap2Request (E : Env) (userName password : BytesOrStr)
    (authenticatorChallenge peerChallenge : Bytes) (ident flags : Int) : PacketMethod Bytes := do
  Chap.dropUserPassword
  let ntResponse ← X.generateNtResponseOf authenticatorChallenge peerChallenge userName password
  Packet.setItem E "MS-CHAP-Challenge" [.bytes authenticatorChallenge]
  let response ← buildMschap2Response ident peerChallenge ntResponse flags
  Packet.setItem E "MS-CHAP2-Response" [.bytes response]
  return ntResponse

/-- What a response says. -/
structure Mschap2Response where
  ident : UInt8
  flags : UInt8
  peerChallenge : Bytes
  ntResponse : Bytes

/-- `Ident | Flags | Peer-Challenge | Reserved | Response`, as a server reads it. -/
def readMschap2Response (b : Bytes) : Option Mschap2Response :=
  if b.length = 50 ∧ (b.drop 18).take 8 = List.replicate 8 0 then
    some {
      ident := b.getD 0 0
      flags := b.getD 1 0
      peerChallenge := (b.drop 2).take 16
      ntResponse := b.drop 26 }
  else none

end Mschap

/-- The name is declared as octets under this key, without encryption, flags or named values. -/
structure Dictionary.DeclaresOctets (D : Dictionary) (name : String) (key : Key) : Prop where
  encodeKey : D.encodeKey name = .ok key
  declared : ∃ attr, D.lookup name = .ok attr ∧ attr.type = .octets ∧ attr.encrypt = 0 ∧
    attr.values = BiDict.empty
  plain : Packet.PlainKey D key

namespace Packet

section

variable {D : Dictionary} {name : String} {key : Key} {E : Env}

/-- Assigning octets stores what the codec makes of them. -/
theorem run_setItem_declaredOctets (h : D.DeclaresOctets name key)
    (htag : partitionTag name = (name, "")) {s : PacketState} (hdict : s.pkt.dict = some D)
    (b : Bytes) :
    (setItem E name [.bytes b]).run s = match Tools.encodeOctets (.bytes b) with
      | .ok v => .ok () { s with pkt := { s.pkt with attrs := s.pkt.attrs.set key (.vals [v]) } }
      | .error e => .error e s := by
  obtain ⟨attr, hlookup, htype, hencrypt, hvalues⟩ := h.declared
  have hencode : encodeValue E attr (.bytes b) = liftM (Tools.encodeOctets (.bytes b)) := by
    rw [encodeValue_of_plain hencrypt hvalues, htype]
    rfl
  have hvalue : (encodeKeyValues E name [.bytes b]).run s = match Tools.encodeOctets (.bytes b) with
      | .ok v => .ok (key, [v]) s
      | .error e => .error e s := by
    rw [encodeKeyValues, htag]
    simp only [run_bind, run_get, theDict, hdict, run_liftM_ok, hlookup, h.encodeKey]
    rw [if_neg (by simp), List.mapM_cons, List.mapM_nil, hencode]
    rcases Tools.encodeOctets (.bytes b) with e | v <;> rfl
  rw [setItem]
  rcases hcodec : Tools.encodeOctets (.bytes b) with e | v
  · rw [hcodec] at hvalue
    exact run_bind_of_error hvalue
  · rw [hcodec] at hvalue
    rw [run_bind_of_ok hvalue]
    rfl

/-- Octets are read as they are stored. -/
theorem getItem_of_declaredOctets (h : D.DeclaresOctets name key) {p : Packet}
    (hdict : p.dict = some D) {b : Bytes} (hstored : p.attrs.get? key = some (.vals [.bytes b])) :
    p.getItem E name = .ok (.vals [.bytes b]) := by
  obtain ⟨attr, hlookup, htype, hencrypt, hvalues⟩ := h.declared
  have hdecode : p.decodeValue E attr (.bytes b) = .ok (.bytes b) := by
    rw [decodeValue_of_plain hencrypt hvalues, htype]
    rfl
  rw [getItem, theDict, hdict]
  simp only [Except.bind_of_ok, h.encodeKey, hstored, hlookup, htype]
  rw [if_neg (by decide), List.mapM_cons, List.mapM_nil, hdecode]
  rfl

end

/-! ### What the client stores -/

/-- A packet that can be made an MS-CHAPv2 request: the dictionary declares the attributes of Microsoft
as octets. -/
structure MschapReady (D : Dictionary) (p : Packet) : Prop where
  dict : p.dict = some D
  mac : D.DeclaresMessageAuthenticator
  userPassword : D.encodeKey "User-Password" = .ok (.int 2)
  challenge : D.DeclaresOctets "MS-CHAP-Challenge" (.tup [311, 11])
  response : D.DeclaresOctets "MS-CHAP2-Response" (.tup [311, 25])

section

variable {D : Dictionary} {E : Env} {X : Mschap} {s : PacketState}

theorem contains_userPassword {p : Packet} (hD : D.encodeKey "User-Password" = .ok (.int 2))
    (hdict : p.dict = some D) :
    p.contains "User-Password" = .ok (p.attrs.contains (.int 2)) := by
  rw [contains, encodeKey, theDict, hdict, Except.bind_of_ok, hD]

/-- The password is gone, and nothing else is. -/
theorem exists_run_dropUserPassword_eq (hD : D.encodeKey "User-Password" = .ok (.int 2))
    (hdict : s.pkt.dict = some D) :
    ∃ attrs : Attrs PyVal, attrs.get? (.int 2) = none ∧
      (∀ key ≠ .int 2, attrs.get? key = s.pkt.attrs.get? key) ∧
      Chap.dropUserPassword.run s = .ok () { s with pkt := { s.pkt with attrs } } := by
  have hcontains := contains_userPassword hD hdict
  rcases hstored : s.pkt.attrs.contains (.int 2) with - | -
  · refine ⟨s.pkt.attrs, by simpa [OrderedDict.contains] using hstored, fun _ _ ↦ rfl, ?_⟩
    rw [Chap.dropUserPassword, run_bind_of_ok (run_get s), hcontains, hstored,
      run_bind_of_ok (run_liftM_ok _ s)]
    rfl
  · refine ⟨s.pkt.attrs.erase (.int 2), (OrderedDict.get?_erase ..).trans (if_pos rfl),
      fun key hkey ↦ (OrderedDict.get?_erase ..).trans (if_neg hkey), ?_⟩
    have hkey : s.pkt.encodeKey "User-Password" = .ok (.int 2) := by
      rw [encodeKey, theDict, hdict, Except.bind_of_ok, hD]
    rw [Chap.dropUserPassword, run_bind_of_ok (run_get s), hcontains, hstored,
      run_bind_of_ok (run_liftM_ok _ s), if_pos rfl, delItem, run_bind_of_ok (run_get s)]
    dsimp only
    rw [hkey, run_bind_of_ok (run_liftM_ok _ s), if_pos hstored]
    rfl

/-- The response with these parts. -/
def mschap2Response (ident flags : UInt8) (peerChallenge ntResponse : Bytes) : Bytes :=
  ident :: flags :: (peerChallenge ++ (List.replicate 8 0 ++ ntResponse))

variable {userName password : BytesOrStr} {challenge peerChallenge ntResponse : Bytes}
  {ident flags : UInt8}

theorem readMschap2Response_eq (hpeer : peerChallenge.length = 16) (hnt : ntResponse.length = 24) :
    Mschap.readMschap2Response (mschap2Response ident flags peerChallenge ntResponse) =
      some { ident, flags, peerChallenge, ntResponse } := by
  have hreserved : ((peerChallenge ++ (List.replicate 8 0 ++ ntResponse)).drop 16).take 8 =
      List.replicate 8 0 := by
    rw [List.drop_left' hpeer]
    exact List.take_left' rfl
  have hresponse : (peerChallenge ++ (List.replicate 8 0 ++ ntResponse)).drop 24 = ntResponse := by
    rw [← List.append_assoc]
    exact List.drop_left' (by simp [hpeer])
  have hlength : (mschap2Response ident flags peerChallenge ntResponse).length = 50 := by
    simp [mschap2Response, hpeer, hnt]
  rw [Mschap.readMschap2Response]
  refine (if_pos ⟨hlength, hreserved⟩).trans ?_
  show some (Mschap.Mschap2Response.mk ident flags
    ((peerChallenge ++ (List.replicate 8 0 ++ ntResponse)).take 16)
    ((peerChallenge ++ (List.replicate 8 0 ++ ntResponse)).drop 24)) = _
  rw [hresponse, List.take_left' hpeer]

theorem buildMschap2Response_eq (hpeer : peerChallenge.length = 16) (hnt : ntResponse.length = 24) :
    Mschap.buildMschap2Response ident.toNat peerChallenge ntResponse flags.toNat =
      .ok (mschap2Response ident flags peerChallenge ntResponse) := by
  have hrange (b : UInt8) : 0 ≤ (b.toNat : Int) ∧ (b.toNat : Int) ≤ 0xff := by
    have := b.toNat_lt
    omega
  have hbyte (b : UInt8) : UInt8.ofNat (b.toNat : Int).toNat = b := by
    rw [Int.toNat_natCast, UInt8.ofNat_toNat]
  rw [Mschap.buildMschap2Response, if_neg (not_not.2 (hrange ident)),
    if_neg (not_not.2 (hrange flags)), if_neg (not_not.2 hpeer), if_neg (not_not.2 hnt), hbyte, hbyte]
  simp only [mschap2Response, List.append_assoc]
  rfl

/-- Challenges of 16 bytes have a response of 24. -/
theorem exists_generateNtResponseOf (hX : X.DigestLengths)
    (hdes : ∀ key b, (X.desEncrypt key b).length = 8) (hchallenge : challenge.length = 16)
    (hpeer : peerChallenge.length = 16) (userName password : BytesOrStr) :
    ∃ ntResponse, X.generateNtResponseOf challenge peerChallenge userName password =
      .ok ntResponse ∧ ntResponse.length = 24 := by
  have hhash : (X.ntPasswordHashOf password).length = 16 := by
    rcases password with b | text
    · exact hX.md4 b
    · exact hX.md4 _
  have hdigest : X.challengeHash peerChallenge challenge userName.encodeUtf8 =
      .ok ((X.sha1 (peerChallenge ++ challenge ++ userName.encodeUtf8)).take 8) := by
    rw [Mschap.challengeHash, if_neg (by simp [hpeer]), if_neg (by simp [hchallenge])]
    rfl
  rw [Mschap.generateNtResponseOf, hdigest, Except.bind_of_ok, Mschap.challengeResponse,
    if_neg (by simp [hX.sha1]), if_neg (by simp [hhash])]
  exact ⟨_, rfl, by simp [hdes]⟩

/-- The packet as an MS-CHAPv2 request. -/
def MadeRequest (s : PacketState) (v w : PyVal) (s' : PacketState) : Prop :=
  ∃ attrs : Attrs PyVal, attrs.get? (.int 2) = none ∧
    s' = { s with pkt := { s.pkt with
      attrs := (attrs.set (.tup [311, 11]) (.vals [v])).set (.tup [311, 25]) (.vals [w]) } }

theorem partitionTag_mschapChallenge :
    partitionTag "MS-CHAP-Challenge" = ("MS-CHAP-Challenge", "") := by
  decide +kernel

theorem partitionTag_mschap2Response :
    partitionTag "MS-CHAP2-Response" = ("MS-CHAP2-Response", "") := by
  decide +kernel

/-- **What `prepare_mschap2_request` does.** -/
theorem run_prepareMschap2Request (ident flags : UInt8) (hp : MschapReady D s.pkt)
    (hnt : X.generateNtResponseOf challenge peerChallenge userName password = .ok ntResponse)
    (hpeer : peerChallenge.length = 16) (hlength : ntResponse.length = 24) :
    match Tools.encodeOctets (.bytes challenge),
        Tools.encodeOctets (.bytes (mschap2Response ident flags peerChallenge ntResponse)) with
      | .ok v, .ok w => ∃ s', (X.prepareMschap2Request E userName password challenge peerChallenge
          ident.toNat flags.toNat).run s = .ok ntResponse s' ∧ MadeRequest s v w s'
      | _, _ => ∃ e s', (X.prepareMschap2Request E userName password challenge peerChallenge
          ident.toNat flags.toNat).run s = .error e s' := by
  obtain ⟨attrs, hnone, -, hdrop⟩ := exists_run_dropUserPassword_eq hp.userPassword hp.dict
  set t : PacketState := { s with pkt := { s.pkt with attrs } }
  rw [Mschap.prepareMschap2Request, run_bind_of_ok hdrop, hnt, run_bind_of_ok (run_liftM_ok _ t),
    buildMschap2Response_eq hpeer hlength]
  have hfirst := run_setItem_declaredOctets (E := E) hp.challenge partitionTag_mschapChallenge
    (s := t) hp.dict challenge
  rcases hv : Tools.encodeOctets (.bytes challenge) with e | v
  · rw [hv] at hfirst
    exact ⟨e, t, run_bind_of_error hfirst⟩
  rw [hv] at hfirst
  rw [run_bind_of_ok hfirst, run_bind_of_ok (run_liftM_ok _ _)]
  set t' : PacketState :=
    { t with pkt := { t.pkt with attrs := attrs.set (.tup [311, 11]) (.vals [v]) } }
  have hsecond := run_setItem_declaredOctets (E := E) hp.response partitionTag_mschap2Response
    (s := t') hp.dict (mschap2Response ident flags peerChallenge ntResponse)
  rcases hw : Tools.encodeOctets (.bytes (mschap2Response ident flags peerChallenge ntResponse))
    with e | w
  · rw [hw] at hsecond
    exact ⟨e, t', run_bind_of_error hsecond⟩
  · rw [hw] at hsecond
    exact ⟨_, run_bind_of_ok hsecond, attrs, hnone, rfl⟩

/-! ### What the server is shown -/

/-- The packet has no password, and by name gives the challenge and a response that is read as these
parts. -/
structure ShowsMschap2 (E : Env) (challenge : Bytes) (r : Mschap.Mschap2Response) (p : Packet) :
    Prop where
  noPassword : p.contains "User-Password" = .ok false
  challenge : p.getItem E "MS-CHAP-Challenge" = .ok (.vals [.bytes challenge])
  response : ∃ b, p.getItem E "MS-CHAP2-Response" = .ok (.vals [.bytes b]) ∧
    Mschap.readMschap2Response b = some r

/-- The packet is made an MS-CHAPv2 request, and shows the NT-Response that was computed: itself, and as
it is received. -/
structure PresentsMschap2 (E : Env) (X : Mschap) (D : Dictionary) (userName password : BytesOrStr)
    (challenge peerChallenge : Bytes) (ident flags : UInt8) (s : PacketState) : Prop where
  exists_made : ∃ ntResponse s',
    (X.prepareMschap2Request E userName password challenge peerChallenge ident.toNat flags.toNat).run
      s = .ok ntResponse s' ∧
    X.generateNtResponseOf challenge peerChallenge userName password = .ok ntResponse ∧
    ShowsMschap2 E challenge { ident, flags, peerChallenge, ntResponse } s'.pkt ∧
    (Plaintext s → ∀ raw s'' groups, (requestPacket E).run s' = .ok raw s'' →
      HoldsLists s''.pkt D groups → (∀ e ∈ groups.entries, IsAttributeKey e.1) →
      raw.length ≤ 8192 → ∀ secret w, ∃ q w',
        (construct E (s.pkt.receiver secret) (some raw) []).run w = .ok q w' ∧
          ShowsMschap2 E challenge { ident, flags, peerChallenge, ntResponse } q)

/-- What a packet shows that holds the two values. -/
theorem showsMschap2_of_get? (hD : MschapReady D s.pkt) {p : Packet} (hdict : p.dict = some D)
    (hpeer : peerChallenge.length = 16) (hnt : ntResponse.length = 24)
    (hnone : p.attrs.get? (.int 2) = none)
    (hchallenge : p.attrs.get? (.tup [311, 11]) = some (.vals [.bytes challenge]))
    (hresponse : p.attrs.get? (.tup [311, 25]) =
      some (.vals [.bytes (mschap2Response ident flags peerChallenge ntResponse)])) :
    ShowsMschap2 E challenge { ident, flags, peerChallenge, ntResponse } p where
  noPassword := by
    rw [contains_userPassword hD.userPassword hdict, OrderedDict.contains, hnone]
    rfl
  challenge := getItem_of_declaredOctets hD.challenge hdict hchallenge
  response := ⟨_, getItem_of_declaredOctets hD.response hdict hresponse,
    readMschap2Response_eq hpeer hnt⟩

theorem get?_of_madeRequest {v w : PyVal} {s' : PacketState} (h : MadeRequest s v w s') :
    s'.pkt.attrs.get? (.int 2) = none ∧ s'.pkt.attrs.get? (.tup [311, 11]) = some (.vals [v]) ∧
      s'.pkt.attrs.get? (.tup [311, 25]) = some (.vals [w]) := by
  obtain ⟨attrs, hnone, rfl⟩ := h
  refine ⟨?_, ?_, OrderedDict.get?_set_self ..⟩
  · exact (OrderedDict.get?_set_ne _ (by decide) _).trans
      ((OrderedDict.get?_set_ne _ (by decide) _).trans hnone)
  · exact (OrderedDict.get?_set_ne _ (by decide) _).trans (OrderedDict.get?_set_self ..)

/-- A group of one plain value arrives. -/
theorem get?_received_of_plain {p q : Packet} {groups : OrderedDict Key (List Bytes)} {key : Key}
    (hlists : HoldsLists p D groups) (hkey : PlainKey D key) {b : Bytes}
    (hstored : p.attrs.get? key = some (.vals [.bytes b]))
    (hget : ∀ key, q.attrs.get? key =
      (((onWire D groups).get? key).map (finishList D key)).map (Stored.map PyVal.bytes)) :
    q.attrs.get? key = some (.vals [.bytes b]) := by
  rw [hlists.get?_eq] at hstored
  obtain ⟨vs, hvs, hvals⟩ := Option.map_eq_some_iff.1 hstored
  have hgroup : Kept D key vs := hkey.kept fun hnil ↦ by
    rw [hnil] at hvals
    cases hvals
  have hsome : (onWire D groups).get? key = some (wireValues D key vs) :=
    get?_onWire_eq_some_iff.2 ⟨hgroup.notVirtual, vs, hvs, hgroup.ne_nil, rfl⟩
  rw [hget, hsome, Option.map_some, Option.map_some, hgroup.finish, Stored.map]
  exact congrArg some hvals

/-- **When the exchange is presented**: exactly if the challenge does not begin with `0x`, and
identifier and flags are not these two bytes either. -/
theorem presentsMschap2_iff (hX : X.DigestLengths)
    (hdes : ∀ key b, (X.desEncrypt key b).length = 8) (hp : MschapReady D s.pkt)
    (userName password : BytesOrStr) (hchallenge : challenge.length = 16)
    (hpeer : peerChallenge.length = 16) :
    PresentsMschap2 E X D userName password challenge peerChallenge ident flags s ↔
      (∀ digits, challenge ≠ 0x30 :: 0x78 :: digits) ∧ ¬ (ident = 0x30 ∧ flags = 0x78) := by
  obtain ⟨ntResponse, hnt, hlength⟩ :=
    exists_generateNtResponseOf hX hdes hchallenge hpeer userName password
  have hprepare := run_prepareMschap2Request (E := E) ident flags hp hnt hpeer hlength
  constructor
  · rintro ⟨nt, s', hrun, -, hshows, -⟩
    rcases hv : Tools.encodeOctets (.bytes challenge) with e | v
    · rw [hv] at hprepare
      obtain ⟨e', t, herror⟩ := hprepare
      cases hrun.symm.trans herror
    rcases hw : Tools.encodeOctets (.bytes (mschap2Response ident flags peerChallenge ntResponse))
      with e | w
    · rw [hv, hw] at hprepare
      obtain ⟨e', t, herror⟩ := hprepare
      cases hrun.symm.trans herror
    rw [hv, hw] at hprepare
    obtain ⟨s₁, hrun₁, hmade⟩ := hprepare
    cases hrun.symm.trans hrun₁
    have hdict : s'.pkt.dict = some D := by
      obtain ⟨attrs, -, rfl⟩ := hmade
      exact hp.dict
    obtain ⟨-, hfirst, hsecond⟩ := get?_of_madeRequest hmade
    obtain ⟨c, rfl, hc⟩ := Tools.encodeOctets_bytes_eq_ok hv
    obtain ⟨c', rfl, hc'⟩ := Tools.encodeOctets_bytes_eq_ok hw
    constructor
    · -- what is shown is as long as the challenge
      have hread := getItem_of_declaredOctets (E := E) hp.challenge hdict hfirst
      cases hread.symm.trans hshows.challenge
      rcases hc with ⟨-, hlt⟩ | ⟨hne, -⟩
      · exact absurd hlt (lt_irrefl _)
      · exact hne
    · rintro ⟨rfl, rfl⟩
      have hread := getItem_of_declaredOctets (E := E) hp.response hdict hsecond
      obtain ⟨b, hb, hparts⟩ := hshows.response
      cases hread.symm.trans hb
      rcases hc' with ⟨-, hlt⟩ | ⟨hne, -⟩
      · -- too short to be read as a response
        rw [Mschap.readMschap2Response, if_neg] at hparts
        · cases hparts
        · rintro ⟨hfifty, -⟩
          simp [mschap2Response, hpeer, hlength, hfifty] at hlt
      · exact hne _ rfl
  · rintro ⟨hplain, hbytes⟩
    have hv := Tools.encodeOctets_of_ne hplain
    have hw : Tools.encodeOctets (.bytes (mschap2Response ident flags peerChallenge ntResponse)) =
        .ok (.bytes (mschap2Response ident flags peerChallenge ntResponse)) :=
      Tools.encodeOctets_of_ne fun digits heq ↦
        hbytes ⟨(List.cons.inj heq).1, (List.cons.inj (List.cons.inj heq).2).1⟩
    rw [hv, hw] at hprepare
    obtain ⟨s', hrun, hmade⟩ := hprepare
    obtain ⟨hnone, hfirst, hsecond⟩ := get?_of_madeRequest hmade
    obtain ⟨hdict, hplaintext⟩ : s'.pkt.dict = some D ∧ (Plaintext s → Plaintext s') := by
      obtain ⟨attrs, -, rfl⟩ := hmade
      exact ⟨hp.dict, fun h ↦ ⟨h.version, h.pending⟩⟩
    refine ⟨ntResponse, s', hrun, hnt,
      showsMschap2_of_get? hp hdict hpeer hlength hnone hfirst hsecond, ?_⟩
    intro hs raw s'' groups hraw hlists hkeys hle secret w
    -- sending changes none of the three
    have hsame (key : Key) (hne : key ≠ .int 80) :
        s''.pkt.attrs.get? key = s'.pkt.attrs.get? key := by
      have hrefreshes := refreshes_requestPacket (E := E) s'
      rw [after_of_ok hraw] at hrefreshes
      obtain ⟨id, authenticator, flag, attrs, hpkt, hkeep⟩ := hrefreshes
      rw [hpkt]
      refine hkeep key fun heq ↦ hne ?_
      rw [encodeKey, theDict, hdict, Except.bind_of_ok, hp.mac.encodeKey_eq] at heq
      exact (Except.ok.inj heq).symm
    obtain ⟨q, w', hq, -, ⟨hdictq, -⟩, hget⟩ := exists_received (E := E)
      (s.pkt.receiver secret) (hplaintext hs) (.inl hraw) hlists hkeys hle hp.dict hs.version
      rfl w
    have hpassword : groups.get? (.int 2) = none := by
      have hstored := (hsame (.int 2) (by decide)).trans hnone
      rw [hlists.get?_eq] at hstored
      exact Option.map_eq_none_iff.1 hstored
    refine ⟨q, w', hq, showsMschap2_of_get? hp hdictq hpeer hlength ?_
      (get?_received_of_plain hlists hp.challenge.plain ((hsame _ (by decide)).trans hfirst) hget)
      (get?_received_of_plain hlists hp.response.plain ((hsame _ (by decide)).trans hsecond) hget)⟩
    rw [hget, get?_onWire_eq_none hpassword]
    rfl

/-- However the call ends, the packet has no password. -/
theorem noPassword_after_prepareMschap2Request (hp : MschapReady D s.pkt)
    (userName password : BytesOrStr) (challenge peerChallenge : Bytes) (ident flags : Int) :
    (after (X.prepareMschap2Request E userName password challenge peerChallenge ident flags)
      s).pkt.contains "User-Password" = .ok false := by
  have hset {name : String} {key : Key} (h : D.DeclaresOctets name key)
      (htag : partitionTag name = (name, "")) (hne : Key.int 2 ≠ key) (b : Bytes) {t : PacketState}
      (hdict : t.pkt.dict = some D) (hnone : t.pkt.attrs.get? (.int 2) = none) :
      Ensures (setItem E name [.bytes b]) t
        (fun _ t' ↦ t'.pkt.dict = some D ∧ t'.pkt.attrs.get? (.int 2) = none)
        fun _ t' ↦ t'.pkt.dict = some D ∧ t'.pkt.attrs.get? (.int 2) = none := by
    have hrun := run_setItem_declaredOctets (E := E) h htag hdict b
    rcases hcodec : Tools.encodeOctets (.bytes b) with e | v
    · rw [hcodec] at hrun
      exact .of_error hrun ⟨hdict, hnone⟩
    · rw [hcodec] at hrun
      exact .of_ok hrun ⟨hdict, (OrderedDict.get?_set_ne _ hne _).trans hnone⟩
  obtain ⟨attrs, hnone, -, hdrop⟩ := exists_run_dropUserPassword_eq hp.userPassword hp.dict
  have hcleared : Ensures (X.prepareMschap2Request E userName password challenge peerChallenge ident
      flags) s (fun _ t ↦ t.pkt.dict = some D ∧ t.pkt.attrs.get? (.int 2) = none)
      fun _ t ↦ t.pkt.dict = some D ∧ t.pkt.attrs.get? (.int 2) = none := by
    refine ensures_bind.2 (.of_ok hdrop (ensures_bind.2 (ensures_liftM (fun nt _ ↦ ?_) fun _ _ ↦
      ⟨hp.dict, hnone⟩)))
    refine ensures_bind.2 ((hset hp.challenge partitionTag_mschapChallenge (by decide) challenge
      (t := { s with pkt := { s.pkt with attrs } }) hp.dict hnone).imp
      (fun _ t ht ↦ ?_) fun _ _ h ↦ h)
    refine ensures_bind.2 (ensures_liftM (fun response _ ↦ ?_) fun _ _ ↦ ht)
    exact ensures_bind.2 ((hset hp.response partitionTag_mschap2Response (by decide) response ht.1
      ht.2).imp (fun _ _ h ↦ h) fun _ _ h ↦ h)
  obtain ⟨hdict, hget⟩ := ensures_iff_after (P := fun t : PacketState ↦ t.pkt.dict = some D ∧
    t.pkt.attrs.get? (.int 2) = none).1 hcleared
  rw [contains_userPassword hp.userPassword hdict, OrderedDict.contains, hget]
  rfl

end

/-- A dictionary that declares what the request takes. -/
def mschapDictionary : Dictionary where
  heap :=
    [{ name := "Message-Authenticator", code := 80, type := .octets },
     { name := "User-Password", code := 2, type := .octets },
     { name := "MS-CHAP-Challenge", code := 11, type := .octets, vendor := "Microsoft" },
     { name := "MS-CHAP2-Response", code := 25, type := .octets, vendor := "Microsoft" }]
  attributes := (((OrderedDict.set ∅ "Message-Authenticator" 0).set "User-Password" 1).set
    "MS-CHAP-Challenge" 2).set "MS-CHAP2-Response" 3
  attrindex := (((BiDict.empty.add "Message-Authenticator" (.int 80)).add "User-Password" (.int 2)).add
    "MS-CHAP-Challenge" (.tup [311, 11])).add "MS-CHAP2-Response" (.tup [311, 25])
  vendors := (BiDict.empty.add "" 0).add "Microsoft" 311
  vendorFormats := ∅

theorem mschapReady_mschapDictionary {p : Packet} (hdict : p.dict = some mschapDictionary) :
    MschapReady mschapDictionary p where
  dict := hdict
  mac := ⟨by decide, _, rfl, rfl, rfl, rfl, rfl, rfl, rfl, rfl, rfl, rfl⟩
  userPassword := by decide
  challenge := ⟨by decide, ⟨_, rfl, rfl, rfl, rfl⟩, by decide, by decide, by decide, rfl, rfl, rfl⟩
  response := ⟨by decide, ⟨_, rfl, rfl, rfl, rfl⟩, by decide, by decide, by decide, rfl, rfl, rfl⟩

/-- An Access-Request with a password in it. -/
def passwordRequest : PacketState where
  pkt :=
    { cls := .auth, code := PacketType.accessRequest, dict := some mschapDictionary
      attrs := OrderedDict.set ∅ (.int 2) (.vals [.bytes [112]]) }
  world := default

theorem presentsMschap2_iff_passwordRequest :
    PresentsMschap2 zeroEnv Mschap.zero mschapDictionary (.str "u") (.str "p") (List.replicate 16 0)
        (List.replicate 16 0) 0 0 passwordRequest ↔
      (∀ digits, List.replicate 16 (0 : UInt8) ≠ 0x30 :: 0x78 :: digits) ∧
        ¬ ((0 : UInt8) = 0x30 ∧ (0 : UInt8) = 0x78) :=
  presentsMschap2_iff Mschap.digestLengths_zero (fun _ _ ↦ rfl) (mschapReady_mschapDictionary rfl)
    (.str "u") (.str "p") rfl rfl

end Packet

end Pyrad2
