import Pyrad2.Packet.Received

/-!
# Message-Authenticators

Reading, writing and checking the Message-Authenticator of a packet.

The code reaches the attribute by its name, so what it reads depends on the dictionary; the digest
covers the bytes of attribute 80 as they were received. Under a dictionary that declares the name as
plain octets with code 80 the two agree.
-/

namespace Pyrad2

open EStateM

/-! ### A plain declaration -/

namespace Dictionary.DeclaresMessageAuthenticator

variable {D : Dictionary} (h : D.DeclaresMessageAuthenticator)

include h

theorem encodeKey_eq : D.encodeKey "Message-Authenticator" = .ok (.int 80) := by
  obtain ⟨attr, hattr, hcode, -, hvendor, hsub, -⟩ := h.declared
  rw [encodeKey, lookup, hattr]
  simp [hsub, hvendor, hcode]
  rfl

theorem exists_attributeAt? : ∃ attr, D.attributeAt? (.int 80) = some attr ∧
    attr.type = .octets ∧ attr.concat = false ∧ attr.virtual = false ∧ attr.array = false := by
  obtain ⟨attr, hattr, -, htype, -, -, -, hconcat, hvirtual, harray, -⟩ := h.declared
  exact ⟨attr, by rw [attributeAt?, h.index]; exact hattr, htype, hconcat, hvirtual, harray⟩

theorem containerType_eq : D.containerType (.int 80) = none := by
  obtain ⟨attr, hattr, htype, -⟩ := h.exists_attributeAt?
  rw [containerType, hattr]
  simp [htype, Datatype.isContainer]

theorem isConcatAttribute_eq : D.isConcatAttribute (.int 80) = false := by
  obtain ⟨attr, hattr, -, hconcat, -⟩ := h.exists_attributeAt?
  rw [isConcatAttribute, flagAt, hattr]
  exact hconcat

theorem isVirtualAttribute_eq : D.isVirtualAttribute (.int 80) = false := by
  obtain ⟨attr, hattr, -, -, hvirtual, -⟩ := h.exists_attributeAt?
  rw [isVirtualAttribute, flagAt, hattr]
  exact hvirtual

theorem isArrayAttribute_eq : D.isArrayAttribute (.int 80) = false := by
  obtain ⟨attr, hattr, -, -, -, harray⟩ := h.exists_attributeAt?
  rw [isArrayAttribute, flagAt, hattr]
  exact harray

end Dictionary.DeclaresMessageAuthenticator

namespace Packet

open Dictionary

section

variable {D : Dictionary}

theorem partitionTag_messageAuthenticator :
    partitionTag "Message-Authenticator" = ("Message-Authenticator", "") := by
  decide +kernel

/-- The two passes over the decoded attributes leave code 80 alone. -/
theorem get?_finishAttributes_mac (hD : D.DeclaresMessageAuthenticator) (attrs : Attrs Bytes) :
    (finishAttributes (some D) attrs).get? (.int 80) = attrs.get? (.int 80) := by
  obtain ⟨attr, hattr, -, -, -, harray⟩ := hD.exists_attributeAt?
  have hmerge (s : Stored Bytes) : mergeConcat D (.int 80) s = s := by
    rcases s with vs | m
    · simp [mergeConcat, hD.isConcatAttribute_eq]
    · rfl
  have hsplit (s : Stored Bytes) : splitArray D (.int 80) s = s := by
    rcases s with vs | m
    · simp [splitArray, hattr, harray]
    · simp [splitArray, hattr]
  rw [finishAttributes, OrderedDict.get?_mapValues, OrderedDict.get?_mapValues]
  rcases attrs.get? (.int 80) with - | s
  · rfl
  · simp [hmerge, hsplit]

/-- Under its name the values of attribute 80 are read. -/
theorem getItem_messageAuthenticator (hD : D.DeclaresMessageAuthenticator) (E : Env) {p : Packet}
    (hdict : p.dict = some D) {vs : List PyVal} (hvs : p.attrs.get? (.int 80) = some (.vals vs)) :
    p.getItem E "Message-Authenticator" = .ok (.vals vs) := by
  obtain ⟨attr, hattr, -, htype, -, -, hencrypt, -, -, -, hvalues⟩ := hD.declared
  have hdecode (v : PyVal) : p.decodeValue E attr v = .ok v := by
    rw [decodeValue]
    simp only [hencrypt, hvalues, htype]
    rcases v <;> rfl
  have hmap : vs.mapM (p.decodeValue E attr) = .ok vs := by
    rw [Except.mapM_eq_ok (g := fun v ↦ v) fun v _ ↦ hdecode v, List.map_id']
  have hlookup : D.lookup "Message-Authenticator" = .ok attr := by rw [lookup, hattr]
  rw [getItem, theDict, hdict]
  simp only [Except.bind_of_ok, hD.encodeKey_eq, hvs, hlookup, htype, Datatype.isContainer, hmap]
  rfl

/-- Assigning the attribute stores what `encode_octets` makes of the value. -/
theorem run_setMessageAuthenticator (hD : D.DeclaresMessageAuthenticator) (E : Env)
    {s : PacketState} (hdict : s.pkt.dict = some D) (b : Bytes) :
    (setMessageAuthenticator E (.bytes b)).run s =
      match Tools.encodeOctets (.bytes b) with
      | .ok v => .ok ()
        { s with pkt := { s.pkt with attrs := s.pkt.attrs.set (.int 80) (.vals [v]) } }
      | .error e => .error e s := by
  obtain ⟨attr, hattr, -, htype, -, -, hencrypt, -⟩ := hD.declared
  have hlookup : D.lookup "Message-Authenticator" = .ok attr := by rw [lookup, hattr]
  have hvalue : (encodeValue E attr (.bytes b)).run s =
      match Tools.encodeOctets (.bytes b) with
      | .ok v => .ok v s
      | .error e => .error e s := by
    rw [encodeValue]
    simp only [namedValue?, htype, Tools.encodeAttr]
    rcases Tools.encodeOctets (.bytes b) with e | v
    · rfl
    · simp [hencrypt]
  rw [setMessageAuthenticator, setItem, encodeKeyValues, partitionTag_messageAuthenticator]
  simp [theDict, hdict, hlookup, hD.encodeKey_eq, hvalue]
  rcases Tools.encodeOctets (.bytes b) with e | v
  · rfl
  · rw [← hdict]
    rfl

end

/-! ### The Message-Authenticators of a received packet -/

/-- A body with exactly one Message-Authenticator, and the attributes before and after it. -/
structure MacSplit (body : Bytes) where
  front : List Avp
  mac : Avp
  back : List Avp
  body_eq : body = Avp.join (front ++ mac :: back)
  code_eq : mac.code = 80
  length_eq : mac.value.length = 16
  others : ∀ a ∈ front ++ back, a.code ≠ 80

namespace MacSplit

variable {body : Bytes} (m : MacSplit body)

/-- The attributes the digest covers: those of the body, with zeros in the place of the digest. -/
def zeroed : Bytes := Avp.join (m.front ++ m.mac.zeroed :: m.back)

theorem isMac : m.mac.isMac = true := by simp [Avp.isMac, m.code_eq]

theorem length_zeroed : m.zeroed.length = body.length := by
  have hmac : m.mac.zeroed.bytes.length = m.mac.bytes.length := by
    rw [Avp.zeroed, if_pos m.isMac, Avp.length_bytes, Avp.length_bytes, m.length_eq]
    rfl
  have hbody := congrArg List.length m.body_eq
  simp only [Avp.join_append, Avp.join_cons, List.length_append] at hbody
  rw [zeroed, hbody]
  simp only [Avp.join_append, Avp.join_cons, List.length_append, hmac]

theorem zeroMessageAuthenticator_eq : zeroMessageAuthenticator body = .ok m.zeroed :=
  zeroMessageAuthenticator_eq_ok_iff.2
    ⟨m.front, m.back, m.mac, m.body_eq, m.code_eq, m.length_eq, m.others, rfl⟩

theorem macsOf_eq : macsOf (m.front ++ m.mac :: m.back) = [m.mac.value] := by
  have hnone (l : List Avp) (hl : ∀ a ∈ l, a.code ≠ 80) : l.filter Avp.isMac = [] :=
    List.filter_eq_nil_iff.2 fun a ha ↦ by simpa [Avp.isMac] using hl a ha
  rw [macsOf, List.filter_append, List.filter_cons, if_pos m.isMac,
    hnone m.front fun a ha ↦ m.others a (List.mem_append_left _ ha),
    hnone m.back fun a ha ↦ m.others a (List.mem_append_right _ ha)]
  rfl

end MacSplit

theorem exists_macSplit {body z : Bytes} (h : zeroMessageAuthenticator body = .ok z) :
    ∃ m : MacSplit body, z = m.zeroed := by
  obtain ⟨front, back, mac, hbody, hcode, hlength, hothers, hz⟩ :=
    zeroMessageAuthenticator_eq_ok_iff.1 h
  exact ⟨⟨front, mac, back, hbody, hcode, hlength, hothers⟩, hz⟩

section

variable {D : Option Dictionary} {raw : Bytes} {st : DecodeState} {fields : Packet}

theorem Decoded.shaped (h : Decoded D raw st) {l : List Avp} (hbody : raw.drop 20 = Avp.join l) :
    Shaped D (macEntry (macsOf l)) (if macsOf l = [] then none else some true) st := by
  have hrun := h.run
  rw [hbody, decodeAvps_join D .v1_0 le_rfl] at hrun
  have hshape := ensures_forM_decodeAvp l (shaped_initial D none)
  rw [Ensures, hrun] at hshape
  exact hshape

/-- **What a received packet holds under code 80.** -/
theorem get?_received_mac {D : Dictionary} (hD : D.DeclaresMessageAuthenticator)
    (hdict : fields.dict = some D) (h : Decoded (some D) raw st) {l : List Avp}
    (hbody : raw.drop 20 = Avp.join l) :
    (received fields raw st).attrs.get? (.int 80) =
      (macEntry (macsOf l)).map (Stored.map PyVal.bytes) := by
  rw [received, OrderedDict.get?_mapValues, hdict, get?_finishAttributes_mac hD, (h.shaped hbody).mac]

theorem getItem_received_mac {D : Dictionary} (hD : D.DeclaresMessageAuthenticator) (E : Env)
    (hdict : fields.dict = some D) (h : Decoded (some D) raw st) (m : MacSplit (raw.drop 20)) :
    (received fields raw st).getItem E "Message-Authenticator" =
      .ok (.vals [.bytes m.mac.value]) := by
  refine getItem_messageAuthenticator hD E (p := received fields raw st) hdict ?_
  rw [get?_received_mac hD hdict h m.body_eq, m.macsOf_eq]
  rfl

end

/-! ### Checking -/

/-- The secret a Message-Authenticator is checked with. -/
def macKey (p : Packet) (secret : Option Bytes) : Bytes :=
  match secret with
  | none | some [] => p.secret
  | some secret => secret

section

variable {E : Env} {p : Packet} {raw : Bytes} {secret originalAuthenticator : Option Bytes}
  {originalCode : Option ℕ} {w : World}

theorem run_verifyAttributes (hraw : p.rawPacket = some raw) (hne : raw ≠ []) (E : Env)
    (w : World) : (verifyAttributes E).run ⟨p, w⟩ =
      (liftM (zeroMessageAuthenticator (raw.drop 20)) : PacketMethod Bytes).run ⟨p, w⟩ := by
  rcases raw with - | ⟨b, raw⟩
  · exact absurd rfl hne
  · rw [verifyAttributes]
    simp [hraw]

/-- The body has exactly one Message-Authenticator, and the value read under the name is the digest of
the packet. -/
def MacMatches (E : Env) (p : Packet) (raw : Bytes) (secret originalAuthenticator : Option Bytes)
    (originalCode : Option ℕ) : Prop :=
  ∃ (m : MacSplit (raw.drop 20)) (item : ItemView) (prev header authenticator : Bytes),
    p.getItem E "Message-Authenticator" = .ok item ∧ item.first = .ok (.bytes prev) ∧
    packHeader p.code p.id (20 + m.zeroed.length) = .ok header ∧
    p.verifyAuthenticator originalAuthenticator originalCode = .ok authenticator ∧
    prev = E.hmacMd5 (p.macKey secret) (header ++ authenticator ++ m.zeroed)

/-- **A check that succeeds** found the digest. -/
theorem ensures_verifyMessageAuthenticator (hraw : p.rawPacket = some raw) (hne : raw ≠ []) :
    Ensures (verifyMessageAuthenticator E secret originalAuthenticator originalCode) ⟨p, w⟩
      (fun isValid _ ↦ isValid = true →
        MacMatches E p raw secret originalAuthenticator originalCode)
      fun _ _ ↦ True := by
  rw [verifyMessageAuthenticator]
  refine ensures_bind.2 (ensures_get.2 ?_)
  dsimp only
  split
  · trivial
  refine ensures_bind.2 (ensures_liftM (fun item hitem ↦ ?_) fun _ _ ↦ trivial)
  refine ensures_bind.2 ?_
  rw [Ensures, run_verifyAttributes hraw hne]
  refine ensures_liftM (fun z hz ↦ ?_) fun _ _ ↦ trivial
  obtain ⟨m, rfl⟩ := exists_macSplit hz
  refine ensures_bind.2 (ensures_get.2 (ensures_bind.2 (ensures_liftM (fun header hheader ↦ ?_)
    fun _ _ ↦ trivial)))
  refine ensures_bind.2 (ensures_liftM (fun authenticator hauth ↦ ?_) fun _ _ ↦ trivial)
  refine ensures_bind.2 (ensures_liftM (fun prev hprev ↦ ?_) fun _ _ ↦ trivial)
  refine ensures_bind.2 (ensures_of_forall (fun _ s' ↦ ?_) fun _ _ ↦ trivial)
  rcases prev with - | n | s | prev <;> try trivial
  intro hvalid
  exact ⟨m, item, prev, header, authenticator, hitem, hprev, hheader, hauth, of_decide_eq_true hvalid⟩

theorem ensures_requireValidMessageAuthenticator (hraw : p.rawPacket = some raw) (hne : raw ≠ []) :
    Ensures (requireValidMessageAuthenticator E secret originalAuthenticator originalCode) ⟨p, w⟩
      (fun _ _ ↦ MacMatches E p raw secret originalAuthenticator originalCode)
      fun _ _ ↦ True := by
  rw [requireValidMessageAuthenticator]
  refine ensures_bind.2 (Method.ensures_catchException
    ((ensures_verifyMessageAuthenticator hraw hne).imp (fun isValid s hvalid ↦ ?_)
      fun _ _ _ ↦ ⟨fun _ ↦ trivial, fun _ ↦ trivial⟩))
  rcases isValid
  · trivial
  · exact hvalid rfl

/-- **A packet that passes the policy** has a digest that matches, or it carries none and its code
does not call for one. -/
theorem ensures_validateMessageAuthenticatorPolicy (hraw : p.rawPacket = some raw) (hne : raw ≠ [])
    (hversion : p.radiusVersion = .v1_0) (requireMa requireEapMa : Bool) :
    Ensures (validateMessageAuthenticatorPolicy E requireMa requireEapMa) ⟨p, w⟩
      (fun _ _ ↦ MacMatches E p raw none none none ∨
        p.code ≠ PacketType.statusServer ∧ ¬ (requireMa = true ∧ p.code = PacketType.accessRequest))
      fun _ _ ↦ True := by
  rw [validateMessageAuthenticatorPolicy]
  refine ensures_bind.2 (ensures_get.2 ?_)
  dsimp only
  rw [if_neg (by rw [hversion]; decide)]
  split
  · split
    · trivial
    next hstatus =>
    split
    · trivial
    next haccess =>
    split
    · trivial
    · exact .inr ⟨hstatus, haccess⟩
  · exact (ensures_requireValidMessageAuthenticator hraw hne).imp (fun _ _ h ↦ .inl h) fun _ _ h ↦ h

end

end Packet

end Pyrad2
