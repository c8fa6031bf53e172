import Mathlib.Data.UInt
import Pyrad2.Packet.Requests
import Pyrad2.Packet.Walks

/-!
# What the digest covers

The Message-Authenticator of a packet on the wire is the digest of the packet on the wire, if the
packet was sent in circumstances in which it is encoded twice alike.

A value that is salt-encrypted when the packet is sent draws one salt for the digest and another one
for the wire.
-/

namespace Pyrad2

open EStateM

/-- A sequence of attributes is read off its bytes. -/
theorem Avp.join_injective : Function.Injective Avp.join := by
  intro l l' h
  have hl := (Packet.walks_of_join (l := l) (rfl : Avp.join l = Avp.join l)).1
  have hl' := (Packet.walks_of_join (h : Avp.join l = Avp.join l')).1
  rw [hl] at hl'
  exact congrArg Walk.seen hl'

namespace Packet

/-- A body has one Message-Authenticator at most. -/
theorem MacSplit.value_unique {body : Bytes} (m m' : MacSplit body) :
    m.mac.value = m'.mac.value := by
  have hjoin : m.front ++ m.mac :: m.back = m'.front ++ m'.mac :: m'.back :=
    Avp.join_injective (m.body_eq.symm.trans m'.body_eq)
  have hmacs := congrArg macsOf hjoin
  rw [m.macsOf_eq, m'.macsOf_eq] at hmacs
  exact List.singleton_inj.1 hmacs

theorem MacSplit.zeroed_unique {body : Bytes} (m m' : MacSplit body) : m.zeroed = m'.zeroed :=
  Except.ok.inj (m.zeroMessageAuthenticator_eq.symm.trans m'.zeroMessageAuthenticator_eq)

/-- The authenticator that the code of the packet calls for; a packet without one has drawn that on
the wire. -/
def chosenAuthenticator (p : Packet) (raw : Bytes) : Except Exn Bytes :=
  macAuthenticator { p with authenticator := p.authenticator.or (some (wireAuthenticator raw)) }

/-- Whatever bytes `request_packet()` or `reply_packet()` return, the Message-Authenticator in them is
the digest of them. -/
def MacCovers (E : Env) (p : Packet) : Prop :=
  ∀ w raw s, (requestPacket E).run ⟨p, w⟩ = .ok raw s ∨ (replyPacket E).run ⟨p, w⟩ = .ok raw s →
    ∃ authenticator, p.chosenAuthenticator raw = .ok authenticator ∧
      Covered E p.secret authenticator raw

section

variable {E : Env} {D : Dictionary} {p : Packet}

/-- Bytes that were put out with the flag set. -/
theorem covered_of_puts {field : Bytes → Bytes → Bytes} {raw : Bytes}
    (hflag : p.messageAuthenticator = some true) (h : Puts E p field raw) :
    ∃ authenticator, p.macAuthenticator = .ok authenticator ∧
      Covered E p.secret authenticator raw := by
  obtain ⟨body, hwire, hout⟩ := h
  rw [Outgoing, if_pos hflag] at hout
  obtain ⟨m, authenticator, hauthenticator, hvalue, -⟩ := hout
  refine ⟨authenticator, hauthenticator, ?_⟩
  rw [Covered, hwire.body_eq]
  exact ⟨m, hvalue⟩

/-- The Message-Authenticator that is put out is no hexadecimal literal. -/
theorem digits_of_puts {field : Bytes → Bytes → Bytes} {raw : Bytes}
    (hflag : p.messageAuthenticator = some true) (h : Puts E p field raw)
    (m : MacSplit (raw.drop 20)) (digits : Bytes) : m.mac.value ≠ 0x30 :: 0x78 :: digits := by
  obtain ⟨body, hwire, hout⟩ := h
  rw [Outgoing, if_pos hflag, ← hwire.body_eq] at hout
  obtain ⟨m', -, -, -, hdigits⟩ := hout
  rw [m.value_unique m']
  exact hdigits digits

theorem macAuthenticator_congr {p' : Packet} (hcode : p'.code = p.code)
    (horiginal : p'.originalCode = p.originalCode) (hauth : p'.authenticator = p.authenticator) :
    p'.macAuthenticator = p.macAuthenticator := by
  rw [macAuthenticator, macAuthenticator, hcode, horiginal, hauth]

theorem chosenAuthenticator_of_some {a : Bytes} (ha : p.authenticator = some a) (raw : Bytes) :
    p.chosenAuthenticator raw = p.macAuthenticator :=
  macAuthenticator_congr rfl rfl (by
    change p.authenticator.or (some (wireAuthenticator raw)) = p.authenticator
    rw [ha]
    rfl)

/-- Where no authenticator is needed, none is looked at. -/
theorem chosenAuthenticator_of_none (hnone : p.authenticator = none) {authenticator : Bytes}
    (h : p.macAuthenticator = .ok authenticator) (raw : Bytes) :
    p.chosenAuthenticator raw = .ok authenticator := by
  rw [macAuthenticator] at h
  rw [chosenAuthenticator, macAuthenticator]
  split at h
  · next hcode => rw [if_pos hcode, h]
  next hcode =>
  split at h
  · next hresponse => rw [if_neg hcode, if_pos hresponse, h]
  · rw [hnone] at h
    cases h

theorem puts_of_requestPut {q : Packet} {raw : Bytes} (h : RequestPut E p q raw)
    (hcls : p.cls ≠ .packet) : ∃ field, Puts E p field raw := by
  rcases hclass : p.cls
  · exact absurd hclass hcls
  · obtain ⟨a, -, hputs, -⟩ := h.random (.inl hclass)
    exact ⟨_, hputs⟩
  · obtain ⟨a, -, hputs, -⟩ := h.random (.inr hclass)
    exact ⟨_, hputs⟩
  · exact ⟨_, (h.digest (.inl hclass)).1⟩
  · exact ⟨_, (h.digest (.inr hclass)).1⟩

theorem take_drawn {a : Bytes} (ha : a.length = 16) : (a ++ zeros16).take 16 = a :=
  List.take_left' ha

/-- **The digest covers the wire.** -/
theorem macCovers_of_sendable (h : Sendable E D p) (hflag : p.messageAuthenticator = some true) :
    MacCovers E p := by
  intro w raw s hrun
  rcases hrun with hrun | hrun
  · have hcls : p.cls ≠ .packet := by
      intro hclass
      rw [requestPacket, run_bind_eq_ok_iff] at hrun
      obtain ⟨_, _, hget, hrun⟩ := hrun
      cases hget
      rw [if_pos hclass] at hrun
      cases hrun
    obtain ⟨p', hp', hcompletes, hput, hdigest, -⟩ := (ensures_requestPacket h w).of_run_eq_ok hrun
    have hcls' : p'.cls ≠ .packet := by
      rw [hcompletes.cls_eq]
      exact hcls
    obtain ⟨field, hputs⟩ := puts_of_requestPut hput hcls'
    obtain ⟨authenticator, hauthenticator, hcovered⟩ :=
      covered_of_puts (hcompletes.flag hflag) hputs
    rw [hcompletes.secret_eq] at hcovered
    refine ⟨authenticator, ?_, hcovered⟩
    rcases ha : p.authenticator with - | a
    · -- the authenticator on the wire is the one that was drawn, if one was
      rcases ha' : p'.authenticator with - | a'
      · refine chosenAuthenticator_of_none ha ?_ raw
        rw [← hauthenticator]
        exact macAuthenticator_congr hcompletes.code_eq.symm hcompletes.originalCode_eq.symm
          (ha.trans ha'.symm)
      · have hrandom : p'.cls = .status ∨ p'.cls = .auth := by
          rcases hclass : p'.cls
          · exact absurd hclass hcls'
          · exact .inl rfl
          · exact .inr rfl
          · rw [hdigest (.inl (hcompletes.cls_eq ▸ hclass)), ha] at ha'
            cases ha'
          · rw [hdigest (.inr (hcompletes.cls_eq ▸ hclass)), ha] at ha'
            cases ha'
        obtain ⟨b, hb, ⟨body, hwire, -⟩, -⟩ := hput.random hrandom
        have hdrawn : wireAuthenticator raw = b := by
          rw [hwire.authenticator_eq, take_drawn (hcompletes.drawn ha b hb)]
        rw [← hauthenticator]
        refine macAuthenticator_congr hcompletes.code_eq.symm hcompletes.originalCode_eq.symm ?_
        change p.authenticator.or (some (wireAuthenticator raw)) = p'.authenticator
        rw [ha, hb, hdrawn]
        rfl
    · rw [chosenAuthenticator_of_some ha, ← hauthenticator]
      exact macAuthenticator_congr hcompletes.code_eq.symm hcompletes.originalCode_eq.symm
        (ha.trans (hcompletes.authenticator a ha).symm)
  · obtain ⟨a, ha, hputs⟩ := (ensures_replyPacket h w).of_run_eq_ok hrun
    obtain ⟨authenticator, hauthenticator, hcovered⟩ := covered_of_puts hflag hputs
    exact ⟨authenticator, (chosenAuthenticator_of_some ha raw).trans hauthenticator, hcovered⟩

end

/-! ### Three packets -/

/-- The bytes a run returned. -/
def bytesOf {σ : Type} : EStateM.Result Exn σ Bytes → Option Bytes
  | .ok raw _ => some raw
  | .error _ _ => none

theorem exists_of_bytesOf {σ : Type} {r : EStateM.Result Exn σ Bytes} {raw : Bytes}
    (h : bytesOf r = some raw) : ∃ s, r = .ok raw s := by
  rcases r with ⟨b, s⟩ | ⟨e, s⟩
  · cases h
    exact ⟨s, rfl⟩
  · cases h

/-- An Access-Request with the flag set and nothing stored can be sent. -/
theorem sendable_of_entries_eq_nil {E : Env} {D : Dictionary} {p : Packet}
    (hD : D.DeclaresMessageAuthenticator) (hdict : p.dict = some D)
    (hversion : p.radiusVersion = .v1_0) (hhex : HexFree E) (hattrs : p.attrs = ∅)
    (hpending : p.deferredObfuscated = ∅) : Sendable E D p where
  declares := hD
  dict := hdict
  version := hversion
  saltFree := by
    intro D' _ e he
    rw [hpending] at he
    exact (List.not_mem_nil he).elim
  onlyMac := by
    refine ⟨fun e he ↦ ?_, fun keys hkeys key hkey ↦ ?_⟩
    · rw [hattrs] at he
      exact (List.not_mem_nil he).elim
    · rw [deferredAttributeCodes, hpending] at hkeys
      cases hkeys
      exact (List.not_mem_nil hkey).elim
  keepsDigest := keepsDigest_of_hexFree hhex p
  flagged := by
    intro hcontains
    rw [hattrs] at hcontains
    cases hcontains

/-- Digests that repeat the sum of what is digested, but never begin a hexadecimal literal. -/
def sumEnv : Env := Env.ofByte (fun _ ↦ 5) fun _ msg ↦ msg.sum

theorem hexFree_ofByte (md5 : Bytes → UInt8) (hmac : Bytes → Bytes → UInt8) :
    HexFree (Env.ofByte md5 hmac) := by
  intro key msg digits h
  have hfirst : hmac key msg = 0x30 := congrArg (fun b ↦ b.headD 0) h
  have hsecond : hmac key msg = 0x78 := congrArg (fun b ↦ b.tail.headD 0) h
  rw [hfirst] at hsecond
  cases hsecond

/-- An Access-Request with identifier 7 that carries a Message-Authenticator. -/
def flaggedRequest : Packet :=
  { cls := .auth, code := PacketType.accessRequest, id := some 7, secret := [115],
    authenticator := some (List.replicate 16 1),
    dict := some Dictionary.messageAuthenticatorOnly, messageAuthenticator := some true }

/-- A dictionary with a password that is encrypted, and with a name that is not. -/
def passwordDictionary : Dictionary where
  heap := [{ name := "Message-Authenticator", code := 80, type := .octets },
    { name := "User-Password", code := 2, type := .string, encrypt := 1 },
    { name := "User-Name", code := 1, type := .string }]
  attributes := ((OrderedDict.set ∅ "Message-Authenticator" 0).set "User-Password" 1).set
    "User-Name" 2
  attrindex := ((BiDict.empty.add "Message-Authenticator" (.int 80)).add "User-Password"
    (.int 2)).add "User-Name" (.int 1)
  vendors := BiDict.empty.add "" 0
  vendorFormats := ∅

/-- The same request with a User-Name stored and a User-Password pending. -/
def flaggedPassword : Packet :=
  { flaggedRequest with
    dict := some passwordDictionary
    attrs := OrderedDict.set ∅ (.int 1) (.vals [.bytes [98, 111, 98]])
    deferredObfuscated := OrderedDict.set ∅ "User-Password" [.bytes [112, 119]] }

/-- Digests that are hexadecimal literals under every secret but that of the request. -/
def literalEnv : Env where
  md5 := fun _ ↦ List.replicate 16 5
  hmacMd5 := fun key msg ↦
    if key = [115] then List.replicate 16 msg.sum else 0x30 :: 0x78 :: List.replicate 14 0x30
  md5_length := by simp
  hmacMd5_length := fun key msg ↦ by split <;> simp
  ip := Ipaddress.closed

/-- The digest of the packet at hand is all that has to be kept. -/
theorem sendable_flaggedPassword : Sendable literalEnv passwordDictionary flaggedPassword where
  declares := ⟨by decide, _, rfl, rfl, rfl, rfl, rfl, rfl, rfl, rfl, rfl, rfl⟩
  dict := rfl
  version := rfl
  saltFree := by
    intro D hD e he attr hattr _
    cases hD
    obtain rfl : e = ("User-Password", [.bytes [112, 119]]) := List.mem_singleton.1 he
    cases hattr
    exact .inl rfl
  onlyMac := by
    refine ⟨fun e he _ ↦ .inr ?_, fun keys hkeys key hkey ↦ ?_⟩
    · obtain rfl : e = (.int 1, .vals [.bytes [98, 111, 98]]) := List.mem_singleton.1 he
      have hsent := emits_iff_sends.1
        (emits_encodeAvpGroup flaggedPassword (.int 1) (.vals [.bytes [98, 111, 98]]))
      refine emits_iff_sends.2 (hsent.imp fun a ha h80 ↦ ?_)
      rw [h80] at ha
      have hone : (80 : Int) = 1 := ha
      cases hone
    · obtain rfl : keys = [.int 2] := Except.ok.inj (hkeys.symm.trans rfl)
      obtain rfl : key = .int 2 := List.mem_singleton.1 hkey
      decide
  keepsDigest := by
    intro q hq _ w body s header authenticator v _ _ _ hv
    have hsecret : q.secret = [115] := by
      obtain ⟨id, own, flag, attrs, rfl⟩ := hq.pkt_eq
      rfl
    obtain ⟨c, rfl, ⟨⟨digits, hdigits⟩, -⟩ | ⟨-, rfl⟩⟩ := Tools.encodeOctets_bytes_eq_ok hv
    · exfalso
      rw [hsecret] at hdigits
      have hfirst : (header ++ authenticator ++ body).sum = 0x30 :=
        congrArg (fun b ↦ b.headD 0) hdigits
      have hsecond : (header ++ authenticator ++ body).sum = 0x78 :=
        congrArg (fun b ↦ b.tail.headD 0) hdigits
      rw [hfirst] at hsecond
      cases hsecond
    · rfl
  flagged := fun _ ↦ rfl

/-- What goes out of it. -/
def passwordRaw : Bytes :=
  [1, 7, 0, 61] ++ List.replicate 16 1 ++ [1, 5, 98, 111, 98, 80, 18] ++ List.replicate 16 49 ++
    [2, 18, 117, 114] ++ List.replicate 14 5

theorem macCovers_of_sendable_flaggedPassword :
    (∃ s, (requestPacket literalEnv).run ⟨flaggedPassword, { rng := ⟨fun n ↦ n⟩ }⟩ =
      .ok passwordRaw s) ∧ MacCovers literalEnv flaggedPassword :=
  ⟨exists_of_bytesOf (by decide +kernel), macCovers_of_sendable sendable_flaggedPassword rfl⟩

/-- A dictionary with one attribute that is salt-encrypted. -/
def saltedDictionary : Dictionary where
  heap := [{ name := "Message-Authenticator", code := 80, type := .octets },
    { name := "Tunnel-Password", code := 69, type := .octets, encrypt := 2 }]
  attributes := (OrderedDict.set ∅ "Message-Authenticator" 0).set "Tunnel-Password" 1
  attrindex := (BiDict.empty.add "Message-Authenticator" (.int 80)).add "Tunnel-Password" (.int 69)
  vendors := BiDict.empty.add "" 0
  vendorFormats := ∅

/-- The same request with a Tunnel-Password pending. -/
def saltedRequest : Packet :=
  { flaggedRequest with
    dict := some saltedDictionary
    deferredObfuscated := OrderedDict.set ∅ "Tunnel-Password" [.bytes [112, 119]] }

/-- What goes out when the first salt drawn is `80 00` and the second one `80 01`. -/
def saltedRaw : Bytes :=
  [1, 7, 0, 58] ++ List.replicate 16 1 ++ [80, 18] ++ List.replicate 16 188 ++
    [69, 20, 128, 1, 7, 117, 114] ++ List.replicate 13 5

/-- The attributes of `saltedRaw`. -/
def saltedSplit : MacSplit (saltedRaw.drop 20) where
  front := []
  mac := ⟨80, List.replicate 16 188, by decide⟩
  back := [⟨69, [128, 1, 7, 117, 114] ++ List.replicate 13 5, by decide⟩]
  body_eq := by decide
  code_eq := rfl
  length_eq := rfl
  others := by decide

/-- The digest was taken of the first salt, and the second one is sent. -/
theorem not_macCovers_saltedRequest : ¬ MacCovers sumEnv saltedRequest := by
  intro h
  obtain ⟨s, hrun⟩ : ∃ s, (requestPacket sumEnv).run ⟨saltedRequest, { rng := ⟨fun n ↦ n⟩ }⟩ =
      .ok saltedRaw s := exists_of_bytesOf (by decide +kernel)
  obtain ⟨authenticator, hauthenticator, m, hvalue⟩ := h _ saltedRaw s (.inl hrun)
  have hchosen : authenticator = List.replicate 16 1 := by
    cases hauthenticator
    rfl
  rw [m.value_unique saltedSplit, m.zeroed_unique saltedSplit, hchosen] at hvalue
  exact absurd hvalue (by decide +kernel)

end Packet

end Pyrad2
