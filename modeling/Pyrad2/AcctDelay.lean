import Mathlib.Algebra.BigOperators.Group.Finset.Basic
import Pyrad2.Transmissions
import Pyrad2.Packet.Serialize
import Pyrad2.Packet.PlainAccess

/-!
# The delay of an accounting request

What the synchronous client does to `Acct-Delay-Time` while it sends an accounting request again.

The attribute is read and rewritten by name before each retransmission, so its value is the sum of
what was added so far; the sum is in the packet and nowhere else. Whatever ends the call, the values
of the beginning are assigned again, or the attribute is deleted if there was none.
-/

namespace Pyrad2

open EStateM

/-- `Acct-Delay-Time` is declared as a plain integer. -/
abbrev Dictionary.DeclaresAcctDelay (D : Dictionary) : Prop :=
  D.DeclaresPlain "Acct-Delay-Time" 41 .integer

/-- The packet with other attributes. -/
def PacketState.withAttrs (s : PacketState) (attrs : Attrs PyVal) : PacketState :=
  { s with pkt := { s.pkt with attrs } }

namespace Packet

theorem partitionTag_acctDelay : partitionTag "Acct-Delay-Time" = ("Acct-Delay-Time", "") := by
  decide +kernel

/-- The first value of `Acct-Delay-Time`, if there is one. -/
def acctDelay (attrs : Attrs PyVal) : Option ℕ :=
  match attrs.get? (.int 41) with
  | some (.vals (.bytes b :: _)) => some (Bytes.toNatBE b)
  | _ => none

/-- The attributes with one value for `Acct-Delay-Time`. -/
def withAcctDelay (attrs : Attrs PyVal) (delay : Int) : Attrs PyVal :=
  attrs.set (.int 41) (.vals [.bytes (Bytes.ofNatBE 4 delay.toNat)])

/-- The number fits the attribute. -/
def FitsDelay (delay : Int) : Prop := 0 ≤ delay ∧ delay < 2 ^ 32

theorem acctDelay_withAcctDelay (attrs : Attrs PyVal) {delay : Int} (h : FitsDelay delay) :
    acctDelay (withAcctDelay attrs delay) = some delay.toNat := by
  have hlt : delay.toNat < 256 ^ 4 := by
    have := h.2
    omega
  rw [acctDelay, withAcctDelay, OrderedDict.get?_set_self]
  exact congrArg some (Bytes.toNatBE_ofNatBE hlt)

/-- Where the first value is read. -/
theorem exists_of_acctDelay {attrs : Attrs PyVal} {n : ℕ} (h : acctDelay attrs = some n) :
    ∃ b rest, attrs.get? (.int 41) = some (.vals (.bytes b :: rest)) ∧ Bytes.toNatBE b = n := by
  rw [acctDelay] at h
  split at h
  · next b rest hstored => exact ⟨b, rest, hstored, Option.some.inj h⟩
  · cases h

theorem withAcctDelay_withAcctDelay (attrs : Attrs PyVal) (delay delay' : Int) :
    withAcctDelay (withAcctDelay attrs delay) delay' = withAcctDelay attrs delay' :=
  OrderedDict.set_set ..

section

variable {D : Dictionary} {E : Env} {s : PacketState}

/-! ### The change before a retransmission -/

/-- **Assigning a number** stores it if it fits. -/
theorem run_setItem_delay (hD : D.DeclaresAcctDelay) (hdict : s.pkt.dict = some D) (delay : Int) :
    (FitsDelay delay ∧ (setItem E "Acct-Delay-Time" [.int delay]).run s =
        .ok () (s.withAttrs (withAcctDelay s.pkt.attrs delay))) ∨
      (setItem E "Acct-Delay-Time" [.int delay]).run s = .error .structError s := by
  have hencode : [PyVal.int delay].mapM (Tools.encodeAttr E .integer) =
      (packUnsigned 4 delay).map fun b ↦ [.bytes b] := by
    rw [List.mapM_cons, List.mapM_nil]
    show ((packUnsigned 4 delay).map PyVal.bytes >>= _) = _
    rcases packUnsigned 4 delay with e | b <;> rfl
  rw [run_setItem_of_plain hD partitionTag_acctDelay hdict, hencode, packUnsigned]
  by_cases hfit : 0 ≤ delay ∧ delay < 256 ^ 4
  · rw [if_pos hfit]
    exact .inl ⟨⟨hfit.1, by simpa using hfit.2⟩, rfl⟩
  · rw [if_neg hfit]
    exact .inr rfl

/-- Reading the first value gives the number in it, or raises. -/
theorem getFirst_acctDelay (hD : D.DeclaresAcctDelay) {p : Packet} (hdict : p.dict = some D) :
    (∃ n, acctDelay p.attrs = some n ∧ p.getFirst E "Acct-Delay-Time" = .ok (.int n)) ∨
      ∃ e, p.getFirst E "Acct-Delay-Time" = .error e := by
  rcases hread : p.getFirst E "Acct-Delay-Time" with e | v
  · exact .inr ⟨e, rfl⟩
  refine .inl ?_
  rcases hstored : p.attrs.get? (.int 41) with - | (vs | m)
  · have hnone : p.getFirst E "Acct-Delay-Time" = .error .keyError := by
      rw [getFirst, getItem, theDict, hdict, Except.bind_of_ok, hD.encodeKey_eq, Except.bind_of_ok,
        hstored]
      rfl
    cases hnone.symm.trans hread
  · rw [getFirst, getItem_of_plain hD rfl hdict hstored] at hread
    rcases vs with - | ⟨first, rest⟩
    · cases hread
    rw [List.mapM_cons] at hread
    rcases first with - | n | t | b
    iterate 3 cases hread
    have hdecode : decodeStoredAttr E .integer (.bytes b) = Tools.decodeUnsigned 4 b := rfl
    rw [acctDelay, hstored]
    refine ⟨Bytes.toNatBE b, rfl, ?_⟩
    rw [hdecode, Tools.decodeUnsigned] at hread
    split at hread
    · generalize rest.mapM (decodeStoredAttr E .integer) = others at hread
      rcases others with e | others
      · cases hread
      · cases hread
        rfl
    · cases hread
  · rw [getFirst, getItem_of_plain_node hD rfl hdict hstored] at hread
    rcases m with - | ⟨e, m⟩
    · cases hread
    · cases hread

/-- **The change of `Acct-Delay-Time`** adds to the first value, or to zero if there is none. A change
that raises leaves the packet as it was. -/
theorem run_bumpAcctDelayTime (hD : D.DeclaresAcctDelay) (hdict : s.pkt.dict = some D)
    (previousWait : Time) {delay : Int}
    (hdelay : delay = (acctDelay s.pkt.attrs).getD 0 + truncate previousWait) :
    (FitsDelay delay ∧ (bumpAcctDelayTime E previousWait).run s =
        .ok () (s.withAttrs (withAcctDelay s.pkt.attrs delay))) ∨
      ∃ e, (bumpAcctDelayTime E previousWait).run s = .error e s := by
  rw [bumpAcctDelayTime, run_bind_of_ok (run_get s)]
  dsimp only
  rw [contains_of_plain hD hdict, run_bind_of_ok (run_liftM_ok _ s)]
  split
  · rcases getFirst_acctDelay (E := E) hD hdict with ⟨n, hn, hread⟩ | ⟨e, hread⟩
    · rw [hn, Option.getD_some] at hdelay
      have hrun : (do
          let value ← addInt (truncate previousWait) (← s.pkt.getFirst E "Acct-Delay-Time")
          setItem E "Acct-Delay-Time" [value] : PacketMethod Unit).run s =
            (setItem E "Acct-Delay-Time" [.int delay]).run s := by
        rw [hread, hdelay]
        rfl
      rw [hrun]
      exact (run_setItem_delay hD hdict delay).imp_right fun h ↦ ⟨_, h⟩
    · refine .inr ⟨e, ?_⟩
      rw [hread]
      rfl
  · next hcontains =>
    have hnone : acctDelay s.pkt.attrs = none := by
      rw [OrderedDict.contains, Bool.not_eq_true, Option.isSome_eq_false_iff,
        Option.isNone_iff_eq_none] at hcontains
      rw [acctDelay, hcontains]
    rw [hnone, Option.getD_none, Nat.cast_zero, zero_add] at hdelay
    rw [← hdelay]
    exact (run_setItem_delay hD hdict delay).imp_right fun h ↦ ⟨_, h⟩

end

/-! ### One transmission -/

section

variable {D : Dictionary} {E : Env} {p : Packet}

/-- The packets differ in the identifier and the authenticator at most. -/
def Stamps (p : Packet) (s : PacketState) : Prop :=
  ∃ id authenticator, s.pkt = { p with id, authenticator }

/-- **A request without a Message-Authenticator and without pending values** goes out with its stored
attributes and keeps them. -/
theorem ensures_requestPacket_acct (hcls : p.cls = .acct)
    (hmac : p.messageAuthenticator ≠ some true) (hpending : p.deferredObfuscated.entries = [])
    (w : World) :
    Ensures (requestPacket E) ⟨p, w⟩
      (fun raw s ↦ Stamps p s ∧ p.encodeStored [] = .ok (raw.drop 20)) fun _ s ↦ Stamps p s := by
  obtain ⟨i, w', hid⟩ := exists_run_ensureId p w
  set q : Packet := { p with id := some i } with hq
  have hcodes : Stamps p ⟨q, w'⟩ := ⟨some i, p.authenticator, rfl⟩
  have hrefresh : (refreshIfCarried E).run ⟨q, w'⟩ = .ok () ⟨q, w'⟩ := by
    rw [refreshIfCarried, run_bind_of_ok (run_get _)]
    dsimp only
    rw [if_neg hmac]
    rfl
  have hserialize : Ensures (serializeV11 E) ⟨q, w'⟩
      (fun raw s ↦ Stamps p s ∧ p.encodeStored [] = .ok (raw.drop 20)) fun _ s ↦ Stamps p s := by
    rw [serializeV11]
    rcases hbody : p.encodeStored [] with e | body
    · have hencode := run_encodeAttributes_of_error E (s := ⟨q, w'⟩) hpending hbody
      exact ensures_bind.2 (.of_error hencode hcodes)
    · have hencode := run_encodeAttributes_of_ok E (s := ⟨q, w'⟩) hpending hbody
      refine ensures_bind.2 (.of_ok hencode (ensures_bind.2 (ensures_get.2 (ensures_bind.2
        (ensures_liftM (fun header hheader ↦ ?_) fun _ _ ↦ hcodes)))))
      obtain ⟨front, token, hfront, -, htoken, rfl⟩ := packV11Header_eq_ok hheader
      have hlength : (front ++ token ++ List.replicate 12 0).length = 20 := by
        simp [length_header hfront, htoken]
      exact ⟨hcodes, by rw [List.drop_left' hlength]⟩
  have hdigest : Ensures (encodeV10RequestWithBodyMd5Authenticator E) ⟨q, w'⟩
      (fun raw s ↦ Stamps p s ∧ p.encodeStored [] = .ok (raw.drop 20)) fun _ s ↦ Stamps p s := by
    rw [encodeV10RequestWithBodyMd5Authenticator]
    refine ensures_bind.2 (.of_ok hrefresh ?_)
    rcases hbody : p.encodeStored [] with e | body
    · have hencode := run_encodeAttributes_of_error E (s := ⟨q, w'⟩) hpending hbody
      exact ensures_bind.2 (.of_error hencode hcodes)
    · have hencode := run_encodeAttributes_of_ok E (s := ⟨q, w'⟩) hpending hbody
      refine ensures_bind.2 (.of_ok hencode (ensures_bind.2 (ensures_get.2 (ensures_bind.2
        (ensures_liftM (fun header hheader ↦ ?_) fun _ _ ↦ hcodes)))))
      refine ensures_bind.2 (ensures_modify.2 ⟨⟨some i, _, rfl⟩, ?_⟩)
      have hfront : (header ++ E.md5 (header ++ zeros16 ++ body ++ p.secret)).length = 20 := by
        rw [List.length_append, length_header hheader, E.md5_length]
      rw [List.drop_left' hfront]
  rw [requestPacket]
  refine ensures_bind.2 (ensures_get.2 ?_)
  dsimp only
  rw [if_neg (by rw [hcls]; decide)]
  refine ensures_bind.2 (.of_ok hid ?_)
  split
  · exact hserialize
  · rw [hcls]
    exact hdigest

/-- An `Acct-Delay-Time` on the wire. -/
def delayAvp (b : Bytes) (hb : b.length = 4) : Avp := ⟨41, b, by omega⟩

/-- A datagram carries the delay: its attributes are these, and one of them is an `Acct-Delay-Time` of
four bytes that spell it. -/
def CarriesDelay (raw : Bytes) (delay : ℕ) : Prop :=
  ∃ front back b, ∃ hb : b.length = 4, raw.drop 20 = Avp.join (front ++ delayAvp b hb :: back) ∧
    Bytes.toNatBE b = delay

theorem packItem_delay {b : Bytes} (hb : b.length = 4) :
    packItem 41 (.bytes b) = .ok (delayAvp b hb).bytes := by
  have hpack (code : Int) : packItem code (.bytes b) =
      packOctets [code, (b.length : Int) + 2] >>= fun header ↦ .ok (header ++ b) := rfl
  have hheader : packOctets [41, ((4 : ℕ) : Int) + 2] = .ok [41, 6] := by decide
  rw [hpack, hb, hheader, delayAvp, Avp.bytes, hb]
  rfl

/-- **A stored delay goes out.** -/
theorem exists_avps_of_encodeStored (hD : D.DeclaresAcctDelay) (hdict : p.dict = some D) {b : Bytes}
    (hb : b.length = 4) {rest : List PyVal}
    (hstored : p.attrs.get? (.int 41) = some (.vals (.bytes b :: rest))) {body : Bytes}
    (hbody : p.encodeStored [] = .ok body) :
    ∃ front back, body = Avp.join (front ++ delayAvp b hb :: back) := by
  obtain ⟨pre, post, hentries⟩ : ∃ pre post,
      p.attrs.entries = pre ++ (.int 41, .vals (.bytes b :: rest)) :: post :=
    List.append_of_mem (OrderedDict.get?_eq_some_iff.1 hstored)
  have hsends {entries : List (Key × Stored PyVal)} {parts : List Bytes}
      (h : entries.mapM (p.encodeEntry []) = .ok parts) : ∃ avps, parts.flatten = Avp.join avps := by
    have hparts (part : Bytes) (hpart : part ∈ parts) :
        ∃ l, part = Avp.join l ∧ ∀ a ∈ l, True := by
      obtain ⟨e, -, hencode⟩ := Except.exists_of_mem_mapM h hpart
      rw [encodeEntry] at hencode
      split at hencode
      · cases hencode
        exact ⟨[], rfl, fun _ _ ↦ trivial⟩
      · obtain ⟨l, hl, -⟩ := (emits_encodeAvpGroup p e.1 e.2).exists_avps part hencode
        exact ⟨l, hl, fun _ _ ↦ trivial⟩
    obtain ⟨avps, havps, -⟩ := exists_avps_flatten (P := fun _ ↦ True) hparts
    exact ⟨avps, havps⟩
  have hvirtual : p.isVirtualAttribute (.int 41) = false := by
    rw [isVirtualAttribute, hdict]
    exact hD.isVirtualAttribute_eq
  have hgroup : p.encodeEntry [] (.int 41, .vals (.bytes b :: rest)) =
      rest.mapM (packItem 41) >>= fun parts ↦ .ok ((delayAvp b hb).bytes ++ parts.flatten) := by
    rw [encodeEntry, if_neg (by simp [hvirtual]), encodeAvpGroup_of_plain hD rfl hdict,
      List.mapM_cons, packItem_delay hb, Except.bind_of_ok]
    rcases rest.mapM (packItem 41) with e | parts <;> rfl
  rw [encodeStored_eq, hentries, List.mapM_append, List.mapM_cons, hgroup] at hbody
  obtain ⟨all, hall, heq⟩ := Except.bind_eq_ok_iff.1 hbody
  obtain ⟨before, hbefore, hall⟩ := Except.bind_eq_ok_iff.1 hall
  obtain ⟨after, hafter, hall⟩ := Except.bind_eq_ok_iff.1 hall
  obtain ⟨group, hgroup', hafter⟩ := Except.bind_eq_ok_iff.1 hafter
  obtain ⟨parts, hparts, hgroup'⟩ := Except.bind_eq_ok_iff.1 hgroup'
  obtain ⟨others, hothers, hafter⟩ := Except.bind_eq_ok_iff.1 hafter
  cases heq
  cases hall
  cases hafter
  cases hgroup'
  obtain ⟨front, hfront⟩ := hsends hbefore
  obtain ⟨back, hback⟩ := hsends hothers
  obtain ⟨more, hmore, -⟩ := (emits_flatten_mapM fun v _ ↦ emits_packItem 41 v :
    Emits (IsCode 41) (do return (← rest.mapM (packItem 41)).flatten)).exists_avps parts.flatten
      (by rw [hparts]; rfl)
  refine ⟨front, more ++ back, ?_⟩
  rw [List.flatten_append, List.flatten_cons, hfront, hback, hmore]
  simp only [Avp.join_append, Avp.join_cons, List.append_assoc]

end

end Packet

/-! ### The call -/

namespace Client

open Packet

/-- What the client asks of a packet to treat its delay: an accounting request whose dictionary
declares `Acct-Delay-Time` as a plain integer, without a Message-Authenticator, without pending
values, and without an empty map in the place of the values. -/
structure AccountingCall (D : Dictionary) (p : Packet) : Prop where
  cls : p.cls = .acct
  code : p.code = PacketType.accountingRequest
  dict : p.dict = some D
  declares : D.DeclaresAcctDelay
  macFree : p.messageAuthenticator ≠ some true
  settled : p.deferredObfuscated.entries = []
  listed : p.attrs.get? (.int 41) ≠ some (.node [])

/-- The integer parts of the waits before transmission `k`, added up. -/
def waited (policy : RetryPolicy) (attempts : ℕ → SendAttempt) (k : ℕ) : Int :=
  ∑ j ∈ Finset.range k, truncate (policy.exactWait j (attempts j).noise)

/-- The delay of transmission `k`. -/
def delayAt (c : Client) (s : CallState) (k : ℕ) : Int :=
  ((acctDelay s.pkt.attrs).getD 0 : ℕ) + waited c.retryPolicy s.attempts k

/-- The attributes of the packet at transmission `k`. -/
def attrsAt (c : Client) (s : CallState) : ℕ → Attrs PyVal
  | 0 => s.pkt.attrs
  | k + 1 => withAcctDelay s.pkt.attrs (delayAt c s (k + 1))

/-- Datagram `k` of the call is the packet with these attributes, and it carries the delay, unless it
is the first one and there was none. -/
structure Reports (c : Client) (E : Env) (s : CallState) (k : ℕ) (raw : Bytes) : Prop where
  serialized : ∃ id authenticator w t, (requestPacket E).run
    ⟨{ s.pkt with id, authenticator, attrs := attrsAt c s k }, w⟩ = .ok raw t
  carries : k ≠ 0 ∨ (acctDelay s.pkt.attrs).isSome →
    0 ≤ delayAt c s k ∧ CarriesDelay raw (delayAt c s k).toNat

/-- What was sent since, datagram by datagram. -/
structure SentReports (c : Client) (E : Env) (port : ℕ) (s t : CallState) (raws : List Bytes) :
    Prop where
  sent : t.sent = s.sent ++ raws.map fun raw ↦ (port, raw)
  reports : ∀ k raw, raws[k]? = some raw → Reports c E s k raw

/-- The packet of the call, with other attributes. -/
def Carrying (s t : CallState) (attrs : Attrs PyVal) : Prop :=
  ∃ id authenticator, t.pkt = { s.pkt with id, authenticator, attrs }

/-- The call when `m` attempts have met the network and `k` datagrams have been sent, with the
attributes of transmission `i`. -/
structure Before (c : Client) (E : Env) (port : ℕ) (s : CallState) (m k i : ℕ) (t : CallState) :
    Prop where
  carrying : Carrying s t (attrsAt c s i)
  fits : i ≠ 0 → FitsDelay (delayAt c s i)
  attempts : ∀ n, t.attempts n = s.attempts (n + m)
  sent : ∃ raws, raws.length = k ∧ SentReports c E port s t raws

/-- The call at its end, before the values of the beginning are restored. -/
structure Ended (c : Client) (E : Env) (port : ℕ) (s t : CallState) : Prop where
  carrying : ∃ attrs, Carrying s t attrs ∧
    (attrs = s.pkt.attrs ∨ ∃ delay, attrs = withAcctDelay s.pkt.attrs delay)
  sent : ∃ raws, SentReports c E port s t raws

section

variable {c : Client} {E : Env} {port : ℕ} {D : Dictionary} {s t : CallState} {m k i : ℕ}

theorem SentReports.of_sent_eq {t' : CallState} {raws : List Bytes}
    (h : SentReports c E port s t raws) (hsent : t'.sent = t.sent) :
    SentReports c E port s t' raws := ⟨hsent.trans h.sent, h.reports⟩

/-- The next datagram. -/
theorem SentReports.append {t' : CallState} {raws : List Bytes} {raw : Bytes}
    (h : SentReports c E port s t raws) (hsent : t'.sent = t.sent ++ [(port, raw)])
    (hraw : Reports c E s raws.length raw) : SentReports c E port s t' (raws ++ [raw]) where
  sent := by
    rw [hsent, h.sent, List.append_assoc, List.map_append]
    rfl
  reports := fun k raw' hraw' ↦ by
    rcases lt_or_ge k raws.length with hlt | hge
    · exact h.reports k raw' (by rwa [List.getElem?_append_left hlt] at hraw')
    · rw [List.getElem?_append_right hge, List.getElem?_singleton] at hraw'
      split at hraw'
      · obtain rfl : k = raws.length := by omega
        rwa [← Option.some.inj hraw']
      · cases hraw'

theorem attrsAt_eq (c : Client) (s : CallState) (k : ℕ) :
    attrsAt c s k = s.pkt.attrs ∨ ∃ delay, attrsAt c s k = withAcctDelay s.pkt.attrs delay := by
  rcases k with - | k
  · exact .inl rfl
  · exact .inr ⟨_, rfl⟩

theorem Before.ended (h : Before c E port s m k i t) : Ended c E port s t where
  carrying := ⟨_, h.carrying, attrsAt_eq c s i⟩
  sent := h.sent.imp fun _ h ↦ h.2

theorem delayAt_succ (c : Client) (s : CallState) (k : ℕ) :
    delayAt c s (k + 1) =
      delayAt c s k + truncate (c.retryPolicy.exactWait k (s.attempts k).noise) := by
  rw [delayAt, delayAt, waited, waited, Finset.sum_range_succ, add_assoc]

/-- What the packet reads is the delay of its last transmission. -/
theorem getD_acctDelay_attrsAt (hfits : k ≠ 0 → FitsDelay (delayAt c s k)) :
    ((acctDelay (attrsAt c s k)).getD 0 : ℕ) = delayAt c s k := by
  rcases k with - | k
  · rw [delayAt, waited, Finset.range_zero, Finset.sum_empty, add_zero]
    rfl
  · have hfits := hfits (Nat.succ_ne_zero k)
    rw [attrsAt, acctDelay_withAcctDelay _ hfits, Option.getD_some, Int.toNat_of_nonneg hfits.1]

/-- **The change before a retransmission** leads from the attributes of one transmission to those of
the next. -/
theorem ensures_onPacket_bump (hs : AccountingCall D s.pkt) (h : Before c E port s m (k + 1) k t) :
    Ensures (onPacket (bumpAcctDelayTime E (c.retryPolicy.exactWait k (s.attempts k).noise))) t
      (fun _ t' ↦ Before c E port s m (k + 1) (k + 1) t') fun _ t' ↦ Ended c E port s t' := by
  obtain ⟨id, authenticator, hpkt⟩ := h.carrying
  have hdict : t.pkt.dict = some D := by rw [hpkt]; exact hs.dict
  have hdelay : delayAt c s (k + 1) = ((acctDelay t.pkt.attrs).getD 0 : ℕ) +
      truncate (c.retryPolicy.exactWait k (s.attempts k).noise) := by
    rw [delayAt_succ, hpkt]
    exact congrArg (· + _) (getD_acctDelay_attrsAt h.fits).symm
  have hattrs : withAcctDelay t.pkt.attrs (delayAt c s (k + 1)) = attrsAt c s (k + 1) := by
    rw [hpkt]
    rcases attrsAt_eq c s k with hk | ⟨delay, hk⟩
    · show withAcctDelay (attrsAt c s k) _ = _
      rw [hk]
      rfl
    · show withAcctDelay (attrsAt c s k) _ = _
      rw [hk, withAcctDelay_withAcctDelay]
      rfl
  refine ensures_onPart.2 ?_
  rcases run_bumpAcctDelayTime (E := E) hs.declares (s := ⟨t.pkt, t.world⟩) hdict _ hdelay with
    ⟨hfits, hrun⟩ | ⟨e, hrun⟩
  · refine .of_ok hrun ⟨⟨id, authenticator, ?_⟩, fun _ ↦ hfits, h.attempts,
      h.sent.imp fun _ h ↦ ⟨h.1, h.2.of_sent_eq rfl⟩⟩
    show { t.pkt with attrs := withAcctDelay t.pkt.attrs (delayAt c s (k + 1)) } = _
    rw [hattrs, hpkt]
  · exact .of_error hrun h.ended

/-! ### One attempt -/

/-- The packet, what was sent and the attempts to come are as they were. -/
structure SameCall (t t' : CallState) : Prop where
  pkt : t'.pkt = t.pkt
  sent : t'.sent = t.sent
  attempts : t'.attempts = t.attempts

instance instIsPreorderSameCall : IsPreorder CallState SameCall where
  refl := fun _ ↦ ⟨rfl, rfl, rfl⟩
  trans := fun _ _ _ h h' ↦
    ⟨h'.pkt.trans h.pkt, h'.sent.trans h.sent, h'.attempts.trans h.attempts⟩

theorem sameCall_inWorld {α : Type} (m : Method World α) : Respects SameCall (inWorld m) :=
  respects_onPart m fun _ _ ↦ ⟨rfl, rfl, rfl⟩

theorem sameCall_replyFrom (rawreply : Bytes) : Respects SameCall (replyFrom c E rawreply) := by
  refine respects_get.bind fun t ↦ Respects.tryCatch ?_ fun e ↦ ?_
  · refine (sameCall_inWorld _).bind fun reply ↦ (sameCall_inWorld _).bind fun verified ↦ ?_
    dsimp only
    split
    · exact respects_pure _
    · exact respects_pure _
  · split
    · exact respects_pure _
    · exact respects_throw _

/-- What is received does not touch the packet of the call. -/
theorem sameCall_receive (raises : Option Exn) (received : List Bytes) :
    Respects SameCall (receive c E raises received) := by
  induction received with
  | nil =>
    rcases raises with - | e
    · exact respects_pure _
    · exact respects_throw e
  | cons rawreply rest ih =>
    rw [receive]
    split
    · exact ih
    · refine (sameCall_replyFrom _).bind fun reply ↦ ?_
      split
      · exact respects_pure _
      · exact ih

theorem sameCall_awaitReply (wait : Time) (met : SendAttempt) :
    Respects SameCall (awaitReply c E wait met) := by
  rw [awaitReply]
  split
  · exact sameCall_receive _ _
  · exact respects_pure _

theorem Before.of_sameCall {t' : CallState} (h : Before c E port s m k i t) (hsame : SameCall t t') :
    Before c E port s m k i t' where
  carrying := by rw [Carrying, hsame.pkt]; exact h.carrying
  fits := h.fits
  attempts := by rw [hsame.attempts]; exact h.attempts
  sent := h.sent.imp fun _ h ↦ ⟨h.1, h.2.of_sent_eq hsame.sent⟩

/-- An accounting request is not given a Message-Authenticator. -/
theorem run_prepareOutgoingPacket (hcode : t.pkt.code = PacketType.accountingRequest) :
    (prepareOutgoingPacket c E).run t = .ok () t := by
  have hrun : (prepareRequestMessageAuthenticator E c.enforceMa).run ⟨t.pkt, t.world⟩ =
      .ok () ⟨t.pkt, t.world⟩ := by
    rw [prepareRequestMessageAuthenticator, run_bind_of_ok (run_get _)]
    dsimp only
    split
    · rfl
    · rw [if_pos (by rw [hcode]; decide)]
      rfl
  rw [prepareOutgoingPacket, onPacket, run_onPart, hrun]

/-- The first value that is stored, of which the delay was read, has four bytes. -/
structure FourBytes (s : CallState) : Prop where
  first : ∀ b rest, s.pkt.attrs.get? (.int 41) = some (.vals (.bytes b :: rest)) → b.length = 4

/-- **A transmission** reports the delay. -/
theorem ensures_onPacket_requestPacket (hs : AccountingCall D s.pkt) (hfour : FourBytes s)
    (h : Before c E port s m k k t) :
    Ensures (onPacket (requestPacket E)) t
      (fun raw t' ↦ Before c E port s m k k t' ∧ Reports c E s k raw)
      fun _ t' ↦ Ended c E port s t' := by
  obtain ⟨id, authenticator, hpkt⟩ := h.carrying
  set p : Packet := { s.pkt with id, authenticator, attrs := attrsAt c s k } with hp
  refine ensures_onPart.2 ?_
  have hensures := ensures_requestPacket_acct (E := E) (p := p) hs.cls hs.macFree hs.settled t.world
  have hstate : (⟨t.pkt, t.world⟩ : PacketState) = ⟨p, t.world⟩ := by rw [hpkt]
  rw [hstate]
  have hcarrying (ps : PacketState) (hstamps : Stamps p ps) :
      Before c E port s m k k { t with pkt := ps.pkt, world := ps.world } := by
    obtain ⟨id', authenticator', hps⟩ := hstamps
    exact ⟨⟨id', authenticator', hps⟩, h.fits, h.attempts,
      h.sent.imp fun _ h ↦ ⟨h.1, h.2.of_sent_eq rfl⟩⟩
  rcases hrun : (requestPacket E).run ⟨p, t.world⟩ with ⟨raw, ps⟩ | ⟨e, ps⟩
  · obtain ⟨hstamps, hbody⟩ := hensures.of_run_eq_ok hrun
    refine .of_ok hrun ⟨hcarrying ps hstamps, ⟨id, authenticator, t.world, ps, hrun⟩, fun hk ↦ ?_⟩
    obtain ⟨b, rest, hb, hstored, hdelay⟩ : ∃ b rest, b.length = 4 ∧
        p.attrs.get? (.int 41) = some (.vals (.bytes b :: rest)) ∧
          (Bytes.toNatBE b : Int) = delayAt c s k := by
      rcases k with - | k
      · obtain ⟨n, hn⟩ := Option.isSome_iff_exists.1 (hk.resolve_left fun h ↦ h rfl)
        obtain ⟨b, rest, hstored, hb⟩ := exists_of_acctDelay hn
        refine ⟨b, rest, hfour.first b rest hstored, hstored, ?_⟩
        rw [hb, ← getD_acctDelay_attrsAt h.fits, attrsAt, hn, Option.getD_some]
      · refine ⟨_, [], Bytes.length_ofNatBE .., OrderedDict.get?_set_self .., ?_⟩
        obtain ⟨hle, hlt⟩ := h.fits (Nat.succ_ne_zero k)
        rw [Bytes.toNatBE_ofNatBE (by omega), Int.toNat_of_nonneg hle]
    obtain ⟨front, back, havps⟩ := exists_avps_of_encodeStored hs.declares (p := p) hs.dict hb hstored hbody
    refine ⟨by omega, front, back, b, hb, havps, by omega⟩
  · exact .of_error hrun (hcarrying ps (hensures.of_run_eq_error hrun)).ended

/-- **One attempt**, once the delay is the one that is due, and the rest of the attempts. -/
theorem ensures_attemptThen_acct (hs : AccountingCall D s.pkt) (hfour : FourBytes s)
    {rest : Time → ClientCall Packet}
    (hrest : ∀ wait t', Before c E port s (k + 1) (k + 1) k t' →
      wait = c.retryPolicy.exactWait k (s.attempts k).noise →
      Ensures (rest wait) t' (fun _ t'' ↦ Ended c E port s t'') fun _ t'' ↦ Ended c E port s t'')
    (h₁ : Before c E port s k k k t₁) :
    Ensures (attemptThen c E port k rest) t₁ (fun _ t' ↦ Ended c E port s t')
      fun _ t' ↦ Ended c E port s t' := by
  rw [attemptThen, ensures_bind]
  show Ensures _ { t₁ with attempts := fun n ↦ t₁.attempts (n + 1) } _ _
  set t₂ : CallState := { t₁ with attempts := fun n ↦ t₁.attempts (n + 1) } with ht₂
  have h₂ : Before c E port s (k + 1) k k t₂ := by
    refine ⟨h₁.carrying, h₁.fits, fun n ↦ ?_, h₁.sent.imp fun _ h ↦ ⟨h.1, h.2.of_sent_eq rfl⟩⟩
    rw [ht₂]
    show t₁.attempts (n + 1) = _
    rw [h₁.attempts, add_assoc, add_comm 1 k]
  rw [h₁.attempts 0, Nat.zero_add]
  refine ensures_bind.2 (ensures_liftM (fun wait hwait ↦ ?_) fun _ _ ↦ h₂.ended)
  obtain ⟨id, authenticator, hpkt⟩ := h₂.carrying
  have hcode : t₂.pkt.code = PacketType.accountingRequest := by rw [hpkt]; exact hs.code
  refine ensures_bind.2 (.of_ok (run_prepareOutgoingPacket hcode) ?_)
  refine ensures_bind.2 ((ensures_onPacket_requestPacket hs hfour h₂).imp
    (fun raw t₃ hsent ↦ ?_) fun _ _ h ↦ h)
  obtain ⟨h₃, hreports⟩ := hsent
  unfold sendto
  rcases (s.attempts k).sendRaises with - | e
  swap
  · exact h₃.ended
  -- the datagram of this attempt
  rw [ensures_bind]
  show Ensures _ { t₃ with sent := t₃.sent ++ [(port, raw)] } _ _
  set t₄ : CallState := { t₃ with sent := t₃.sent ++ [(port, raw)] }
  have h₄ : Before c E port s (k + 1) (k + 1) k t₄ := by
    obtain ⟨raws, hlength, hraws⟩ := h₃.sent
    refine ⟨h₃.carrying, h₃.fits, h₃.attempts, raws ++ [raw], ?_, hraws.append rfl (hlength ▸ hreports)⟩
    rw [List.length_append, hlength]
    rfl
  have hawait : Respects SameCall (awaitReply c E wait (s.attempts k)) :=
    sameCall_awaitReply wait _
  refine ensures_bind.2 ((ensures_iff_after.2 (hawait t₄)).imp (fun reply t₅ hsame ↦ ?_)
    fun _ _ hsame ↦ (h₄.of_sameCall hsame).ended)
  rcases reply with - | reply
  · exact hrest wait t₅ (h₄.of_sameCall hsame) (RetryPolicy.eq_exactWait hwait)
  · exact (h₄.of_sameCall hsame).ended

/-- **The attempts** end with the packet as it was but for the delay, and every datagram reports the
delay that was due. -/
theorem ensures_sendAttempts_acct (hs : AccountingCall D s.pkt) (hfour : FourBytes s) (left : ℕ)
    {previousWait : Time} (hbefore : Before c E port s k k (k - 1) t)
    (hwait : k ≠ 0 → previousWait = c.retryPolicy.exactWait (k - 1) (s.attempts (k - 1)).noise) :
    Ensures (sendAttempts c E port true left k previousWait) t
      (fun _ t' ↦ Ended c E port s t') fun _ t' ↦ Ended c E port s t' := by
  induction left generalizing k t previousWait with
  | zero => exact hbefore.ended
  | succ left ih =>
    have hattempt {t₁ : CallState} (h₁ : Before c E port s k k k t₁) :=
      ensures_attemptThen_acct hs hfour
        (fun wait _ hbefore hwait ↦ ih hbefore fun _ ↦ hwait) h₁
    rw [sendAttempts_succ]
    rcases k with - | k
    · rw [if_neg (by decide)]
      exact hattempt hbefore
    · rw [if_pos (by simp), hwait (Nat.succ_ne_zero k)]
      exact ensures_bind.2 ((ensures_onPacket_bump hs hbefore).imp (fun _ _ h₁ ↦ hattempt h₁)
        fun _ _ h ↦ h)

/-! ### The end of a call -/

/-- **What is read of a stored integer is encoded as it was.** -/
theorem encodeAttr_of_decodeStoredAttr {v w : PyVal}
    (h : decodeStoredAttr E .integer v = .ok w) :
    Tools.encodeAttr E .integer w = .ok v ∧ ∀ b, v = .bytes b → b.length = 4 := by
  rcases v with - | n | t | b
  iterate 3 cases h
  have hdecode : decodeStoredAttr E .integer (.bytes b) = Tools.decodeUnsigned 4 b := rfl
  rw [hdecode, Tools.decodeUnsigned] at h
  split at h
  · next hlength =>
    cases h
    have hpack : packUnsigned 4 (Bytes.toNatBE b) = .ok b := by
      have hlt := Bytes.toNatBE_lt b
      rw [packUnsigned, if_pos ⟨Int.natCast_nonneg _, by rw [hlength] at hlt; exact_mod_cast hlt⟩,
        Int.toNat_natCast]
      exact congrArg Except.ok (by rw [← hlength]; exact Bytes.ofNatBE_toNatBE b)
    refine ⟨?_, fun b' hb ↦ by cases hb; exact hlength⟩
    show (packUnsigned 4 (Bytes.toNatBE b)).map PyVal.bytes = _
    rw [hpack]
    rfl
  · cases h

/-- The values that are read at the beginning, and what they are stored as. -/
theorem originalAcctDelay_eq_ok (hs : AccountingCall D s.pkt) {original : Option (List PyVal)}
    (h : s.pkt.originalAcctDelay E = .ok original) :
    (s.pkt.attrs.get? (.int 41) = none ∧ original = none) ∨
      ∃ values vs, s.pkt.attrs.get? (.int 41) = some (.vals vs) ∧ original = some values ∧
        values.mapM (Tools.encodeAttr E .integer) = .ok vs ∧
        ∀ b rest, vs = .bytes b :: rest → b.length = 4 := by
  rw [originalAcctDelay, contains_of_plain hs.declares hs.dict, Except.bind_of_ok,
    OrderedDict.contains] at h
  rcases hstored : s.pkt.attrs.get? (.int 41) with - | (vs | m)
  · rw [hstored] at h
    cases h
    exact .inl ⟨rfl, rfl⟩
  · rw [hstored, getItem_of_plain hs.declares rfl hs.dict hstored] at h
    rcases hread : vs.mapM (decodeStoredAttr E .integer) with e | values
    · rw [hread] at h
      cases h
    rw [hread] at h
    cases h
    have hvalues := Except.forall₂_of_mapM_eq_ok hread
    refine .inr ⟨values, vs, rfl, rfl, ?_, fun b rest hvs ↦ ?_⟩
    · -- value by value, what was read is encoded as it was
      clear hread hstored
      induction hvalues with
      | nil => rfl
      | cons hvalue _ ih =>
        rw [List.mapM_cons, (encodeAttr_of_decodeStoredAttr hvalue).1, Except.bind_of_ok, ih]
        rfl
    · subst hvs
      rcases hvalues with - | ⟨hfirst, -⟩
      exact (encodeAttr_of_decodeStoredAttr hfirst).2 b rfl
  · rw [hstored, getItem_of_plain_node hs.declares rfl hs.dict hstored] at h
    rw [if_pos Option.isSome_some] at h
    rcases m with - | ⟨e, m⟩
    · exact absurd hstored hs.listed
    · cases h

/-- **The `finally` clause** puts the attributes back. -/
theorem run_restoreAcctDelay (hs : AccountingCall D s.pkt) {original : Option (List PyVal)}
    (horiginal : s.pkt.originalAcctDelay E = .ok original) (h : Ended c E port s t) :
    ∃ t', (onPacket (restoreAcctDelay E original)).run t = .ok () t' ∧
      Carrying s t' s.pkt.attrs ∧ t'.sent = t.sent := by
  obtain ⟨attrs, ⟨id, authenticator, hpkt⟩, hattrs⟩ := h.carrying
  have hdict : t.pkt.dict = some D := by rw [hpkt]; exact hs.dict
  suffices hrestores : (restoreAcctDelay E original).run ⟨t.pkt, t.world⟩ =
      .ok () ⟨{ t.pkt with attrs := s.pkt.attrs }, t.world⟩ by
    refine ⟨{ t with pkt := { t.pkt with attrs := s.pkt.attrs } }, ?_,
      ⟨id, authenticator, by rw [hpkt]⟩, rfl⟩
    rw [onPacket, run_onPart, hrestores]
  rcases originalAcctDelay_eq_ok hs horiginal with ⟨hnone, rfl⟩ | ⟨values, vs, hstored, rfl, hvalues, -⟩
  · -- there was none: what was added is deleted
    rw [restoreAcctDelay, run_bind_of_ok (run_get _), contains_of_plain hs.declares hdict,
      run_bind_of_ok (run_liftM_ok _ _)]
    have hattrs' : t.pkt.attrs = s.pkt.attrs ∨
        ∃ delay, t.pkt.attrs = withAcctDelay s.pkt.attrs delay := by
      rw [hpkt]
      exact hattrs
    rcases hattrs' with hsame | ⟨delay, hset⟩
    · rw [OrderedDict.contains, hsame, hnone, ← hsame]
      rfl
    · have hget : t.pkt.attrs.contains (.int 41) = true := by
        rw [OrderedDict.contains, hset, withAcctDelay, OrderedDict.get?_set_self]
        rfl
      have herase : t.pkt.attrs.erase (.int 41) = s.pkt.attrs := by
        rw [hset, withAcctDelay, OrderedDict.erase_set, OrderedDict.erase_of_get?_eq_none hnone]
      have hkey : t.pkt.encodeKey "Acct-Delay-Time" = .ok (.int 41) := by
        rw [encodeKey, theDict, hdict, Except.bind_of_ok, hs.declares.encodeKey_eq]
      rw [hget, if_pos rfl, delItem, run_bind_of_ok (run_get _)]
      dsimp only
      rw [hkey, run_bind_of_ok (run_liftM_ok _ _), if_pos hget]
      show EStateM.Result.ok () _ = _
      rw [← herase]
  · rw [restoreAcctDelay, run_setItem_of_plain hs.declares partitionTag_acctDelay hdict, hvalues]
    -- the first values are assigned over whatever is stored by now
    have hset : t.pkt.attrs.set (.int 41) (.vals vs) = s.pkt.attrs := by
      rw [hpkt]
      show attrs.set (.int 41) (.vals vs) = _
      rcases hattrs with rfl | ⟨delay, rfl⟩
      · exact OrderedDict.set_of_get?_eq_some hstored
      · rw [withAcctDelay, OrderedDict.set_set]
        exact OrderedDict.set_of_get?_eq_some hstored
    show EStateM.Result.ok () _ = _
    dsimp only
    rw [hset]

end

/-- The attributes are those of the beginning, and every datagram reports the delay that was due. -/
structure KeepsBooks (c : Client) (E : Env) (port : ℕ) (s t : CallState) : Prop where
  attrs : t.pkt.attrs = s.pkt.attrs
  sent : ∃ raws, SentReports c E port s t raws

/-- **Accounting retries.** However a call for an accounting request ends, the stored attributes are
those of the beginning, and transmission `k` has reported the delay that was due: the first value at
the beginning, or zero, and the integer parts of the waits before it. -/
theorem keepsBooks_sendPacketTo {c : Client} {E : Env} {port : ℕ} {D : Dictionary} {s : CallState}
    (hs : AccountingCall D s.pkt) :
    Ensures (sendPacketTo c E port) s (fun _ t ↦ KeepsBooks c E port s t)
      fun e t ↦ e ≠ .divergence → KeepsBooks c E port s t := by
  have hnothing (t : CallState) (hpkt : t.pkt = s.pkt) (hsent : t.sent = s.sent) :
      SentReports c E port s t [] := ⟨by rw [hsent, List.map_nil, List.append_nil], by simp⟩
  rw [sendPacketTo]
  refine ensures_bind.2 (ensures_get.2 ?_)
  dsimp only
  rw [if_pos hs.code]
  refine ensures_bind.2 (ensures_liftM (fun original horiginal ↦ ?_)
    fun _ _ _ ↦ ⟨rfl, [], hnothing s rfl rfl⟩)
  have hfour : FourBytes s := by
    refine ⟨fun b rest hstored ↦ ?_⟩
    rcases originalAcctDelay_eq_ok hs horiginal with ⟨hnone, -⟩ | ⟨values, vs, hvs, -, -, hfirst⟩
    · cases hnone.symm.trans hstored
    · cases hvs.symm.trans hstored
      exact hfirst b rest rfl
  have hbefore : Before c E port s 0 0 (0 - 1) s :=
    ⟨⟨s.pkt.id, s.pkt.authenticator, rfl⟩, fun h ↦ (h rfl).elim, fun _ ↦ rfl, [], rfl,
      hnothing s rfl rfl⟩
  have hrestored (t : CallState) (h : Ended c E port s t) :
      Ensures (onPacket (restoreAcctDelay E original)) t (fun _ t' ↦ KeepsBooks c E port s t')
        fun e t' ↦ e ≠ .divergence → KeepsBooks c E port s t' := by
    obtain ⟨t', hrun, ⟨id, authenticator, hpkt⟩, hsent⟩ := run_restoreAcctDelay hs horiginal h
    exact .of_ok hrun ⟨by rw [hpkt], h.sent.imp fun _ h ↦ h.of_sent_eq hsent⟩
  refine Method.ensures_tryFinally ((ensures_sendAttempts_acct hs hfour _ hbefore
    fun h ↦ (h rfl).elim).imp (fun _ t h ↦ hrestored t h) fun e t h ↦ ?_)
  split
  · next hdivergence => exact fun hne ↦ (hne hdivergence).elim
  · exact (hrestored t h).imp (fun _ t' h _ ↦ h) fun _ _ h ↦ h

/-- A dictionary that declares nothing else. -/
def acctDelayOnly : Dictionary where
  heap := [{ name := "Acct-Delay-Time", code := 41, type := .integer }]
  attributes := OrderedDict.set ∅ "Acct-Delay-Time" 0
  attrindex := BiDict.empty.add "Acct-Delay-Time" (.int 41)
  vendors := BiDict.empty.add "" 0
  vendorFormats := ∅

/-- A call for an accounting packet with this code and these attributes, on a silent network. -/
def accountingCall (code : ℕ) (attrs : Attrs PyVal) : CallState where
  pkt := { cls := .acct, code, secret := [1], dict := some acctDelayOnly, attrs }
  world := { rng := ⟨fun _ ↦ 0⟩ }
  attempts := fun _ ↦ {}

/-- A delay of seven seconds. -/
def sevenSeconds : Attrs PyVal := withAcctDelay ∅ 7

theorem keepsBooks_sevenSeconds :
    let E := Env.ofByte (fun _ ↦ 0) fun _ _ ↦ 0
    let s := accountingCall 4 sevenSeconds
    Ensures (sendPacketTo {} E 1813) s (fun _ t ↦ KeepsBooks {} E 1813 s t)
      fun e t ↦ e ≠ .divergence → KeepsBooks {} E 1813 s t :=
  keepsBooks_sendPacketTo (D := acctDelayOnly) {
    cls := rfl
    code := rfl
    dict := rfl
    declares := ⟨by decide, _, rfl, rfl, rfl, rfl, rfl, rfl, rfl, rfl, rfl, rfl⟩
    macFree := by decide
    settled := rfl
    listed := fun h ↦ by cases h }

/-- Only an Accounting-Request is given a delay: an accounting packet with another code goes out
without one each time. -/
theorem keepsBooks_fails_otherCode :
    let E := Env.ofByte (fun _ ↦ 0) fun _ _ ↦ 0
    let c : Client := { enforceMa := false }
    let s := accountingCall 5 ∅
    ¬ Ensures (sendPacketTo c E 1813) s (fun _ t ↦ KeepsBooks c E 1813 s t)
      fun e t ↦ e ≠ .divergence → KeepsBooks c E 1813 s t := by
  intro E c s h
  set t := after (sendPacketTo c E 1813) s with ht
  have hlengths : t.sent.map (fun d ↦ d.2.length) = [20, 20, 20] := by decide +kernel
  have hkeeps : KeepsBooks c E 1813 s t := by
    have htimeout : TimesOutAfter 3 (sendPacketTo c E 1813) s := by decide +kernel
    rcases hrun : (sendPacketTo c E 1813).run s with ⟨reply, t'⟩ | ⟨e, t'⟩
    · exact (htimeout.of_run_eq_ok hrun).elim
    · rw [ht, after_of_error hrun]
      refine h.of_run_eq_error hrun fun he ↦ ?_
      cases he.symm.trans (htimeout.of_run_eq_error hrun).1
  obtain ⟨raws, hsent, hreports⟩ := hkeeps.sent
  have hnil : s.sent = [] := rfl
  rw [hsent, hnil, List.nil_append, List.map_map] at hlengths
  rcases raws with - | ⟨first, - | ⟨second, rest⟩⟩
  · cases hlengths
  · simp at hlengths
  · have hsecond : second.length = 20 := by
      simp only [List.map_cons, List.cons.injEq] at hlengths
      exact hlengths.2.1
    obtain ⟨-, front, back, b, hb, hdrop, -⟩ := (hreports 1 second rfl).carries (.inl (by decide))
    have hlength := congrArg List.length hdrop
    rw [List.length_drop, hsecond, Avp.join_append, Avp.join_cons, List.length_append,
      List.length_append, Avp.length_bytes] at hlength
    omega

end Client

end Pyrad2
