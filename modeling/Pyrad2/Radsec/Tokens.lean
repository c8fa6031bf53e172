import Pyrad2.Radsec.Connection

/-!
# Tokens on a RADIUS/1.1 connection

Do two messages with one Token have the same bytes?

A Token is drawn from the counter of the connection when a packet is sent that has none, and it stays
with the packet object. The counter does not repeat itself in `2 ^ 32` draws, so for Tokens drawn on
the connection the question comes down to what one packet object sends under its Token. If it is
changed between two sends, as in every round of an EAP exchange, other bytes go out with the same
Token. A packet that brings its Token from an earlier connection has one that the counter may still
draw.
-/

namespace Pyrad2

open EStateM

/-! ### The counter -/

namespace TokenCounter

/-- The Token drawn after `k` others. -/
def tokenAt (start : BitVec 32) (k : ℕ) : Bytes := Bytes.ofNatBE 4 (start + BitVec.ofNat 32 k).toNat

/-- The counter does not repeat itself before it wraps around. -/
theorem tokenAt_inj {start : BitVec 32} {j k : ℕ} (hj : j < 2 ^ 32) (hk : k < 2 ^ 32)
    (h : tokenAt start j = tokenAt start k) : j = k := by
  have hvalue := congrArg Bytes.toNatBE h
  have hlt (b : BitVec 32) : b.toNat < 256 ^ 4 := b.isLt
  rw [tokenAt, tokenAt, Bytes.toNatBE_ofNatBE (hlt _), Bytes.toNatBE_ofNatBE (hlt _)] at hvalue
  have hsum : start + BitVec.ofNat 32 j = start + BitVec.ofNat 32 k := BitVec.eq_of_toNat_eq hvalue
  have hnat := congrArg BitVec.toNat ((BitVec.add_right_inj start).1 hsum)
  rwa [BitVec.toNat_ofNat, BitVec.toNat_ofNat, Nat.mod_eq_of_lt hj, Nat.mod_eq_of_lt hk] at hnat

end TokenCounter

namespace Packet

/-! ### Sending the same again -/

section

variable {E : Env} {p : Packet}

/-- Under RADIUS/1.1 nothing is drawn but the identifier, so a packet that has one is serialized the
same every time. -/
theorem uniform_outgoing (hversion : p.radiusVersion = .v1_1) :
    Uniform (fun i : ℕ × World ↦ (⟨{ p with id := some i.1 }, i.2⟩ : PacketState)) (outgoing E) := by
  have hencode : Uniform (recoded p (fun i : ℕ × World ↦ some i.1) (fun _ ↦ p.attrs) fun i ↦ i.2)
      (encodeAttributes E) := uniform_encodeAttributes (recoding_recoded _ _ _ _)
        (repeatable_v11 hversion) fun _ ↦ rfl
  have hserialize : Uniform (fun i : ℕ × World ↦ (⟨{ p with id := some i.1 }, i.2⟩ : PacketState))
      (serializeV11 E) := by
    have hheader (body : Bytes) :
        Uniform (fun i : ℕ × World ↦ (⟨{ p with id := some i.1 }, i.2⟩ : PacketState)) (do
          let header ← packV11Header p.code (20 + body.length) p.token
          return header ++ body : PacketMethod Bytes) :=
      (uniform_liftM _).bind fun _ ↦ uniform_pure _
    rw [serializeV11]
    exact Uniform.bind hencode fun body ↦ uniform_get_bind (hheader body) fun i ↦ rfl
  by_cases hcls : p.cls = .packet
  · obtain ⟨x, hx⟩ := (uniform_throw (S := fun i : ℕ × World ↦
      (⟨{ p with id := some i.1 }, i.2⟩ : PacketState)) (α := Bytes) Exn.attributeError).exists_outcome
    refine ⟨x, fun i ↦ ?_⟩
    rw [← hx i, outgoing, run_bind_of_ok
      (run_prepareRequestMessageAuthenticator_v11 (p := { p with id := some i.1 }) hversion false i.2),
      requestPacket]
    simp only [run_bind, run_get]
    rw [if_pos hcls]
    rfl
  · obtain ⟨x, hx⟩ := hserialize.exists_outcome
    refine ⟨x, fun i ↦ ?_⟩
    rw [← hx i, run_outgoing_v11 (p := { p with id := some i.1 }) hversion hcls,
      run_bind_of_ok (run_ensureId_of_some (p := { p with id := some i.1 }) rfl i.2)]

/-- The packet goes out as these bytes, whenever it is sent. -/
def GoesOutAs (E : Env) (p : Packet) (raw : Bytes) : Prop :=
  ∀ w, (outgoing E).run ⟨p, w⟩ = .ok raw ⟨p, w⟩

/-- **A retransmission.** What was sent once is sent again as it was. -/
theorem goesOutAs_of_outgoing (hversion : p.radiusVersion = .v1_1) {w : World} {raw : Bytes}
    {s : PacketState} (h : (outgoing E).run ⟨p, w⟩ = .ok raw s) :
    s.pkt.radiusVersion = .v1_1 ∧ GoesOutAs E s.pkt raw := by
  obtain ⟨x, hx⟩ := (uniform_outgoing (E := E) hversion).exists_outcome
  have hcls := cls_of_outgoing hversion h
  obtain ⟨i, w', hid⟩ := exists_run_ensureId p w
  -- the first send has the outcome of one that finds the identifier in place
  have hsame : (outgoing E).run ⟨{ p with id := some i }, w'⟩ = .ok raw s := by
    rw [← h, run_outgoing_v11 hversion hcls, run_bind_of_ok hid,
      run_outgoing_v11 (p := { p with id := some i }) hversion hcls,
      run_bind_of_ok (run_ensureId_of_some (p := { p with id := some i }) rfl w')]
  have hout := hx (i, w')
  rw [hsame] at hout
  rcases x with e | raw'
  · cases hout
  · cases hout
    exact ⟨hversion, fun w'' ↦ hx (i, w'')⟩

end

end Packet

open Packet TokenCounter

/-! ### One connection -/

/-- A message on the connection: the packet object as the send left it, and the bytes. -/
structure Written where
  packet : Packet
  raw : Bytes

/-- A connection, and the packet objects of those who use the client. Which Tokens were drawn and
what was written is for the record; the code reads neither. -/
structure TokenState where
  counter : TokenCounter
  packets : ℕ → Packet
  world : World
  drawn : List Bytes := []
  written : List Written := []

/-- A packet object is sent, or it is changed: by its owner, by an EAP method between two rounds, or
by a send over another connection. -/
inductive TokenEvent where
  | send (i : ℕ)
  | change (i : ℕ) (p : Packet)

namespace TokenState

/-- The connection as the stamp sees it. -/
def conn (s : TokenState) : Negotiated := ⟨.v1_1, some s.counter⟩

/-- The send of a packet object. -/
def sendOf (E : Env) (s : TokenState) (i : ℕ) : SendRecord :=
  Packet.send E s.conn ⟨s.packets i, s.world⟩

/-- What happens at a send. -/
def afterSend (E : Env) (s : TokenState) (i : ℕ) : TokenState :=
  let record := s.sendOf E i
  { counter := ((s.conn.stamp (s.packets i)).2.tokenCounter).getD s.counter
    packets := Function.update s.packets i record.left.pkt
    world := record.left.world
    drawn := if (s.packets i).token.isNone then s.drawn ++ [s.counter.next.1] else s.drawn
    written := match record.result with
      | .ok raw _ => s.written ++ [⟨record.left.pkt, raw⟩]
      | .error _ _ => s.written }

def step (E : Env) (s : TokenState) : TokenEvent → TokenState
  | .send i => s.afterSend E i
  | .change i p => { s with packets := Function.update s.packets i p }

def run (E : Env) (s : TokenState) (events : List TokenEvent) : TokenState := events.foldl (step E) s

/-- Messages with the same Token have the same bytes. -/
def TokensIdentify (s : TokenState) : Prop :=
  ∀ m ∈ s.written, ∀ m' ∈ s.written, wireToken m.raw = wireToken m'.raw → m.raw = m'.raw

/-- A packet that is sent with the Token it has is as it was when that Token was last written. If
the Token comes from elsewhere, it is none of those that the connection draws, `reserved`. -/
def Fitting (reserved : List Bytes) (s : TokenState) : TokenEvent → Prop
  | .send i => ∀ t, (s.packets i).token = some t → (t ∈ s.drawn ∨ t ∉ reserved) ∧
      ∀ m ∈ s.written, m.packet.token = some t → m.packet = s.packets i
  | .change _ _ => True

/-- Every event of the run is such. -/
def FittingRun (E : Env) (reserved : List Bytes) : TokenState → List TokenEvent → Prop
  | _, [] => True
  | s, e :: events => s.Fitting reserved e ∧ FittingRun E reserved (s.step E e) events

/-! ### What holds on the connection -/

/-- The Tokens drawn are those of the counter in a row. Every message has a Token that was drawn or
never will be, it goes out the same when it is sent again, and no two with one Token differ. -/
structure TokenInv (E : Env) (start : BitVec 32) (reserved : List Bytes) (s : TokenState) :
    Prop where
  counter_eq : s.counter.value = start + BitVec.ofNat 32 s.drawn.length
  drawn_eq : s.drawn = (List.range s.drawn.length).map (tokenAt start)
  own : ∀ m ∈ s.written, ∃ t, m.packet.token = some t ∧ (t ∈ s.drawn ∨ t ∉ reserved)
  out : ∀ m ∈ s.written, m.packet.radiusVersion = .v1_1 ∧ GoesOutAs E m.packet m.raw
  identify : ∀ m ∈ s.written, ∀ m' ∈ s.written, m.packet.token = m'.packet.token → m.raw = m'.raw

section

variable {E : Env} {start : BitVec 32} {reserved : List Bytes} {s : TokenState} {i : ℕ}

theorem tokenInv_initial (E : Env) (counter : TokenCounter) (packets : ℕ → Packet) (w : World)
    (reserved : List Bytes) :
    TokenInv E counter.value reserved { counter, packets, world := w } where
  counter_eq := (BitVec.add_zero _).symm
  drawn_eq := rfl
  own := fun _ hm ↦ (List.not_mem_nil hm).elim
  out := fun _ hm ↦ (List.not_mem_nil hm).elim
  identify := fun _ hm ↦ (List.not_mem_nil hm).elim

/-- The next Token is a new one. -/
theorem TokenInv.next_eq (h : TokenInv E start reserved s) :
    s.counter.next.1 = tokenAt start s.drawn.length := by
  rw [TokenCounter.next, tokenAt, h.counter_eq]

theorem TokenInv.next_not_mem (h : TokenInv E start reserved s)
    (hlength : s.drawn.length < 2 ^ 32) : s.counter.next.1 ∉ s.drawn := by
  intro hmem
  rw [h.drawn_eq, h.next_eq, List.mem_map] at hmem
  obtain ⟨k, hk, heq⟩ := hmem
  have hlt := List.mem_range.1 hk
  exact hlt.ne (tokenAt_inj (hlt.trans hlength) hlength heq)

/-- The messages after one more, or none if the send failed. -/
theorem mem_written_afterSend {m : Written} (hm : m ∈ (s.afterSend E i).written) :
    m ∈ s.written ∨ ∃ raw s', (s.sendOf E i).result = .ok raw s' ∧ m = ⟨s'.pkt, raw⟩ := by
  rw [afterSend] at hm
  dsimp only at hm
  split at hm
  · next raw s' hresult =>
    rcases List.mem_append.1 hm with hm | hm
    · exact .inl hm
    · refine .inr ⟨raw, s', hresult, ?_⟩
      rw [List.mem_singleton.1 hm, SendRecord.left_of_result hresult]
  · exact .inl hm

theorem drawn_afterSend_of_none (E : Env) (hnone : (s.packets i).token = none) :
    (s.afterSend E i).drawn = s.drawn ++ [s.counter.next.1] := by
  rw [afterSend]
  simp [hnone]

theorem drawn_afterSend_of_some (E : Env) {t : Bytes} (hsome : (s.packets i).token = some t) :
    (s.afterSend E i).drawn = s.drawn := by
  rw [afterSend]
  simp [hsome]

/-- **One more message**: messages that have its Token too have its bytes. -/
theorem tokenInv_afterSend (h : TokenInv E start reserved s) {t : Bytes}
    (hcounter : (s.afterSend E i).counter.value =
      start + BitVec.ofNat 32 (s.afterSend E i).drawn.length)
    (hdrawn : (s.afterSend E i).drawn =
      (List.range (s.afterSend E i).drawn.length).map (tokenAt start))
    (hmono : ∀ t' ∈ s.drawn, t' ∈ (s.afterSend E i).drawn)
    (hstamp : (s.conn.stamp (s.packets i)).1 =
      { s.packets i with radiusVersion := .v1_1, token := some t })
    (hown : t ∈ (s.afterSend E i).drawn ∨ t ∉ reserved)
    (hsame : ∀ raw s', (s.sendOf E i).result = .ok raw s' →
      ∀ m ∈ s.written, m.packet.token = some t → m.raw = raw) :
    TokenInv E start reserved (s.afterSend E i) := by
  have htoken {raw : Bytes} {s' : PacketState} (hresult : (s.sendOf E i).result = .ok raw s') :
      s'.pkt.token = some t := by
    rw [token_of_result hresult, hstamp]
  refine ⟨hcounter, hdrawn, fun m hm ↦ ?_, fun m hm ↦ ?_, fun m hm m' hm' heq ↦ ?_⟩
  · rcases mem_written_afterSend hm with hm | ⟨raw, s', hresult, rfl⟩
    · obtain ⟨t', ht', hmem⟩ := h.own m hm
      exact ⟨t', ht', hmem.imp_left (hmono t')⟩
    · exact ⟨t, htoken hresult, hown⟩
  · rcases mem_written_afterSend hm with hm | ⟨raw, s', hresult, rfl⟩
    · exact h.out m hm
    · have hrun : (outgoing E).run ⟨(s.conn.stamp (s.packets i)).1, s.world⟩ = .ok raw s' := hresult
      rw [hstamp] at hrun
      exact goesOutAs_of_outgoing rfl hrun
  · rcases mem_written_afterSend hm with hm | ⟨raw, s', hresult, rfl⟩
    · rcases mem_written_afterSend hm' with hm' | ⟨raw', s'', hresult', rfl⟩
      · exact h.identify m hm m' hm' heq
      · exact hsame raw' s'' hresult' m hm (heq.trans (htoken hresult'))
    · rcases mem_written_afterSend hm' with hm' | ⟨raw', s'', hresult', rfl⟩
      · exact (hsame raw s' hresult m' hm' (heq.symm.trans (htoken hresult))).symm
      · rw [hresult] at hresult'
        cases hresult'
        rfl

/-- A packet without a Token is given a new one. -/
theorem tokenInv_send_of_none (h : TokenInv E start reserved s)
    (hnone : (s.packets i).token = none) (hlength : s.drawn.length < 2 ^ 32)
    (hreserved : s.counter.next.1 ∈ reserved) : TokenInv E start reserved (s.afterSend E i) := by
  have hdrawn := drawn_afterSend_of_none E hnone
  have hstamp : s.conn.stamp (s.packets i) =
      ({ s.packets i with radiusVersion := .v1_1, token := some s.counter.next.1 },
        ⟨.v1_1, some s.counter.next.2⟩) := by
    rw [Negotiated.stamp]
    simp only [conn, hnone]
  have hcounter : (s.afterSend E i).counter = s.counter.next.2 := by
    change ((s.conn.stamp (s.packets i)).2.tokenCounter).getD s.counter = _
    rw [hstamp]
    rfl
  refine tokenInv_afterSend h (t := s.counter.next.1) ?_ ?_ ?_ (congrArg Prod.fst hstamp) ?_ ?_
  · rw [hcounter, hdrawn, List.length_append, List.length_singleton, TokenCounter.next, h.counter_eq,
      BitVec.ofNat_add]
    exact BitVec.add_assoc ..
  · rw [hdrawn, List.length_append, List.length_singleton, List.range_succ, List.map_append,
      ← h.drawn_eq, h.next_eq, List.map_singleton]
  · intro t' ht'
    rw [hdrawn]
    exact List.mem_append_left _ ht'
  · rw [hdrawn]
    exact .inl (List.mem_append_right _ (List.mem_singleton_self _))
  · intro raw s' _ m hm htoken
    obtain ⟨t, ht, hmem⟩ := h.own m hm
    rw [htoken] at ht
    cases ht
    -- it was not drawn before, and a Token from elsewhere is never drawn
    rcases hmem with hmem | hmem
    · exact absurd hmem (h.next_not_mem hlength)
    · exact absurd hreserved hmem

/-- A packet with a Token keeps it, and if it has not been changed it is sent as it was. -/
theorem tokenInv_send_of_some (h : TokenInv E start reserved s) {t : Bytes}
    (hsome : (s.packets i).token = some t) (hmem : t ∈ s.drawn ∨ t ∉ reserved)
    (hunchanged : ∀ m ∈ s.written, m.packet.token = some t → m.packet = s.packets i) :
    TokenInv E start reserved (s.afterSend E i) := by
  have hdrawn := drawn_afterSend_of_some E hsome
  have hstamp : s.conn.stamp (s.packets i) =
      ({ s.packets i with radiusVersion := .v1_1, token := some t }, s.conn) := by
    rw [Negotiated.stamp]
    simp only [conn, hsome]
  have hcounter : (s.afterSend E i).counter = s.counter := by
    change ((s.conn.stamp (s.packets i)).2.tokenCounter).getD s.counter = _
    rw [hstamp]
    rfl
  refine tokenInv_afterSend h (t := t) ?_ ?_ ?_ (congrArg Prod.fst hstamp) ?_ ?_
  · rw [hcounter, hdrawn]
    exact h.counter_eq
  · rw [hdrawn]
    exact h.drawn_eq
  · rw [hdrawn]
    exact fun _ ht' ↦ ht'
  · rw [hdrawn]
    exact hmem
  · intro raw s' hresult m hm htoken
    have hpacket := hunchanged m hm htoken
    obtain ⟨hversion, hout⟩ := h.out m hm
    rw [hpacket] at hversion hout
    -- the stamp finds the version and the Token in place
    have hidle : (s.conn.stamp (s.packets i)).1 = s.packets i := by
      rw [hstamp, ← hsome, ← hversion]
    have hrun : (outgoing E).run ⟨(s.conn.stamp (s.packets i)).1, s.world⟩ = .ok raw s' := hresult
    rw [hidle, hout s.world] at hrun
    cases hrun
    rfl

/-- **Every fitting event keeps it.** -/
theorem tokenInv_step (h : TokenInv E start reserved s) {e : TokenEvent}
    (hfit : s.Fitting reserved e) (hlength : (s.step E e).drawn.length ≤ 2 ^ 32)
    (hreserved : ∀ t ∈ (s.step E e).drawn, t ∈ reserved) :
    TokenInv E start reserved (s.step E e) := by
  rcases e with i | ⟨i, p⟩
  · change (s.afterSend E i).drawn.length ≤ 2 ^ 32 at hlength
    change ∀ t ∈ (s.afterSend E i).drawn, t ∈ reserved at hreserved
    rcases htoken : (s.packets i).token with - | t
    · rw [drawn_afterSend_of_none E htoken] at hlength hreserved
      rw [List.length_append, List.length_singleton] at hlength
      exact tokenInv_send_of_none h htoken hlength
        (hreserved _ (List.mem_append_right _ (List.mem_singleton_self _)))
    · obtain ⟨hmem, hunchanged⟩ := hfit t htoken
      exact tokenInv_send_of_some h htoken hmem hunchanged
  · exact ⟨h.counter_eq, h.drawn_eq, h.own, h.out, h.identify⟩

theorem drawn_prefix_step (E : Env) (s : TokenState) (e : TokenEvent) :
    s.drawn <+: (s.step E e).drawn := by
  rcases e with i | ⟨i, p⟩
  · change s.drawn <+: (s.afterSend E i).drawn
    rcases htoken : (s.packets i).token with - | t
    · rw [drawn_afterSend_of_none E htoken]
      exact List.prefix_append ..
    · exact (drawn_afterSend_of_some E htoken).symm ▸ List.prefix_rfl
  · exact List.prefix_rfl

theorem drawn_prefix_run (E : Env) (s : TokenState) (events : List TokenEvent) :
    s.drawn <+: (s.run E events).drawn := by
  induction events generalizing s with
  | nil => exact List.prefix_rfl
  | cons e events ih => exact (drawn_prefix_step E s e).trans (ih (s.step E e))

theorem tokenInv_run (h : TokenInv E start reserved s) {events : List TokenEvent}
    (hfit : FittingRun E reserved s events) (hlength : (s.run E events).drawn.length ≤ 2 ^ 32)
    (hreserved : ∀ t ∈ (s.run E events).drawn, t ∈ reserved) :
    TokenInv E start reserved (s.run E events) := by
  induction events generalizing s with
  | nil => exact h
  | cons e events ih =>
    have hrest : (s.step E e).drawn <+: (s.run E (e :: events)).drawn :=
      drawn_prefix_run E (s.step E e) events
    have hstep := tokenInv_step h hfit.1 (hrest.length_le.trans hlength)
      fun t ht ↦ hreserved t (hrest.subset ht)
    exact ih hstep hfit.2 hlength hreserved

theorem TokenInv.tokensIdentify (h : TokenInv E start reserved s) : s.TokensIdentify := by
  have htoken (m : Written) (hm : m ∈ s.written) : m.packet.token = some (wireToken m.raw) := by
    obtain ⟨hversion, hout⟩ := h.out m hm
    have hrun := hout { rng := ⟨fun _ ↦ 0⟩ }
    exact ((ensures_outgoing_v11 hversion _).of_run_eq_ok hrun).1.token_eq
  intro m hm m' hm' heq
  refine h.identify m hm m' hm' ?_
  rw [htoken m hm, htoken m' hm', heq]

/-- **Tokens identify messages** on a connection on which a packet is never changed between two
sends with one Token, and no Token from elsewhere is drawn too. -/
theorem tokensIdentify_of_fittingRun (E : Env) (counter : TokenCounter) (packets : ℕ → Packet)
    (w : World) {events : List TokenEvent}
    (hfit : FittingRun E (run E { counter, packets, world := w } events).drawn
      { counter, packets, world := w } events)
    (hlength : (run E { counter, packets, world := w } events).drawn.length ≤ 2 ^ 32) :
    (run E { counter, packets, world := w } events).TokensIdentify :=
  (tokenInv_run (tokenInv_initial E counter packets w _) hfit hlength fun _ ht ↦ ht).tokensIdentify

end

/-! ### Two runs -/

/-- A connection whose counter starts at `5`. -/
def fresh (p : Packet) : TokenState :=
  { counter := ⟨5⟩, packets := fun _ ↦ p, world := { rng := ⟨fun _ ↦ 0⟩ } }

/-- Two requests, and the first one once more. -/
def retransmission : List TokenEvent := [.send 0, .send 1, .send 0]

theorem tokensIdentify_of_fittingRun_retransmission :
    (run sumEnv (fresh plainRequest) retransmission).TokensIdentify := by
  refine tokensIdentify_of_fittingRun sumEnv ⟨5⟩ (fun _ ↦ plainRequest) { rng := ⟨fun _ ↦ 0⟩ }
    ⟨fun t ht ↦ ?_, fun t ht ↦ ?_, fun t ht ↦ ?_, trivial⟩ ?_
  · cases ht
  · cases ht
  · have htoken : (run sumEnv (fresh plainRequest) [.send 0, .send 1]).drawn =
        [[0, 0, 0, 5], [0, 0, 0, 6]] := by decide +kernel
    have hfirst : ((run sumEnv (fresh plainRequest) [.send 0, .send 1]).packets 0).token =
        some [0, 0, 0, 5] := by decide +kernel
    have heq : t = [0, 0, 0, 5] := Option.some.inj (ht.symm.trans hfirst)
    subst heq
    refine ⟨.inl ?_, fun m hm hmtoken ↦ ?_⟩
    · exact htoken ▸ List.mem_cons_self
    · rcases mem_written_afterSend hm with hm | ⟨raw, s', hresult, rfl⟩
      · rcases mem_written_afterSend hm with hm | ⟨raw, s', hresult, rfl⟩
        · exact (List.not_mem_nil hm).elim
        · exact congrArg PacketState.pkt (SendRecord.left_of_result hresult).symm
      · have hsecond : ((conn (run sumEnv (fresh plainRequest) [.send 0])).stamp
            ((run sumEnv (fresh plainRequest) [.send 0]).packets 1)).1.token =
            some [0, 0, 0, 6] := by decide +kernel
        have hother := (token_of_result hresult).trans hsecond
        cases hmtoken.symm.trans hother
  · decide +kernel

/-- An Access-Request whose EAP-Message is an Identity response. -/
def identityRequest : Packet :=
  { plainRequest with
    authType := "eap-gtc"
    attrs := (OrderedDict.set ∅ (.int 2) (.vals [.bytes [97]])).set (.int 79)
      (.vals [.bytes [2, 0, 0, 6, 1, 97]]) }

/-- The same packet once it has been sent and the method has answered a challenge. -/
def answeredRequest : Packet :=
  { identityRequest with
    radiusVersion := .v1_1
    token := some [0, 0, 0, 5]
    attrs := (identityRequest.attrs.set (.int 79) (.vals [.bytes [2, 1, 0, 6, 6, 97]])).set
      (.int 24) (.vals [.bytes [9]]) }

/-- Both rounds of an EAP exchange have the Token of the first one. -/
theorem not_tokensIdentify_answeredRequest :
    ¬ (run sumEnv (fresh identityRequest) [.send 0, .change 0 answeredRequest, .send 0]).TokensIdentify := by
  intro h
  have hrounds : ∃ m ∈ (run sumEnv (fresh identityRequest)
      [.send 0, .change 0 answeredRequest, .send 0]).written, ∃ m' ∈ (run sumEnv (fresh identityRequest)
      [.send 0, .change 0 answeredRequest, .send 0]).written,
      wireToken m.raw = wireToken m'.raw ∧ m.raw ≠ m'.raw := by
    decide +kernel
  obtain ⟨m, hm, m', hm', htoken, hne⟩ := hrounds
  exact hne (h m hm m' hm' htoken)

end TokenState

end Pyrad2
