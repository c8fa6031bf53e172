import Pyrad2.Async.Accounting
import Pyrad2.Client

/-!
# How many datagrams a call sends

What `retries` of a policy counts. It is the number of packets that are sent again, says the policy,
so one more is on the wire. The timer of an asynchronous transport counts in this way, and that rests
on the books of the transport. The loop of the synchronous client runs over `range(retries)` and
counts the first packet with the others; that rests on the loop alone, on a network that is silent.
-/

namespace Pyrad2

open EStateM

namespace Client

/-! ### Silence -/

/-- Nothing is received in any attempt to come. -/
def Silent (s : CallState) : Prop := ∀ k, (s.attempts k).received = []

/-- Nothing was put on the network, and a silent server is silent still. -/
structure SendsNothing (s s' : CallState) : Prop where
  sent : s'.sent = s.sent
  silent : Silent s → Silent s'

instance instIsPreorderSendsNothing : IsPreorder CallState SendsNothing where
  refl := fun _ ↦ ⟨rfl, fun h ↦ h⟩
  trans := fun _ _ _ h h' ↦ ⟨h'.sent.trans h.sent, fun hs ↦ h'.silent (h.silent hs)⟩

theorem sendsNothing_onPacket {α : Type} (m : PacketMethod α) :
    Respects SendsNothing (onPacket m) :=
  respects_onPart m fun _ _ ↦ ⟨rfl, fun h ↦ h⟩

/-- At most `n` datagrams have been sent since. -/
def SendsAtMost (n : ℕ) (s s' : CallState) : Prop := s'.sent.length ≤ s.sent.length + n

section

variable {c : Client} {E : Env} {port : ℕ} {isAcct : Bool} {s : CallState}

/-- A computation that sends nothing, in front of one that never returns. -/
theorem ensures_bind_of_sendsNothing {α β : Type} {m : ClientCall α} {f : α → ClientCall β} {n : ℕ}
    (hm : Respects SendsNothing m) (hs : Silent s)
    (hf : ∀ a s', SendsNothing s s' → Silent s' →
      Ensures (f a) s' (fun _ _ ↦ False) fun _ s'' ↦ SendsAtMost n s' s'') :
    Ensures (m >>= f) s (fun _ _ ↦ False) fun _ s'' ↦ SendsAtMost n s s'' := by
  have hafter := hm s
  rw [ensures_bind]
  rcases hrun : m.run s with ⟨a, s'⟩ | ⟨e, s'⟩
  · rw [after_of_ok hrun] at hafter
    refine .of_ok hrun ((hf a s' hafter (hafter.silent hs)).imp (fun _ _ h ↦ h) fun _ s'' h ↦ ?_)
    rwa [SendsAtMost, hafter.sent] at h
  · rw [after_of_error hrun] at hafter
    refine .of_error hrun ?_
    rw [SendsAtMost, hafter.sent]
    omega

/-- Waiting for a silent server ends without a reply. -/
theorem run_awaitReply_of_silent (hs : Silent s) (wait : Time) (t : CallState) :
    (awaitReply c E wait (s.attempts 0)).run t = .ok none t ∨
      ∃ e, (awaitReply c E wait (s.attempts 0)).run t = .error e t := by
  rw [awaitReply, hs 0]
  split
  · rcases (s.attempts 0).receiveRaises with - | e
    · exact .inl rfl
    · exact .inr ⟨e, rfl⟩
  · exact .inl rfl

/-- **One attempt at a silent server** sends one datagram at most before the rest of them. -/
theorem ensures_attemptThen (attempt : ℕ) {left : ℕ} {rest : Time → ClientCall Packet}
    (hrest : ∀ wait s, Silent s →
      Ensures (rest wait) s (fun _ _ ↦ False) fun _ s' ↦ SendsAtMost left s s')
    (hs : Silent s) :
    Ensures (attemptThen c E port attempt rest) s (fun _ _ ↦ False)
      fun _ s' ↦ SendsAtMost (left + 1) s s' := by
  rw [attemptThen, ensures_bind]
  show Ensures _ { s with attempts := fun n ↦ s.attempts (n + 1) } _ _
  set s₁ : CallState := { s with attempts := fun n ↦ s.attempts (n + 1) }
  have hs₁ : Silent s₁ := fun k ↦ hs (k + 1)
  show Ensures _ s₁ _ fun _ s' ↦ SendsAtMost (left + 1) s₁ s'
  refine ensures_bind_of_sendsNothing (respects_liftM _) hs₁ fun wait s₂ _ hs₂ ↦ ?_
  refine ensures_bind_of_sendsNothing (sendsNothing_onPacket _) hs₂ fun _ s₃ _ hs₃ ↦ ?_
  refine ensures_bind_of_sendsNothing (sendsNothing_onPacket _) hs₃ fun raw s₄ _ hs₄ ↦ ?_
  unfold sendto
  rcases (s.attempts 0).sendRaises with - | e
  · rw [ensures_bind]
    show Ensures _ { s₄ with sent := s₄.sent ++ [(port, raw)] } _ _
    set s₅ : CallState := { s₄ with sent := s₄.sent ++ [(port, raw)] }
    have hsent : s₅.sent.length = s₄.sent.length + 1 := List.length_append
    have hs₅ : Silent s₅ := hs₄
    rcases run_awaitReply_of_silent hs wait s₅ with hnone | ⟨e, hraises⟩
    · refine ensures_bind.2 (.of_ok hnone ?_)
      refine (hrest wait s₅ hs₅).imp (fun _ _ h ↦ h) fun _ s' h ↦ ?_
      rw [SendsAtMost] at h ⊢
      omega
    · refine ensures_bind.2 (.of_error hraises ?_)
      rw [SendsAtMost]
      omega
  · exact Nat.le_add_right _ _

/-- **The attempts at a silent server**: none of them ends with a reply, and each of them sends one
datagram if it gets that far. -/
theorem ensures_sendAttempts (left attempt : ℕ) (previousWait : Time) (hs : Silent s) :
    Ensures (sendAttempts c E port isAcct left attempt previousWait) s (fun _ _ ↦ False)
      fun _ s' ↦ SendsAtMost left s s' := by
  induction left generalizing attempt previousWait s with
  | zero => exact le_rfl
  | succ left ih =>
    have hattempt (s₁ : CallState) (hs₁ : Silent s₁) : Ensures
        (attemptThen c E port attempt (sendAttempts c E port isAcct left (attempt + 1))) s₁
        (fun _ _ ↦ False) fun _ s' ↦ SendsAtMost (left + 1) s₁ s' :=
      ensures_attemptThen attempt (fun wait _ hs ↦ ih (attempt + 1) wait hs) hs₁
    rw [sendAttempts_succ]
    split
    · exact ensures_bind_of_sendsNothing (sendsNothing_onPacket _) hs fun _ s₁ _ ↦ hattempt s₁
    · exact hattempt s hs

/-- **The retransmissions to a silent server.** -/
theorem ensures_sendPacketTo (hs : Silent s) :
    Ensures (sendPacketTo c E port) s (fun _ _ ↦ False)
      fun _ s' ↦ SendsAtMost c.retryPolicy.retries.toNat s s' := by
  rw [sendPacketTo]
  refine ensures_bind_of_sendsNothing respects_get hs fun t s₁ _ hs₁ ↦ ?_
  dsimp only
  split
  · refine ensures_bind_of_sendsNothing (respects_liftM _) hs₁ fun original s₂ _ hs₂ ↦ ?_
    refine Method.ensures_tryFinally ((ensures_sendAttempts _ _ _ hs₂).imp (fun _ _ h ↦ h.elim)
      fun e s₃ h ↦ ?_)
    split
    · exact h
    · -- what the `finally` clause does to the packet is not on the network
      have hafter : SendsAtMost c.retryPolicy.retries.toNat s₂
          (after (onPacket (Packet.restoreAcctDelay E original)) s₃) := by
        rwa [SendsAtMost, (sendsNothing_onPacket _ s₃).sent]
      exact ensures_iff_after.2 hafter
  · exact ensures_sendAttempts _ _ _ hs₁

variable {M : Type} {methods : EapMethods M} {rounds : ℕ}

theorem sendsNothing_onMethod (method : M) (m : Method (EapState M) Unit) :
    Respects SendsNothing (onMethod method m) := by
  intro s
  rcases hrun : m.run (method, ⟨s.pkt, s.world⟩) with ⟨⟨⟩, method', ps⟩ | ⟨e, method', ps⟩
  · have hmethod : (onMethod method m).run s =
        .ok method' { s with pkt := ps.pkt, world := ps.world } := by
      change onMethod method m s = _
      rw [onMethod, hrun]
    rw [after_of_ok hmethod]
    exact ⟨rfl, fun h ↦ h⟩
  · have hmethod : (onMethod method m).run s =
        .error e { s with pkt := ps.pkt, world := ps.world } := by
      change onMethod method m s = _
      rw [onMethod, hrun]
    rw [after_of_error hmethod]
    exact ⟨rfl, fun h ↦ h⟩

/-- **A call of `send_packet` with a silent server**, whatever the packet is: there is no reply, and
no second round of a conversation. -/
theorem ensures_sendPacket (hs : Silent s) :
    Ensures (c.sendPacket E methods rounds) s (fun _ _ ↦ False)
      fun _ s' ↦ SendsAtMost c.retryPolicy.retries.toNat s s' := by
  rw [sendPacket]
  refine ensures_bind_of_sendsNothing respects_get hs fun t s₁ _ hs₁ ↦ ?_
  have hauth : Ensures (c.sendAuthPacket E methods rounds) s₁ (fun _ _ ↦ False)
      fun _ s' ↦ SendsAtMost c.retryPolicy.retries.toNat s₁ s' := by
    rw [sendAuthPacket]
    refine ensures_bind_of_sendsNothing respects_get hs₁ fun t₂ s₂ _ hs₂ ↦ ?_
    split
    · exact ensures_sendPacketTo hs₂
    · refine ensures_bind_of_sendsNothing (sendsNothing_onMethod _ _) hs₂ fun method s₃ _ hs₃ ↦ ?_
      exact ensures_bind.2 ((ensures_sendPacketTo hs₃).imp (fun _ _ h ↦ h.elim) fun _ _ h ↦ h)
  split
  · exact ensures_sendPacketTo hs₁
  · exact hauth
  · exact ensures_sendPacketTo hs₁
  · exact ensures_sendPacketTo hs₁

end

end Client

/-! ### What the policy promises -/

/-- The call reports a timeout and has put `n` datagrams on the network. -/
def Client.TimesOutAfter {α : Type} (n : ℕ) (call : ClientCall α) (s : CallState) : Prop :=
  Ensures call s (fun _ _ ↦ False) fun e s' ↦
    e = .timeout ∧ s'.sent.length = s.sent.length + n

instance instDecidableTimesOutAfter {α : Type} (n : ℕ) (call : ClientCall α) (s : CallState) :
    Decidable (Client.TimesOutAfter n call s) := instDecidableEnsures

/-- In every run of an asynchronous transport, a request that was given up has been sent `n`
times. -/
def RetryPolicy.GivesUpAfter (E : Env) (policy : RetryPolicy) (n : ℕ) : Prop :=
  ∀ dict enforceMa packetId packets world s, Relation.ReflTransGen (AdmissibleStep E)
    (.init policy dict enforceMa packetId packets world) s →
    ∀ f e, s.loop.futures f = .exception e → s.loop.sentCount f = n

/-- Both clients send one datagram more than the policy has retries. -/
def KeepsPromise {M : Type} (E : Env) (methods : EapMethods M) (rounds : ℕ) (c : Client)
    (s : CallState) : Prop :=
  Client.TimesOutAfter (c.retryPolicy.retries.toNat + 1) (c.sendPacket E methods rounds) s ∧
    c.retryPolicy.GivesUpAfter E (c.retryPolicy.retries.toNat + 1)

/-- The timer counts as the policy says. -/
theorem givesUpAfter {E : Env} {policy : RetryPolicy} (hretries : 0 ≤ policy.retries) :
    policy.GivesUpAfter E (policy.retries.toNat + 1) := by
  intro dict enforceMa packetId packets world s hreach f e hf
  obtain ⟨h, hpolicy⟩ := accounted_of_reach hretries hreach
  have hcount := h.timedOut f e hf
  rw [hpolicy] at hcount
  omega

/-- **The promise is never kept**: a call of the synchronous client to a silent server sends no more
datagrams than there are retries, the asynchronous client sends one more. -/
theorem not_keepsPromise {M : Type} (E : Env) (methods : EapMethods M) (rounds : ℕ) (c : Client)
    {s : CallState} (hs : Client.Silent s) (hretries : 0 ≤ c.retryPolicy.retries) :
    ¬ KeepsPromise E methods rounds c s ∧
      (∀ n, Client.TimesOutAfter n (c.sendPacket E methods rounds) s →
        n ≤ c.retryPolicy.retries.toNat) ∧
      c.retryPolicy.GivesUpAfter E (c.retryPolicy.retries.toNat + 1) := by
  have hbound (n : ℕ) (h : Client.TimesOutAfter n (c.sendPacket E methods rounds) s) :
      n ≤ c.retryPolicy.retries.toNat := by
    have hmost : Ensures (c.sendPacket E methods rounds) s (fun _ _ ↦ False) fun _ s' ↦
        Client.SendsAtMost c.retryPolicy.retries.toNat s s' := Client.ensures_sendPacket hs
    rcases hrun : (c.sendPacket E methods rounds).run s with ⟨a, s'⟩ | ⟨e, s'⟩
    · exact (h.of_run_eq_ok hrun).elim
    · have hle := hmost.of_run_eq_error hrun
      rw [Client.SendsAtMost, (h.of_run_eq_error hrun).2] at hle
      omega
  refine ⟨fun h ↦ ?_, hbound, givesUpAfter hretries⟩
  have hle := hbound _ h.1
  omega

/-- A client with three retries that adds no Message-Authenticator. -/
def threeRetries : Client := { enforceMa := false }

/-- A call for the request with identifier `7` on a silent network. -/
def silentCall : CallState where
  pkt := requestSeven
  world := { rng := ⟨fun _ ↦ 0⟩ }
  attempts := fun _ ↦ {}

/-- No methods are registered. -/
def EapMethods.unregistered : EapMethods Unit where
  getMethod := fun _ ↦ none
  start := pure ()
  respond := fun _ ↦ pure ()
  respond_ends := fun _ _ _ h ↦ by cases h

theorem not_keepsPromise_silentCall :
    let E := Env.ofByte (fun _ ↦ 0) fun _ _ ↦ 0
    ¬ KeepsPromise E .unregistered 0 threeRetries silentCall ∧
      (∀ n, Client.TimesOutAfter n (threeRetries.sendPacket E .unregistered 0) silentCall →
        n ≤ 3) ∧
      threeRetries.retryPolicy.GivesUpAfter E 4 :=
  not_keepsPromise (Env.ofByte (fun _ ↦ 0) fun _ _ ↦ 0) .unregistered 0 threeRetries
    (s := silentCall) (fun _ ↦ rfl) (by decide)

/-- With three retries, the synchronous client puts three datagrams on the network and the
asynchronous transport puts four. -/
theorem keepsPromise_fails_silentCall :
    let E := Env.ofByte (fun _ ↦ 0) fun _ _ ↦ 0
    let s := ([.sendPacket 0 7, .timeout 5 fun _ ↦ 0, .timeout 10 fun _ ↦ 0, .timeout 15 fun _ ↦ 0,
      .timeout 20 fun _ ↦ 0] : List TransportEvent).foldl (fun s e ↦ e.next E s)
      TransportState.seven
    ¬ KeepsPromise E .unregistered 0 threeRetries silentCall ∧
      Client.TimesOutAfter 3 (threeRetries.sendPacket E .unregistered 0) silentCall ∧
      (s.loop.futures 0).isPending = false ∧ s.loop.sentCount 0 = 4 := by
  refine ⟨fun h ↦ ?_, by decide +kernel, by decide +kernel, by decide +kernel⟩
  have hfour : ¬ Client.TimesOutAfter 4 (threeRetries.sendPacket
      (Env.ofByte (fun _ ↦ 0) fun _ _ ↦ 0) .unregistered 0) silentCall := by decide +kernel
  exact hfour h.1

end Pyrad2
