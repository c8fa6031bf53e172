import Pyrad2.Decision

/-!
# Agreement of the two servers

The two servers decide the same on a datagram, but for two kinds of datagrams. The synchronous
accounting listener lets an Accounting-Response through, and a synchronous listener reads no more
than the first 8192 bytes of a datagram, which may be a packet where the whole is none.
-/

namespace Pyrad2

open EStateM Packet ServerState

/-! ### Agreement -/

/-- A synchronous server and an asynchronous listener of the kind, with the same flags, hosts and
dictionary. -/
structure Counterparts (srv : Server) (kind : ServerType) (proto : DatagramProtocolServer) :
    Prop where
  router : proto.server.router = srv.router
  hosts : proto.hosts = srv.router.hosts
  serverType : proto.serverType = kind

/-- The synchronous listener acts on a packet that the asynchronous one does not take: an
Accounting-Response on the accounting port, or what it reads of a longer datagram. -/
structure Server.Oversteps (E : Env) (srv : Server) (kind : ServerType) (data : Bytes) (addr : Address)
    (s : ServerState) : Prop where
  refused : kind = .acct ∧ wireCode (data.take maxPacketSize) = PacketType.accountingResponse ∨
    maxPacketSize < data.length ∧ wireCode (data.take maxPacketSize) ∈ kind.requestCodes
  passes : ∃ secret q s', srv.router.lookupSecret addr.1 = .ok secret ∧
    srv.router.Passes E (data.take maxPacketSize) secret s q s' ∧
    ∀ key, srv.router.dedupKeyFor q (some addr) = some key → (s.dedup.lookup key).1 ≠ .inFlight

namespace Listener

variable {E : Env} {srv : Server} {kind : ServerType} {proto : DatagramProtocolServer} {data : Bytes}
  {addr : Address} {s : ServerState} {enabled : srv.enabled kind = true}

theorem decision_of_run {L : Listener} {v : Verdict} {s' : ServerState}
    (h : (L.judge E data addr).run s = .ok v s') : L.decision E data addr s = L.decide addr s' v := by
  rw [decision, h]

theorem decision_of_not_run {L : Listener} (h : ∀ v s', (L.judge E data addr).run s ≠ .ok v s') :
    L.decision E data addr s = .drop := by
  rw [decision]
  split
  · next v s' hrun => exact absurd hrun (h v s')
  · rfl

/-- Where the packet keeps its source makes no difference. -/
theorem lookUp_source (addr : Address) (s : ServerState) (name : HandlerName) (q : Packet)
    (source : Option Address) (key : Option DedupKey) :
    lookUp addr s name { q with source } key = lookUp addr s name q key := by
  rcases key with - | key
  · rfl
  · rw [lookUp, lookUp]

/-- Both servers look up the packet under the same key, and decide the same. -/
theorem decide_verdict (h : Counterparts srv kind proto) (addr : Address) (s : ServerState)
    (code : ℕ) (q : Packet) :
    (sync srv kind enabled).decide addr s (kind.verdict code { q with source := some addr }) =
      (async proto).decide addr s (kind.verdict code q) := by
  have hkey (name : HandlerName) : ((sync srv kind enabled).dispatchOf addr name
      { q with source := some addr }).key srv.router =
      ((async proto).dispatchOf addr name q).key proto.server.router := by
    rw [h.router]
    rfl
  unfold ServerType.verdict
  split
  · rfl
  · refine (congrArg (lookUp addr s _ { q with source := some addr }) (hkey _)).trans ?_
    exact lookUp_source addr s _ q (some addr) _

/-- A verdict ends in a drop only if the packet is in flight. -/
theorem decide_verdict_eq_drop_iff (code : ℕ) {q : Packet} (hcode : q.code = code) :
    (sync srv kind enabled).decide addr s (kind.verdict code { q with source := some addr }) = .drop ↔
      ∃ key, srv.router.dedupKeyFor q (some addr) = some key ∧ (s.dedup.lookup key).1 = .inFlight := by
  have hkey (name : HandlerName) : ((sync srv kind enabled).dispatchOf addr name
      { q with source := some addr }).key srv.router = srv.router.dedupKeyFor q (some addr) := rfl
  unfold ServerType.verdict
  split
  · next hstatus =>
    refine iff_of_false (fun h ↦ by cases h) fun h ↦ ?_
    obtain ⟨key, hkey, -⟩ := h
    rw [RequestRouter.dedupKeyFor] at hkey
    split at hkey
    · rw [keyFor, hcode, hstatus] at hkey
      cases hkey
    · cases hkey
  · show lookUp addr s _ _ (((sync srv kind enabled).dispatchOf addr _ _).key srv.router) = _ ↔ _
    rw [hkey, lookUp_source]
    rcases srv.router.dedupKeyFor q (some addr) with - | key
    · refine iff_of_false (fun h ↦ by cases h) fun h ↦ ?_
      obtain ⟨key, hkey, -⟩ := h
      cases hkey
    · rcases hlookup : (s.dedup.lookup key).1 with raw | - | -
      · exact iff_of_false (by simp [lookUp, hlookup]) (by simp [hlookup])
      · exact iff_of_true (by simp [lookUp, hlookup]) ⟨key, rfl, hlookup⟩
      · exact iff_of_false (by simp [lookUp, hlookup]) (by simp [hlookup])

theorem wireCode_take (data : Bytes) : wireCode (data.take maxPacketSize) = wireCode data := by
  rw [wireCode, wireCode, List.take_take]
  rfl

/-- A datagram longer than the limit is nothing to the asynchronous server. -/
theorem not_passes_of_long {r : RequestRouter} {secret : Bytes} {q : Packet} {s' : ServerState}
    (h : maxPacketSize < data.length) : ¬ r.Passes E data secret s q s' := by
  rintro ⟨st, hst, -⟩
  exact absurd hst.framed.length_le (Nat.not_le.2 h)

theorem remoteHost_eq (h : Counterparts srv kind proto) (addr : Address) (secret : Bytes) :
    (∃ host, proto.remoteHost addr.1 = some host ∧ host.secret = secret) ↔
      srv.router.lookupSecret addr.1 = .ok secret := by
  rw [DatagramProtocolServer.remoteHost, RequestRouter.lookupSecret, h.hosts]
  rcases (srv.router.hosts.get? addr.1).or (srv.router.hosts.get? "0.0.0.0") with - | host
  · exact iff_of_false (by simp) (by simp)
  · simp

/-- **What the asynchronous counterpart accepts.** -/
theorem run_judge_async_eq_ok_iff (h : Counterparts srv kind proto) {v : Verdict} {s' : ServerState} :
    ((async proto).judge E data addr).run s = .ok v s' ↔
      ∃ secret q, srv.router.lookupSecret addr.1 = .ok secret ∧
        wireCode data ∈ kind.requestCodes ∧ srv.router.Passes E data secret s q s' ∧
        v = kind.verdict (wireCode data) q := by
  have hhost := remoteHost_eq h addr
  rw [judge]
  rcases hremote : proto.remoteHost addr.1 with - | host
  · refine iff_of_false (fun h ↦ by cases h) fun h' ↦ ?_
    obtain ⟨secret, q, hsecret, -⟩ := h'
    obtain ⟨host, hnone, -⟩ := (hhost secret).2 hsecret
    cases hremote.symm.trans hnone
  · dsimp only
    rw [DatagramProtocolServer.run_judge_eq_ok_iff, h.serverType, h.router]
    constructor
    · rintro ⟨q, hmem, hpasses, hv⟩
      exact ⟨host.secret, q, (hhost _).1 ⟨host, hremote, rfl⟩, hmem, hpasses, hv⟩
    · rintro ⟨secret, q, hsecret, hmem, hpasses, hv⟩
      obtain ⟨host', hsome, rfl⟩ := (hhost secret).2 hsecret
      cases hremote.symm.trans hsome
      exact ⟨q, hmem, hpasses, hv⟩

/-- What the synchronous server accepts, it drops only if the packet is in flight. -/
theorem decision_sync_of_passes {secret : Bytes} {q : Packet} {s' : ServerState}
    (hsecret : srv.router.lookupSecret addr.1 = .ok secret)
    (hserves : Server.Serves kind (wireCode (data.take maxPacketSize)))
    (hpasses : srv.router.Passes E (data.take maxPacketSize) secret s q s') :
    (sync srv kind enabled).decision E data addr s = .drop ↔
      ∃ key, srv.router.dedupKeyFor q (some addr) = some key ∧
        (s.dedup.lookup key).1 = .inFlight := by
  have hrun : ((sync srv kind enabled).judge E data addr).run s = .ok (kind.verdict
      (wireCode (data.take maxPacketSize)) { q with source := some addr }) s' :=
    Server.run_judge_eq_ok_iff.2 ⟨secret, q, hsecret, hserves, hpasses, rfl⟩
  rw [decision_of_run hrun, decide_verdict_eq_drop_iff _ hpasses.code_eq, hpasses.dedup_eq]

/-- What the synchronous server oversteps with, the asynchronous one drops. -/
theorem decision_async_of_refused (h : Counterparts srv kind proto)
    (hrefused : kind = .acct ∧
        wireCode (data.take maxPacketSize) = PacketType.accountingResponse ∨
      maxPacketSize < data.length ∧ wireCode (data.take maxPacketSize) ∈ kind.requestCodes) :
    (async proto).decision E data addr s = .drop := by
  refine decision_of_not_run fun v s' hrun ↦ ?_
  obtain ⟨secret, q, -, hmem, hpasses, -⟩ := (run_judge_async_eq_ok_iff h).1 hrun
  rcases hrefused with ⟨rfl, hcode⟩ | ⟨hlong, -⟩
  · rw [← wireCode_take, hcode] at hmem
    exact absurd hmem (by decide)
  · exact not_passes_of_long hlong hpasses

/-- **The two servers decide the same** on a datagram exactly if the synchronous one does not act on a
packet that the asynchronous one does not take. -/
theorem decision_eq_iff (E : Env) (enabled : srv.enabled kind = true)
    (h : Counterparts srv kind proto) (data : Bytes) (addr : Address) (s : ServerState) :
    (sync srv kind enabled).decision E data addr s = (async proto).decision E data addr s ↔
      ¬ srv.Oversteps E kind data addr s := by
  constructor
  · rintro heq ⟨hrefused, secret, q, s', hsecret, hpasses, hflight⟩
    have hserves : Server.Serves kind (wireCode (data.take maxPacketSize)) :=
      hrefused.symm.imp And.right id
    rw [decision_async_of_refused h hrefused, decision_sync_of_passes hsecret hserves hpasses] at heq
    obtain ⟨key, hkey, hlookup⟩ := heq
    exact hflight key hkey hlookup
  · intro hover
    by_cases haccepted : ∃ secret q s', srv.router.lookupSecret addr.1 = .ok secret ∧
      Server.Serves kind (wireCode (data.take maxPacketSize)) ∧
      srv.router.Passes E (data.take maxPacketSize) secret s q s'
    · obtain ⟨secret, q, s', hsecret, hserves, hpasses⟩ := haccepted
      by_cases hboth : data.length ≤ maxPacketSize ∧
        wireCode (data.take maxPacketSize) ∈ kind.requestCodes
      · -- the same packet for both
        obtain ⟨hlength, hmem⟩ := hboth
        have hrun : ((sync srv kind enabled).judge E data addr).run s = _ :=
          Server.run_judge_eq_ok_iff.2 ⟨secret, q, hsecret, hserves, hpasses, rfl⟩
        rw [List.take_of_length_le hlength] at hrun hpasses hmem
        rw [decision_of_run hrun, decide_verdict h, decision_of_run
          ((run_judge_async_eq_ok_iff h).2 ⟨secret, q, hsecret, hmem, hpasses, rfl⟩)]
      · -- then both drop it
        have hrefused : kind = .acct ∧
            wireCode (data.take maxPacketSize) = PacketType.accountingResponse ∨
            maxPacketSize < data.length ∧
              wireCode (data.take maxPacketSize) ∈ kind.requestCodes := by
          rcases hserves with hmem | hresponse
          · exact .inr ⟨Nat.not_le.1 fun hle ↦ hboth ⟨hle, hmem⟩, hmem⟩
          · exact .inl hresponse
        rw [decision_async_of_refused h hrefused, decision_sync_of_passes hsecret hserves hpasses]
        by_contra hflight
        exact hover ⟨hrefused, secret, q, s', hsecret, hpasses,
          fun key hkey hlookup ↦ hflight ⟨key, hkey, hlookup⟩⟩
    · have hsync : (sync srv kind enabled).decision E data addr s = .drop := by
        refine decision_of_not_run fun v s' hrun ↦ haccepted ?_
        obtain ⟨secret, q, hsecret, hserves, hpasses, -⟩ := Server.run_judge_eq_ok_iff.1 hrun
        exact ⟨secret, q, s', hsecret, hserves, hpasses⟩
      have hasync : (async proto).decision E data addr s = .drop := by
        refine decision_of_not_run fun v s' hrun ↦ haccepted ?_
        obtain ⟨secret, q, hsecret, hmem, hpasses, -⟩ := (run_judge_async_eq_ok_iff h).1 hrun
        have hlength : data.length ≤ maxPacketSize :=
          Nat.not_lt.1 fun hlong ↦ not_passes_of_long hlong hpasses
        rw [List.take_of_length_le hlength]
        exact ⟨secret, q, s', hsecret, .inl hmem, hpasses⟩
      rw [hsync, hasync]

/-- The asynchronous accounting listener that matches `accountingListener`. -/
def accountingProtocol : DatagramProtocolServer where
  server :=
    { router := oneHost.router
      handleAuthPacket := fun _ _ ↦ .done
      handleAcctPacket := fun _ _ ↦ .done }
  serverType := .acct
  hosts := oneHost.router.hosts

theorem counterparts_accountingProtocol : Counterparts oneHost .acct accountingProtocol where
  router := rfl
  hosts := rfl
  serverType := rfl

/-- Both call the accounting handler for an Accounting-Request whose digest is right. -/
theorem decision_eq_iff_accountingProtocol :
    accountingListener.decision (Env.ofByte (fun _ ↦ 1) fun _ _ ↦ 1) (bareDatagram 4)
        ("192.0.2.1", 40000) idleState =
      (async accountingProtocol).decision (Env.ofByte (fun _ ↦ 1) fun _ _ ↦ 1) (bareDatagram 4)
        ("192.0.2.1", 40000) idleState ↔
      ¬ oneHost.Oversteps (Env.ofByte (fun _ ↦ 1) fun _ _ ↦ 1) .acct (bareDatagram 4)
        ("192.0.2.1", 40000) idleState :=
  decision_eq_iff _ rfl counterparts_accountingProtocol _ _ _

/-- An Accounting-Response reaches the handler of the synchronous server, and the asynchronous one
drops it. -/
theorem decision_ne_accountingProtocol :
    Counterparts oneHost .acct accountingProtocol ∧
      accountingListener.decision (Env.ofByte (fun _ ↦ 1) fun _ _ ↦ 1) (bareDatagram 5)
          ("192.0.2.1", 40000) idleState ≠
        (async accountingProtocol).decision (Env.ofByte (fun _ ↦ 1) fun _ _ ↦ 1) (bareDatagram 5)
          ("192.0.2.1", 40000) idleState := by
  refine ⟨counterparts_accountingProtocol, fun heq ↦ ?_⟩
  have hdrop := congrArg Decision.isDrop heq
  exact absurd hdrop (by decide +kernel)

end Listener

end Pyrad2
