import Pyrad2.Packet.Bound
import Pyrad2.Radsec.Server

/-!
# Packet by packet

Which replies does the RadSec server write to a connection?

The server sees a stream, not packets. It reads a header, and then as many bytes as the header says;
if it ever read one byte too many or too few, every packet from there on would be another one. Here
the loop is compared with what it is meant for: the stream is cut into packets once, and each of
them is answered in turn. A connection ends only for the reasons listed, and the bytes written to it
come apart again into the replies.
-/

namespace Pyrad2

open EStateM

namespace RadSecServer

/-! ### What the server is meant to do -/

/-- A packet is answered with these bytes, in the turn that is its own. -/
def Answered (E : Env) (srv : RadSecServer) (host : String) (version : RadiusVersion) (t : Turn)
    (data : Bytes) (w : World) (raw : Bytes) (w' : World) : Prop :=
  ∃ remote, srv.remoteHost host = some remote ∧
    (srv.answer E remote version t.handlers data).run (t.meanwhile w) = .ok raw w'

/-- Packets are answered one after the other, the first of them as number `k` of its connection. -/
inductive Exchanges (E : Env) (srv : RadSecServer) (host : String) (version : RadiusVersion)
    (turn : ℕ → Turn) : ℕ → World → List Bytes → List Bytes → World → Prop where
  | nil (k : ℕ) (w : World) : Exchanges E srv host version turn k w [] [] w
  | cons {k : ℕ} {w w' w'' : World} {data raw : Bytes} {packets raws : List Bytes}
      (answered : srv.Answered E host version (turn k) data w raw w')
      (rest : Exchanges E srv host version turn (k + 1) w' packets raws w'') :
      Exchanges E srv host version turn k w (data :: packets) (raw :: raws) w''

/-- Why the connection ends, `n` packets after number `k`: there are no more, which is for the peer to
answer for; the server has no secret for the peer, or has answered enough; or the connection fails,
or answering the next packet does. -/
inductive Ends (E : Env) (srv : RadSecServer) (host : String) (version : RadiusVersion)
    (turn : ℕ → Turn) (packets : List Bytes) (tail : Bytes) (k n : ℕ) (w : World) :
    Except Failure Closing → Prop where
  | closedByPeer (all : n = packets.length) (wellFormed : ¬ radiusFraming.Malformed tail) :
      Ends E srv host version turn packets tail k n w (.ok .closedByPeer)
  | invalidPacket (all : n = packets.length) (malformed : radiusFraming.Malformed tail) :
      Ends E srv host version turn packets tail k n w (.ok .invalidPacket)
  | timedOut {stage : Stage} (fault : (turn (k + n)).fault = some (stage, .timeout)) :
      Ends E srv host version turn packets tail k n w (.ok .timedOut)
  | unknownHost (unknown : srv.remoteHost host = none) (more : n < packets.length) :
      Ends E srv host version turn packets tail k n w (.ok .unknownHost)
  | packetLimit {limit : ℤ} (limited : srv.maxPacketsPerConnection = some limit) (pos : 0 < n)
      (reached : limit ≤ (k : ℤ) + n) :
      Ends E srv host version turn packets tail k n w (.ok .packetLimit)
  | unread {stage : Stage} {outage : Outage} (fault : (turn (k + n)).fault = some (stage, outage)) :
      Ends E srv host version turn packets tail k n w (.error (.io outage.toIoError))
  | undrained {outage : Outage} (pos : 0 < n)
      (fault : (turn (k + (n - 1))).fault = some (.drain, outage)) :
      Ends E srv host version turn packets tail k n w (.error (.io outage.toIoError))
  | unanswered {data : Bytes} {remote : RemoteHost} {e : Exn} {w' : World}
      (next : packets[n]? = some data) (known : srv.remoteHost host = some remote)
      (raises : (srv.answer E remote version (turn (k + n)).handlers data).run
        ((turn (k + n)).meanwhile w) = .error e w') :
      Ends E srv host version turn packets tail k n w (.error (.raised e))

/-! ### Reading one packet -/

section

variable {t : Turn} {stage : Stage} {s : ServedStream} {n : ℕ}

theorem ensures_mayFail (t : Turn) (stage : Stage) (s : ServedStream) :
    Ensures (mayFail t stage) s (fun _ s' ↦ s' = s) fun f s' ↦ s' = s ∧
      ∃ outage, t.fault = some (stage, outage) ∧ f = .io outage.toIoError := by
  rw [mayFail]
  split
  · next at' outage hfault =>
    split
    · next hstage => exact ⟨rfl, outage, by rw [hfault, hstage], rfl⟩
    · exact rfl
  · exact rfl

/-- Reading takes the bytes that are asked for, if there are so many. -/
theorem ensures_readexactly (t : Turn) (stage : Stage) (n : ℕ) (s : ServedStream) :
    Ensures (readexactly t stage n) s
      (fun b s' ↦ n ≤ s.unread.length ∧ b = s.unread.take n ∧
        s' = { s with unread := s.unread.drop n })
      fun f s' ↦ (∃ rest, s' = { s with unread := rest }) ∧
        ((∃ outage, t.fault = some (stage, outage) ∧ f = .io outage.toIoError) ∨
          s.unread.length < n ∧ f = .io .incompleteRead) := by
  rw [readexactly]
  refine ensures_bind.2 ((ensures_mayFail t stage s).imp ?_ ?_)
  · rintro _ _ rfl
    refine ensures_bind.2 (ensures_get.2 ?_)
    split
    · next hshort =>
      exact ensures_bind.2 (ensures_set.2 (ensures_throw.2 ⟨⟨[], rfl⟩, .inr ⟨hshort, rfl⟩⟩))
    · next hlong =>
      exact ensures_bind.2 (ensures_set.2 (ensures_pure.2 ⟨not_lt.1 hlong, rfl, rfl⟩))
  · rintro _ _ ⟨rfl, houtage⟩
    exact ⟨⟨_, rfl⟩, .inl houtage⟩

/-- **One packet** is taken off the stream just when it begins with one. -/
theorem ensures_readRadiusPacket (t : Turn) (s : ServedStream) :
    Ensures (readRadiusPacket t) s
      (fun data s' ↦ radiusFraming.Begins s.unread ∧
        data = s.unread.take (radiusFraming.size s.unread) ∧
        s' = { s with unread := s.unread.drop (radiusFraming.size s.unread) })
      fun f s' ↦ (∃ rest, s' = { s with unread := rest }) ∧
        ((∃ stage outage, t.fault = some (stage, outage) ∧ f = .io outage.toIoError) ∨
          ¬ radiusFraming.Begins s.unread ∧ ¬ radiusFraming.Malformed s.unread ∧
            f = .io .incompleteRead ∨
          radiusFraming.Malformed s.unread ∧ ∃ msg, f = .raised (.valueError msg)) := by
  rw [readRadiusPacket]
  refine ensures_bind.2 ((ensures_readexactly t .header 4 s).imp ?_ ?_)
  · rintro _ _ ⟨hfour, rfl, rfl⟩
    rw [RadSecClient.wireLength_take]
    split
    · next hsmall =>
      exact ensures_throw.2 ⟨⟨_, rfl⟩, .inr (.inr ⟨⟨hfour, hsmall⟩, _, rfl⟩)⟩
    · next hlarge =>
      have htwenty : 20 ≤ Packet.wireLength s.unread := not_lt.1 hlarge
      have hsum : 4 + (Packet.wireLength s.unread - 4) = Packet.wireLength s.unread := by omega
      refine ensures_bind.2 ((ensures_readexactly t .body _ _).imp ?_ ?_)
      · rintro _ _ ⟨hrest, rfl, rfl⟩
        refine ensures_pure.2 ⟨⟨htwenty, ?_⟩, ?_, ?_⟩
        · show Packet.wireLength s.unread ≤ s.unread.length
          rw [List.length_drop] at hrest
          omega
        · show s.unread.take 4 ++ (s.unread.drop 4).take (Packet.wireLength s.unread - 4) =
            s.unread.take (Packet.wireLength s.unread)
          rw [← List.take_add, hsum]
        · show ({ s with unread := (s.unread.drop 4).drop (Packet.wireLength s.unread - 4) } :
            ServedStream) = { s with unread := s.unread.drop (Packet.wireLength s.unread) }
          rw [List.drop_drop, hsum]
      · rintro _ _ ⟨⟨rest, rfl⟩, ⟨outage, hfault, rfl⟩ | ⟨hshort, rfl⟩⟩
        · exact ⟨⟨rest, rfl⟩, .inl ⟨_, outage, hfault, rfl⟩⟩
        · refine ⟨⟨rest, rfl⟩, .inr (.inl ⟨fun h ↦ ?_, fun h ↦ absurd h.2 (not_lt.2 htwenty), rfl⟩)⟩
          have hle : Packet.wireLength s.unread ≤ s.unread.length := h.2
          rw [List.length_drop] at hshort
          omega
  · rintro _ _ ⟨hrest, ⟨outage, hfault, rfl⟩ | ⟨hshort, rfl⟩⟩
    · exact ⟨hrest, .inl ⟨_, outage, hfault, rfl⟩⟩
    · refine ⟨hrest, .inr (.inl ⟨fun h ↦ ?_, fun h ↦ absurd h.1 (not_le.2 hshort), rfl⟩)⟩
      exact absurd (h.1.trans h.2) (by show ¬ 20 ≤ s.unread.length; omega)

/-- What comes of reading from a stream with these bytes to come. -/
inductive Reads (t : Turn) (unread : Bytes) : Except Closing Bytes → Bytes → Prop where
  | packet (begins : radiusFraming.Begins unread) :
      Reads t unread (.ok (unread.take (radiusFraming.size unread)))
        (unread.drop (radiusFraming.size unread))
  | closedByPeer {rest : Bytes} (short : ¬ radiusFraming.Begins unread)
      (wellFormed : ¬ radiusFraming.Malformed unread) : Reads t unread (.error .closedByPeer) rest
  | invalidPacket {rest : Bytes} (malformed : radiusFraming.Malformed unread) :
      Reads t unread (.error .invalidPacket) rest
  | timedOut {rest : Bytes} {stage : Stage} (fault : t.fault = some (stage, .timeout)) :
      Reads t unread (.error .timedOut) rest

theorem ensures_readPacket (t : Turn) (s : ServedStream) :
    Ensures (readPacket t) s
      (fun result s' ↦ ∃ rest, s' = { s with unread := rest } ∧ Reads t s.unread result rest)
      fun f s' ↦ (∃ rest, s' = { s with unread := rest }) ∧
        ∃ stage outage, t.fault = some (stage, outage) ∧ f = .io outage.toIoError := by
  rw [readPacket]
  refine ensures_tryCatch.2 (ensures_bind.2 ((ensures_readRadiusPacket t s).imp ?_ ?_))
  · rintro _ _ ⟨hbegins, rfl, rfl⟩
    exact ensures_pure.2 ⟨_, rfl, .packet hbegins⟩
  · rintro f _ ⟨⟨rest, rfl⟩, ⟨stage, outage, hfault, rfl⟩ | ⟨hshort, hformed, rfl⟩ | ⟨hmalformed, msg, rfl⟩⟩
    · rcases outage with - | - | -
      · exact ⟨rest, rfl, .timedOut hfault⟩
      · exact ⟨⟨rest, rfl⟩, stage, .os, hfault, rfl⟩
      · exact ⟨⟨rest, rfl⟩, stage, .cancelled, hfault, rfl⟩
    · exact ⟨rest, rfl, .closedByPeer hshort hformed⟩
    · exact ⟨rest, rfl, .invalidPacket hmalformed⟩

end

/-! ### The loop -/

/-- What the loop comes to, from packet number `k` of the connection on: the replies that were
written, and how it ends. -/
def ServesFrom (E : Env) (srv : RadSecServer) (host : String) (version : RadiusVersion)
    (turn : ℕ → Turn) (k : ℕ) (stream : Bytes) (w : World) (raws : List Bytes)
    (r : Except Failure Closing) : Prop :=
  ∃ w', srv.Exchanges E host version turn k w ((radiusFraming.frames stream).1.take raws.length)
      raws w' ∧
    srv.Ends E host version turn (radiusFraming.frames stream).1 (radiusFraming.frames stream).2 k
      raws.length w' r ∧
    ∀ limit, srv.maxPacketsPerConnection = some limit →
      (k : ℤ) + raws.length ≤ max ((k : ℤ) + 1) limit

section

variable {E : Env} {srv : RadSecServer} {host : String} {version : RadiusVersion} {turn : ℕ → Turn}
  {k : ℕ} {stream : Bytes} {w w' : World} {r : Except Failure Closing}

/-- Nothing is answered. -/
theorem servesFrom_nil (h : srv.Ends E host version turn (radiusFraming.frames stream).1
    (radiusFraming.frames stream).2 k 0 w r) : srv.ServesFrom E host version turn k stream w [] r := by
  refine ⟨w, .nil k w, h, fun limit _ ↦ ?_⟩
  show (k : ℤ) + 0 ≤ max ((k : ℤ) + 1) limit
  omega

/-- The same reason for one packet more. -/
theorem Ends.cons {packets : List Bytes} {tail data : Bytes} {n : ℕ}
    (h : srv.Ends E host version turn packets tail (k + 1) n w r) :
    srv.Ends E host version turn (data :: packets) tail k (n + 1) w r := by
  have hnumber : k + 1 + n = k + (n + 1) := by omega
  cases h with
  | closedByPeer all wellFormed =>
    exact .closedByPeer (by rw [all, List.length_cons]) wellFormed
  | invalidPacket all malformed =>
    exact .invalidPacket (by rw [all, List.length_cons]) malformed
  | timedOut fault => exact .timedOut (hnumber ▸ fault)
  | unknownHost unknown more =>
    exact .unknownHost unknown (by rw [List.length_cons]; exact Nat.succ_lt_succ more)
  | packetLimit limited pos reached =>
    refine .packetLimit limited (Nat.succ_pos n) ?_
    push_cast at reached ⊢
    omega
  | unread fault => exact .unread (hnumber ▸ fault)
  | undrained pos fault =>
    have hlast : k + 1 + (n - 1) = k + (n + 1 - 1) := by omega
    exact .undrained (Nat.succ_pos n) (hlast ▸ fault)
  | unanswered next known raises =>
    rw [hnumber] at raises
    exact .unanswered (by rw [List.getElem?_cons_succ]; exact next) known raises

/-- **One packet and the rest of the stream.** -/
theorem ServesFrom.cons {raw : Bytes} {raws : List Bytes} (hbegins : radiusFraming.Begins stream)
    (hanswered : srv.Answered E host version (turn k) (stream.take (radiusFraming.size stream)) w
      raw w')
    (hmore : srv.maxPacketsPerConnection.any (fun limit ↦ limit ≤ (k : ℤ) + 1) = false)
    (h : srv.ServesFrom E host version turn (k + 1) (stream.drop (radiusFraming.size stream)) w'
      raws r) : srv.ServesFrom E host version turn k stream w (raw :: raws) r := by
  obtain ⟨w'', hrest, hends, hlimit⟩ := h
  rw [ServesFrom, Framing.frames_of_begins hbegins]
  refine ⟨w'', .cons hanswered hrest, hends.cons, fun limit hlimited ↦ ?_⟩
  have hle := hlimit limit hlimited
  rw [hlimited] at hmore
  have hlt : ¬ limit ≤ (k : ℤ) + 1 := by simpa using hmore
  rw [List.length_cons]
  push_cast at hle ⊢
  omega

/-- One packet, with which the connection ends. -/
theorem servesFrom_singleton {raw : Bytes} (hbegins : radiusFraming.Begins stream)
    (hanswered : srv.Answered E host version (turn k) (stream.take (radiusFraming.size stream)) w
      raw w')
    (h : srv.Ends E host version turn (radiusFraming.frames stream).1 (radiusFraming.frames stream).2
      k 1 w' r) : srv.ServesFrom E host version turn k stream w [raw] r := by
  refine ⟨w', ?_, h, fun limit _ ↦ ?_⟩
  · rw [Framing.frames_of_begins hbegins]
    exact .cons hanswered (.nil _ _)
  · show (k : ℤ) + ((1 : ℕ) : ℤ) ≤ max ((k : ℤ) + 1) limit
    push_cast
    omega

theorem ensures_onWorld {α : Type} {m : Method World α} {s : ServedStream} :
    Ensures (onWorld m) s (fun a s' ↦ ∃ world, m.run s.world = .ok a world ∧ s' = { s with world })
      fun f s' ↦ ∃ e world, m.run s.world = .error e world ∧ f = .raised e ∧
        s' = { s with world } := by
  rcases hrun : m.run s.world with ⟨a, world⟩ | ⟨e, world⟩
  · have honWorld : (onWorld m).run s = .ok a { s with world } := by
      show onWorld m s = _
      rw [onWorld, hrun]
    exact .of_ok honWorld ⟨world, rfl, rfl⟩
  · have honWorld : (onWorld m).run s = .error (.raised e) { s with world } := by
      show onWorld m s = _
      rw [onWorld, hrun]
    exact .of_error honWorld ⟨e, world, rfl, rfl, rfl⟩

/-- **The loop answers packet by packet.** -/
theorem ensures_serve (E : Env) (srv : RadSecServer) (host : String) (version : RadiusVersion)
    (turn : ℕ → Turn) {fuel : ℕ} (k : ℕ) (s : ServedStream) (hfuel : s.unread.length < fuel) :
    Ensures (srv.serve E host version turn fuel k) s
      (fun closing s' ↦ ∃ raws, s'.written = s.written ++ raws ∧
        srv.ServesFrom E host version turn k s.unread s.world raws (.ok closing))
      fun f s' ↦ ∃ raws, s'.written = s.written ++ raws ∧
        srv.ServesFrom E host version turn k s.unread s.world raws (.error f) := by
  induction fuel generalizing k s with
  | zero => exact absurd hfuel (Nat.not_lt_zero _)
  | succ fuel ih =>
    rw [serve]
    refine ensures_bind.2 (ensures_modify.2 (ensures_bind.2 ((ensures_readPacket _ _).imp ?_ ?_)))
    · rintro result _ ⟨rest, rfl, hreads⟩
      cases hreads with
      | closedByPeer short wellFormed =>
        refine ensures_pure.2 ⟨[], (List.append_nil _).symm, servesFrom_nil ?_⟩
        rw [Framing.frames_of_not_begins short]
        exact .closedByPeer rfl wellFormed
      | invalidPacket malformed =>
        refine ensures_pure.2 ⟨[], (List.append_nil _).symm, servesFrom_nil ?_⟩
        rw [Framing.frames_of_not_begins fun h ↦ absurd malformed.2 (not_lt.2 h.1)]
        exact .invalidPacket rfl malformed
      | timedOut fault =>
        exact ensures_pure.2 ⟨[], (List.append_nil _).symm, servesFrom_nil (.timedOut fault)⟩
      | packet begins =>
        have hpos : 0 < (radiusFraming.frames s.unread).1.length := by
          rw [Framing.frames_of_begins begins]
          exact Nat.succ_pos _
        have hfirst : (radiusFraming.frames s.unread).1[0]? =
            some (s.unread.take (radiusFraming.size s.unread)) := by
          rw [Framing.frames_of_begins begins]
          rfl
        dsimp only
        rcases hremote : srv.remoteHost host with - | remote
        · exact ensures_pure.2 ⟨[], (List.append_nil _).symm,
            servesFrom_nil (.unknownHost hremote hpos)⟩
        refine ensures_bind.2 (ensures_onWorld.imp ?_ ?_)
        · rintro raw _ ⟨world, hrun, rfl⟩
          have hanswered : srv.Answered E host version (turn k)
              (s.unread.take (radiusFraming.size s.unread)) s.world raw world := ⟨remote, hremote, hrun⟩
          refine ensures_bind.2 ?_
          rw [write]
          refine ensures_bind.2 (ensures_modify.2 ((ensures_mayFail _ _ _).imp ?_ ?_))
          · rintro _ _ rfl
            split
            · next hlimit =>
              obtain ⟨limit, hlimited, hle⟩ := (Option.any_eq_true ..).1 hlimit
              exact ensures_pure.2 ⟨[raw], rfl, servesFrom_singleton begins hanswered
                (.packetLimit hlimited Nat.zero_lt_one (by simpa using hle))⟩
            · next hlimit =>
              have hdrop : (s.unread.drop (radiusFraming.size s.unread)).length < fuel := by
                have htwenty : 20 ≤ radiusFraming.size s.unread := begins.1
                have hle : radiusFraming.size s.unread ≤ s.unread.length := begins.2
                rw [List.length_drop]
                omega
              refine (ih (k + 1) _ hdrop).imp ?_ ?_
              · rintro closing s' ⟨raws, hwritten, hserves⟩
                refine ⟨raw :: raws, ?_, hserves.cons begins hanswered (by simpa using hlimit)⟩
                rw [hwritten]
                simp
              · rintro f s' ⟨raws, hwritten, hserves⟩
                refine ⟨raw :: raws, ?_, hserves.cons begins hanswered (by simpa using hlimit)⟩
                rw [hwritten]
                simp
          · rintro _ _ ⟨rfl, outage, hfault, rfl⟩
            exact ⟨[raw], rfl, servesFrom_singleton begins hanswered
              (.undrained Nat.zero_lt_one hfault)⟩
        · rintro _ _ ⟨e, world, hrun, rfl, rfl⟩
          exact ⟨[], (List.append_nil _).symm, servesFrom_nil (.unanswered hfirst hremote hrun)⟩
    · rintro _ _ ⟨⟨rest, rfl⟩, stage, outage, hfault, rfl⟩
      exact ⟨[], (List.append_nil _).symm, servesFrom_nil (.unread hfault)⟩

end

/-! ### A connection -/

/-- What a connection comes to: it is not admitted, or its packets are answered one by one. -/
inductive Serves (E : Env) (srv : RadSecServer) (sha256 : Bytes → Bytes) (peer : Peer)
    (turn : ℕ → Turn) (stream : Bytes) (w : World) : List Bytes → Except Failure Closing → Prop where
  | refused {closing : Closing} (greet : srv.greet sha256 peer = .error closing) :
      Serves E srv sha256 peer turn stream w [] (.ok closing)
  | admitted {version : RadiusVersion} {raws : List Bytes} {r : Except Failure Closing}
      (greet : srv.greet sha256 peer = .ok version)
      (serves : srv.ServesFrom E peer.host version turn 0 stream w raws r) :
      Serves E srv sha256 peer turn stream w raws r

theorem ensures_converse (E : Env) (srv : RadSecServer) (sha256 : Bytes → Bytes) (peer : Peer)
    (turn : ℕ → Turn) (stream : Bytes) (w : World) :
    Ensures (srv.converse E sha256 peer turn) { unread := stream, world := w }
      (fun closing s ↦ srv.Serves E sha256 peer turn stream w s.written (.ok closing))
      fun f s ↦ srv.Serves E sha256 peer turn stream w s.written (.error f) := by
  rw [converse]
  split
  · next closing hgreet => exact ensures_pure.2 (.refused hgreet)
  · next version hgreet =>
    refine ensures_bind.2 (ensures_get.2 ((ensures_serve E srv peer.host version turn 0 _
      (Nat.lt_succ_self _)).imp ?_ ?_))
    · rintro closing s ⟨raws, hwritten, hserves⟩
      rw [List.nil_append] at hwritten
      exact .admitted hgreet (hwritten ▸ hserves)
    · rintro f s ⟨raws, hwritten, hserves⟩
      rw [List.nil_append] at hwritten
      exact .admitted hgreet (hwritten ▸ hserves)

/-- **A connection is served packet by packet**, whatever the handlers do, whatever other tasks do to
the process, and however the connection fails; and in the end its writer is closed. -/
theorem ensures_handleClient (E : Env) (srv : RadSecServer) (sha256 : Bytes → Bytes) (peer : Peer)
    (turn : ℕ → Turn) (stream : Bytes) (w : World) :
    Ensures (srv.handleClient E sha256 peer turn) { unread := stream, world := w }
      (fun closing s ↦ s.closed = true ∧
        srv.Serves E sha256 peer turn stream w s.written (.ok closing))
      fun f s ↦ s.closed = true ∧ srv.Serves E sha256 peer turn stream w s.written (.error f) := by
  have hconverse := ensures_converse E srv sha256 peer turn stream w
  rw [Ensures] at hconverse
  rw [Ensures, handleClient, run_cleanup]
  rcases hrun : (srv.converse E sha256 peer turn).run { unread := stream, world := w } with
    ⟨closing, s⟩ | ⟨f, s⟩
  · rw [hrun] at hconverse
    exact ⟨rfl, hconverse⟩
  · rw [hrun] at hconverse
    exact ⟨rfl, hconverse⟩

/-! ### What is written -/

section

variable {E : Env} {srv : RadSecServer} {host : String} {version : RadiusVersion} {turn : ℕ → Turn}
  {k : ℕ} {w w' : World} {packets raws : List Bytes}

theorem ensures_answer_readable (E : Env) (srv : RadSecServer) (remote : RemoteHost)
    (version : RadiusVersion) (h : RadSecHandlers) (data : Bytes) (w : World) :
    Ensures (srv.answer E remote version h data) w (fun raw _ ↦ Packet.Readable raw)
      fun _ _ ↦ True := by
  rw [answer]
  refine ensures_bind.2 (ensures_of_forall (fun reply w' ↦ ?_) fun _ _ ↦ trivial)
  exact ensures_bind.2 (Packet.ensures_run.2
    ((Packet.readable_serialized E ⟨reply, w'⟩).2.imp (fun _ _ h ↦ h) fun _ _ h ↦ h))

theorem isFrame_of_readable {raw : Bytes} (h : Packet.Readable raw) : radiusFraming.IsFrame raw where
  least_le := by
    show 20 ≤ Packet.wireLength raw
    rw [h.length_eq]
    exact h.header
  size_eq := h.length_eq

/-- **Every reply is a frame.** -/
theorem Exchanges.isFrame (h : srv.Exchanges E host version turn k w packets raws w') :
    ∀ raw ∈ raws, radiusFraming.IsFrame raw := by
  induction h with
  | nil => exact fun _ hraw ↦ (List.not_mem_nil hraw).elim
  | cons answered _ ih =>
    obtain ⟨remote, -, hrun⟩ := answered
    exact List.forall_mem_cons.2 ⟨isFrame_of_readable
      ((ensures_answer_readable E srv remote version _ _ _).of_run_eq_ok hrun), ih⟩

end

/-- **The peer reads what was written**: the bytes of a connection come apart into the replies. -/
theorem frames_written (E : Env) (srv : RadSecServer) (sha256 : Bytes → Bytes) (peer : Peer)
    (turn : ℕ → Turn) (stream : Bytes) (w : World) :
    radiusFraming.frames (after (srv.handleClient E sha256 peer turn)
        { unread := stream, world := w }).written.flatten =
      ((after (srv.handleClient E sha256 peer turn) { unread := stream, world := w }).written, []) := by
  have hserves {raws : List Bytes} {r : Except Failure Closing}
      (h : srv.Serves E sha256 peer turn stream w raws r) :
      radiusFraming.frames raws.flatten = (raws, []) := by
    cases h with
    | refused greet => exact radiusFraming.frames_nil
    | admitted greet serves =>
      obtain ⟨w', hexchanges, -⟩ := serves
      exact Framing.frames_flatten hexchanges.isFrame
  refine (ensures_iff_after (P := fun s : ServedStream ↦
    radiusFraming.frames s.written.flatten = (s.written, []))).1 ?_
  exact (ensures_handleClient E srv sha256 peer turn stream w).imp (fun _ _ h ↦ hserves h.2)
    fun _ _ h ↦ hserves h.2

/-! ### Which request a reply answers -/

end RadSecServer

/-- The method returns a reply to the packet it is called with. -/
def Packet.Replying (m : PacketMethod Packet) : Prop :=
  ∀ s, Ensures m s (fun reply _ ↦ Packet.RepliesTo s.pkt reply) fun _ _ ↦ True

/-- Every handler does. -/
structure RadSecHandlers.Replying (h : RadSecHandlers) : Prop where
  handleAccessRequest : Packet.Replying h.handleAccessRequest
  handleAccounting : Packet.Replying h.handleAccounting
  handleCoa : Packet.Replying h.handleCoa
  handleDisconnect : Packet.Replying h.handleDisconnect

namespace RadSecServer

open Packet (Fills RepliesTo Represents Bound)

section

variable {E : Env} {srv : RadSecServer} {h : RadSecHandlers}

theorem replying_making {m : Packet → Method World Packet}
    (hm : ∀ p w, Ensures (m p) w (fun reply _ ↦ RepliesTo p reply) fun _ _ ↦ True) :
    Packet.Replying (Packet.making m) := by
  intro s
  rw [Packet.making]
  exact ensures_bind.2 (ensures_get.2 (ensures_onPart.2 (hm s.pkt s.world)))

theorem replying_unsupported (E : Env) (code : ℕ) : Packet.Replying (unsupported E code) := by
  refine replying_making fun p w ↦ ?_
  rw [createUnsupportedCoaReply]
  refine ensures_bind.2 ((Packet.ensures_createReply_repliesTo E p none [] w).imp
    (fun reply _ hreply ↦ ?_) fun _ _ h ↦ h)
  exact ensures_pure.2 ⟨hreply.id_eq, hreply.authenticator_eq, hreply.token_eq, hreply.secret_eq,
    hreply.version_eq⟩

/-- **What is dispatched is replied to.** -/
theorem replying_dispatch (E : Env) (srv : RadSecServer) (hh : h.Replying) :
    Packet.Replying (srv.dispatch E h) := by
  intro s
  rw [dispatch]
  refine ensures_bind.2 (ensures_get.2 ?_)
  dsimp only
  split
  · exact replying_making (fun p w ↦ Packet.ensures_createReply_repliesTo E p _ [] w) s
  split
  · exact hh.handleAccessRequest s
  split
  · exact hh.handleAccounting s
  split
  · split
    · exact hh.handleCoa s
    · exact replying_unsupported E _ s
  split
  · split
    · exact hh.handleDisconnect s
    · exact replying_unsupported E _ s
  · trivial

/-- **The checks** leave what binds the request. -/
theorem fills_check (E : Env) (srv : RadSecServer) : Respects Fills (srv.check E) := by
  have hpolicy : Respects Fills (srv.validateMessageAuthenticatorPolicy E) :=
    (Packet.recodes_validateMessageAuthenticatorPolicy E _ _).mono fun _ _ h ↦ h.fills
  have hstatus : Respects Fills (Packet.verifyStatusRequest E) := by
    refine respects_get.bind fun s ↦ ?_
    split
    · exact respects_pure _
    · exact Method.respects_catchException ((Packet.recodes_verifyMessageAuthenticator E _ _ _).mono
        fun _ _ h ↦ h.fills) (respects_pure _)
  have hverify : Respects Fills (verifyPacketOf E) := by
    refine respects_get.bind fun s ↦ ?_
    dsimp only
    split
    · exact respects_liftM _
    · exact respects_liftM _
    · exact respects_liftM _
    · exact hstatus
    · exact respects_liftM _
  rw [check]
  split
  · refine hverify.bind fun verified ↦ ?_
    split
    · exact hpolicy
    · exact respects_throw_bind _ _
  · exact hpolicy

/-- **An answer is bound to its packet.** -/
theorem ensures_answer_bound (E : Env) (srv : RadSecServer) (remote : RemoteHost)
    (version : RadiusVersion) (hh : h.Replying) (data : Bytes) (w : World) :
    Ensures (srv.answer E remote version h data) w
      (fun raw _ ↦ Bound E version remote.secret data raw) fun _ _ ↦ True := by
  have hreceived : Ensures (srv.packetReceived E remote version h data) w
      (fun reply _ ↦ Represents version remote.secret data reply) fun _ _ ↦ True := by
    rw [packetReceived]
    refine ensures_bind.2 ((Packet.ensures_parsePacket_represents E data remote.secret srv.dictionary
      version w).imp (fun p w₁ hp ↦ ?_) fun _ _ h ↦ h)
    have hcheck := fills_check E srv ⟨p, w₁⟩
    refine ensures_bind.2 (Packet.ensures_run.2 ?_)
    rcases hrun : (srv.check E).run ⟨p, w₁⟩ with ⟨u, s⟩ | ⟨e, s⟩
    · rw [after_of_ok hrun] at hcheck
      have hs := hp.of_fills hcheck
      refine .of_ok hrun (ensures_bind.2 (Packet.ensures_run.2 ((replying_dispatch E srv hh s).imp
        (fun reply s' hreply ↦ ?_) fun _ _ h ↦ h)))
      have hprepare : Fills ⟨reply, s'.world⟩
          (after (srv.prepareReplyPacket E s'.pkt) ⟨reply, s'.world⟩) :=
        Packet.fills_prepareReplyMessageAuthenticator E s'.pkt _ _ _
      refine ensures_bind.2 (Packet.ensures_run.2 ?_)
      rcases hlast : (srv.prepareReplyPacket E s'.pkt).run ⟨reply, s'.world⟩ with ⟨u', t⟩ | ⟨e, t⟩
      · rw [after_of_ok hlast] at hprepare
        have hrepresents : Represents version remote.secret data reply := hs.of_repliesTo hreply
        exact .of_ok hlast (ensures_pure.2 (Represents.of_fills (s := ⟨reply, s'.world⟩) hrepresents hprepare))
      · exact .of_error hlast trivial
    · exact .of_error hrun trivial
  rw [answer]
  refine ensures_bind.2 (hreceived.imp (fun reply w' hreply ↦ ?_) fun _ _ h ↦ h)
  exact ensures_bind.2 (Packet.ensures_run.2 ((hreply.ensures_replyPacket w').imp
    (fun _ _ h ↦ h) fun _ _ h ↦ h))

/-- One after the other. -/
theorem Exchanges.bound {host : String} {version : RadiusVersion} {turn : ℕ → Turn} {k : ℕ}
    {w w' : World} {packets raws : List Bytes} {remote : RemoteHost}
    (h : srv.Exchanges E host version turn k w packets raws w')
    (hreplying : ∀ k, (turn k).handlers.Replying) (hremote : srv.remoteHost host = some remote) :
    List.Forall₂ (Bound E version remote.secret) packets raws := by
  induction h with
  | nil => exact .nil
  | cons answered _ ih =>
    obtain ⟨remote', hremote', hrun⟩ := answered
    rw [hremote] at hremote'
    cases hremote'
    exact .cons ((ensures_answer_bound E srv remote version (hreplying _) _ _).of_run_eq_ok hrun) ih

/-- **Replies are bound to requests**: on a connection whose handlers return replies to what they are
called with, each reply is bound to the packet that came in its place. -/
theorem bound_written (E : Env) (srv : RadSecServer) (sha256 : Bytes → Bytes) (peer : Peer)
    (turn : ℕ → Turn) (stream : Bytes) (w : World) {version : RadiusVersion} {remote : RemoteHost}
    (hgreet : srv.greet sha256 peer = .ok version)
    (hremote : srv.remoteHost peer.host = some remote)
    (hreplying : ∀ k, (turn k).handlers.Replying) :
    List.Forall₂ (Bound E version remote.secret)
      ((radiusFraming.frames stream).1.take (after (srv.handleClient E sha256 peer turn)
        { unread := stream, world := w }).written.length)
      (after (srv.handleClient E sha256 peer turn) { unread := stream, world := w }).written := by
  have hserves {raws : List Bytes} {r : Except Failure Closing}
      (h : srv.Serves E sha256 peer turn stream w raws r) :
      List.Forall₂ (Bound E version remote.secret)
        ((radiusFraming.frames stream).1.take raws.length) raws := by
    cases h with
    | refused greet => exact .nil
    | admitted greet serves =>
      obtain ⟨w', hexchanges, -⟩ := serves
      rw [hgreet] at greet
      cases greet
      exact hexchanges.bound hreplying hremote
  refine (ensures_iff_after (P := fun s : ServedStream ↦ List.Forall₂ (Bound E version remote.secret)
    ((radiusFraming.frames stream).1.take s.written.length) s.written)).1 ?_
  exact (ensures_handleClient E srv sha256 peer turn stream w).imp (fun _ _ h ↦ hserves h.2)
    fun _ _ h ↦ hserves h.2

end

end RadSecServer

end Pyrad2
