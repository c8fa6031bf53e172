import Pyrad2.Radsec.Exchanges

/-!
# The RadSec client against the RadSec server

What the two ends of a connection make of each other's streams.

Each end cuts what it receives into packets by their length fields, and each end writes nothing but
packets that their own length fields delimit. So the requests of a client arrive as they were written
however many of them are under way, and a client that is not cancelled reads no byte of a response
that is not its own.
-/

namespace Pyrad2

open EStateM

namespace RadSecServer

/-- What a client sends is a frame. -/
theorem isFrame_of_outgoing {E : Env} {raw : Bytes} {s s' : PacketState}
    (h : (Packet.outgoing E).run s = .ok raw s') : radiusFraming.IsFrame raw := by
  rw [Packet.outgoing, run_bind_eq_ok_iff] at h
  obtain ⟨_, s₁, -, hrun⟩ := h
  exact isFrame_of_readable ((Packet.readable_serialized E s₁).1.of_run_eq_ok hrun)

/-- **Requests one behind the other** arrive one by one, and what is written comes apart into replies
that are bound to them, in this order. -/
theorem bound_pipelined (E : Env) (srv : RadSecServer) (sha256 : Bytes → Bytes) (peer : Peer)
    (turn : ℕ → Turn) {requests : List Bytes} (w : World) {version : RadiusVersion}
    {remote : RemoteHost} (hrequests : ∀ raw ∈ requests, ∃ s s', (Packet.outgoing E).run s = .ok raw s')
    (hgreet : srv.greet sha256 peer = .ok version)
    (hremote : srv.remoteHost peer.host = some remote)
    (hreplying : ∀ k, (turn k).handlers.Replying) :
    ∃ replies, radiusFraming.frames (after (srv.handleClient E sha256 peer turn)
        { unread := requests.flatten, world := w }).written.flatten = (replies, []) ∧
      List.Forall₂ (Packet.Bound E version remote.secret) (requests.take replies.length) replies := by
  have hframes : radiusFraming.frames requests.flatten = (requests, []) :=
    Framing.frames_flatten fun raw hraw ↦ by
      obtain ⟨s, s', hrun⟩ := hrequests raw hraw
      exact isFrame_of_outgoing hrun
  have hserves {raws : List Bytes} {r : Except Failure Closing}
      (h : srv.Serves E sha256 peer turn requests.flatten w raws r) :
      List.Forall₂ (Packet.Bound E version remote.secret) (requests.take raws.length) raws := by
    cases h with
    | refused greet => exact .nil
    | admitted greet serves =>
      obtain ⟨w', hexchanges, -⟩ := serves
      rw [hgreet] at greet
      cases greet
      rw [hframes] at hexchanges
      exact hexchanges.bound hreplying hremote
  refine ⟨_, frames_written E srv sha256 peer turn requests.flatten w, ?_⟩
  refine (ensures_iff_after (P := fun s : ServedStream ↦
    List.Forall₂ (Packet.Bound E version remote.secret) (requests.take s.written.length)
      s.written)).1 ?_
  exact (ensures_handleClient E srv sha256 peer turn _ w).imp (fun _ _ h ↦ hserves h.2)
    fun _ _ h ↦ hserves h.2

end RadSecServer

namespace RadSecState

variable {E : Env} {versions : List RadiusVersion}

/-- An attempt that no caller cancels, and to which a RadSec server answers, or does not. -/
structure FromServer (E : Env) (a : Attempt) : Prop where
  uncancelled : ∀ stage, a.fault ≠ some (stage, .cancelled)
  answered : a.response = [] ∨ ∃ (srv : RadSecServer) (remote : RemoteHost)
    (version : RadiusVersion) (h : RadSecHandlers) (data : Bytes) (w w' : World),
    (srv.answer E remote version h data).run w = .ok a.response w'

theorem FromServer.fits {a : Attempt} (h : FromServer E a) (s : RadSecState) :
    Fits E versions a s := by
  refine ⟨h.uncancelled, fun _ _ hlong ↦ ?_, fun _ _ hlong ↦ ?_⟩
  · rcases h.answered with hnil | ⟨srv, remote, version, handlers, data, w, w', hrun⟩
    · rw [hnil] at hlong
      cases hlong
    · exact (RadSecServer.isFrame_of_readable ((RadSecServer.ensures_answer_readable E srv remote
        version handlers data w).of_run_eq_ok hrun)).least_le
  · rcases h.answered with hnil | ⟨srv, remote, version, handlers, data, w, w', hrun⟩
    · rw [hnil] at hlong
      cases hlong
    · have hframe := RadSecServer.isFrame_of_readable ((RadSecServer.ensures_answer_readable E srv
        remote version handlers data w).of_run_eq_ok hrun)
      have hlength : Packet.wireLength a.response = a.response.length := hframe.size_eq
      exact absurd hlong (by omega)

end RadSecState

/-! ### Two requests -/

namespace RadSecServer

/-- Handlers that give the reply of the class. -/
def replyingHandlers (E : Env) : RadSecHandlers where
  handleAccessRequest := Packet.making fun packet ↦ Packet.createReply E packet none none []
  handleAccounting := Packet.making fun packet ↦ Packet.createReply E packet none none []
  handleCoa := unsupported E PacketType.coaNAK
  handleDisconnect := unsupported E PacketType.disconnectNAK

theorem replying_replyingHandlers (E : Env) : (replyingHandlers E).Replying where
  handleAccessRequest := replying_making fun p w ↦
    Packet.ensures_createReply_repliesTo E p none [] w
  handleAccounting := replying_making fun p w ↦ Packet.ensures_createReply_repliesTo E p none [] w
  handleCoa := replying_unsupported E _
  handleDisconnect := replying_unsupported E _

/-- A server of one host. -/
def oneHostServer : RadSecServer := { hosts := OrderedDict.set ∅ "192.0.2.1" ⟨[115]⟩ }

/-- A connection without faults, on which nothing else happens. -/
def quietTurn (E : Env) : ℕ → Turn := fun _ ↦ { handlers := replyingHandlers E }

/-- An Access-Request and a CoA-Request, if digests are zeros. -/
def twoRequests : List Bytes :=
  [[1, 7, 0, 20] ++ List.replicate 16 1, [43, 8, 0, 20] ++ List.replicate 16 0]

/-- The process. -/
def stillWorld : World := { rng := ⟨fun _ ↦ 0⟩ }

example : (after (oneHostServer.handleClient RadSecState.zeroEnv (fun b ↦ b) { host := "192.0.2.1" }
    (quietTurn RadSecState.zeroEnv)) { unread := twoRequests.flatten, world := stillWorld }).written =
    [[2, 7, 0, 20] ++ List.replicate 16 0,
      [45, 8, 0, 26] ++ List.replicate 16 0 ++ [101, 6, 0, 0, 1, 150]] := by
  decide +kernel

theorem bound_written_twoRequests :
    List.Forall₂ (Packet.Bound RadSecState.zeroEnv .v1_0 [115])
      ((radiusFraming.frames twoRequests.flatten).1.take
        (after (oneHostServer.handleClient RadSecState.zeroEnv (fun b ↦ b) { host := "192.0.2.1" }
          (quietTurn RadSecState.zeroEnv))
          { unread := twoRequests.flatten, world := stillWorld }).written.length)
      (after (oneHostServer.handleClient RadSecState.zeroEnv (fun b ↦ b) { host := "192.0.2.1" }
        (quietTurn RadSecState.zeroEnv))
        { unread := twoRequests.flatten, world := stillWorld }).written :=
  bound_written RadSecState.zeroEnv oneHostServer (fun b ↦ b) { host := "192.0.2.1" }
    (quietTurn RadSecState.zeroEnv) twoRequests.flatten stillWorld rfl
    (show oneHostServer.remoteHost "192.0.2.1" = some ⟨[115]⟩ from rfl)
    fun _ ↦ replying_replyingHandlers _

theorem bound_pipelined_twoRequests :
    ∃ replies, radiusFraming.frames (after (oneHostServer.handleClient RadSecState.zeroEnv
        (fun b ↦ b) { host := "192.0.2.1" } (quietTurn RadSecState.zeroEnv))
        { unread := twoRequests.flatten, world := stillWorld }).written.flatten = (replies, []) ∧
      List.Forall₂ (Packet.Bound RadSecState.zeroEnv .v1_0 [115]) (twoRequests.take replies.length)
        replies := by
  refine bound_pipelined RadSecState.zeroEnv oneHostServer (fun b ↦ b) { host := "192.0.2.1" }
    (quietTurn RadSecState.zeroEnv) stillWorld (List.forall_mem_cons.2 ⟨?_, List.forall_mem_cons.2
      ⟨?_, fun _ hraw ↦ (List.not_mem_nil hraw).elim⟩⟩) rfl
    (show oneHostServer.remoteHost "192.0.2.1" = some ⟨[115]⟩ from rfl)
    fun _ ↦ replying_replyingHandlers _
  · exact ⟨⟨{ cls := .auth, code := 1, id := some 7, authenticator := some (List.replicate 16 1) },
      stillWorld⟩, _, rfl⟩
  · exact ⟨⟨{ cls := .coa, code := 43, id := some 8 }, stillWorld⟩, _, rfl⟩

end RadSecServer

end Pyrad2
