import Pyrad2.Router

/-!
# Handlers

The programs that users plug into a server.

A handler is arbitrary code, but all it does to the server it does by calling it: it has replies
created, edits them, and has them sent. Between its calls it computes freely and reacts to what they
return or raise, so a handler is a tree of calls that branches on their outcomes. Running one changes
the response cache only by recording the replies that were sent.
-/

namespace Pyrad2

/-- Which of the two servers runs. -/
inductive Transport where
  | sync
  | async
  deriving DecidableEq, Repr

/-- A handler that was called with a packet, as the calls it makes. -/
inductive HandlerProgram where
  /-- It returns. -/
  | done
  /-- It raises an exception of its own. -/
  | raise (e : Exn)
  /-- It calls `create_reply_packet(request, **attributes)`. -/
  | createReply (request : Packet) (code : Option ℕ) (attributes : Packet.KwAttributes)
      (next : Except Exn Packet → HandlerProgram)
  /-- It calls methods of a packet. -/
  | edit (pkt : Packet) (m : PacketMethod Unit) (next : Except Exn Packet → HandlerProgram)
  /-- It sends a reply; the address is for `send_response` of the asynchronous server. -/
  | sendReply (reply : Packet) (addr : Address) (next : Except Exn Unit → HandlerProgram)

/-- A handler. -/
abbrev Handler := Packet → HandlerProgram

open ServerState

namespace Transport

variable (E : Env) (r : RequestRouter)

/-- `create_reply_packet(pkt, **attributes)` -/
def createReplyPacket (t : Transport) (pkt : Packet) (code : Option ℕ)
    (attributes : Packet.KwAttributes) : ServerMethod Packet :=
  match t with
  | sync => r.createReplyPacket E pkt.source pkt code attributes
  | async => r.createReplyPacket E none pkt code attributes

/-- `send_reply_packet(fd, reply)`, or `send_response(reply, addr)`. -/
def sendReply (t : Transport) (reply : Packet) (addr : Address) : ServerMethod Unit :=
  match t with
  | sync => r.sendReplyPacket E reply.source reply
  | async => r.sendReplyPacket E (some addr) reply

end Transport

namespace HandlerProgram

variable (E : Env) (r : RequestRouter) (t : Transport)

/-- Run a handler. -/
def run : HandlerProgram → ServerMethod Unit
  | done => return
  | raise e => throw e
  | createReply request code attributes next => do
    let outcome ← Method.attempt (t.createReplyPacket E r request code attributes)
    (next outcome).run
  | edit pkt m next => do
    let outcome ← Method.attempt (onWorld (pkt.run m))
    (next (outcome.map Prod.snd)).run
  | sendReply reply addr next => do
    let outcome ← Method.attempt (t.sendReply E r reply addr)
    (next outcome).run

end HandlerProgram

/-! ### What a handler can do to the server -/

namespace RequestRouter

variable (r : RequestRouter)

/-- What recording a sent reply does to the response cache. -/
def recordSent (d : DedupState) (m : Sent) : DedupState :=
  match r.hasDedupCache, m.key with
  | true, some key => d.recordReply key m.raw
  | _, _ => d

/-- Between `s` and `s'` the replies `new` were sent and recorded. -/
structure Replied (s : ServerState) (new : List Sent) (s' : ServerState) : Prop where
  sent : s'.sent = s.sent ++ new
  dedup : s'.dedup = new.foldl r.recordSent s.dedup
  handled : s'.handled = s.handled

variable {r} {s s' s'' : ServerState} {new new' : List Sent}

theorem Replied.refl (s : ServerState) : r.Replied s [] s where
  sent := (List.append_nil _).symm
  dedup := rfl
  handled := rfl

theorem Replied.of_eq (hsent : s'.sent = s.sent) (hdedup : s'.dedup = s.dedup)
    (hhandled : s'.handled = s.handled) : r.Replied s [] s' where
  sent := by rw [hsent, List.append_nil]
  dedup := hdedup
  handled := hhandled

theorem Replied.trans (h : r.Replied s new s') (h' : r.Replied s' new' s'') :
    r.Replied s (new ++ new') s'' where
  sent := by rw [h'.sent, h.sent, List.append_assoc]
  dedup := by rw [h'.dedup, h.dedup, List.foldl_append]
  handled := h'.handled.trans h.handled

/-- Some replies were sent and recorded between two states. -/
def Answered (r : RequestRouter) (s s' : ServerState) : Prop := ∃ new, r.Replied s new s'

instance : IsPreorder ServerState r.Answered where
  refl := fun s ↦ ⟨[], .refl s⟩
  trans := fun _ _ _ ⟨_, h⟩ ⟨_, h'⟩ ↦ ⟨_, h.trans h'⟩

/-- From every state, the method only has replies sent and recorded. -/
abbrev OnlyReplies (r : RequestRouter) {α : Type} (m : ServerMethod α) : Prop :=
  EStateM.Respects r.Answered m

variable {α : Type}

theorem onlyReplies_onWorld (m : Method World α) : r.OnlyReplies (onWorld m) := by
  intro s
  refine ⟨[], ?_⟩
  rcases h : m.run s.world with ⟨a, w⟩ | ⟨e, w⟩
  · have hrun : (onWorld m).run s = .ok a { s with world := w } := by
      rw [onWorld, EStateM.run_onPart, h]
    rw [EStateM.after_of_ok hrun]
    exact .of_eq rfl rfl rfl
  · have hrun : (onWorld m).run s = .error e { s with world := w } := by
      rw [onWorld, EStateM.run_onPart, h]
    rw [EStateM.after_of_error hrun]
    exact .of_eq rfl rfl rfl

/-- A reply that was handed to `sendto` is recorded. -/
theorem onlyReplies_sendTo_recordReply (raw : Bytes) (dest : Option Address) (reply : Packet) :
    r.OnlyReplies (sendTo raw dest reply.dedupKey >>= fun _ ↦ r.recordReply reply raw) := by
  intro s
  rcases dest with - | dest
  · exact ⟨[], .refl s⟩
  · refine ⟨[⟨raw, dest, reply.dedupKey⟩], ?_⟩
    have hsend : (sendTo raw (some dest) reply.dedupKey).run s =
        .ok () { s with sent := s.sent ++ [⟨raw, dest, reply.dedupKey⟩] } := rfl
    rw [EStateM.after_bind_of_ok hsend, recordReply]
    rcases hkey : reply.dedupKey with - | key
    · refine ⟨rfl, ?_, rfl⟩
      rw [List.foldl_cons, List.foldl_nil, recordSent]
      rcases r.hasDedupCache <;> rfl
    · rcases hcache : r.hasDedupCache
      · exact ⟨rfl, by simp [recordSent, hcache, EStateM.after], rfl⟩
      · exact ⟨rfl, by simp [recordSent, hcache, EStateM.after], rfl⟩

variable (r)

theorem onlyReplies_createReplyPacket (E : Env) (source : Option Address) (pkt : Packet)
    (code : Option ℕ) (attributes : Packet.KwAttributes) :
    r.OnlyReplies (r.createReplyPacket E source pkt code attributes) :=
  (onlyReplies_onWorld _).bind fun _ ↦ (onlyReplies_onWorld _).bind fun _ ↦ EStateM.respects_pure _

theorem onlyReplies_sendReplyPacket (E : Env) (dest : Option Address) (reply : Packet) :
    r.OnlyReplies (r.sendReplyPacket E dest reply) :=
  (onlyReplies_onWorld _).bind fun _ ↦ (onlyReplies_onWorld _).bind fun ⟨raw, reply⟩ ↦
    onlyReplies_sendTo_recordReply raw dest reply

end RequestRouter

/-- **A handler changes the response cache only by sending replies**, and never by a direct call. -/
theorem HandlerProgram.onlyReplies (E : Env) (r : RequestRouter) (t : Transport)
    (p : HandlerProgram) : r.OnlyReplies (p.run E r t) := by
  induction p with
  | done => exact EStateM.respects_pure ()
  | raise e => exact EStateM.respects_throw e
  | createReply request code attributes next ih =>
    have hcreate : r.OnlyReplies (t.createReplyPacket E r request code attributes) := by
      cases t <;> exact r.onlyReplies_createReplyPacket E _ request code attributes
    exact (Method.respects_attempt hcreate).bind fun outcome ↦ ih outcome
  | edit pkt m next ih =>
    exact (Method.respects_attempt (RequestRouter.onlyReplies_onWorld _)).bind fun outcome ↦ ih _
  | sendReply reply addr next ih =>
    have hsend : r.OnlyReplies (t.sendReply E r reply addr) := by
      cases t <;> exact r.onlyReplies_sendReplyPacket E _ reply
    exact (Method.respects_attempt hsend).bind fun outcome ↦ ih outcome

end Pyrad2
