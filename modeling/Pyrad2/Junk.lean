import Pyrad2.Foundations.Noise
import Pyrad2.Proxy
import Pyrad2.Survival
import Pyrad2.Verdicts

/-!
# Junk leaves no trace

Whatever a server is sent besides its traffic, and drops, changes nothing of what it does with its
traffic.

Creating replies, sending them and the response cache do not look at the counter of identifiers, and
a handler does not unless it edits packets by a method of its own that does. So a run with junk put in
stays in step with the run without.
-/

namespace Pyrad2

open EStateM Packet ServerState

namespace Packet

variable {E : Env} {α : Type}

end Packet

section

variable {E : Env} {r : RequestRouter} {α : Type}

namespace RequestRouter

end RequestRouter

end

/-! ### Handlers -/

/-- A handler that does not look at the counter: the methods it calls on packets do not, and the
packets it creates replies to have an identifier, as those have that it is called with. -/
inductive HandlerProgram.Inattentive : HandlerProgram → Prop
  | done : Inattentive .done
  | raise (e : Exn) : Inattentive (.raise e)
  | createReply {request : Packet} {code : Option ℕ} {attributes : KwAttributes}
      {next : Except Exn Packet → HandlerProgram} (hid : request.id.isSome = true)
      (hnext : ∀ outcome, Inattentive (next outcome)) :
      Inattentive (.createReply request code attributes next)
  | edit {pkt : Packet} {m : PacketMethod Unit} {next : Except Exn Packet → HandlerProgram}
      (hm : Packet.Uncounting m) (hnext : ∀ outcome, Inattentive (next outcome)) :
      Inattentive (.edit pkt m next)
  | sendReply {reply : Packet} {addr : Address} {next : Except Exn Unit → HandlerProgram}
      (hnext : ∀ outcome, Inattentive (next outcome)) : Inattentive (.sendReply reply addr next)

section

variable {E : Env} {r : RequestRouter} {t : Transport}

end

namespace Server

variable {E : Env} {srv : Server} {data : Bytes} {addr : Address}

/-- None of the handlers looks at the counter. -/
def Inattentive (srv : Server) : Prop :=
  ∀ name pkt, pkt.id.isSome = true → (srv.handler name pkt).Inattentive

end Server

/-! ### Proxies -/

namespace Proxy

variable {E : Env} {proxy : Proxy} {data : Bytes} {addr : Address} {s : ServerState}

/-- The packet accepts, rejects or acknowledges, and comes from a host that is listed itself, not for
the wildcard address. -/
def Takes (proxy : Proxy) (raw : Bytes) (addr : Address) : Prop :=
  (∃ host, proxy.router.hosts.get? addr.1 = some host) ∧
    (∃ st, Decoded proxy.router.dictionary raw st) ∧
      wireCode raw ∈ [PacketType.accessAccept, PacketType.accessReject,
        PacketType.accountingResponse]

/-- What is done with a reply that was parsed. -/
theorem handleProxyPacket_parsed (proxy : Proxy) (raw secret : Bytes) (addr : Address)
    (st : DecodeState) :
    (∃ q, proxy.handleProxyPacket (proxy.router.parsed raw secret st (some addr)) = .ok q) ∧
        ((∃ host, proxy.router.hosts.get? addr.1 = some host) ∧
          wireCode raw ∈ [PacketType.accessAccept, PacketType.accessReject,
            PacketType.accountingResponse]) ∨
      (∃ e, proxy.handleProxyPacket (proxy.router.parsed raw secret st (some addr)) = .error e ∧
          e.isDropped = true) ∧
        ¬ ((∃ host, proxy.router.hosts.get? addr.1 = some host) ∧
          wireCode raw ∈ [PacketType.accessAccept, PacketType.accessReject,
            PacketType.accountingResponse]) := by
  have hsource : (proxy.router.parsed raw secret st (some addr)).source = some addr := rfl
  have hcode : (proxy.router.parsed raw secret st (some addr)).code = wireCode raw := rfl
  rw [handleProxyPacket, hsource]
  dsimp only
  rcases proxy.router.hosts.get? addr.1 with - | host
  · exact .inr ⟨⟨_, rfl, rfl⟩, fun h ↦ by obtain ⟨⟨host, hhost⟩, -⟩ := h; cases hhost⟩
  dsimp only
  rw [hcode]
  split
  · next hother => exact .inr ⟨⟨_, rfl, rfl⟩, fun h ↦ hother h.2⟩
  · next hreply => exact .inl ⟨⟨_, rfl⟩, ⟨host, rfl⟩, not_not.1 hreply⟩

/-- **The socket of the proxy.** Replies it takes are parsed, all else is dropped, and neither leaves
anything but the counter. -/
theorem ensures_processInput_proxy (E : Env) (proxy : Proxy) (data : Bytes) (addr : Address)
    (s : ServerState) : Ensures (proxy.processInput E .proxy data addr) s
      (fun _ s' ↦ proxy.Takes (data.take maxPacketSize) addr ∧ s.SameButCounter s')
      fun e s' ↦ ¬ proxy.Takes (data.take maxPacketSize) addr ∧ e.isDropped = true ∧
        s.SameButCounter s' := by
  have hdecides := Server.decides_grabPacket E proxy.toServer data addr
  rw [processInput, ensures_bind]
  rcases hgrab : (proxy.grabPacket E data addr).run s with ⟨p, s'⟩ | ⟨e, s'⟩
  · obtain ⟨secret, st, -, hst, rfl, rfl⟩ := Server.run_grabPacket_eq_ok_iff.1 hgrab
    have hsame : s.SameButCounter (RequestRouter.afterParse s) := ⟨rfl, rfl, rfl, rfl⟩
    refine .of_ok hgrab ?_
    rcases handleProxyPacket_parsed proxy (data.take maxPacketSize) secret addr st with
      ⟨⟨q, hq⟩, hhost, hcode⟩ | ⟨⟨e, he, hdropped⟩, hnot⟩
    · rw [hq]
      exact ⟨⟨hhost, ⟨st, hst⟩, hcode⟩, hsame⟩
    · rw [he]
      exact ⟨fun h ↦ hnot ⟨h.1, h.2.2⟩, hdropped, hsame⟩
  · refine .of_error hgrab ⟨fun htakes ↦ ?_,
      (Server.ensures_grabPacket E proxy.toServer data addr s).of_run_eq_error hgrab,
      hdecides.sameButCounter_of_error hgrab⟩
    -- a listed host has a secret, so what it sends is parsed
    obtain ⟨⟨host, hhost⟩, ⟨st, hst⟩, -⟩ := htakes
    have hsecret : proxy.router.lookupSecret addr.1 = .ok host.secret := by
      rw [RequestRouter.lookupSecret, hhost]
      rfl
    have hparsed := Server.run_grabPacket_eq_ok_iff (E := E) (s := s).2
      ⟨host.secret, st, hsecret, hst, rfl, rfl⟩
    rw [hgrab] at hparsed
    cases hparsed

end Proxy

end Pyrad2
