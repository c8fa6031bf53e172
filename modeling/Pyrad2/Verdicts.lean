import Pyrad2.Decision
import Pyrad2.Packet.Counter
import Pyrad2.Packet.Detached

/-!
# Verdicts and the process

What a listener decides on a datagram does not depend on the process it runs in, nor on anything that
was received before: parsing takes an identifier from the counter, and that is all that a datagram
leaves behind that is dropped by the checks.
-/

namespace Pyrad2

open EStateM Packet ServerState

/-- The servers are in the same state, and the same random draws are to come. -/
structure ServerState.SameButCounter (s t : ServerState) : Prop where
  dedup : t.dedup = s.dedup
  sent : t.sent = s.sent
  handled : t.handled = s.handled
  world : SameDraws s.world t.world

namespace ServerState

theorem SameButCounter.refl (s : ServerState) : s.SameButCounter s := ⟨rfl, rfl, rfl, rfl⟩

theorem SameButCounter.trans {s t u : ServerState} (h : s.SameButCounter t)
    (h' : t.SameButCounter u) : s.SameButCounter u :=
  ⟨h'.dedup.trans h.dedup, h'.sent.trans h.sent, h'.handled.trans h.handled,
    h'.world.trans h.world⟩

theorem SameButCounter.symm {s t : ServerState} (h : s.SameButCounter t) : t.SameButCounter s :=
  ⟨h.dedup.symm, h.sent.symm, h.handled.symm, Eq.symm h.world⟩

theorem sameButCounter_of_world {s : ServerState} {w : World} (h : SameDraws s.world w) :
    s.SameButCounter { s with world := w } := ⟨rfl, rfl, rfl, h⟩

end ServerState

/-- From every state the method returns the same, or it raises from every state, and it changes
nothing but the counter. -/
structure Decides {α : Type} (m : ServerMethod α) : Prop where
  run : (∃ a, ∀ s, ∃ s', m.run s = .ok a s' ∧ s.SameButCounter s') ∨
    ∀ s, ∃ e s', m.run s = .error e s' ∧ s.SameButCounter s'

section

variable {α β : Type} {m : ServerMethod α} {f : α → ServerMethod β}

theorem decides_pure (a : α) : Decides (pure a) :=
  ⟨.inl ⟨a, fun s ↦ ⟨s, rfl, .refl s⟩⟩⟩

theorem decides_throw (e : Exn) : Decides (throw e : ServerMethod α) :=
  ⟨.inr fun s ↦ ⟨e, s, rfl, .refl s⟩⟩

/-- What follows need only decide for what is returned. -/
theorem Decides.bind (hm : Decides m)
    (hf : ∀ a, (∀ s, ∃ s', m.run s = .ok a s') → Decides (f a)) : Decides (m >>= f) := by
  rcases hm.run with ⟨a, hrun⟩ | hrun
  · have hreturns (s : ServerState) : ∃ s', m.run s = .ok a s' := (hrun s).imp fun _ h ↦ h.1
    rcases (hf a hreturns).run with ⟨b, hrest⟩ | hrest
    · refine ⟨.inl ⟨b, fun s ↦ ?_⟩⟩
      obtain ⟨s₁, hs₁, hsame⟩ := hrun s
      obtain ⟨s₂, hs₂, hsame'⟩ := hrest s₁
      exact ⟨s₂, by rw [run_bind_of_ok hs₁, hs₂], hsame.trans hsame'⟩
    · refine ⟨.inr fun s ↦ ?_⟩
      obtain ⟨s₁, hs₁, hsame⟩ := hrun s
      obtain ⟨e, s₂, hs₂, hsame'⟩ := hrest s₁
      exact ⟨e, s₂, by rw [run_bind_of_ok hs₁, hs₂], hsame.trans hsame'⟩
  · refine ⟨.inr fun s ↦ ?_⟩
    obtain ⟨e, s₁, hs₁, hsame⟩ := hrun s
    exact ⟨e, s₁, run_bind_of_error hs₁, hsame⟩

theorem Decides.sameButCounter_of_error (hm : Decides m) {s s' : ServerState} {e : Exn}
    (hrun : m.run s = .error e s') : s.SameButCounter s' := by
  rcases hm.run with ⟨a, hreturns⟩ | hraises
  · obtain ⟨s'', hs'', -⟩ := hreturns s
    rw [hrun] at hs''
    cases hs''
  · obtain ⟨e', s'', hs'', hsame⟩ := hraises s
    rw [hrun] at hs''
    cases hs''
    exact hsame

theorem decides_liftM (x : Except Exn α) : Decides (liftM x : ServerMethod α) := by
  rcases x with e | a
  · exact decides_throw e
  · exact decides_pure a

end

namespace RequestRouter

variable {E : Env} {r : RequestRouter} {raw secret : Bytes} {p : Packet}

/-- **Parsing** decides on the bytes alone. -/
theorem decides_parse (E : Env) (r : RequestRouter) (raw secret : Bytes) :
    Decides (onWorld (r.parse E raw secret)) := by
  by_cases hdecoded : ∃ st, Decoded r.dictionary raw st
  · obtain ⟨st, hst⟩ := hdecoded
    exact ⟨.inl ⟨_, fun s ↦ ⟨afterParse s, run_onWorld_parse_eq_ok_iff.2 ⟨⟨st, hst, rfl⟩, rfl⟩,
      rfl, rfl, rfl, rfl⟩⟩⟩
  have hdraws (w : World) : Ensures (r.parse E raw secret) w (fun _ w' ↦ SameDraws w w')
      fun _ w' ↦ SameDraws w w' := by
    rw [parse]
    split
    · exact rfl
    · unfold parsePacket
      split
      · exact rfl
      · exact ensures_construct_sameDraws ..
  refine ⟨.inr fun s ↦ ?_⟩
  have hparse := ensures_parse E r raw secret s.world
  have hsame := hdraws s.world
  rw [Ensures] at hparse hsame
  rcases hrun : (r.parse E raw secret).run s.world with ⟨p, w⟩ | ⟨e, w⟩
  · rw [hrun] at hparse
    obtain ⟨st, hst, -⟩ := hparse
    exact absurd ⟨st, hst⟩ hdecoded
  · rw [hrun] at hsame
    refine ⟨e, { s with world := w }, ?_, sameButCounter_of_world hsame⟩
    rw [onWorld, run_onPart, hrun]

end RequestRouter

namespace Server

variable {E : Env} {srv : Server} {data : Bytes} {addr : Address}

theorem decides_grabPacket (E : Env) (srv : Server) (data : Bytes) (addr : Address) :
    Decides (srv.grabPacket E data addr) := by
  rw [grabPacket]
  exact (decides_liftM _).bind fun secret _ ↦
    (RequestRouter.decides_parse E srv.router _ secret).bind fun _ _ ↦ decides_pure _

end Server

end Pyrad2
