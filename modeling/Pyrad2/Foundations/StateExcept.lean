import Mathlib.Data.List.Forall2
import Mathlib.Order.Defs.Unbundled

/-!
# Running stateful, fallible computations

What a run of an `EStateM` computation from a given state comes to, and rules for what every run of
one guarantees; and when a computation without a state succeeds.

A run ends in a result that carries a state, whether it returns or raises. The equations here extend
those of the core library to the operations it leaves out, so that a proof can execute a
computation one step at a time. `Ensures` states what holds after any run; its rules follow the
syntax of the computation. `Respects` states along which relation every run moves the state.
-/

namespace Except

universe u v

variable {ε : Type u} {α β : Type v}

/-! ### Fallible computations without a state -/

@[simp] theorem bind_of_ok (a : α) (f : α → Except ε β) : (Except.ok a >>= f) = f a := rfl

@[simp] theorem bind_of_error (e : ε) (f : α → Except ε β) :
    (Except.error e >>= f) = Except.error e := rfl

theorem bind_eq_ok_iff {x : Except ε α} {f : α → Except ε β} {b : β} :
    (x >>= f) = .ok b ↔ ∃ a, x = .ok a ∧ f a = .ok b := by
  rcases x with e | a <;> simp

/-- A map over a list succeeds when every call does. -/
theorem mapM_eq_ok {f : α → Except ε β} {g : α → β} {l : List α} (h : ∀ a ∈ l, f a = .ok (g a)) :
    l.mapM f = .ok (l.map g) := by
  induction l with
  | nil => rfl
  | cons a l ih =>
    rw [List.mapM_cons, h a (by simp), bind_of_ok, ih fun b hb ↦ h b (by simp [hb])]
    rfl

/-- A map over a list succeeds exactly when every call does. -/
theorem exists_mapM_eq_ok_iff {f : α → Except ε β} {l : List α} :
    (∃ bs, l.mapM f = .ok bs) ↔ ∀ a ∈ l, ∃ b, f a = .ok b := by
  induction l with
  | nil => exact ⟨fun _ a ha ↦ (List.not_mem_nil ha).elim, fun _ ↦ ⟨[], rfl⟩⟩
  | cons a l ih =>
    rw [List.forall_mem_cons, ← ih, List.mapM_cons]
    constructor
    · rintro ⟨bs, hbs⟩
      obtain ⟨b, hb, hrest⟩ := bind_eq_ok_iff.1 hbs
      obtain ⟨bs', hbs', -⟩ := bind_eq_ok_iff.1 hrest
      exact ⟨⟨b, hb⟩, bs', hbs'⟩
    · rintro ⟨⟨b, hb⟩, bs, hbs⟩
      exact ⟨b :: bs, by rw [hb, bind_of_ok, hbs]; rfl⟩

/-- A map over a list returns one result for each element. -/
theorem forall₂_of_mapM_eq_ok {f : α → Except ε β} {l : List α} {bs : List β}
    (h : l.mapM f = .ok bs) : List.Forall₂ (fun a b ↦ f a = .ok b) l bs := by
  induction l generalizing bs with
  | nil =>
    cases h
    exact .nil
  | cons a l ih =>
    rw [List.mapM_cons] at h
    obtain ⟨b, hb, hrest⟩ := bind_eq_ok_iff.1 h
    obtain ⟨rest, hl, heq⟩ := bind_eq_ok_iff.1 hrest
    cases heq
    exact .cons hb (ih hl)

/-- Whatever a map over a list returned comes from one of its elements. -/
theorem exists_of_mem_mapM {f : α → Except ε β} {l : List α} {bs : List β}
    (h : l.mapM f = .ok bs) {b : β} (hb : b ∈ bs) : ∃ a ∈ l, f a = .ok b := by
  have hall := forall₂_of_mapM_eq_ok h
  clear h
  induction hall with
  | nil => exact (List.not_mem_nil hb).elim
  | cons hfirst _ ih =>
    rcases List.mem_cons.1 hb with rfl | hb
    · exact ⟨_, List.mem_cons_self, hfirst⟩
    · obtain ⟨a, ha, hfa⟩ := ih hb
      exact ⟨a, List.mem_cons_of_mem _ ha, hfa⟩

/-- Every element has its result. -/
theorem exists_mem_of_mapM {f : α → Except ε β} {l : List α} {bs : List β}
    (h : l.mapM f = .ok bs) {a : α} (ha : a ∈ l) : ∃ b ∈ bs, f a = .ok b := by
  have hall := forall₂_of_mapM_eq_ok h
  clear h
  induction hall with
  | nil => exact (List.not_mem_nil ha).elim
  | cons hfirst _ ih =>
    rcases List.mem_cons.1 ha with rfl | ha
    · exact ⟨_, List.mem_cons_self, hfirst⟩
    · obtain ⟨b, hb, hfb⟩ := ih ha
      exact ⟨b, List.mem_cons_of_mem _ hb, hfb⟩

/-- Lists whose elements give the same one by one. -/
theorem mapM_eq_mapM_of_forall₂ {γ : Type} {r : α → γ → Prop} {f : α → Except ε β} {g : γ → Except ε β}
    (hfg : ∀ a c, r a c → f a = g c) {l : List α} {l' : List γ} (h : List.Forall₂ r l l') :
    l.mapM f = l'.mapM g := by
  induction h with
  | nil => rfl
  | cons hr _ ih => rw [List.mapM_cons, List.mapM_cons, hfg _ _ hr, ih]

/-- An invariant of the accumulator holds of the result. -/
theorem invariant_of_foldlM {f : β → α → Except ε β} {I : β → Prop} {l : List α} {b c : β}
    (h : l.foldlM f b = .ok c) (hb : I b)
    (hstep : ∀ a ∈ l, ∀ b b', I b → f b a = .ok b' → I b') : I c := by
  induction l generalizing b with
  | nil =>
    cases h
    exact hb
  | cons a l ih =>
    rw [List.foldlM_cons] at h
    obtain ⟨b', hb', hrest⟩ := bind_eq_ok_iff.1 h
    exact ih hrest (hstep a (by simp) b b' hb hb') fun a' ha' ↦ hstep a' (by simp [ha'])

/-- A fold succeeds exactly when every step does, if whether one does rests on its element alone. -/
theorem exists_foldlM_eq_ok_iff {f : β → α → Except ε β} {P : α → Prop} {l : List α}
    (h : ∀ b, ∀ a ∈ l, (∃ c, f b a = .ok c) ↔ P a) (b : β) :
    (∃ c, l.foldlM f b = .ok c) ↔ ∀ a ∈ l, P a := by
  induction l generalizing b with
  | nil => exact ⟨fun _ _ ha ↦ (List.not_mem_nil ha).elim, fun _ ↦ ⟨b, rfl⟩⟩
  | cons a l ih =>
    have hrest (b : β) : (∃ c, l.foldlM f b = .ok c) ↔ ∀ a ∈ l, P a :=
      ih (fun b a' ha' ↦ h b a' (List.mem_cons_of_mem _ ha')) b
    rw [List.forall_mem_cons, ← h b a List.mem_cons_self, List.foldlM_cons]
    constructor
    · rintro ⟨c, hc⟩
      obtain ⟨b', hb', hc⟩ := bind_eq_ok_iff.1 hc
      exact ⟨⟨b', hb'⟩, (hrest b').1 ⟨c, hc⟩⟩
    · rintro ⟨⟨b', hb'⟩, hall⟩
      obtain ⟨c, hc⟩ := (hrest b').2 hall
      exact ⟨c, bind_eq_ok_iff.2 ⟨b', hb', hc⟩⟩

/-! ### What may be raised -/

/-- Every error of the computation is among `S`. -/
structure OnlyRaises (S : ε → Prop) (x : Except ε α) : Prop where
  of_error : ∀ e, x = .error e → S e

section

variable {S : ε → Prop}

theorem onlyRaises_ok (a : α) : OnlyRaises S (.ok a : Except ε α) := ⟨fun _ h ↦ by cases h⟩

theorem onlyRaises_pure (a : α) : OnlyRaises S (pure a : Except ε α) := onlyRaises_ok a

theorem onlyRaises_error {e : ε} (he : S e) : OnlyRaises S (.error e : Except ε α) :=
  ⟨fun _ h ↦ by cases h; exact he⟩

theorem OnlyRaises.bind {x : Except ε α} {f : α → Except ε β} (hx : OnlyRaises S x)
    (hf : ∀ a, OnlyRaises S (f a)) : OnlyRaises S (x >>= f) := by
  rcases x with e' | a
  · exact onlyRaises_error (hx.of_error e' rfl)
  · exact hf a

theorem OnlyRaises.map {x : Except ε α} (hx : OnlyRaises S x) (f : α → β) :
    OnlyRaises S (x.map f) := by
  rcases x with e' | a
  · exact onlyRaises_error (hx.of_error e' rfl)
  · exact onlyRaises_ok (f a)

theorem OnlyRaises.ite {c : Prop} [Decidable c] {x y : Except ε α} (hx : OnlyRaises S x)
    (hy : OnlyRaises S y) : OnlyRaises S (if c then x else y) := by
  split
  · exact hx
  · exact hy

theorem onlyRaises_mapM {l : List α} {f : α → Except ε β} (h : ∀ a ∈ l, OnlyRaises S (f a)) :
    OnlyRaises S (l.mapM f) := by
  induction l with
  | nil => exact onlyRaises_pure []
  | cons a l ih =>
    rw [List.mapM_cons]
    exact (h a (by simp)).bind fun _ ↦ (ih fun b hb ↦ h b (by simp [hb])).bind fun _ ↦
      onlyRaises_pure _

theorem onlyRaises_foldlM {l : List α} {f : β → α → Except ε β}
    (h : ∀ b, ∀ a ∈ l, OnlyRaises S (f b a)) (b : β) : OnlyRaises S (l.foldlM f b) := by
  induction l generalizing b with
  | nil => exact onlyRaises_pure b
  | cons a l ih =>
    rw [List.foldlM_cons]
    exact (h b a (by simp)).bind fun b' ↦ ih (fun c a' ha' ↦ h c a' (by simp [ha'])) b'

end

end Except

namespace EStateM

universe u

variable {ε σ τ α β : Type u}

/-! ### Running one operation -/

@[simp] theorem run_throw' (e : ε) (s : σ) :
    (throw e : EStateM ε σ α).run s = .error e s := rfl

@[simp] theorem run_ite {c : Prop} [Decidable c] (m m' : EStateM ε σ α) (s : σ) :
    (if c then m else m').run s = if c then m.run s else m'.run s := by
  split <;> rfl

theorem run_bind_of_ok {m : EStateM ε σ α} {f : α → EStateM ε σ β} {s s' : σ} {a : α}
    (h : m.run s = .ok a s') : (m >>= f).run s = (f a).run s' := by
  rw [run_bind, h]

theorem run_bind_of_error {m : EStateM ε σ α} {f : α → EStateM ε σ β} {s s' : σ} {e : ε}
    (h : m.run s = .error e s') : (m >>= f).run s = .error e s' := by
  rw [run_bind, h]

/-- A bind returns exactly when both of its parts do. -/
theorem run_bind_eq_ok_iff {m : EStateM ε σ α} {f : α → EStateM ε σ β} {s s'' : σ} {b : β} :
    (m >>= f).run s = .ok b s'' ↔ ∃ a s', m.run s = .ok a s' ∧ (f a).run s' = .ok b s'' := by
  rw [run_bind]
  rcases m.run s with ⟨a, s'⟩ | ⟨e, s'⟩ <;> simp

/-! ### Combinators -/

/-- Run a computation on a part of the state; what it leaves there is written back in any case. -/
def onPart (get : σ → τ) (set : τ → σ → σ) (m : EStateM ε τ α) : EStateM ε σ α := fun s ↦
  match m.run (get s) with
  | .ok a t => .ok a (set t s)
  | .error e t => .error e (set t s)

/-- Run a computation that touches no state. -/
def ofExcept (x : Except ε α) : EStateM ε σ α := fun s ↦
  match x with
  | .ok a => .ok a s
  | .error e => .error e s

/-- Replace the state by a computed one, unless that raises. -/
def modifyM (f : σ → Except ε σ) : EStateM ε σ PUnit := fun s ↦
  match f s with
  | .ok s' => .ok ⟨⟩ s'
  | .error e => .error e s

instance instMonadLiftExcept : MonadLift (Except ε) (EStateM ε σ) := ⟨ofExcept⟩

/-- Lifting commutes with a map over a list. -/
theorem mapM_liftM (f : α → Except ε β) (l : List α) :
    (l.mapM fun a ↦ (liftM (f a) : EStateM ε σ β)) = liftM (l.mapM f) := by
  induction l with
  | nil => rfl
  | cons a l ih =>
    rw [List.mapM_cons, List.mapM_cons, ih]
    rcases f a with e | b
    · rfl
    · rcases l.mapM f with e | bs <;> rfl

/-- A loop whose steps are the same is the same. -/
theorem forM_congr_of_mem {γ : Type} {l : List γ} {f g : γ → EStateM ε σ PUnit}
    (h : ∀ a ∈ l, f a = g a) : l.forM f = l.forM g := by
  induction l with
  | nil => rfl
  | cons a l ih =>
    show (f a >>= fun _ ↦ l.forM f) = (g a >>= fun _ ↦ l.forM g)
    rw [h a (by simp), ih fun b hb ↦ h b (by simp [hb])]

/-- The state a run leaves behind, whether it returns or raises. -/
def after (m : EStateM ε σ α) (s : σ) : σ :=
  match m.run s with
  | .ok _ s' => s'
  | .error _ s' => s'

/-- `try: m finally: f`, for a cleanup that only changes the state. -/
def cleanup (m : EStateM ε σ α) (f : σ → σ) : EStateM ε σ α := fun s ↦
  match m.run s with
  | .ok a s' => .ok a (f s')
  | .error e s' => .error e (f s')

theorem run_onPart (get : σ → τ) (set : τ → σ → σ) (m : EStateM ε τ α) (s : σ) :
    (onPart get set m).run s = match m.run (get s) with
      | .ok a t => .ok a (set t s)
      | .error e t => .error e (set t s) := rfl

/-- What one computation after the other does to a part. -/
theorem onPart_bind {get : σ → τ} {set : τ → σ → σ} (hget : ∀ x s, get (set x s) = x)
    (hset : ∀ x y s, set y (set x s) = set y s) (m : EStateM ε τ α) (f : α → EStateM ε τ β) :
    onPart get set (m >>= f) = onPart get set m >>= fun a ↦ onPart get set (f a) := by
  funext s
  change (onPart get set (m >>= f)).run s = (onPart get set m >>= fun a ↦ onPart get set (f a)).run s
  rw [run_onPart, run_bind, run_bind, run_onPart]
  rcases m.run (get s) with ⟨a, t⟩ | ⟨e, t⟩
  · dsimp only
    rw [run_onPart, hget]
    rcases (f a).run t with ⟨b, t'⟩ | ⟨e, t'⟩ <;> simp only [hset]
  · rfl

@[simp] theorem run_liftM_ok (a : α) (s : σ) :
    (liftM (Except.ok a : Except ε α) : EStateM ε σ α).run s = .ok a s := rfl

@[simp] theorem run_liftM_error (e : ε) (s : σ) :
    (liftM (Except.error e : Except ε α) : EStateM ε σ α).run s = .error e s := rfl

theorem run_liftM_eq_ok_iff {x : Except ε α} {a : α} {s s' : σ} :
    (liftM x : EStateM ε σ α).run s = .ok a s' ↔ x = .ok a ∧ s' = s := by
  rcases x with e | b
  · simp
  · simp [eq_comm]

theorem run_modifyM (f : σ → Except ε σ) (s : σ) :
    (modifyM f).run s = match f s with
      | .ok s' => .ok ⟨⟩ s'
      | .error e => .error e s := rfl

theorem run_cleanup (m : EStateM ε σ α) (f : σ → σ) (s : σ) :
    (cleanup m f).run s = match m.run s with
      | .ok a s' => .ok a (f s')
      | .error e s' => .error e (f s') := rfl

/-! ### The state left behind -/

theorem after_of_ok {m : EStateM ε σ α} {s s' : σ} {a : α} (h : m.run s = .ok a s') :
    after m s = s' := by
  rw [after, h]

theorem after_of_error {m : EStateM ε σ α} {s s' : σ} {e : ε} (h : m.run s = .error e s') :
    after m s = s' := by
  rw [after, h]

/-- Does the run return? -/
def returns (m : EStateM ε σ α) (s : σ) : Bool :=
  match m.run s with
  | .ok _ _ => true
  | .error _ _ => false

theorem exists_of_returns {m : EStateM ε σ α} {s : σ} (h : returns m s = true) :
    ∃ a s', m.run s = .ok a s' := by
  rw [returns] at h
  rcases hm : m.run s with ⟨a, s'⟩ | ⟨e, s'⟩
  · exact ⟨a, s', rfl⟩
  · rw [hm] at h
    cases h

theorem run_eq_ok_of_returns {m : EStateM ε σ PUnit} {s : σ} (h : returns m s = true) :
    m.run s = .ok ⟨⟩ (after m s) := by
  obtain ⟨⟨⟩, s', hm⟩ := exists_of_returns h
  rw [hm, after_of_ok hm]

/-- A bind whose first part returns leaves what its second part leaves. -/
theorem after_bind_of_ok {m : EStateM ε σ α} {f : α → EStateM ε σ β} {s s' : σ} {a : α}
    (h : m.run s = .ok a s') : after (m >>= f) s = after (f a) s' := by
  rw [after, run_bind_of_ok h, after]

/-- What is left rests on what the second part leaves. -/
theorem after_bind_congr {m : EStateM ε σ α} {f g : α → EStateM ε σ β} {s : σ}
    (h : ∀ a s', m.run s = .ok a s' → after (f a) s' = after (g a) s') :
    after (m >>= f) s = after (m >>= g) s := by
  rcases hm : m.run s with ⟨a, s'⟩ | ⟨e, s'⟩
  · rw [after_bind_of_ok hm, after_bind_of_ok hm]
    exact h a s' hm
  · rw [after_of_error (run_bind_of_error hm), after_of_error (run_bind_of_error hm)]

theorem after_cleanup (m : EStateM ε σ α) (f : σ → σ) (s : σ) :
    after (cleanup m f) s = f (after m s) := by
  rw [after, run_cleanup, after]
  rcases m.run s with ⟨a, s'⟩ | ⟨e, s'⟩ <;> rfl

theorem after_onPart (get : σ → τ) (set : τ → σ → σ) (m : EStateM ε τ α) (s : σ) :
    after (onPart get set m) s = set (after m (get s)) s := by
  rw [after, run_onPart, after]
  rcases m.run (get s) with ⟨a, t⟩ | ⟨e, t⟩ <;> rfl

/-! ### What every run respects -/

/-- Every run moves the state along `R`, whether it returns or raises. -/
def Respects (R : σ → σ → Prop) (m : EStateM ε σ α) : Prop := ∀ s, R s (after m s)

section

variable {R : σ → σ → Prop} {m : EStateM ε σ α} {f : α → EStateM ε σ β}

theorem Respects.mono {R' : σ → σ → Prop} (h : Respects R m) (hle : ∀ s s', R s s' → R' s s') :
    Respects R' m := fun s ↦ hle s _ (h s)

theorem respects_modify {g : σ → σ} (h : ∀ s, R s (g s)) :
    Respects R (modify g : EStateM ε σ PUnit) := h

theorem respects_onPart {get : σ → τ} {set : τ → σ → σ} (m : EStateM ε τ α)
    (h : ∀ s t, R s (set t s)) : Respects R (onPart get set m) := by
  intro s
  rw [after_onPart]
  exact h s _

variable [IsPreorder σ R]

theorem respects_pure (a : α) : Respects R (pure a : EStateM ε σ α) := fun s ↦ refl_of R s

theorem respects_throw (e : ε) : Respects R (throw e : EStateM ε σ α) := fun s ↦ refl_of R s

/-- Nothing comes after an exception. -/
theorem respects_throw_bind (e : ε) (f : α → EStateM ε σ β) :
    Respects R ((throw e : EStateM ε σ α) >>= f) := fun s ↦ refl_of R s

theorem respects_get : Respects R (get : EStateM ε σ σ) := fun s ↦ refl_of R s

theorem respects_liftM (x : Except ε α) : Respects R (liftM x : EStateM ε σ α) := by
  intro s
  rcases x with e | a
  · exact refl_of R s
  · exact refl_of R s

theorem respects_modifyM {g : σ → Except ε σ} (h : ∀ s s', g s = .ok s' → R s s') :
    Respects R (modifyM g) := by
  intro s
  rw [after, run_modifyM]
  rcases hg : g s with e | s'
  · exact refl_of R s
  · exact h s s' hg

/-- **Sequencing.** -/
theorem Respects.bind (hm : Respects R m) (hf : ∀ a, Respects R (f a)) :
    Respects R (m >>= f) := by
  intro s
  have hs := hm s
  rcases h : m.run s with ⟨a, s'⟩ | ⟨e, s'⟩
  · rw [after_of_ok h] at hs
    rw [after_bind_of_ok h]
    exact trans_of R hs (hf a s')
  · rwa [after_of_error h, ← after_of_error (run_bind_of_error (f := f) h)] at hs

/-- **Iteration.** -/
theorem respects_forM {l : List α} {g : α → EStateM ε σ PUnit}
    (h : ∀ a ∈ l, Respects R (g a)) : Respects R (l.forM g) := by
  induction l with
  | nil => exact respects_pure PUnit.unit
  | cons a l ih =>
    exact (h a (by simp)).bind fun _ ↦ ih fun b hb ↦ h b (by simp [hb])

theorem respects_mapM {l : List α} {g : α → EStateM ε σ β} (h : ∀ a ∈ l, Respects R (g a)) :
    Respects R (l.mapM g) := by
  induction l with
  | nil => exact respects_pure []
  | cons a l ih =>
    rw [List.mapM_cons]
    exact (h a (by simp)).bind fun _ ↦ (ih fun b hb ↦ h b (by simp [hb])).bind fun _ ↦
      respects_pure _

theorem respects_foldlM {l : List α} {g : β → α → EStateM ε σ β} (b : β)
    (h : ∀ b, ∀ a ∈ l, Respects R (g b a)) : Respects R (l.foldlM g b) := by
  induction l generalizing b with
  | nil => exact respects_pure b
  | cons a l ih =>
    rw [List.foldlM_cons]
    exact (h b a (by simp)).bind fun b' ↦ ih b' fun c a' ha' ↦ h c a' (by simp [ha'])

theorem Respects.cleanup (hm : Respects R m) {g : σ → σ} (hg : ∀ s, R s (g s)) :
    Respects R (EStateM.cleanup m g) := by
  intro s
  rw [after_cleanup]
  exact trans_of R (hm s) (hg _)

end

/-! ### What every run guarantees -/

/-- From `s`, the computation returns with `Q` or raises with `R`. -/
def Ensures (m : EStateM ε σ α) (s : σ) (Q : α → σ → Prop) (R : ε → σ → Prop) : Prop :=
  match m.run s with
  | .ok a s' => Q a s'
  | .error e s' => R e s'

variable {m : EStateM ε σ α} {f : α → EStateM ε σ β} {s : σ}
  {Q Q' : α → σ → Prop} {R R' : ε → σ → Prop}

theorem Ensures.of_ok {a : α} {s' : σ} (h : m.run s = .ok a s') (hQ : Q a s') :
    Ensures m s Q R := by
  rw [Ensures, h]
  exact hQ

theorem Ensures.of_error {e : ε} {s' : σ} (h : m.run s = .error e s') (hR : R e s') :
    Ensures m s Q R := by
  rw [Ensures, h]
  exact hR

instance instDecidableEnsures [∀ a s', Decidable (Q a s')] [∀ e s', Decidable (R e s')] :
    Decidable (Ensures m s Q R) :=
  match h : m.run s with
  | .ok a s' => decidable_of_iff (Q a s') ⟨Ensures.of_ok h, fun hm ↦ by rwa [Ensures, h] at hm⟩
  | .error e s' => decidable_of_iff (R e s') ⟨Ensures.of_error h, fun hm ↦ by rwa [Ensures, h] at hm⟩

/-- What is guaranteed holds of a run that returned. -/
theorem Ensures.of_run_eq_ok (h : Ensures m s Q R) {a : α} {s' : σ} (hrun : m.run s = .ok a s') :
    Q a s' := by
  rwa [Ensures, hrun] at h

/-- What is guaranteed holds of a run that raised. -/
theorem Ensures.of_run_eq_error (h : Ensures m s Q R) {e : ε} {s' : σ}
    (hrun : m.run s = .error e s') : R e s' := by
  rwa [Ensures, hrun] at h

theorem Ensures.imp (h : Ensures m s Q R) (hQ : ∀ a s', Q a s' → Q' a s')
    (hR : ∀ e s', R e s' → R' e s') : Ensures m s Q' R' := by
  rw [Ensures] at h ⊢
  rcases hm : m.run s with ⟨a, s'⟩ | ⟨e, s'⟩
  · rw [hm] at h
    exact hQ a s' h
  · rw [hm] at h
    exact hR e s' h

/-- What holds of every result holds after any run. -/
theorem ensures_of_forall (hQ : ∀ a s', Q a s') (hR : ∀ e s', R e s') : Ensures m s Q R := by
  rw [Ensures]
  rcases m.run s with ⟨a, s'⟩ | ⟨e, s'⟩
  · exact hQ a s'
  · exact hR e s'

/-- A guarantee about the state alone is one about the state left behind. -/
theorem ensures_iff_after {P : σ → Prop} :
    Ensures m s (fun _ s' ↦ P s') (fun _ s' ↦ P s') ↔ P (after m s) := by
  rw [Ensures, after]
  rcases m.run s with ⟨a, s'⟩ | ⟨e, s'⟩ <;> rfl

theorem ensures_pure {a : α} : Ensures (pure a : EStateM ε σ α) s Q R ↔ Q a s := Iff.rfl

theorem ensures_throw {e : ε} : Ensures (throw e : EStateM ε σ α) s Q R ↔ R e s := Iff.rfl

theorem ensures_bind {Q : β → σ → Prop} :
    Ensures (m >>= f) s Q R ↔ Ensures m s (fun a s' ↦ Ensures (f a) s' Q R) R := by
  simp only [Ensures, run_bind]
  rcases m.run s with ⟨a, s'⟩ | ⟨e, s'⟩ <;> rfl

theorem ensures_get {Q : σ → σ → Prop} : Ensures (get : EStateM ε σ σ) s Q R ↔ Q s s := Iff.rfl

theorem ensures_modify {Q : PUnit → σ → Prop} {g : σ → σ} :
    Ensures (modify g : EStateM ε σ PUnit) s Q R ↔ Q ⟨⟩ (g s) := Iff.rfl

theorem ensures_set {Q : PUnit → σ → Prop} {s' : σ} :
    Ensures (set s' : EStateM ε σ PUnit) s Q R ↔ Q ⟨⟩ s' := Iff.rfl

theorem ensures_modifyM {Q : PUnit → σ → Prop} {g : σ → Except ε σ}
    (hQ : ∀ s', g s = .ok s' → Q ⟨⟩ s') (hR : ∀ e, g s = .error e → R e s) :
    Ensures (modifyM g) s Q R := by
  rw [Ensures, run_modifyM]
  rcases h : g s with e | s'
  · exact hR e h
  · exact hQ s' h

theorem ensures_liftM {x : Except ε α} (hQ : ∀ a, x = .ok a → Q a s)
    (hR : ∀ e, x = .error e → R e s) : Ensures (liftM x : EStateM ε σ α) s Q R := by
  rcases x with e | a
  · exact hR e rfl
  · exact hQ a rfl

theorem ensures_onPart {get : σ → τ} {set : τ → σ → σ} {m : EStateM ε τ α} :
    Ensures (onPart get set m) s Q R ↔
      Ensures m (get s) (fun a t ↦ Q a (set t s)) (fun e t ↦ R e (set t s)) := by
  simp only [Ensures, run_onPart]
  rcases m.run (get s) with ⟨a, t⟩ | ⟨e, t⟩ <;> rfl

theorem run_tryCatch_eq (m : EStateM ε σ α) (handler : ε → EStateM ε σ α) (s : σ) :
    (tryCatch m handler).run s = match m.run s with
      | .ok a s' => .ok a s'
      | .error e s' => (handler e).run s' := by
  change EStateM.tryCatch m handler s = match m s with
    | .ok a s' => .ok a s'
    | .error e s' => handler e s'
  rw [EStateM.tryCatch]
  rcases m s with ⟨a, s'⟩ | ⟨e, s'⟩ <;> rfl

/-- What is raised goes to the handler, with the state reached. -/
theorem ensures_tryCatch {handler : ε → EStateM ε σ α} :
    Ensures (tryCatch m handler) s Q R ↔
      Ensures m s Q fun e s' ↦ Ensures (handler e) s' Q R := by
  rw [Ensures, Ensures, run_tryCatch_eq]
  rcases m.run s with ⟨a, s'⟩ | ⟨e, s'⟩ <;> rfl

theorem Respects.tryCatch {T : σ → σ → Prop} [IsPreorder σ T] {handler : ε → EStateM ε σ α}
    (hm : Respects T m) (hhandler : ∀ e, Respects T (handler e)) :
    Respects T (tryCatch m handler) := by
  intro s
  have hs := hm s
  rw [← ensures_iff_after (P := T s)] at hs ⊢
  refine ensures_tryCatch.2 (hs.imp (fun _ _ h ↦ h) fun e s' h ↦ ?_)
  exact ensures_iff_after.2 (trans_of T h (hhandler e s'))

/-- What follows need only respect the relation for what is returned. -/
theorem respects_bind_of_ensures {T : σ → σ → Prop} [IsPreorder σ T] {P : α → Prop}
    (hm : ∀ s, Ensures m s (fun a s' ↦ P a ∧ T s s') fun _ s' ↦ T s s')
    (hf : ∀ a, P a → Respects T (f a)) : Respects T (m >>= f) := by
  intro s
  have hs := hm s
  rw [Ensures] at hs
  rcases hrun : m.run s with ⟨a, s'⟩ | ⟨e, s'⟩
  · rw [hrun] at hs
    rw [after_bind_of_ok hrun]
    exact trans_of T hs.2 (hf a hs.1 s')
  · rw [hrun] at hs
    rwa [after_of_error (run_bind_of_error hrun)]

/-- **Iteration.** An invariant of one step holds after all of them. -/
theorem ensures_forM {l : List α} {g : α → EStateM ε σ PUnit} {I : σ → Prop} (hs : I s)
    (hstep : ∀ a ∈ l, ∀ s, I s → Ensures (g a) s (fun _ s' ↦ I s') R) :
    Ensures (l.forM g) s (fun _ s' ↦ I s') R := by
  induction l generalizing s with
  | nil => exact hs
  | cons a l ih =>
    change Ensures (g a >>= fun _ ↦ l.forM g) s _ R
    rw [ensures_bind]
    refine (hstep a (by simp) s hs).imp (fun _ s' hs' ↦ ?_) (fun _ _ h ↦ h)
    exact ih hs' fun b hb ↦ hstep b (by simp [hb])

/-- **Accumulation.** An invariant of the accumulator and the state. -/
theorem ensures_foldlM {l : List α} {g : β → α → EStateM ε σ β} {I : β → σ → Prop} {b : β}
    (hb : I b s) (hstep : ∀ a ∈ l, ∀ b s, I b s → Ensures (g b a) s I R) :
    Ensures (l.foldlM g b) s I R := by
  induction l generalizing b s with
  | nil => exact hb
  | cons a l ih =>
    rw [List.foldlM_cons, ensures_bind]
    refine (hstep a (by simp) b s hb).imp (fun b' s' hb' ↦ ?_) (fun _ _ h ↦ h)
    exact ih hb' fun a' ha' ↦ hstep a' (by simp [ha'])

/-! ### Outcomes that do not depend on the state -/

/-- From each of the states `S` the computation has the same outcome, and it leaves them alone. -/
structure Uniform {ι : Type*} (S : ι → σ) (m : EStateM ε σ α) : Prop where
  exists_outcome : ∃ x : Except ε α, ∀ i, m.run (S i) = (ofExcept x).run (S i)

section

variable {ι : Type*} {S : ι → σ}

theorem uniform_liftM (x : Except ε α) : Uniform S (liftM x : EStateM ε σ α) :=
  ⟨x, fun _ ↦ rfl⟩

theorem uniform_pure (a : α) : Uniform S (pure a : EStateM ε σ α) := uniform_liftM (.ok a)

theorem uniform_throw (e : ε) : Uniform S (throw e : EStateM ε σ α) := uniform_liftM (.error e)

theorem uniform_throw_bind (e : ε) (f : α → EStateM ε σ β) : Uniform S (throw e >>= f) :=
  uniform_liftM (.error e)

theorem Uniform.bind (hm : Uniform S m) (hf : ∀ a, Uniform S (f a)) : Uniform S (m >>= f) := by
  obtain ⟨x, hx⟩ := hm.exists_outcome
  rcases x with e | a
  · exact ⟨.error e, fun i ↦ run_bind_of_error (hx i)⟩
  · obtain ⟨y, hy⟩ := (hf a).exists_outcome
    exact ⟨y, fun i ↦ (run_bind_of_ok (hx i)).trans (hy i)⟩

/-- What follows a lifted computation need only be known for what that one returns. -/
theorem uniform_liftM_bind {x : Except ε α} (h : ∀ a, x = .ok a → Uniform S (f a)) :
    Uniform S ((liftM x : EStateM ε σ α) >>= f) := by
  rcases x with e | a
  · exact uniform_throw_bind e f
  · exact h a rfl

/-- What is read of the state may differ, as long as what is done with it does not. -/
theorem uniform_get_bind {f : σ → EStateM ε σ β} {n : EStateM ε σ β} (hn : Uniform S n)
    (hf : ∀ i, f (S i) = n) : Uniform S (get >>= f) := by
  obtain ⟨y, hy⟩ := hn.exists_outcome
  refine ⟨y, fun i ↦ ?_⟩
  change (f (S i)).run (S i) = _
  rw [hf i, hy i]

theorem uniform_mapM {l : List α} {g : α → EStateM ε σ β} (h : ∀ a ∈ l, Uniform S (g a)) :
    Uniform S (l.mapM g) := by
  induction l with
  | nil => exact uniform_pure []
  | cons a l ih =>
    rw [List.mapM_cons]
    exact (h a (by simp)).bind fun _ ↦ (ih fun b hb ↦ h b (by simp [hb])).bind fun _ ↦
      uniform_pure _

theorem uniform_foldlM {l : List α} {g : β → α → EStateM ε σ β} (b : β)
    (h : ∀ b, ∀ a ∈ l, Uniform S (g b a)) : Uniform S (l.foldlM g b) := by
  induction l generalizing b with
  | nil => exact uniform_pure b
  | cons a l ih =>
    rw [List.foldlM_cons]
    exact (h b a (by simp)).bind fun b' ↦ ih b' fun c a' ha' ↦ h c a' (by simp [ha'])

end

/-! ### What may be raised -/

/-- From every state, each error of the computation is among `S`. -/
structure OnlyRaises (S : ε → Prop) (m : EStateM ε σ α) : Prop where
  ensures : ∀ s, Ensures m s (fun _ _ ↦ True) fun e _ ↦ S e

section

variable {S : ε → Prop}

theorem onlyRaises_pure (a : α) : OnlyRaises S (pure a : EStateM ε σ α) := ⟨fun _ ↦ trivial⟩

theorem onlyRaises_throw {e : ε} (he : S e) : OnlyRaises S (throw e : EStateM ε σ α) :=
  ⟨fun _ ↦ he⟩

theorem onlyRaises_get : OnlyRaises S (get : EStateM ε σ σ) := ⟨fun _ ↦ trivial⟩

theorem onlyRaises_modify (g : σ → σ) : OnlyRaises S (modify g : EStateM ε σ PUnit) :=
  ⟨fun _ ↦ trivial⟩

theorem onlyRaises_liftM {x : Except ε α} (hx : Except.OnlyRaises S x) :
    OnlyRaises S (liftM x : EStateM ε σ α) :=
  ⟨fun _ ↦ ensures_liftM (fun _ _ ↦ trivial) fun e he ↦ hx.of_error e he⟩

theorem OnlyRaises.bind (hm : OnlyRaises S m) (hf : ∀ a, OnlyRaises S (f a)) :
    OnlyRaises S (m >>= f) :=
  ⟨fun s ↦ ensures_bind.2 ((hm.ensures s).imp (fun a s' _ ↦ (hf a).ensures s') fun _ _ he ↦ he)⟩

theorem onlyRaises_mapM {l : List α} {g : α → EStateM ε σ β}
    (h : ∀ a ∈ l, OnlyRaises S (g a)) : OnlyRaises S (l.mapM g) := by
  induction l with
  | nil => exact onlyRaises_pure []
  | cons a l ih =>
    rw [List.mapM_cons]
    exact (h a (by simp)).bind fun _ ↦ (ih fun b hb ↦ h b (by simp [hb])).bind fun _ ↦
      onlyRaises_pure _

end

end EStateM
