import Pyrad2.Foundations.StateExcept

/-!
# Two computations in step

A relational logic: from states that are related, two computations return related results or raise
the same, and they leave related states.

With a relation that ignores a part of the state, a computation that is in step with itself does not
depend on that part.
-/

namespace EStateM

variable {ε σ τ α β α' β' : Type}

/-- From related states, both computations return related values or raise the same, and leave
related states. -/
structure Lockstep (R : σ → τ → Prop) (Q : α → β → Prop) (m : EStateM ε σ α) (n : EStateM ε τ β) :
    Prop where
  run : ∀ s t, R s t →
    (∃ a s' b t', m.run s = .ok a s' ∧ n.run t = .ok b t' ∧ Q a b ∧ R s' t') ∨
      ∃ e s' t', m.run s = .error e s' ∧ n.run t = .error e t' ∧ R s' t'

section

variable {R : σ → τ → Prop} {Q : α → β → Prop} {Q' : α' → β' → Prop} {m : EStateM ε σ α}
  {n : EStateM ε τ β} {f : α → EStateM ε σ α'} {g : β → EStateM ε τ β'}

theorem Lockstep.mono {Q'' : α → β → Prop} (h : Lockstep R Q m n) (hQ : ∀ a b, Q a b → Q'' a b) :
    Lockstep R Q'' m n := by
  refine ⟨fun s t hst ↦ ?_⟩
  rcases h.run s t hst with ⟨a, s', b, t', hs, ht, hab, hst'⟩ | herror
  · exact .inl ⟨a, s', b, t', hs, ht, hQ a b hab, hst'⟩
  · exact .inr herror

theorem lockstep_pure {a : α} {b : β} (h : Q a b) :
    Lockstep R Q (pure a : EStateM ε σ α) (pure b : EStateM ε τ β) :=
  ⟨fun s t hst ↦ .inl ⟨a, s, b, t, rfl, rfl, h, hst⟩⟩

theorem lockstep_throw (e : ε) :
    Lockstep R Q (throw e : EStateM ε σ α) (throw e : EStateM ε τ β) :=
  ⟨fun s t hst ↦ .inr ⟨e, s, t, rfl, rfl, hst⟩⟩

theorem lockstep_liftM (x : Except ε α) :
    Lockstep R Eq (liftM x : EStateM ε σ α) (liftM x : EStateM ε τ α) := by
  rcases x with e | a
  · exact lockstep_throw e
  · exact lockstep_pure rfl

theorem lockstep_modify {f : σ → σ} {g : τ → τ} (h : ∀ s t, R s t → R (f s) (g t)) :
    Lockstep R Eq (modify f : EStateM ε σ PUnit) (modify g : EStateM ε τ PUnit) :=
  ⟨fun s t hst ↦ .inl ⟨⟨⟩, f s, ⟨⟩, g t, rfl, rfl, rfl, h s t hst⟩⟩

/-- **One after the other.** -/
theorem Lockstep.bind (hm : Lockstep R Q m n) (hf : ∀ a b, Q a b → Lockstep R Q' (f a) (g b)) :
    Lockstep R Q' (m >>= f) (n >>= g) := by
  refine ⟨fun s t hst ↦ ?_⟩
  rcases hm.run s t hst with ⟨a, s', b, t', hs, ht, hab, hst'⟩ | ⟨e, s', t', hs, ht, hst'⟩
  · rw [run_bind_of_ok hs, run_bind_of_ok ht]
    exact (hf a b hab).run s' t' hst'
  · exact .inr ⟨e, s', t', run_bind_of_error hs, run_bind_of_error ht, hst'⟩

/-- The same values go on. -/
theorem Lockstep.bind_eq {m : EStateM ε σ α} {n : EStateM ε τ α} {f : α → EStateM ε σ α'}
    {g : α → EStateM ε τ β'} (hm : Lockstep R Eq m n) (hf : ∀ a, Lockstep R Q' (f a) (g a)) :
    Lockstep R Q' (m >>= f) (n >>= g) :=
  hm.bind fun a _ h ↦ h ▸ hf a

theorem lockstep_throw_bind (e : ε) :
    Lockstep R Q' ((throw e : EStateM ε σ α) >>= f) ((throw e : EStateM ε τ β) >>= g) :=
  ⟨fun s t hst ↦ .inr ⟨e, s, t, rfl, rfl, hst⟩⟩

/-- What follows a lifted computation need only be in step for what that one returns. -/
theorem lockstep_liftM_bind {x : Except ε α} {f : α → EStateM ε σ α'} {g : α → EStateM ε τ β'}
    (h : ∀ a, x = .ok a → Lockstep R Q' (f a) (g a)) :
    Lockstep R Q' ((liftM x : EStateM ε σ α) >>= f) ((liftM x : EStateM ε τ α) >>= g) := by
  rcases x with e | a
  · exact lockstep_throw_bind e
  · exact h a rfl

/-- What is read of the states is related as the states are. -/
theorem lockstep_get_bind {f : σ → EStateM ε σ α'} {g : τ → EStateM ε τ β'}
    (h : ∀ s t, R s t → Lockstep R Q' (f s) (g t)) :
    Lockstep R Q' (get >>= f) (get >>= g) := by
  refine ⟨fun s t hst ↦ ?_⟩
  rw [run_bind_of_ok (run_get s), run_bind_of_ok (run_get t)]
  exact (h s t hst).run s t hst

/-- Computations on parts that are related if the whole is. -/
theorem lockstep_onPart {σ' τ' : Type} {R' : σ' → τ' → Prop} {get : σ → σ'} {set : σ' → σ → σ}
    {get' : τ → τ'} {set' : τ' → τ → τ} {m : EStateM ε σ' α} {n : EStateM ε τ' β}
    (hget : ∀ s t, R s t → R' (get s) (get' t))
    (hset : ∀ x y s t, R' x y → R s t → R (set x s) (set' y t)) (h : Lockstep R' Q m n) :
    Lockstep R Q (onPart get set m) (onPart get' set' n) := by
  refine ⟨fun s t hst ↦ ?_⟩
  rw [run_onPart, run_onPart]
  rcases h.run _ _ (hget s t hst) with ⟨a, x, b, y, hs, ht, hab, hxy⟩ | ⟨e, x, y, hs, ht, hxy⟩
  · rw [hs, ht]
    exact .inl ⟨a, _, b, _, rfl, rfl, hab, hset x y s t hxy hst⟩
  · rw [hs, ht]
    exact .inr ⟨e, _, _, rfl, rfl, hset x y s t hxy hst⟩

theorem Lockstep.tryCatch {h : ε → EStateM ε σ α} {h' : ε → EStateM ε τ β} (hm : Lockstep R Q m n)
    (hh : ∀ e, Lockstep R Q (h e) (h' e)) :
    Lockstep R Q (MonadExcept.tryCatch m h) (MonadExcept.tryCatch n h') := by
  refine ⟨fun s t hst ↦ ?_⟩
  rw [run_tryCatch_eq, run_tryCatch_eq]
  rcases hm.run s t hst with ⟨a, s', b, t', hs, ht, hab, hst'⟩ | ⟨e, s', t', hs, ht, hst'⟩
  · rw [hs, ht]
    exact .inl ⟨a, s', b, t', rfl, rfl, hab, hst'⟩
  · rw [hs, ht]
    exact (hh e).run s' t' hst'

theorem Lockstep.cleanup {f : σ → σ} {g : τ → τ} (hm : Lockstep R Q m n)
    (h : ∀ s t, R s t → R (f s) (g t)) :
    Lockstep R Q (EStateM.cleanup m f) (EStateM.cleanup n g) := by
  refine ⟨fun s t hst ↦ ?_⟩
  rw [run_cleanup, run_cleanup]
  rcases hm.run s t hst with ⟨a, s', b, t', hs, ht, hab, hst'⟩ | ⟨e, s', t', hs, ht, hst'⟩
  · rw [hs, ht]
    exact .inl ⟨a, _, b, _, rfl, rfl, hab, h s' t' hst'⟩
  · rw [hs, ht]
    exact .inr ⟨e, _, _, rfl, rfl, h s' t' hst'⟩

/-! ### From one relation to another -/

/-- From states that are related by `P`, both computations return related values and leave states that
are related by `R`, or they raise the same and leave states that are related by `F`. -/
structure Brings (P R F : σ → τ → Prop) (Q : α → β → Prop) (m : EStateM ε σ α) (n : EStateM ε τ β) :
    Prop where
  run : ∀ s t, P s t →
    (∃ a s' b t', m.run s = .ok a s' ∧ n.run t = .ok b t' ∧ Q a b ∧ R s' t') ∨
      ∃ e s' t', m.run s = .error e s' ∧ n.run t = .error e t' ∧ F s' t'

theorem Lockstep.brings {P R' F : σ → τ → Prop} (h : Lockstep R Q m n) (hP : ∀ s t, P s t → R s t)
    (hR : ∀ s t, R s t → R' s t) (hF : ∀ s t, R s t → F s t) : Brings P R' F Q m n := by
  refine ⟨fun s t hst ↦ ?_⟩
  rcases h.run s t (hP s t hst) with ⟨a, s', b, t', hs, ht, hab, hst'⟩ | ⟨e, s', t', hs, ht, hst'⟩
  · exact .inl ⟨a, s', b, t', hs, ht, hab, hR s' t' hst'⟩
  · exact .inr ⟨e, s', t', hs, ht, hF s' t' hst'⟩

theorem Brings.bind {P S F : σ → τ → Prop} (hm : Brings P R F Q m n)
    (hf : ∀ a b, Q a b → Brings R S F Q' (f a) (g b)) : Brings P S F Q' (m >>= f) (n >>= g) := by
  refine ⟨fun s t hst ↦ ?_⟩
  rcases hm.run s t hst with ⟨a, s', b, t', hs, ht, hab, hst'⟩ | ⟨e, s', t', hs, ht, hst'⟩
  · rw [run_bind_of_ok hs, run_bind_of_ok ht]
    exact (hf a b hab).run s' t' hst'
  · exact .inr ⟨e, s', t', run_bind_of_error hs, run_bind_of_error ht, hst'⟩

/-! ### Iteration -/

theorem lockstep_mapM {ι : Type} {l : List ι} {f : ι → EStateM ε σ α} {g : ι → EStateM ε τ α}
    (h : ∀ i ∈ l, Lockstep R Eq (f i) (g i)) : Lockstep R Eq (l.mapM f) (l.mapM g) := by
  induction l with
  | nil => exact lockstep_pure rfl
  | cons i l ih =>
    rw [List.mapM_cons, List.mapM_cons]
    refine (h i (by simp)).bind_eq fun a ↦ ?_
    exact (ih fun j hj ↦ h j (by simp [hj])).bind_eq fun as ↦ lockstep_pure rfl

theorem lockstep_foldlM {ι : Type} {l : List ι} {f : α → ι → EStateM ε σ α}
    {g : α → ι → EStateM ε τ α} (h : ∀ a, ∀ i ∈ l, Lockstep R Eq (f a i) (g a i)) (a : α) :
    Lockstep R Eq (l.foldlM f a) (l.foldlM g a) := by
  induction l generalizing a with
  | nil => exact lockstep_pure rfl
  | cons i l ih =>
    rw [List.foldlM_cons, List.foldlM_cons]
    exact (h a i (by simp)).bind_eq fun b ↦ ih (fun a j hj ↦ h a j (by simp [hj])) b

/-! ### In the wake of a computation that returns -/

/-- If the first computation returns, so does the second, with the same value, and they leave related
states. -/
def Follows (R : σ → τ → Prop) (m : EStateM ε σ α) (n : EStateM ε τ α) (s : σ) (t : τ) : Prop :=
  ∀ a s', m.run s = .ok a s' → ∃ t', n.run t = .ok a t' ∧ R s' t'

section

variable {s : σ} {t : τ} {n : EStateM ε τ α}

theorem follows_pure {a : α} (h : R s t) : Follows R (pure a) (pure a : EStateM ε τ α) s t := by
  intro b s' hrun
  cases hrun
  exact ⟨t, rfl, h⟩

/-- Nothing follows an exception. -/
theorem follows_of_error {e : ε} {s' : σ} (h : m.run s = .error e s') : Follows R m n s t :=
  fun a s'' hrun ↦ by cases h.symm.trans hrun

theorem follows_modify {g : σ → σ} {k : τ → τ} (h : R (g s) (k t)) :
    Follows R (modify g : EStateM ε σ PUnit) (modify k : EStateM ε τ PUnit) s t := by
  intro a s' hrun
  cases hrun
  exact ⟨k t, rfl, h⟩

theorem follows_get_bind {f : σ → EStateM ε σ α} {g : τ → EStateM ε τ α}
    (h : Follows R (f s) (g t) s t) : Follows R (get >>= f) (get >>= g) s t := h

/-- What the second computation returns may be another value, as long as the same goes on. -/
theorem follows_liftM_bind {x : Except ε β} {y : Except ε β'} {f : β → EStateM ε σ α}
    {g : β' → EStateM ε τ α} (h : ∀ a, x = .ok a → ∃ b, y = .ok b ∧ Follows R (f a) (g b) s t) :
    Follows R ((liftM x : EStateM ε σ β) >>= f) ((liftM y : EStateM ε τ β') >>= g) s t := by
  rcases x with e | a
  · exact follows_of_error (run_bind_of_error (run_liftM_error e s))
  · obtain ⟨b, rfl, hab⟩ := h a rfl
    exact hab

theorem Follows.bind {R' : σ → τ → Prop} {m : EStateM ε σ β} {n : EStateM ε τ β}
    {f : β → EStateM ε σ α} {g : β → EStateM ε τ α} (hm : Follows R' m n s t)
    (hf : ∀ b s' t', R' s' t' → Follows R (f b) (g b) s' t') :
    Follows R (m >>= f) (n >>= g) s t := by
  intro a s' hrun
  obtain ⟨b, s₁, hs₁, hrest⟩ := run_bind_eq_ok_iff.1 hrun
  obtain ⟨t₁, ht₁, hst⟩ := hm b s₁ hs₁
  obtain ⟨t', ht', hst'⟩ := hf b s₁ t₁ hst a s' hrest
  exact ⟨t', (run_bind_of_ok ht₁).trans ht', hst'⟩

theorem Follows.mono {R' : σ → τ → Prop} (h : Follows R' m n s t) (hle : ∀ s t, R' s t → R s t) :
    Follows R m n s t := by
  intro a s' hrun
  obtain ⟨t', ht', hst'⟩ := h a s' hrun
  exact ⟨t', ht', hle s' t' hst'⟩

end

/-! ### Reading one run off the other -/

theorem Lockstep.after (h : Lockstep R Q m n) {s : σ} {t : τ} (hst : R s t) :
    R (EStateM.after m s) (EStateM.after n t) := by
  rcases h.run s t hst with ⟨a, s', b, t', hs, ht, -, hst'⟩ | ⟨e, s', t', hs, ht, hst'⟩
  · rwa [after_of_ok hs, after_of_ok ht]
  · rwa [after_of_error hs, after_of_error ht]

end

end EStateM
