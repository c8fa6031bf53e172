import Mathlib.Algebra.Order.Ring.Abs
import Mathlib.Tactic.Linarith
import Pyrad2.Dedup

/-!
# Retransmission policies

How long a client waits between retransmissions.

Seconds are exact rationals here. Of floating point only the overflow is kept: a power beyond the
largest float is an exception, the one thing that computing a wait can raise.
-/

namespace Pyrad2

/-- The least magnitude that is rounded beyond the largest float. -/
def floatBound : ℚ := 2 ^ 1024 - 2 ^ 970

theorem one_lt_floatBound : 1 < floatBound := by
  have h : (2 : ℚ) ^ 1024 = 2 ^ 54 * 2 ^ 970 := by rw [← pow_add]
  have hone : (1 : ℚ) ≤ 2 ^ 970 := one_le_pow₀ (by norm_num)
  rw [floatBound, h]
  generalize (2 : ℚ) ^ 970 = b at hone
  linarith

/-- `x ** n` of a float and a non-negative integer. -/
def floatPow (x : ℚ) (n : ℕ) : Except Exn ℚ :=
  if |x ^ n| < floatBound then .ok (x ^ n) else .error .overflowError

/-- A power that does not overflow has no smaller exponent that does. -/
theorem exists_floatPow_of_le {x y : ℚ} {m n : ℕ} (hmn : m ≤ n) (h : floatPow x n = .ok y) :
    ∃ z, floatPow x m = .ok z := by
  have hlt : |x ^ n| < floatBound := by
    by_contra hge
    rw [floatPow, if_neg hge] at h
    cases h
  have hm : |x ^ m| < floatBound := by
    rw [abs_pow] at hlt ⊢
    rcases le_total |x| 1 with hle | hge
    · exact (pow_le_one₀ (abs_nonneg x) hle).trans_lt one_lt_floatBound
    · exact (pow_le_pow_right₀ hge hmn).trans_lt hlt
  exact ⟨x ^ m, if_pos hm⟩

/-- `RetryPolicy` -/
structure RetryPolicy where
  retries : ℤ := 3
  timeout : Time := 5
  backoff : ℚ := 1
  jitter : ℚ := 0
  maxWait : Time := 30

namespace RetryPolicy

/-- `wait_for(attempt)`; `noise` is what `random.uniform(-self.jitter, self.jitter)` draws. -/
def waitFor (policy : RetryPolicy) (attempt : ℕ) (noise : ℚ) : Except Exn Time := do
  let wait := min (policy.timeout * (← floatPow policy.backoff attempt)) policy.maxWait
  if policy.jitter ≠ 0 then return max 0 (wait + wait * noise)
  return wait

/-- `policy_from_legacy(retry_policy, retries, timeout)` -/
def fromLegacy (retryPolicy : Option RetryPolicy) (retries : ℤ) (timeout : Time) : RetryPolicy :=
  match retryPolicy with
  | some policy => policy
  | none => { retries, timeout }

/-- Only the power can raise, and the noise does not enter it. -/
theorem exists_waitFor_iff {policy : RetryPolicy} {attempt : ℕ} {noise : ℚ} :
    (∃ t, policy.waitFor attempt noise = .ok t) ↔
      ∃ y, floatPow policy.backoff attempt = .ok y := by
  rw [waitFor]
  rcases floatPow policy.backoff attempt with e | y
  · simp
  · rw [Except.bind_of_ok]
    dsimp only
    split
    · exact ⟨fun _ ↦ ⟨y, rfl⟩, fun _ ↦ ⟨_, rfl⟩⟩
    · exact ⟨fun _ ↦ ⟨y, rfl⟩, fun _ ↦ ⟨_, rfl⟩⟩

/-- **An earlier attempt has a wait when a later one has.** -/
theorem exists_waitFor_of_le {policy : RetryPolicy} {m n : ℕ} {noise : ℚ} {t : Time} (hmn : m ≤ n)
    (h : policy.waitFor n noise = .ok t) (noise' : ℚ) : ∃ t', policy.waitFor m noise' = .ok t' := by
  obtain ⟨y, hy⟩ := exists_waitFor_iff.1 ⟨t, h⟩
  exact exists_waitFor_iff.2 (exists_floatPow_of_le hmn hy)

/-! ### The ceiling -/

/-- The wait in exact rationals, in which no power overflows. -/
def exactWait (policy : RetryPolicy) (attempt : ℕ) (noise : ℚ) : Time :=
  let wait := min (policy.timeout * policy.backoff ^ attempt) policy.maxWait
  if policy.jitter ≠ 0 then max 0 (wait + wait * noise) else wait

/-- What `wait_for` returns, where the power does not overflow. -/
theorem waitFor_eq (policy : RetryPolicy) (attempt : ℕ) (noise : ℚ) :
    policy.waitFor attempt noise =
      (floatPow policy.backoff attempt).map fun _ ↦ policy.exactWait attempt noise := by
  rw [waitFor, floatPow, exactWait]
  split
  · rw [Except.bind_of_ok]
    dsimp only
    split <;> rfl
  · rfl

theorem eq_exactWait {policy : RetryPolicy} {attempt : ℕ} {noise : ℚ} {wait : Time}
    (h : policy.waitFor attempt noise = .ok wait) : wait = policy.exactWait attempt noise := by
  rw [waitFor_eq] at h
  rcases hpow : floatPow policy.backoff attempt with e | y
  · rw [hpow] at h
    cases h
  · rw [hpow] at h
    exact (Except.ok.inj h).symm

/-- No field of the policy is negative. -/
structure NonNegative (policy : RetryPolicy) : Prop where
  timeout : 0 ≤ policy.timeout
  backoff : 0 ≤ policy.backoff
  jitter : 0 ≤ policy.jitter
  maxWait : 0 ≤ policy.maxWait

/-- The wait of an attempt lies between zero and the ceiling. -/
def KeepsCeiling (policy : RetryPolicy) (attempt : ℕ) (noise : ℚ) : Prop :=
  0 ≤ policy.exactWait attempt noise ∧ policy.exactWait attempt noise ≤ policy.maxWait

/-- The noise is added behind the ceiling, so it must not lead beyond it. -/
theorem keepsCeiling_iff {policy : RetryPolicy} (h : policy.NonNegative) {attempt : ℕ} {noise : ℚ}
    (hnoise : |noise| ≤ policy.jitter) :
    policy.KeepsCeiling attempt noise ↔
      noise ≤ 0 ∨ policy.maxWait = 0 ∨
        policy.timeout * policy.backoff ^ attempt * (1 + noise) ≤ policy.maxWait := by
  have hgrown : 0 ≤ policy.timeout * policy.backoff ^ attempt :=
    mul_nonneg h.timeout (pow_nonneg h.backoff attempt)
  have hmax := h.maxWait
  rw [KeepsCeiling, exactWait]
  generalize policy.timeout * policy.backoff ^ attempt = grown at hgrown ⊢
  generalize policy.maxWait = ceiling at hmax ⊢
  have hwait : 0 ≤ min grown ceiling := le_min hgrown hmax
  have hle : min grown ceiling ≤ ceiling := min_le_right _ _
  by_cases hjitter : policy.jitter = 0
  · -- without jitter there is no noise
    have hzero : noise = 0 := abs_nonpos_iff.1 (hjitter ▸ hnoise)
    rw [if_neg (not_not_intro hjitter)]
    exact iff_of_true ⟨hwait, hle⟩ (.inl hzero.le)
  · rw [if_pos hjitter, and_iff_right (le_max_left _ _), max_le_iff, and_iff_right hmax,
      ← mul_one_add]
    rcases le_or_gt noise 0 with hneg | hpos
    · refine iff_of_true ?_ (.inl hneg)
      have : min grown ceiling * noise ≤ 0 := mul_nonpos_of_nonneg_of_nonpos hwait hneg
      linarith
    · rw [or_iff_right hpos.not_ge]
      rcases le_total grown ceiling with hgrow | hcap
      · rw [min_eq_left hgrow]
        refine ⟨.inr, fun hor ↦ hor.elim (fun hzero ↦ ?_) fun hcap ↦ hcap⟩
        have : grown = 0 := le_antisymm (hgrow.trans hzero.le) hgrown
        rw [this, hzero, zero_mul]
      · rw [min_eq_right hcap]
        constructor
        · intro hceiling
          have : ceiling * noise ≤ 0 := by linarith
          exact .inl (le_antisymm (by nlinarith) hmax)
        · rintro (hzero | hgrow)
          · rw [hzero, zero_mul]
          · exact (mul_le_mul_of_nonneg_right hcap (by linarith)).trans hgrow

/-- The schedule that is built from `retries` and `timeout` alone is flat up to the default
ceiling. -/
theorem waitFor_fromLegacy_iff (retries : ℤ) (timeout : Time) (attempt : ℕ) (noise : ℚ) :
    (fromLegacy none retries timeout).waitFor attempt noise = .ok timeout ↔ timeout ≤ 30 := by
  have hpow : floatPow 1 attempt = .ok 1 := by
    rw [floatPow, one_pow, abs_one, if_pos one_lt_floatBound]
  have hwait : (fromLegacy none retries timeout).waitFor attempt noise = .ok (min timeout 30) := by
    show (floatPow 1 attempt >>= _) = _
    rw [hpow, Except.bind_of_ok, mul_one]
    rfl
  rw [hwait, Except.ok.injEq, min_eq_left_iff]

/-- **Waits obey the policy** unless the noise leads beyond the ceiling, or a legacy timeout lies
beyond the default one. -/
theorem waits_obey_iff {policy : RetryPolicy} (h : policy.NonNegative) {attempt : ℕ} {noise : ℚ}
    (hnoise : |noise| ≤ policy.jitter) (retries : ℤ) (timeout : Time) :
    (policy.KeepsCeiling attempt noise ↔
      noise ≤ 0 ∨ policy.maxWait = 0 ∨
        policy.timeout * policy.backoff ^ attempt * (1 + noise) ≤ policy.maxWait) ∧
    ((fromLegacy none retries timeout).waitFor attempt noise = .ok timeout ↔ timeout ≤ 30) :=
  ⟨keepsCeiling_iff h hnoise, waitFor_fromLegacy_iff retries timeout attempt noise⟩

/-- A policy whose base wait is at the ceiling, with noise of a tenth. -/
def noisyPolicy : RetryPolicy := { timeout := 30, jitter := 1 / 10 }

theorem waits_obey_iff_noisyPolicy :
    (noisyPolicy.KeepsCeiling 0 (-1 / 10) ↔
      (-1 / 10 : ℚ) ≤ 0 ∨ noisyPolicy.maxWait = 0 ∨
        noisyPolicy.timeout * noisyPolicy.backoff ^ 0 * (1 + -1 / 10) ≤ noisyPolicy.maxWait) ∧
    ((fromLegacy none 3 5).waitFor 0 (-1 / 10) = .ok 5 ↔ (5 : Time) ≤ 30) :=
  waits_obey_iff ⟨by norm_num [noisyPolicy], by norm_num [noisyPolicy], by norm_num [noisyPolicy],
    by norm_num [noisyPolicy]⟩ (by norm_num [noisyPolicy, abs_of_nonpos]) 3 5

/-- A wait of 33 seconds under a ceiling of 30, and a legacy timeout of a minute that is cut to 30
seconds. -/
theorem not_waits_obey_noisyPolicy :
    (|(1 / 10 : ℚ)| ≤ noisyPolicy.jitter ∧ ¬ noisyPolicy.KeepsCeiling 0 (1 / 10)) ∧
      (fromLegacy none 3 60).waitFor 0 0 ≠ .ok 60 := by
  refine ⟨⟨by norm_num [noisyPolicy], fun h ↦ ?_⟩, ?_⟩
  · have hwait := h.2
    norm_num [exactWait, noisyPolicy] at hwait
  · rw [Ne, waitFor_fromLegacy_iff]
    norm_num

end RetryPolicy

end Pyrad2
