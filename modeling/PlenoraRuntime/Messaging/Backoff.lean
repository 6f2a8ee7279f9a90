import PlenoraRuntime.Messaging.Retry

/-!
# The delays of an exponential backoff

The loop of `delay_for_attempt` multiplies with a check, caps at the maximum and stops
as soon as it is there. `growDelay_eq` says what comes out: the closed form, capped
once, computed without any bound. That the loop may stop early is the fact that a
capped delay stays capped.

Jitter only ever shortens a delay, by at most the configured share of it, and none of
its 128-bit operations reaches the end of the range, because a `Duration` takes 94
bits.

A sequence of attempts adds up its delays below the elapsed time that the caller
measures, so the budget bounds their sum.
-/

namespace PlenoraRuntime.Messaging

open List

/-! ## The validated configuration -/

theorem validateConfig_eq_ok {config : ExponentialBackoffConfig}
    (hvalid : validateConfig config = .ok ()) :
    config.initialDelay ≤ config.maxDelay ∧ 0 < config.multiplier ∧ 0 < config.maxAttempts ∧
      ∀ jitter, config.jitter = some jitter → jitter.percent.toNat ≤ 100 := by
  unfold validateConfig at hvalid
  split_ifs at hvalid with hinit hmax hle hmultiplier hatts hpct
  refine ⟨Nat.le_of_not_lt hle, Nat.pos_of_ne_zero hmultiplier, Nat.pos_of_ne_zero hatts,
    fun jitter hjitter => ?_⟩
  simpa [hjitter, UInt8.le_iff_toNat_le] using hpct

namespace ExponentialBackoff

variable (policy : ExponentialBackoff)

theorem initialDelay_le : policy.config.initialDelay ≤ policy.config.maxDelay :=
  (validateConfig_eq_ok policy.valid).1

theorem multiplier_pos : 0 < policy.config.multiplier :=
  (validateConfig_eq_ok policy.valid).2.1

/-! ## Growth -/

/-- One round of the loop: the checked product, capped, is the capped product. -/
theorem growDelay_succ (hmax : policy.config.maxDelay ≤ durationMax) (rounds : ℕ)
    (delay : Duration) :
    policy.growDelay (rounds + 1) delay =
      if policy.config.maxDelay ≤ delay * policy.config.multiplier then policy.config.maxDelay
      else policy.growDelay rounds (delay * policy.config.multiplier) := by
  rw [growDelay, checkedDuration]
  by_cases hrange : delay * policy.config.multiplier ≤ durationMax
  · simp only [if_pos hrange]
    by_cases hcapped : policy.config.maxDelay ≤ delay * policy.config.multiplier
    · simp only [if_neg (Nat.not_lt_of_le hcapped), if_pos hcapped, ↓reduceIte]
    · have hless := Nat.lt_of_not_le hcapped
      simp only [if_pos hless, if_neg hcapped, if_neg (Nat.ne_of_lt hless)]
  · have hcapped := Nat.le_trans hmax (Nat.le_of_not_le hrange)
    simp only [if_neg hrange, if_pos hcapped, ↓reduceIte]

theorem growDelay_eq (hmax : policy.config.maxDelay ≤ durationMax) (rounds : ℕ) (delay : Duration)
    (hdelay : delay ≤ policy.config.maxDelay) :
    policy.growDelay rounds delay =
      min policy.config.maxDelay (delay * policy.config.multiplier ^ rounds) := by
  induction rounds generalizing delay with
  | zero => simpa [growDelay] using (Nat.min_eq_right hdelay).symm
  | succ rounds ih =>
    have hpower : 0 < policy.config.multiplier ^ rounds :=
      Nat.pow_pos policy.multiplier_pos
    rw [growDelay_succ policy hmax, Nat.pow_succ', ← Nat.mul_assoc]
    split
    case isTrue hcapped =>
      -- The loop stops here: a capped delay would only grow further.
      exact (Nat.min_eq_left (Nat.le_trans hcapped (Nat.le_mul_of_pos_right _ hpower))).symm
    case isFalse hgrows => exact ih _ (Nat.le_of_not_le hgrows)

/-- The nominal delay before attempt `n + 1`, in unbounded arithmetic. -/
def nominalDelay (n : ℕ) : Duration :=
  min policy.config.maxDelay (policy.config.initialDelay * policy.config.multiplier ^ (n - 1))

theorem delayForAttempt_eq (hmax : policy.config.maxDelay ≤ durationMax) {n : ℕ} (hn : 1 ≤ n) :
    policy.delayForAttempt n = applyJitter (policy.nominalDelay n) n policy.config.jitter := by
  have hinit := policy.initialDelay_le
  simp only [delayForAttempt, Nat.max_eq_left hn]
  split
  case isTrue hone =>
    rw [nominalDelay, hone, Nat.one_pow, Nat.mul_one, Nat.min_eq_right hinit]
  case isFalse =>
    rw [growDelay_eq policy hmax _ _ hinit, nominalDelay]

end ExponentialBackoff

/-! ## Jitter -/

/-- The longest duration is far from the largest `u128`. -/
theorem durationMax_lt : durationMax * 100 < Word.maxValue 128 := by
  decide

/-- A sample from `[delay - spread, delay]`. -/
theorem offset_bounds {delay spread : ℕ} (sample : ℕ) (hspread : spread ≤ delay)
    (hdelay : delay < Word.maxValue 128) :
    let offset := sample % Word.saturatingAdd 128 spread 1
    delay - spread ≤ Word.saturatingAdd 128 (delay - spread) offset ∧
      Word.saturatingAdd 128 (delay - spread) offset ≤ delay := by
  have hmodulus : Word.saturatingAdd 128 spread 1 = spread + 1 := by
    unfold Word.saturatingAdd
    omega
  have hoffset : sample % (spread + 1) < spread + 1 := Nat.mod_lt _ (Nat.succ_pos spread)
  simp only [hmodulus]
  unfold Word.saturatingAdd
  omega

/-- Jitter takes at most the given share off a delay and never adds to it. -/
theorem applyJitter_bounds {delay : Duration} (hdelay : delay ≤ durationMax) (attempt : ℕ)
    {jitter : JitterConfig} (hpct : jitter.percent.toNat ≤ 100) :
    delay - delay * jitter.percent.toNat / 100 ≤ applyJitter delay attempt (some jitter) ∧
      applyJitter delay attempt (some jitter) ≤ delay := by
  unfold applyJitter
  dsimp only
  split
  case isTrue => exact ⟨Nat.sub_le .., Nat.le_refl _⟩
  case isFalse =>
    have hlt : delay < Word.maxValue 128 :=
      Nat.lt_of_le_of_lt (Nat.le_trans hdelay (Nat.le_mul_of_pos_right _ (by decide)))
        durationMax_lt
    have hproduct : delay * jitter.percent.toNat ≤ durationMax * 100 :=
      Nat.mul_le_mul hdelay hpct
    have hexact : Word.saturatingMul 128 delay jitter.percent.toNat =
        delay * jitter.percent.toNat :=
      Nat.min_eq_left (Nat.le_trans hproduct (Nat.le_of_lt durationMax_lt))
    rw [hexact]
    have hspread : delay * jitter.percent.toNat / 100 ≤ delay := by
      refine Nat.div_le_of_le_mul ?_
      rw [Nat.mul_comm]
      exact Nat.mul_le_mul_right _ hpct
    generalize (mix _).toNat = sample
    obtain ⟨hlower, hupper⟩ := offset_bounds sample hspread hlt
    rw [durationFromNanos_eq (Nat.le_trans hupper hdelay)]
    exact ⟨hlower, hupper⟩

/-- The delay after attempt `n` is the smaller of the maximum and the exponential growth
of the initial delay, computed without bounds; jitter of `p` percent takes at most that
share off and never adds to it. `hmax` is the range of the type `Duration`. -/
theorem backoff_delay_formula (policy : ExponentialBackoff)
    (hmax : policy.config.maxDelay ≤ durationMax) {n : ℕ} (hn : 1 ≤ n) :
    let nominal := min policy.config.maxDelay
      (policy.config.initialDelay * policy.config.multiplier ^ (n - 1))
    (policy.config.jitter = none → policy.delayForAttempt n = nominal) ∧
      (∀ jitter, policy.config.jitter = some jitter →
        nominal - nominal * jitter.percent.toNat / 100 ≤ policy.delayForAttempt n ∧
          policy.delayForAttempt n ≤ nominal) ∧
      policy.delayForAttempt n ≤ policy.config.maxDelay := by
  intro nominal
  have heq : policy.delayForAttempt n = applyJitter nominal n policy.config.jitter :=
    policy.delayForAttempt_eq hmax hn
  have hnominal : nominal ≤ policy.config.maxDelay := Nat.min_le_left ..
  have hbounds : ∀ jitter, policy.config.jitter = some jitter →
      nominal - nominal * jitter.percent.toNat / 100 ≤ policy.delayForAttempt n ∧
        policy.delayForAttempt n ≤ nominal := by
    intro jitter hjitter
    rw [heq, hjitter]
    exact applyJitter_bounds (Nat.le_trans hnominal hmax) n
      ((validateConfig_eq_ok policy.valid).2.2.2 jitter hjitter)
  refine ⟨fun hnone => by rw [heq, hnone]; rfl, hbounds, ?_⟩
  cases hjitter : policy.config.jitter with
  | none =>
    rw [heq, hjitter]
    exact hnominal
  | some jitter => exact Nat.le_trans (hbounds jitter hjitter).2 hnominal

/-- With an initial delay of 100, doubled each time, and a tenth of jitter, the third
delay lies between 360 and 400. -/
theorem backoff_delay_formula_third :
    ∃ policy : ExponentialBackoff,
      policy.config = { initialDelay := 100, maxDelay := 3000, jitter := some ⟨10, 7⟩ } ∧
        360 ≤ policy.delayForAttempt 3 ∧ policy.delayForAttempt 3 ≤ 400 := by
  let policy : ExponentialBackoff :=
    ⟨{ initialDelay := 100, maxDelay := 3000, jitter := some ⟨10, 7⟩ }, by decide⟩
  have hmax : policy.config.maxDelay ≤ durationMax := by decide
  have hthird : 1 ≤ 3 := by decide
  have hbounds := (backoff_delay_formula policy hmax hthird).2.1 ⟨10, 7⟩ rfl
  exact ⟨policy, rfl, Nat.le_trans (by decide) hbounds.1, Nat.le_trans hbounds.2 (by decide)⟩

/-! ## Sequences of attempts -/

namespace ExponentialBackoff

variable {policy : ExponentialBackoff} {elapsed delay : Duration} {attempt : ℕ}

theorem decideRetry_eq_retryAfter (h : policy.decideRetry attempt elapsed = .retryAfter delay) :
    max attempt 1 < policy.config.maxAttempts ∧
      ∀ budget, policy.config.maxElapsed = some budget → elapsed + delay ≤ budget := by
  obtain ⟨hatts, -, hbudget⟩ := decideRetry_eq_retryAfter_iff.mp h
  exact ⟨hatts, fun budget hsome => (hbudget budget hsome).2.1⟩

theorem decideWithElapsed_eq_retryAfter {errorClass : RetryErrorClass}
    (h : policy.decideWithElapsed attempt elapsed errorClass = .retryAfter delay) :
    (max attempt 1 < policy.config.maxAttempts ∧
      ∀ budget, policy.config.maxElapsed = some budget → elapsed + delay ≤ budget) ∧
      (errorClass = .retryable ∨
        errorClass = .outcomeUnknown ∧ policy.config.retryUnknownOutcome = true) := by
  cases errorClass with
  | permanent => cases h
  | deadLetter => cases h
  | retryable => exact ⟨decideRetry_eq_retryAfter h, .inl rfl⟩
  | outcomeUnknown =>
    simp only [decideWithElapsed, decideClass] at h
    split at h
    case isTrue hunknown => exact ⟨decideRetry_eq_retryAfter h, .inr ⟨rfl, hunknown⟩⟩
    case isFalse => cases h

end ExponentialBackoff

/-- Delays that each end before the next attempt add up to no more than the end of the
last one. -/
theorem sum_delays_le {elapsed delays : ℕ → ℕ} {n : ℕ}
    (h : ∀ k, 1 ≤ k → k < n → elapsed k + delays k ≤ elapsed (k + 1)) (hn : 1 ≤ n) :
    ((List.range n).map fun k => delays (k + 1)).sum ≤ elapsed n + delays n := by
  induction n with
  | zero => omega
  | succ n ih =>
    rw [range_succ, map_append, sum_append, map_singleton,
      sum_singleton]
    by_cases hfirst : n = 0
    · subst hfirst
      simp
    · have hpre := ih (fun k hk hlt => h k hk (by omega)) (by omega)
      have hlast := h n (by omega) (by omega)
      omega

/-- A sequence of attempts in which the first `n` were all answered with a delay, and
each next attempt starts no earlier than its delay allows: fewer than `maxAttempts`
attempts were answered so, every delay ends within the budget and so does their sum.
Errors that may not be retried are never answered with a delay. -/
theorem retry_sequence_bounded (policy : ExponentialBackoff) (elapsed : ℕ → Duration)
    (errorClass : ℕ → RetryErrorClass) (delays : ℕ → Duration) (n : ℕ)
    (hretried : ∀ k, 1 ≤ k → k ≤ n →
      policy.decideWithElapsed k (elapsed k) (errorClass k) = .retryAfter (delays k))
    (helapsed : ∀ k, 1 ≤ k → k < n → elapsed k + delays k ≤ elapsed (k + 1)) :
    n + 1 ≤ policy.config.maxAttempts ∧
      (∀ budget, policy.config.maxElapsed = some budget →
        (∀ k, 1 ≤ k → k ≤ n → elapsed k + delays k ≤ budget) ∧
          ((List.range n).map fun k => delays (k + 1)).sum ≤ budget) ∧
      ∀ attempt since class' delay,
        policy.decideWithElapsed attempt since class' = .retryAfter delay →
          class' ≠ .permanent ∧ class' ≠ .deadLetter ∧
            (class' = .outcomeUnknown → policy.config.retryUnknownOutcome = true) := by
  refine ⟨?_, fun budget hbudget => ?_, fun attempt since class' delay h => ?_⟩
  · by_cases hnone : n = 0
    · subst hnone
      exact (validateConfig_eq_ok policy.valid).2.2.1
    · have hlast := (ExponentialBackoff.decideWithElapsed_eq_retryAfter
        (hretried n (Nat.pos_of_ne_zero hnone) (Nat.le_refl n))).1.1
      exact Nat.lt_of_le_of_lt (Nat.le_max_left n 1) hlast
  · have hwithin : ∀ k, 1 ≤ k → k ≤ n → elapsed k + delays k ≤ budget := fun k hk hkn =>
      (ExponentialBackoff.decideWithElapsed_eq_retryAfter (hretried k hk hkn)).1.2 budget hbudget
    refine ⟨hwithin, ?_⟩
    by_cases hnone : n = 0
    · subst hnone
      exact Nat.zero_le _
    · have hpos := Nat.pos_of_ne_zero hnone
      exact Nat.le_trans (sum_delays_le helapsed hpos) (hwithin n hpos (Nat.le_refl n))
  · obtain ⟨-, rfl | ⟨rfl, hunknown⟩⟩ := ExponentialBackoff.decideWithElapsed_eq_retryAfter h
    · exact ⟨by simp, by simp, fun hclass => (nomatch hclass)⟩
    · exact ⟨by simp, by simp, fun _ => hunknown⟩

/-- Two retries, after 10 and after 20, under a budget of 50. -/
theorem retry_sequence_bounded_two :
    ∃ policy : ExponentialBackoff,
      policy.config = { initialDelay := 10, maxDelay := 40, maxElapsed := some 50 } ∧
        2 + 1 ≤ policy.config.maxAttempts ∧ 10 + 20 ≤ 50 := by
  let policy : ExponentialBackoff :=
    ⟨{ initialDelay := 10, maxDelay := 40, maxElapsed := some 50 }, by decide⟩
  let elapsed : ℕ → Duration := fun k => if k = 1 then 0 else 10
  let delays : ℕ → Duration := fun k => if k = 1 then 10 else 20
  have hretried : ∀ k, 1 ≤ k → k ≤ 2 →
      policy.decideWithElapsed k (elapsed k) .retryable = .retryAfter (delays k) := by
    intro k hk hkn
    obtain rfl | rfl : k = 1 ∨ k = 2 := by omega
    · decide
    · decide
  have helapsed : ∀ k, 1 ≤ k → k < 2 → elapsed k + delays k ≤ elapsed (k + 1) := by
    intro k hk hkn
    obtain rfl : k = 1 := by omega
    decide
  have hbounded := retry_sequence_bounded policy elapsed (fun _ => .retryable) delays 2
    hretried helapsed
  exact ⟨policy, rfl, hbounded.1, (hbounded.2.1 50 rfl).2⟩

end PlenoraRuntime.Messaging
