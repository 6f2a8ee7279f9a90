import PlenoraRuntime.Core.Jitter
import PlenoraRuntime.Messaging.Message

/-!
# Retry policies

`ExponentialBackoff` decides from the class of an error, the number of the attempt and
the time that has elapsed. Its configuration is validated once and carried with the
proof of it.
-/

namespace PlenoraRuntime.Messaging

inductive RetryExhaustedAction
  | doNotRetry
  | deadLetter
  deriving DecidableEq, Repr

structure JitterConfig where
  percent : UInt8
  seed : UInt64
  deriving DecidableEq, Repr

structure ExponentialBackoffConfig where
  initialDelay : Duration := 100 * 10 ^ 6
  maxDelay : Duration := 30 * 10 ^ 9
  multiplier : ℕ := 2
  maxAttempts : ℕ := 5
  maxElapsed : Option Duration := none
  jitter : Option JitterConfig := none
  retryUnknownOutcome : Bool := false
  exhaustedAction : RetryExhaustedAction := .deadLetter
  deriving DecidableEq, Repr

inductive BackoffConfigError
  | zeroInitialDelay
  | zeroMaxDelay
  | initialDelayExceedsMaximum
  | invalidMultiplier
  | zeroMaxAttempts
  | invalidJitterPercent
  deriving DecidableEq, Repr

def validateConfig (config : ExponentialBackoffConfig) : Except BackoffConfigError Unit :=
  if config.initialDelay = 0 then .error .zeroInitialDelay
  else if config.maxDelay = 0 then .error .zeroMaxDelay
  else if config.maxDelay < config.initialDelay then .error .initialDelayExceedsMaximum
  else if config.multiplier = 0 then .error .invalidMultiplier
  else if config.maxAttempts = 0 then .error .zeroMaxAttempts
  else if config.jitter.any (100 < ·.percent) then .error .invalidJitterPercent
  else .ok ()

/-! ## Jitter -/

/-- `apply_jitter`, with the products and sums of `u128`. -/
def applyJitter (delay : Duration) (attempt : ℕ) : Option JitterConfig → Duration
  | none => delay
  | some jitter =>
    if jitter.percent = 0 then delay
    else
      let spread := Word.saturatingMul 128 delay jitter.percent.toNat / 100
      let lowerBound := delay - spread
      let sample := (mix (jitter.seed ^^^ UInt64.ofNat attempt)).toNat
      let offset := sample % Word.saturatingAdd 128 spread 1
      durationFromNanos (Word.saturatingAdd 128 lowerBound offset)

/-! ## The policy -/

/-- `ExponentialBackoff`, whose configuration has been validated. -/
structure ExponentialBackoff where
  config : ExponentialBackoffConfig
  valid : validateConfig config = .ok ()

namespace ExponentialBackoff

def new (config : ExponentialBackoffConfig) : Except BackoffConfigError ExponentialBackoff :=
  match hvalid : validateConfig config with
  | .error error => .error error
  | .ok () => .ok ⟨config, hvalid⟩

variable (policy : ExponentialBackoff)

/-- The loop of `delay_for_attempt`, with the number of rounds that are left. -/
def growDelay : ℕ → Duration → Duration
  | 0, delay => delay
  | rounds + 1, delay =>
    let delay := match checkedDuration (delay * policy.config.multiplier) with
      | some next => if next < policy.config.maxDelay then next else policy.config.maxDelay
      | none => policy.config.maxDelay
    if delay = policy.config.maxDelay then delay else growDelay rounds delay

def delayForAttempt (attempt : ℕ) : Duration :=
  let attempt := max attempt 1
  let delay := if policy.config.multiplier = 1 then policy.config.initialDelay
    else policy.growDelay (attempt - 1) policy.config.initialDelay
  applyJitter delay attempt policy.config.jitter

def exhaustedDecision : RetryDecision :=
  match policy.config.exhaustedAction with
  | .doNotRetry => .doNotRetry
  | .deadLetter => .deadLetter

theorem exhaustedDecision_ne (delay : Duration) : policy.exhaustedDecision ≠ .retryAfter delay := by
  unfold exhaustedDecision
  split <;> simp

/-- The part of `decide_class` for an error that may be retried. -/
def decideRetry (attempt : ℕ) (elapsed : Duration) : RetryDecision :=
  let attempt := max attempt 1
  if policy.config.maxAttempts ≤ attempt then policy.exhaustedDecision
  else
    let delay := policy.delayForAttempt attempt
    match policy.config.maxElapsed with
    | none => .retryAfter delay
    | some maxElapsed =>
      if maxElapsed ≤ elapsed then policy.exhaustedDecision
      else match checkedDuration (elapsed + delay) with
        | some projected =>
          if projected ≤ maxElapsed then .retryAfter delay else policy.exhaustedDecision
        | none => policy.exhaustedDecision

def decideClass (attempt : ℕ) (elapsed : Duration) : RetryErrorClass → RetryDecision
  | .permanent => .doNotRetry
  | .deadLetter => .deadLetter
  | .outcomeUnknown =>
    if policy.config.retryUnknownOutcome then policy.decideRetry attempt elapsed else .doNotRetry
  | .retryable => policy.decideRetry attempt elapsed

/-- `RetryPolicy::decide`, for an error of the given class. -/
def decide (attempt : ℕ) (errorClass : RetryErrorClass) : RetryDecision :=
  policy.decideClass attempt 0 errorClass

/-- `RetryPolicy::decide_with_elapsed`, for an error of the given class. -/
def decideWithElapsed (attempt : ℕ) (elapsed : Duration) (errorClass : RetryErrorClass) :
    RetryDecision :=
  policy.decideClass attempt elapsed errorClass

variable {policy} {delay elapsed : Duration} {attempt : ℕ}

/-- A policy that is not told to retry unknown outcomes retries only what is retryable. -/
theorem retryable_of_retryAfter (hunknown : policy.config.retryUnknownOutcome = false)
    {errorClass : RetryErrorClass}
    (h : policy.decideWithElapsed attempt elapsed errorClass = .retryAfter delay) :
    errorClass = .retryable := by
  cases errorClass with
  | retryable => rfl
  | permanent => cases h
  | deadLetter => cases h
  | outcomeUnknown =>
    simp only [decideWithElapsed, decideClass, hunknown] at h
    cases h

theorem delayForAttempt_max (attempt : ℕ) :
    policy.delayForAttempt (max attempt 1) = policy.delayForAttempt attempt := by
  simp [delayForAttempt]

/-- An error that may be retried is retried while attempts are left and the delay ends within
the elapsed-time budget, if there is one. -/
theorem decideRetry_eq_retryAfter_iff :
    policy.decideRetry attempt elapsed = .retryAfter delay ↔
      max attempt 1 < policy.config.maxAttempts ∧ delay = policy.delayForAttempt attempt ∧
        ∀ budget, policy.config.maxElapsed = some budget →
          elapsed < budget ∧ elapsed + delay ≤ budget ∧ elapsed + delay ≤ durationMax := by
  have hexh := policy.exhaustedDecision_ne delay
  simp only [decideRetry, delayForAttempt_max]
  by_cases hatts : policy.config.maxAttempts ≤ max attempt 1
  · rw [if_pos hatts]
    exact iff_of_false hexh fun h => absurd h.1 (not_lt.mpr hatts)
  rw [if_neg hatts]
  cases policy.config.maxElapsed with
  | none => simp [not_le.mp hatts, eq_comm]
  | some budget =>
    by_cases hspent : budget ≤ elapsed
    · simp only [if_pos hspent]
      exact iff_of_false hexh fun h => absurd (h.2.2 budget rfl).1 (not_lt.mpr hspent)
    by_cases hrange : elapsed + policy.delayForAttempt attempt ≤ durationMax
    · by_cases hfits : elapsed + policy.delayForAttempt attempt ≤ budget
      · simp only [if_neg hspent, checkedDuration, if_pos hrange, if_pos hfits,
          RetryDecision.retryAfter.injEq]
        constructor
        · rintro rfl
          refine ⟨not_le.mp hatts, rfl, fun found hfound => ?_⟩
          cases hfound
          exact ⟨not_le.mp hspent, hfits, hrange⟩
        · intro h
          exact h.2.1.symm
      · simp only [if_neg hspent, checkedDuration, if_pos hrange, if_neg hfits]
        exact iff_of_false hexh fun h => hfits (h.2.1 ▸ (h.2.2 budget rfl).2.1)
    · simp only [if_neg hspent, checkedDuration, if_neg hrange]
      exact iff_of_false hexh fun h => hrange (h.2.1 ▸ (h.2.2 budget rfl).2.2)

/-- What `decide` makes of a retryable error under an elapsed-time budget: it passes no
elapsed time, so each delay is compared with the whole budget. -/
theorem decide_retryable_iff {budget : Duration}
    (hbudget : policy.config.maxElapsed = some budget) :
    policy.decide attempt .retryable = .retryAfter delay ↔
      max attempt 1 < policy.config.maxAttempts ∧ delay = policy.delayForAttempt attempt ∧
        0 < budget ∧ delay ≤ budget ∧ delay ≤ durationMax := by
  have hdec : policy.decide attempt .retryable = policy.decideRetry attempt 0 := rfl
  rw [hdec, decideRetry_eq_retryAfter_iff, hbudget]
  simp

end ExponentialBackoff

end PlenoraRuntime.Messaging
