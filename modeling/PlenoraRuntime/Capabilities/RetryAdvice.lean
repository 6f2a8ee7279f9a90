import PlenoraRuntime.Capabilities.Retries
import PlenoraRuntime.Messaging.Backoff

/-!
# Retry advice with a condition

Two kinds of advice that an adapter gives in a public error come with a condition: retry
if the request has an idempotency key, and retry after a given delay. `with_public_error`
maps both to the class `Retryable`, and the class is all that a retry policy is told. The
condition is lost on the way:

* without a key the policy retries like for any other retryable error. A key that the
  operation does not support is never seen, because `validate_request` has rejected it;
* the policy waits as long as its own configuration says. It waits long enough exactly
  when that happens to be the advised delay or more.
-/

namespace PlenoraRuntime.Capabilities

open Messaging Worker

section advice

variable {parseFromRfc3339 : Text → Option OffsetDateTime} {dispatcher : CapabilityDispatcher}
  {now : SystemTime} {context : WorkerContext} {request : CapabilityRequest}
  {error : CapabilityDispatchError} {failure : CapabilityFailure} {publicError : PlenoraError}

/-- The class of a dispatch that an adapter made fail is the one of its public error. -/
theorem retryClass_of_answer
    (hret : (dispatcher.handle parseFromRfc3339 now context request).2 = some (.error error))
    (hans : .answer (.error failure) ∈
      (dispatcher.handle parseFromRfc3339 now context request).1)
    (hpublic : failure.publicError = some publicError) :
    error.retryClass = publicError.retry.retryClass ∧
      ∃ registration, Admitted parseFromRfc3339 dispatcher now request registration := by
  have hproto := handle_protocol parseFromRfc3339 dispatcher now context request
  rcases hproto.of_error hret with ⟨-, hnone⟩ | ⟨registration, other, hadm, honly, rfl⟩
  · exact absurd hans (hnone failure)
  · obtain rfl : failure = other := (honly failure).mp hans
    have hbuilt := failure.built
    rw [hpublic] at hbuilt
    exact ⟨hbuilt.1, registration, hadm⟩

end advice

/-! ## Retry with an idempotency key -/

def CapabilityRequest.HasIdempotencyKey (request : CapabilityRequest) : Prop :=
  request.input.headers.containsKey idempotencyKeyMetadataKey = true

/-- The operation that the request names is advertised with support for idempotency keys. -/
def CapabilityDiscovery.SupportsIdempotencyKey (discovery : CapabilityDiscovery)
    (request : CapabilityRequest) : Prop :=
  ∃ operation, discovery.operation request.operation request.operationVersion = some operation ∧
    operation.controls.idempotencyKey = true

/-- An admitted request only carries a key if that is supported. -/
theorem CapabilityDiscovery.Admits.supportsIdempotencyKey {discovery : CapabilityDiscovery}
    {request : CapabilityRequest} (hadmits : discovery.Admits request)
    (hkey : request.HasIdempotencyKey) : discovery.SupportsIdempotencyKey request := by
  obtain ⟨operation, hmem, hname, hver, hadm⟩ := hadmits
  exact ⟨operation, CapabilityDiscovery.operation_eq_some_iff.mpr ⟨hmem, hname, hver⟩,
    hadm.idempotencyKey hkey⟩

namespace Sample

/-- A document that offers the sample request's operation at run time. -/
def discovery : CapabilityDiscovery where
  interfaces := []
  operations :=
    [{ name := request.operation
       version := request.operationVersion
       status := .available
       surfaces := [.runtime]
       input := ⟨request.inputContract, [utf8 "application/json"]⟩
       output := ⟨request.inputContract, [utf8 "application/json"]⟩
       controls := ⟨false, false, true⟩ }]
  nodup := List.nodup_singleton _

/-- A dispatcher with one discovered capability, whose adapter fails. -/
def discovered (failure : CapabilityFailure) : CapabilityDispatcher :=
  { dispatcher failure with
    registry :=
      { registrations :=
          [(capability, ⟨fun _ _ => .completes (fun _ => false) (.error failure), some discovery⟩)]
        nodup := List.nodup_singleton _ } }

/-- A conflict without remote effect, with the given advice. -/
def conflict (retry : PlenoraErrorRetry) (h : validateRetry .none retry = .ok ()) :
    PlenoraError where
  category := .conflict
  phase := .write
  remoteEffect := .none
  retry := retry
  message := utf8 "resource is locked"
  messageValid := by decide
  retryValid := h

def keyed : CapabilityFailure :=
  .withPublicError (conflict .requiresIdempotencyKey (by decide))

def keyedRequest : CapabilityRequest :=
  { request with
    input :=
      { request.input with
        headers :=
          { entries := [(idempotencyKeyMetadataKey, utf8 "7")]
            portable :=
              ⟨List.pairwise_singleton _ _, by decide, by decide, by decide, by decide⟩ } } }

end Sample

/-- An adapter fails with `RequiresIdempotencyKey` on a request without a key: the default
policy retries after 100 ms. -/
theorem retried_without_idempotency_key :
    ∃ error,
      ((Sample.discovered Sample.keyed).handle (fun _ => none) 0 Sample.context
        Sample.request).2 = some (.error error) ∧
      (∃ publicError, error.publicError = .ok publicError ∧
        publicError.retry = .requiresIdempotencyKey) ∧
      ¬ Sample.request.HasIdempotencyKey ∧
      Sample.policy.decideWithElapsed 1 0 error.retryClass = .retryAfter (100 * 10 ^ 6) :=
  ⟨_, rfl, ⟨_, rfl, rfl⟩, Bool.false_ne_true, by decide⟩

/-- A failure of a discovered capability that asks for an idempotency key is retried only if
the request carried a key and the operation supports it, if and only if the request carried
a key. -/
theorem idempotency_key_required_iff (parseFromRfc3339 : Text → Option OffsetDateTime)
    (dispatcher : CapabilityDispatcher) (now : SystemTime) (context : WorkerContext)
    (request : CapabilityRequest) (registration : CapabilityRegistration)
    (discovery : CapabilityDiscovery) (failure : CapabilityFailure) (publicError : PlenoraError)
    (error : CapabilityDispatchError)
    (hregistered : dispatcher.registry.registration request.capability = some registration)
    (hdiscovered : registration.discovery = some discovery)
    (hreturned : (dispatcher.handle parseFromRfc3339 now context request).2 = some (.error error))
    (hanswer : .answer (.error failure) ∈
      (dispatcher.handle parseFromRfc3339 now context request).1)
    (hpublic : failure.publicError = some publicError)
    (hretry : publicError.retry = .requiresIdempotencyKey) :
    (∀ (policy : ExponentialBackoff) (attempt : ℕ) (elapsed delay : Duration),
      policy.decideWithElapsed attempt elapsed error.retryClass = .retryAfter delay →
      request.HasIdempotencyKey ∧ discovery.SupportsIdempotencyKey request) ↔
    request.HasIdempotencyKey := by
  obtain ⟨hclass, found, hadmitted⟩ := retryClass_of_answer hreturned hanswer hpublic
  obtain rfl : registration = found := Option.some.inj (hregistered.symm.trans hadmitted.registered)
  rw [hretry] at hclass
  constructor
  · intro hrequired
    have hretried : Sample.policy.decideWithElapsed 1 0 error.retryClass =
        .retryAfter (100 * 10 ^ 6) := by
      rw [hclass]
      decide
    exact (hrequired Sample.policy 1 0 _ hretried).1
  · intro hkey policy attempt elapsed delay _
    exact ⟨hkey, (hadmitted.discovered discovery hdiscovered).supportsIdempotencyKey hkey⟩

theorem idempotency_key_required_iff_keyed :
    ∃ error,
      ((Sample.discovered Sample.keyed).handle (fun _ => none) 0 Sample.context
        Sample.keyedRequest).2 = some (.error error) ∧
      ∀ (policy : ExponentialBackoff) (attempt : ℕ) (elapsed delay : Duration),
        policy.decideWithElapsed attempt elapsed error.retryClass = .retryAfter delay →
        Sample.keyedRequest.HasIdempotencyKey ∧
          Sample.discovery.SupportsIdempotencyKey Sample.keyedRequest :=
  ⟨_, rfl, (idempotency_key_required_iff (fun _ => none) (Sample.discovered Sample.keyed) 0
    Sample.context Sample.keyedRequest _ Sample.discovery Sample.keyed _ _ rfl rfl rfl
    (List.mem_of_getElem? (i := 1) rfl) rfl rfl).mpr rfl⟩

/-! ## Retry after a delay -/

/-- The time that a policy waits after an attempt, as it is configured: the initial delay
grown once for each attempt before, capped, and shortened by jitter. -/
def configuredDelay (config : ExponentialBackoffConfig) (attempt : ℕ) : Duration :=
  applyJitter
    (min config.maxDelay (config.initialDelay * config.multiplier ^ (max attempt 1 - 1)))
    (max attempt 1) config.jitter

/-- The policy gives up after this attempt: none is left, or the next would begin past the
elapsed-time budget. -/
def GivesUp (config : ExponentialBackoffConfig) (attempt : ℕ) (elapsed : Duration) : Prop :=
  config.maxAttempts ≤ max attempt 1 ∨
    ∃ budget, config.maxElapsed = some budget ∧
      (budget ≤ elapsed ∨ min budget durationMax < elapsed + configuredDelay config attempt)

section delays

variable {policy : ExponentialBackoff}

theorem delayForAttempt_eq_configuredDelay (hmax : policy.config.maxDelay ≤ durationMax)
    (attempt : ℕ) : policy.delayForAttempt attempt = configuredDelay policy.config attempt := by
  rw [← ExponentialBackoff.delayForAttempt_max,
    policy.delayForAttempt_eq hmax (Nat.le_max_right attempt 1)]
  rfl

/-- A policy that does not give up waits for the configured time. -/
theorem decide_retryable_eq_retryAfter_iff (hmax : policy.config.maxDelay ≤ durationMax)
    {attempt : ℕ} {elapsed delay : Duration} :
    policy.decideWithElapsed attempt elapsed .retryable = .retryAfter delay ↔
      ¬ GivesUp policy.config attempt elapsed ∧ delay = configuredDelay policy.config attempt := by
  have hdec : policy.decideWithElapsed attempt elapsed .retryable =
      policy.decideRetry attempt elapsed := rfl
  rw [hdec, ExponentialBackoff.decideRetry_eq_retryAfter_iff,
    delayForAttempt_eq_configuredDelay hmax]
  constructor
  · rintro ⟨hatts, rfl, hbudget⟩
    refine ⟨?_, rfl⟩
    rintro (hnone | ⟨budget, hsome, hspent⟩)
    · exact absurd hatts (not_lt.mpr hnone)
    · obtain ⟨hleft, hfits, hrange⟩ := hbudget budget hsome
      exact hspent.elim (not_le.mpr hleft) (not_lt.mpr (le_min hfits hrange))
  · rintro ⟨hgoesOn, rfl⟩
    rw [GivesUp, not_or, not_le] at hgoesOn
    refine ⟨hgoesOn.1, rfl, fun budget hsome => ?_⟩
    have hleft : ¬ budget ≤ elapsed := fun h => hgoesOn.2 ⟨budget, hsome, .inl h⟩
    have hfits := not_lt.mp fun h => hgoesOn.2 ⟨budget, hsome, .inr h⟩
    exact ⟨not_le.mp hleft, le_min_iff.mp hfits⟩

end delays

/-- An adapter fails with `After { delay_ms: 60000 }`: the default policy retries after
100 ms. -/
theorem retried_before_explicit_delay :
    ∃ error,
      ((Sample.discovered (.withPublicError (Sample.conflict (.after 60000) (by decide)))).handle
        (fun _ => none) 0 Sample.context Sample.request).2 = some (.error error) ∧
      (∃ publicError, error.publicError = .ok publicError ∧ publicError.retry = .after 60000) ∧
      Sample.policy.decideWithElapsed 1 0 error.retryClass = .retryAfter (100 * 10 ^ 6) :=
  ⟨_, rfl, ⟨_, rfl, rfl⟩, by decide⟩

/-- A failure that asks for a retry after a delay is not retried sooner, if and only if the
policy gives up after this attempt or is configured to wait for the delay or longer. -/
theorem explicit_delay_respected_iff (parseFromRfc3339 : Text → Option OffsetDateTime)
    (dispatcher : CapabilityDispatcher) (now : SystemTime) (context : WorkerContext)
    (request : CapabilityRequest) (failure : CapabilityFailure) (publicError : PlenoraError)
    (error : CapabilityDispatchError) (delayMs : UInt64)
    (hreturned : (dispatcher.handle parseFromRfc3339 now context request).2 = some (.error error))
    (hanswer : .answer (.error failure) ∈
      (dispatcher.handle parseFromRfc3339 now context request).1)
    (hpublic : failure.publicError = some publicError)
    (hretry : publicError.retry = .after delayMs)
    (policy : ExponentialBackoff) (hmax : policy.config.maxDelay ≤ durationMax)
    (attempt : ℕ) (elapsed : Duration) :
    (∀ delay, policy.decideWithElapsed attempt elapsed error.retryClass = .retryAfter delay →
      delayMs.toNat * 10 ^ 6 ≤ delay) ↔
    GivesUp policy.config attempt elapsed ∨
      delayMs.toNat * 10 ^ 6 ≤ configuredDelay policy.config attempt := by
  obtain ⟨hclass, -⟩ := retryClass_of_answer hreturned hanswer hpublic
  have hretryable : error.retryClass = .retryable := by
    rw [hclass, hretry]
    rfl
  rw [hretryable]
  constructor
  · intro hrespected
    by_cases hgivesUp : GivesUp policy.config attempt elapsed
    · exact .inl hgivesUp
    · exact .inr (hrespected _ ((decide_retryable_eq_retryAfter_iff hmax).mpr ⟨hgivesUp, rfl⟩))
  · intro hlong delay hretried
    obtain ⟨hgoesOn, rfl⟩ := (decide_retryable_eq_retryAfter_iff hmax).mp hretried
    exact hlong.resolve_left hgoesOn

theorem explicit_delay_respected_iff_short :
    ∃ error,
      ((Sample.discovered (.withPublicError (Sample.conflict (.after 60) (by decide)))).handle
        (fun _ => none) 0 Sample.context Sample.request).2 = some (.error error) ∧
      ∀ delay, Sample.policy.decideWithElapsed 1 0 error.retryClass = .retryAfter delay →
        60 * 10 ^ 6 ≤ delay :=
  ⟨_, rfl, (explicit_delay_respected_iff (fun _ => none)
    (Sample.discovered (.withPublicError (Sample.conflict (.after 60) (by decide)))) 0
    Sample.context Sample.request (.withPublicError (Sample.conflict (.after 60) (by decide))) _ _
    60 rfl (List.mem_of_getElem? (i := 1) rfl) rfl rfl Sample.policy (by decide) 1 0).mpr
    (.inr (by decide))⟩

end PlenoraRuntime.Capabilities
