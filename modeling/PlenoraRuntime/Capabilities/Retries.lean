import PlenoraRuntime.Capabilities.Discipline
import PlenoraRuntime.Capabilities.Document

/-!
# What the public error says and what the retry policy does

Callers read the public error of a failed dispatch, the retry policy its retry class.
The two are computed apart, from the failure of the adapter and the registration. They
agree that an effect that may have happened is not retried, except for a failure without
a public error whose class is `Retryable`: with discovery, or with an unknown effect, the
public error then asks for recovery and the policy retries all the same.
-/

namespace PlenoraRuntime.Capabilities

open Messaging Worker

/-- The error reports an unknown effect, or asks for recovery before a retry. -/
def PlenoraError.IsUncertain (error : PlenoraError) : Prop :=
  error.remoteEffect = .unknown ∨ error.retry = .requiresRecovery

/-- A retry advice that leads to a retry says that the effect is known. -/
theorem PlenoraError.not_isUncertain {error : PlenoraError}
    (hretryable : error.retry.retryClass = .retryable) : ¬ error.IsUncertain := by
  have hcautious : error.retry.isCautious = false := by
    cases hretry : error.retry <;> rw [hretry] at hretryable <;> first | rfl | cases hretryable
  rintro (hunknown | hrecov)
  · have hvalid := error.retryValid
    simp [validateRetry, Guard.ite_error_eq_ok, hunknown, hcautious] at hvalid
  · rw [hrecov] at hretryable
    cases hretryable

/-- A failure without a public error that asks to be retried, although discovery requires a
public error or the effect is unknown. -/
def CapabilityRegistration.Unmapped (registration : CapabilityRegistration)
    (failure : CapabilityFailure) : Prop :=
  failure.publicError = none ∧ failure.retryClass = .retryable ∧
    (registration.discovery.isSome = true ∨ failure.remoteEffect = .unknown)

theorem retryClass_ne_retryable {error : CapabilityDispatchError}
    (h : error.category ≠ .handler) : error.retryClass ≠ .retryable := by
  cases error with
  | deadlineExceeded _ _ started => cases started <;> nofun
  | handler => exact absurd rfl h
  | unknownCapability | payloadTooLarge | incompatibleRequest | incompatibleResponse
  | resultMetadata | resultSinkUnavailable | resultPublication | resultPublicationUnknown => nofun

section failures

variable {registration : CapabilityRegistration} {request : CapabilityRequest}
  {failure : CapabilityFailure} {publicError : PlenoraError}

/-- With a public error of the adapter, that is what callers read. -/
theorem publicError_of_some (h : failure.publicError = some publicError) :
    (registration.handlerError request failure).publicError = .ok publicError := by
  obtain ⟨retryClass, remoteEffect, _, hbuilt⟩ := failure
  cases h
  simp [CapabilityRegistration.handlerError, CapabilityDispatchError.publicError]

/-- Without one, the dispatcher makes one up from the parts. -/
theorem publicError_of_none (h : failure.publicError = none) :
    (registration.handlerError request failure).publicError =
      let parts := (registration.handlerError request failure).publicParts
      PlenoraError.new parts.1 parts.2.1 parts.2.2.1 parts.2.2.2.1 parts.2.2.2.2 := by
  obtain ⟨retryClass, remoteEffect, _, hbuilt⟩ := failure
  cases h
  cases hmissing : registration.discovery.isSome <;>
    simp [CapabilityRegistration.handlerError, CapabilityDispatchError.publicError]

theorem unmapped_of_isUncertain (hretry : failure.retryClass = .retryable)
    (hpublic : (registration.handlerError request failure).publicError = .ok publicError)
    (hunc : publicError.IsUncertain) : registration.Unmapped failure := by
  cases hsupp : failure.publicError with
  | some supplied =>
    obtain rfl : supplied = publicError :=
      Except.ok.inj ((publicError_of_some hsupp).symm.trans hpublic)
    have hbuilt := failure.built
    rw [hsupp] at hbuilt
    exact absurd hunc (PlenoraError.not_isUncertain (hbuilt.1 ▸ hretry))
  | none =>
    refine ⟨hsupp, hretry, ?_⟩
    by_contra hknown
    rw [not_or] at hknown
    obtain ⟨hdisc, heff⟩ := hknown
    have hnotStarted : failure.remoteEffect = .notStarted := by
      cases h : failure.remoteEffect with
      | notStarted => rfl
      | unknown => exact absurd h heff
    -- Nothing requires a public error, and the one made up says that a retry is safe.
    rw [publicError_of_none hsupp] at hpublic
    obtain ⟨hnone, hsafe⟩ := PlenoraError.new_spec hpublic
    simp only [CapabilityRegistration.handlerError, hdisc, Bool.false_and,
      CapabilityDispatchError.publicParts, publicRetry, hnotStarted, hretry] at hnone hsafe
    rcases hunc with hunknown | hrecov
    · cases hnone.symm.trans hunknown
    · cases hsafe.symm.trans hrecov

theorem isUncertain_of_unmapped (h : registration.Unmapped failure) :
    ∃ publicError, (registration.handlerError request failure).publicError = .ok publicError ∧
      publicError.IsUncertain := by
  obtain ⟨hsupp, -, hmissing⟩ := h
  have hparts : ∃ category message, validateMessage message = .ok () ∧
      (registration.handlerError request failure).publicParts =
        (category, .finalize, .unknown, .requiresRecovery, message) := by
    cases hdisc : registration.discovery.isSome with
    | true =>
      refine ⟨_, _, ?_, by
        simp only [CapabilityRegistration.handlerError, hdisc, hsupp]
        rfl⟩
      decide
    | false =>
      have heff : failure.remoteEffect = .unknown := by
        simpa [hdisc] using hmissing
      refine ⟨_, _, ?_, by
        simp only [CapabilityRegistration.handlerError, hdisc, Bool.false_and,
          CapabilityDispatchError.publicParts, publicRetry, heff]
        rfl⟩
      decide
  obtain ⟨category, message, hmsg, hparts⟩ := hparts
  rw [publicError_of_none hsupp, hparts]
  have hretry : validateRetry .unknown .requiresRecovery = .ok () := by decide
  obtain ⟨publicError, hpublic⟩ := PlenoraError.exists_new category .finalize hmsg hretry
  exact ⟨publicError, hpublic, .inl (PlenoraError.new_spec hpublic).1⟩

end failures

/-! ## Main result -/

namespace Sample

def request : CapabilityRequest := documentRequest

def capability : CapabilityId := request.capability

def context : WorkerContext where
  task := { messageId := ⟨1⟩, correlationId := ⟨2⟩, attempt := 1 }
  causationId := none
  metadata := .new
  shutdown := 0
  cancellation := 1

/-- A dispatcher with one capability, registered without discovery, whose adapter fails. -/
def dispatcher (failure : CapabilityFailure) : CapabilityDispatcher where
  registry :=
    { registrations :=
        [(capability, ⟨fun _ _ => .completes (fun _ => false) (.error failure), none⟩)]
      nodup := List.nodup_singleton _ }
  config := {}
  resultSink := none
  configured := by decide

/-- The default policy, which is not told to retry unknown outcomes. -/
def policy : ExponentialBackoff := ⟨{}, by decide⟩

end Sample

/-- An adapter fails with `CapabilityFailure::new(Retryable, Unknown)`: the public error asks
for recovery, and the default policy retries after 100 ms. -/
theorem retryable_unknown_effect_is_retried :
    ∃ error publicError,
      ((Sample.dispatcher (.new .retryable .unknown)).handle (fun _ => none) 0 Sample.context
        Sample.request).2 = some (.error error) ∧
      error.publicError = .ok publicError ∧ publicError.remoteEffect = .unknown ∧
      publicError.retry = .requiresRecovery ∧
      Sample.policy.config.retryUnknownOutcome = false ∧
      Sample.policy.decideWithElapsed 1 0 error.retryClass = .retryAfter (100 * 10 ^ 6) :=
  ⟨_, _, rfl, rfl, rfl, rfl, rfl, by decide⟩

/-- A failed dispatch whose public error reports an unknown effect, or asks for recovery, is
never retried by a policy that is not told to retry unknown outcomes, if and only if the
adapter did not answer with a retryable failure without public error while discovery
requires one or the effect is unknown. -/
theorem uncertain_never_retried_iff (parseFromRfc3339 : Text → Option OffsetDateTime)
    (dispatcher : CapabilityDispatcher) (now : SystemTime) (context : WorkerContext)
    (request : CapabilityRequest) (error : CapabilityDispatchError)
    (hreturned : (dispatcher.handle parseFromRfc3339 now context request).2 =
      some (.error error)) :
    (∀ publicError, error.publicError = .ok publicError → publicError.IsUncertain →
      ∀ (policy : ExponentialBackoff) (attempt : ℕ) (elapsed delay : Duration),
        policy.config.retryUnknownOutcome = false →
        policy.decideWithElapsed attempt elapsed error.retryClass ≠ .retryAfter delay) ↔
    ∀ registration failure,
      dispatcher.registry.registration request.capability = some registration →
      .answer (.error failure) ∈ (dispatcher.handle parseFromRfc3339 now context request).1 →
      ¬ registration.Unmapped failure := by
  have hprotocol := handle_protocol parseFromRfc3339 dispatcher now context request
  constructor
  · intro hnever registration failure hregistered hanswer hunmapped
    rcases hprotocol.of_error hreturned with ⟨-, hnone⟩ | ⟨found, other, hadmitted, honly, rfl⟩
    · exact hnone failure hanswer
    · obtain rfl : failure = other := (honly failure).mp hanswer
      obtain rfl : registration = found :=
        Option.some.inj (hregistered.symm.trans hadmitted.registered)
      obtain ⟨publicError, hpublic, huncertain⟩ := isUncertain_of_unmapped hunmapped
      -- The class is all that the policy looks at, and it is `Retryable`.
      have hclass : (registration.handlerError request failure).retryClass = .retryable :=
        hunmapped.2.1
      refine hnever publicError hpublic huncertain Sample.policy 1 0 (100 * 10 ^ 6) rfl ?_
      rw [hclass]
      decide
  · intro hmapped publicError hpublic huncertain policy attempt elapsed delay hunknown hretried
    have hclass := ExponentialBackoff.retryable_of_retryAfter hunknown hretried
    rcases hprotocol.of_error hreturned with
      ⟨hcategory, -⟩ | ⟨registration, failure, hadmitted, honly, rfl⟩
    · exact retryClass_ne_retryable hcategory hclass
    · exact hmapped registration failure hadmitted.registered ((honly failure).mpr rfl)
        (unmapped_of_isUncertain hclass hpublic huncertain)

/-- An adapter that does not know the effect of its call, and says so. -/
theorem uncertain_never_retried_iff_unknown :
    let failure := CapabilityFailure.new .outcomeUnknown .unknown
    ∃ error publicError,
      ((Sample.dispatcher failure).handle (fun _ => none) 0 Sample.context Sample.request).2 =
        some (.error error) ∧
      error.publicError = .ok publicError ∧ publicError.IsUncertain ∧
      ∀ (policy : ExponentialBackoff) (attempt : ℕ) (elapsed delay : Duration),
        policy.config.retryUnknownOutcome = false →
        policy.decideWithElapsed attempt elapsed error.retryClass ≠ .retryAfter delay := by
  intro failure
  refine ⟨_, _, rfl, rfl, .inl rfl, (uncertain_never_retried_iff (fun _ => none)
    (Sample.dispatcher failure) 0 Sample.context Sample.request _ rfl).mpr ?_ _ rfl (.inl rfl)⟩
  intro registration answered hregistered hanswer hunmapped
  have hanswered : answered = failure := by
    rcases List.mem_cons.mp hanswer with hinvoke | hlater
    · cases hinvoke
    · cases List.mem_singleton.mp hlater
      rfl
  subst hanswered
  cases hunmapped.2.1

end PlenoraRuntime.Capabilities
