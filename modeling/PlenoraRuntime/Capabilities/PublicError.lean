import PlenoraRuntime.Core.Text

/-!
# Public errors

`PlenoraError` is what callers are told of a failure. It can only be built with a retry
advice that is compatible with its remote effect, which is its last field.
-/

namespace PlenoraRuntime.Capabilities

def maxMessageBytes : ℕ := 2048

def maxRetryDelayMs : UInt64 := 86400000

inductive PlenoraErrorCategory
  | invalidPlan
  | invalidConfiguration
  | schema
  | dataMapping
  | crs
  | unsupported
  | notFound
  | conflict
  | concurrentModification
  | authentication
  | authorization
  | timeout
  | cancelled
  | resourceLimit
  | io
  | protocol
  | transient
  | execution
  | internal
  deriving DecidableEq, Repr

inductive PlenoraErrorPhase
  | validate
  | connect
  | probe
  | prepare
  | read
  | write
  | finalize
  | commit
  | rollback
  | cleanup
  deriving DecidableEq, Repr

inductive PlenoraErrorRemoteEffect
  | none
  | rolledBack
  | partially
  | committed
  | unknown
  deriving DecidableEq, Repr

inductive PlenoraErrorRetry
  | never
  | quarantine
  | safe
  | requiresIdempotencyKey
  | requiresRecovery
  | after (delayMs : UInt64)
  deriving DecidableEq, Repr

inductive PlenoraErrorValidationErrorKind
  | invalidMessage
  | invalidCode
  | invalidProvider
  | invalidExecutionId
  | invalidRetryDelay
  | unsafeUnknownEffectRetry
  | invalidDetails
  | detailsTooLarge
  | errorTooLarge
  | serialization
  deriving DecidableEq, Repr

structure PlenoraErrorValidationError where
  kind : PlenoraErrorValidationErrorKind
  deriving DecidableEq, Repr

/-- The advice leaves the retry to someone who knows more. -/
def PlenoraErrorRetry.isCautious : PlenoraErrorRetry → Bool
  | .never | .quarantine | .requiresRecovery => true
  | .safe | .requiresIdempotencyKey | .after _ => false

/-- The advice waits longer than `MAX_RETRY_DELAY_MS`. -/
def PlenoraErrorRetry.isTooLong : PlenoraErrorRetry → Bool
  | .after delayMs => maxRetryDelayMs < delayMs
  | _ => false

def validateRetry (effect : PlenoraErrorRemoteEffect) (retry : PlenoraErrorRetry) :
    Except PlenoraErrorValidationError Unit :=
  if retry.isTooLong then .error ⟨.invalidRetryDelay⟩
  else if effect = .unknown ∧ !retry.isCautious then .error ⟨.unsafeUnknownEffectRetry⟩
  else .ok ()

/-- The first check of `PlenoraError::new`. -/
def validateMessage (message : Text) : Except PlenoraErrorValidationError Unit :=
  if message.isEmpty || maxMessageBytes < message.length then .error ⟨.invalidMessage⟩ else .ok ()

/-- A public error, by the fields that `PlenoraError::new` sets. -/
structure PlenoraError where
  category : PlenoraErrorCategory
  phase : PlenoraErrorPhase
  remoteEffect : PlenoraErrorRemoteEffect
  retry : PlenoraErrorRetry
  message : Text
  messageValid : validateMessage message = .ok ()
  retryValid : validateRetry remoteEffect retry = .ok ()
  deriving DecidableEq

def PlenoraError.new (category : PlenoraErrorCategory) (phase : PlenoraErrorPhase)
    (remoteEffect : PlenoraErrorRemoteEffect) (retry : PlenoraErrorRetry) (message : Text) :
    Except PlenoraErrorValidationError PlenoraError :=
  match hmsg : validateMessage message with
  | .error error => .error error
  | .ok () =>
    match hretry : validateRetry remoteEffect retry with
    | .error error => .error error
    | .ok () =>
      .ok
        { category, phase, remoteEffect, retry, message
          messageValid := hmsg
          retryValid := hretry }

section new

variable {category : PlenoraErrorCategory} {phase : PlenoraErrorPhase}
  {remoteEffect : PlenoraErrorRemoteEffect} {retry : PlenoraErrorRetry} {message : Text}
  {error : PlenoraError}

theorem PlenoraError.new_spec
    (h : PlenoraError.new category phase remoteEffect retry message = .ok error) :
    error.remoteEffect = remoteEffect ∧ error.retry = retry := by
  unfold PlenoraError.new at h
  split at h
  case h_1 => cases h
  case h_2 =>
    split at h
    case h_1 => cases h
    case h_2 =>
      cases h
      exact ⟨rfl, rfl⟩

theorem PlenoraError.exists_new (category : PlenoraErrorCategory) (phase : PlenoraErrorPhase)
    (hmsg : validateMessage message = .ok ())
    (hretry : validateRetry remoteEffect retry = .ok ()) :
    ∃ error, PlenoraError.new category phase remoteEffect retry message = .ok error := by
  unfold PlenoraError.new
  split
  case h_1 error herror => cases herror.symm.trans hmsg
  case h_2 =>
    split
    case h_1 error herror => cases herror.symm.trans hretry
    case h_2 => exact ⟨_, rfl⟩

end new

end PlenoraRuntime.Capabilities
