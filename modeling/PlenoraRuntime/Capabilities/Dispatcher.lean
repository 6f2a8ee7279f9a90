import PlenoraRuntime.Capabilities.Handler
import PlenoraRuntime.Messaging.Retry

/-!
# The dispatcher

`CapabilityDispatcher::handle` admits a request, invokes the adapter of its capability and
publishes what the adapter answers. Its model is a function of what the parties do; it
returns the calls it made and their answers, in order, together with its own result, or
none when a party that it awaits never answers.
-/

namespace PlenoraRuntime.Capabilities

open Messaging Worker

/-! ## Errors -/

inductive CapabilityResponseRejection
  | missingOutput
  | outputContractMismatch
  | outputContentTypeMismatch
  | outputTooLarge
  deriving DecidableEq, Repr

inductive CapabilityDispatchErrorCategory
  | unknownCapability
  | payloadTooLarge
  | incompatibleRequest
  | deadlineExceeded
  | incompatibleResponse
  | resultPublication
  | handler
  deriving DecidableEq, Repr

inductive CapabilityDispatchError
  | unknownCapability (capability : CapabilityId) (operation : OperationName)
  | payloadTooLarge (capability : CapabilityId) (operation : OperationName) (actual limit : ℕ)
  | incompatibleRequest (capability : CapabilityId) (operation : OperationName)
      (reason : CapabilityRequestRejection)
  | deadlineExceeded (capability : CapabilityId) (operation : OperationName)
      (invocationStarted : Bool)
  | incompatibleResponse (capability : CapabilityId) (operation : OperationName)
      (reason : CapabilityResponseRejection)
  | resultMetadata (capability : CapabilityId) (operation : OperationName)
      (failure : CapabilityResultBuildError)
  | resultSinkUnavailable (capability : CapabilityId) (operation : OperationName)
  | resultPublication (capability : CapabilityId) (operation : OperationName)
      (failure : CapabilityResultPublishError)
  | resultPublicationUnknown (capability : CapabilityId) (operation : OperationName)
  | handler (capability : CapabilityId) (operation : OperationName)
      (publicMappingMissing : Bool) (failure : CapabilityFailure)

namespace CapabilityDispatchError

def category : CapabilityDispatchError → CapabilityDispatchErrorCategory
  | .unknownCapability .. => .unknownCapability
  | .payloadTooLarge .. => .payloadTooLarge
  | .incompatibleRequest .. => .incompatibleRequest
  | .deadlineExceeded .. => .deadlineExceeded
  | .incompatibleResponse .. => .incompatibleResponse
  | .resultMetadata .. | .resultSinkUnavailable .. | .resultPublication ..
  | .resultPublicationUnknown .. => .resultPublication
  | .handler .. => .handler

def remoteEffect : CapabilityDispatchError → CapabilityRemoteEffect
  | .unknownCapability .. | .payloadTooLarge .. | .incompatibleRequest ..
  | .deadlineExceeded _ _ false => .notStarted
  | .deadlineExceeded _ _ true | .incompatibleResponse .. | .resultMetadata ..
  | .resultSinkUnavailable .. | .resultPublication .. | .resultPublicationUnknown .. => .unknown
  | .handler _ _ _ failure => failure.remoteEffect

/-- `ClassifyRetry::retry_class` of a dispatch error. -/
def retryClass : CapabilityDispatchError → RetryErrorClass
  | .unknownCapability .. | .payloadTooLarge .. | .incompatibleRequest ..
  | .deadlineExceeded _ _ false => .deadLetter
  | .deadlineExceeded _ _ true | .incompatibleResponse .. | .resultMetadata ..
  | .resultSinkUnavailable .. | .resultPublication .. | .resultPublicationUnknown .. =>
    .outcomeUnknown
  | .handler _ _ _ failure => failure.retryClass

end CapabilityDispatchError

/-! ## Their public form -/

def requestErrorCategory : CapabilityRequestRejection → PlenoraErrorCategory
  | .unknownOperation | .operationUnavailable | .runtimeSurfaceUnsupported
  | .deadlineUnsupported | .idempotencyKeyUnsupported => .unsupported
  | .operationVersionMismatch | .inputContractMismatch | .inputContentTypeMismatch
  | .invalidDeadline => .protocol

def publicRemoteEffect : CapabilityRemoteEffect → PlenoraErrorRemoteEffect
  | .notStarted => .none
  | .unknown => .unknown

def publicRetry (failure : CapabilityFailure) : PlenoraErrorRetry :=
  match failure.remoteEffect, failure.retryClass with
  | .unknown, _ | _, .outcomeUnknown => .requiresRecovery
  | _, .retryable => .safe
  | _, .permanent => .never
  | _, .deadLetter => .quarantine

namespace CapabilityDispatchError

/-- The category, phase, effect, retry advice and message that `public_error` reports when
the adapter supplied no public error of its own. -/
def publicParts : CapabilityDispatchError →
    PlenoraErrorCategory × PlenoraErrorPhase × PlenoraErrorRemoteEffect × PlenoraErrorRetry × Text
  | .unknownCapability .. =>
    (.unsupported, .validate, .none, .quarantine,
      utf8 "Requested runtime capability is not registered.")
  | .payloadTooLarge .. =>
    (.resourceLimit, .validate, .none, .quarantine,
      utf8 "Capability input exceeds the configured runtime bound.")
  | .incompatibleRequest _ _ reason =>
    (requestErrorCategory reason, .validate, .none, .quarantine,
      utf8 "Capability request is incompatible with discovery metadata.")
  | .deadlineExceeded _ _ false =>
    (.timeout, .prepare, .none, .never,
      utf8 "Capability deadline elapsed before invocation.")
  | .deadlineExceeded _ _ true =>
    (.timeout, .prepare, .unknown, .requiresRecovery,
      utf8 "Capability deadline elapsed after invocation may have begun.")
  | .incompatibleResponse _ _ .outputTooLarge =>
    (.resourceLimit, .finalize, .unknown, .requiresRecovery,
      utf8 "Capability result exceeds the configured runtime bound.")
  | .incompatibleResponse .. | .resultMetadata .. =>
    (.protocol, .finalize, .unknown, .requiresRecovery,
      utf8 "Capability result is incompatible with the runtime contract.")
  | .resultSinkUnavailable .. | .resultPublication .. | .resultPublicationUnknown .. =>
    (.io, .finalize, .unknown, .requiresRecovery,
      utf8 "Capability result publication was not confirmed.")
  | .handler _ _ false failure =>
    (.internal, .finalize, publicRemoteEffect failure.remoteEffect, publicRetry failure,
      utf8 "Legacy capability adapter failed without a public error mapping.")
  | .handler _ _ true _ =>
    (.protocol, .finalize, .unknown, .requiresRecovery,
      utf8 "Capability adapter omitted its required public error mapping.")

def publicError (error : CapabilityDispatchError) :
    Except PlenoraErrorValidationError PlenoraError :=
  match error with
  | .handler _ _ false { publicError := some publicError, .. } => .ok publicError
  | _ =>
    let (category, phase, effect, retry, message) := error.publicParts
    PlenoraError.new category phase effect retry message

end CapabilityDispatchError

/-! ## Configuration -/

def maxCapabilityPayloadBytes : ℕ := 64 * 1024 * 1024

structure CapabilityDispatcherConfig where
  maxPayloadBytes : ℕ := 1024 * 1024
  deriving DecidableEq, Repr

inductive CapabilityDispatcherConfigError
  | zeroPayloadBytes
  | payloadBytesAboveMaximum (requested maximum : ℕ)
  deriving DecidableEq, Repr

def CapabilityDispatcherConfig.new (maxPayloadBytes : ℕ) :
    Except CapabilityDispatcherConfigError CapabilityDispatcherConfig :=
  if maxPayloadBytes = 0 then .error .zeroPayloadBytes
  else if maxCapabilityPayloadBytes < maxPayloadBytes then
    .error (.payloadBytesAboveMaximum maxPayloadBytes maxCapabilityPayloadBytes)
  else .ok { maxPayloadBytes }

/-- `CapabilityDispatcher`; its constructors check the configuration again. -/
structure CapabilityDispatcher where
  registry : CapabilityRegistry
  config : CapabilityDispatcherConfig
  resultSink : Option CapabilityResultSink
  configured : CapabilityDispatcherConfig.new config.maxPayloadBytes = .ok config

/-! ## Deadlines -/

/-- `DateTime<FixedOffset>`: an instant and the offset it was written with, in seconds. -/
structure OffsetDateTime where
  instant : SystemTime
  localMinusUtc : ℤ
  deriving DecidableEq

section dispatch

-- `DateTime::parse_from_rfc3339`, whatever texts it takes.
variable (parseFromRfc3339 : Text → Option OffsetDateTime)

def requestDeadline (request : CapabilityRequest) :
    Except CapabilityRequestRejection (Option SystemTime) :=
  match request.input.headers.getText executionDeadlineMetadataKey with
  | .error _ => .error .invalidDeadline
  | .ok none => .ok none
  | .ok (some value) =>
    match parseFromRfc3339 value with
    | none => .error .invalidDeadline
    | some deadline =>
      if deadline.localMinusUtc ≠ 0 then .error .invalidDeadline
      else .ok (some deadline.instant)

/-! ## The handler -/

/-- What the dispatcher calls, and what it is answered. -/
inductive Event
  | invoke (adapter : CapabilityId) (context : WorkerContext) (request : CapabilityRequest)
  | answer (result : Except CapabilityFailure CapabilityResponse)
  | cancel (token : ℕ) (reason : TaskCancellationReason)
  | publish (result : CapabilityResult)
      (answer : Option (PublishResult CapabilityResultPublishError))

def CapabilityRegistration.expectedOutput (registration : CapabilityRegistration)
    (request : CapabilityRequest) : Option CapabilityPayload :=
  (registration.discovery.bind fun discovery =>
    discovery.operation request.operation request.operationVersion).map CapabilityOperation.output

namespace CapabilityDispatcher

variable (dispatcher : CapabilityDispatcher)

/-- The part of `complete_response` that checks an output against what is expected. -/
def checkOutput (expected : Option CapabilityPayload) (outputContract : ContractId)
    (output : SerializedMessage) : Except CapabilityResponseRejection Unit :=
  if dispatcher.config.maxPayloadBytes < output.len then .error .outputTooLarge
  else match expected with
    | none => .ok ()
    | some expected =>
      if expected.contract ≠ outputContract then .error .outputContractMismatch
      else if !expected.supportsContentType output.contentType then
        .error .outputContentTypeMismatch
      else .ok ()

/-- The end of `complete_response`: publishes a result through the sink. -/
def publishResult (capability : CapabilityId) (operation : OperationName)
    (result : CapabilityResult) : List Event × Option (Except CapabilityDispatchError Unit) :=
  match dispatcher.resultSink with
  | none => ([], some (.error (.resultSinkUnavailable capability operation)))
  | some sink =>
    let answer := sink result
    ([.publish result answer], answer.map fun
      | .ok .confirmed => .ok ()
      | .ok .outcomeUnknown => .error (.resultPublicationUnknown capability operation)
      | .error failure => .error (.resultPublication capability operation failure))

def completeResponse (capability : CapabilityId) (operation : OperationName)
    (operationVersion : OperationVersion) (correlationId : CorrelationId)
    (expected : Option CapabilityPayload) (response : CapabilityResponse) :
    List Event × Option (Except CapabilityDispatchError Unit) :=
  match response.intoParts with
  | none =>
    if expected.isSome then
      ([], some (.error (.incompatibleResponse capability operation .missingOutput)))
    else ([], some (.ok ()))
  | some (outputContract, output) =>
    match dispatcher.checkOutput expected outputContract output with
    | .error reason => ([], some (.error (.incompatibleResponse capability operation reason)))
    | .ok () =>
      match CapabilityResult.new operation operationVersion outputContract correlationId
          output with
      | .error failure => ([], some (.error (.resultMetadata capability operation failure)))
      | .ok result => dispatcher.publishResult capability operation result

/-- The part of `handle` before the invocation: the registration of the capability, and the
time that is left when the request has a deadline. -/
def admission (now : SystemTime) (request : CapabilityRequest) :
    Except CapabilityDispatchError (CapabilityRegistration × Option Duration) :=
  let capability := request.capability
  let operation := request.operation
  if dispatcher.config.maxPayloadBytes < request.input.len then
    .error (.payloadTooLarge capability operation request.input.len
      dispatcher.config.maxPayloadBytes)
  else match dispatcher.registry.registration capability with
    | none => .error (.unknownCapability capability operation)
    | some registration =>
      match registration.discovery.elim (.ok ()) (·.validateRequest request) with
      | .error reason => .error (.incompatibleRequest capability operation reason)
      | .ok () =>
        match requestDeadline parseFromRfc3339 request with
        | .error reason => .error (.incompatibleRequest capability operation reason)
        | .ok none => .ok (registration, none)
        | .ok (some deadline) =>
          match durationSince deadline now with
          | none => .error (.deadlineExceeded capability operation false)
          | some remaining => .ok (registration, some remaining)

/-- `CapabilityDispatcher::handle`, with `now` for what its clock shows. -/
def handle (now : SystemTime) (context : WorkerContext) (request : CapabilityRequest) :
    List Event × Option (Except CapabilityDispatchError Unit) :=
  let capability := request.capability
  let operation := request.operation
  match dispatcher.admission parseFromRfc3339 now request with
  | .error error => ([], some (.error error))
  | .ok (registration, remaining) =>
    let invoked := .invoke capability context request
    let invocation := registration.handler context request
    match remaining.elim invocation.await invocation.timeout with
    | .lost => ([invoked], none)
    | .elapsed =>
      ([invoked, .cancel context.cancellation .timeout],
        some (.error (.deadlineExceeded capability operation true)))
    | .completed (.error failure) =>
      let publicMappingMissing :=
        registration.discovery.isSome && failure.publicError.isNone
      ([invoked, .answer (.error failure)],
        some (.error (.handler capability operation publicMappingMissing failure)))
    | .completed (.ok response) =>
      let (events, returned) := dispatcher.completeResponse capability operation
        request.operationVersion context.task.correlationId
        (registration.expectedOutput request) response
      (invoked :: .answer (.ok response) :: events, returned)

end CapabilityDispatcher

end dispatch

end PlenoraRuntime.Capabilities
