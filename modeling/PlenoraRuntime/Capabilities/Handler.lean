import PlenoraRuntime.Capabilities.Discovery
import PlenoraRuntime.Capabilities.PublicError
import PlenoraRuntime.Worker.Executor

/-!
# Adapters, what they answer and what is published of it

An adapter is the function from a call to how the call goes: `Invocation` says how it
ends and whether a timer runs out on it first. The second is decided by the asynchronous
runtime, so it is an input here. Its failures carry what is known of the remote effect,
its responses an output or none.
-/

namespace PlenoraRuntime.Capabilities

open Messaging Worker

/-! ## Failures -/

inductive CapabilityRemoteEffect
  | notStarted
  | unknown
  deriving DecidableEq, Repr

/-- The certainty that a public error's effect comes down to. -/
def PlenoraErrorRemoteEffect.certainty : PlenoraErrorRemoteEffect → CapabilityRemoteEffect
  | .none => .notStarted
  | .rolledBack | .partially | .committed | .unknown => .unknown

/-- The class that a public error's retry advice comes down to. -/
def PlenoraErrorRetry.retryClass : PlenoraErrorRetry → RetryErrorClass
  | .never => .permanent
  | .quarantine => .deadLetter
  | .safe | .requiresIdempotencyKey | .after _ => .retryable
  | .requiresRecovery => .outcomeUnknown

/-- A failure as one of its two constructors leaves it. -/
structure CapabilityFailure where
  retryClass : RetryErrorClass
  remoteEffect : CapabilityRemoteEffect
  publicError : Option PlenoraError
  built : match publicError with
    | none => retryClass = .outcomeUnknown → remoteEffect = .unknown
    | some publicError => retryClass = publicError.retry.retryClass ∧
        remoteEffect = publicError.remoteEffect.certainty

namespace CapabilityFailure

def new (retryClass : RetryErrorClass) (remoteEffect : CapabilityRemoteEffect) :
    CapabilityFailure where
  retryClass := retryClass
  remoteEffect := if retryClass = .outcomeUnknown then .unknown else remoteEffect
  publicError := none
  built := fun hclass => if_pos hclass

def withPublicError (publicError : PlenoraError) : CapabilityFailure where
  retryClass := publicError.retry.retryClass
  remoteEffect := publicError.remoteEffect.certainty
  publicError := some publicError
  built := ⟨rfl, rfl⟩

end CapabilityFailure

/-! ## Responses and results -/

/-- What an adapter answers: an output under its contract, or neither. -/
structure CapabilityResponse where
  outputContract : Option ContractId
  output : Option SerializedMessage
  paired : outputContract.isSome = output.isSome
  deriving DecidableEq

namespace CapabilityResponse

def new (outputContract : ContractId) (output : SerializedMessage) : CapabilityResponse where
  outputContract := some outputContract
  output := some output
  paired := rfl

def acknowledged : CapabilityResponse where
  outputContract := none
  output := none
  paired := rfl

def intoParts (response : CapabilityResponse) : Option (ContractId × SerializedMessage) :=
  match response.outputContract, response.output with
  | some outputContract, some output => some (outputContract, output)
  | _, _ => none

/-- A response without parts has no output. -/
theorem intoParts_eq_none_iff {response : CapabilityResponse} :
    response.intoParts = none ↔ response.output = none := by
  obtain ⟨outputContract, output, hpaired⟩ := response
  cases outputContract <;> cases output <;> first | (cases hpaired; done) | simp [intoParts]

end CapabilityResponse

/-- The keys that a result removes from the headers of the output before it sets its own:
`CAPABILITY_NAME_METADATA_KEY`, `CAPABILITY_VERSION_METADATA_KEY` and so on, in the order of
the source. -/
def reservedResultKeys : List Text :=
  [utf8 "plenora.capability.name", utf8 "plenora.capability.version",
    utf8 "plenora.capability.operation", utf8 "plenora.input.contract",
    utf8 "plenora.operation.version", utf8 "plenora.output.contract",
    utf8 "plenora.trace.correlation_id"]

structure CapabilityResult where
  operation : OperationName
  operationVersion : OperationVersion
  outputContract : ContractId
  correlationId : CorrelationId
  message : SerializedMessage
  deriving DecidableEq

inductive CapabilityResultBuildError
  | metadata (error : MetadataKeyError)
  deriving DecidableEq

namespace CapabilityResult

variable (operation : OperationName) (operationVersion : OperationVersion)
  (outputContract : ContractId) (correlationId : CorrelationId) (message : SerializedMessage)

def headers : Except MetadataKeyError MessageMetadata := do
  let headers := reservedResultKeys.foldl (fun headers key => (headers.remove key).1)
    message.headers
  let (headers, _) ← headers.insertText (utf8 "plenora.capability.operation") operation.value
  let (headers, _) ← headers.insertText (utf8 "plenora.operation.version")
    (decimal operationVersion.value.toNat)
  let (headers, _) ← headers.insertText (utf8 "plenora.output.contract") outputContract.value
  let (headers, _) ← headers.insertText (utf8 "plenora.trace.correlation_id")
    (hyphenated correlationId.uuid)
  pure headers

def new : Except CapabilityResultBuildError CapabilityResult :=
  match headers operation operationVersion outputContract correlationId message with
  | .error error => .error (.metadata error)
  | .ok headers =>
    .ok { operation, operationVersion, outputContract, correlationId
          message := { message with headers } }

end CapabilityResult

/-! ## Parties -/

/-- How an invocation goes. `elapses remaining` is what `tokio::time::timeout` answers for
a future that ends: its timer of `remaining` ran out before a poll found the end. A timer
runs out on a future that never ends. -/
inductive Invocation
  | completes (elapses : Duration → Bool) (result : Except CapabilityFailure CapabilityResponse)
  | panics (elapses : Duration → Bool)
  | stalls

/-- What awaiting an invocation comes to. It is lost when it never completes or unwinds:
the call that awaits it does not return. -/
inductive Awaited
  | completed (result : Except CapabilityFailure CapabilityResponse)
  | elapsed
  | lost

namespace Invocation

/-- `invocation.await`. -/
def await : Invocation → Awaited
  | .completes _ result => .completed result
  | .panics _ | .stalls => .lost

/-- `timeout(remaining, invocation).await`. -/
def timeout (remaining : Duration) : Invocation → Awaited
  | .completes elapses result => if elapses remaining then .elapsed else .completed result
  | .panics elapses => if elapses remaining then .elapsed else .lost
  | .stalls => .elapsed

end Invocation

/-- `CapabilityHandler`, by what its `invoke` does. -/
abbrev CapabilityHandler := WorkerContext → CapabilityRequest → Invocation

/-- `CapabilityResultPublishError`, by the text of its source. -/
structure CapabilityResultPublishError where
  source : Text
  deriving DecidableEq

/-- `CapabilityResultSink`, by what its `publish_result` answers, if it ever does. -/
abbrev CapabilityResultSink :=
  CapabilityResult → Option (PublishResult CapabilityResultPublishError)

structure CapabilityRegistration where
  handler : CapabilityHandler
  discovery : Option CapabilityDiscovery

structure CapabilityRegistry where
  registrations : List (CapabilityId × CapabilityRegistration)
  nodup : (registrations.map Prod.fst).Nodup

def CapabilityRegistry.registration (registry : CapabilityRegistry) (capability : CapabilityId) :
    Option CapabilityRegistration :=
  (Keyed.lookup Prod.fst capability registry.registrations).map Prod.snd

end PlenoraRuntime.Capabilities
