import PlenoraRuntime.Messaging.Delivery
import PlenoraRuntime.Worker.Executor

/-!
# The broker bridge

`BrokerDeliveryService::execute` decodes one delivery, runs it on the worker and
settles it. Its model is a function of what the parties answer: the decoder, the
heartbeats, the worker, the dead-letter sink and the acknowledger. It returns the
result together with the calls it made and their answers, in order.

The heartbeat loop sees the execution through `Course`: the answers to the heartbeats
that are sent before the execution completes, and how it completes.
-/

namespace PlenoraRuntime.Apalis

open Messaging Worker

/-! ## Outcomes -/

def defaultPausedAdmissionRetryDelay : Duration :=
  10 ^ 9

inductive ApalisDisposition
  | completed
  | retryAfter (delay : Duration)
  | doNotRetry
  | deadLetter
  | shutdown (reason : WorkerAdmissionReason)
  deriving DecidableEq, Repr

def dispositionFor {E : Type*} (error : WorkerExecutionError E) : ApalisDisposition :=
  match error.admissionReason with
  | some reason =>
    if reason = .paused then .retryAfter defaultPausedAdmissionRetryDelay
    else .shutdown reason
  | none =>
    match error.retryDecision with
    | some (.retryAfter delay) => .retryAfter delay
    | some .doNotRetry | none => .doNotRetry
    | some .deadLetter => .deadLetter

inductive ApalisExecutionOutcome (E : Type*)
  | completed
  | failed (disposition : ApalisDisposition) (error : WorkerExecutionError E)

namespace ApalisExecutionOutcome

variable {E : Type*}

def fromWorkerResult : ExecutionResult E → ApalisExecutionOutcome E
  | .ok () => .completed
  | .error error => .failed (dispositionFor error) error

def disposition : ApalisExecutionOutcome E → ApalisDisposition
  | .completed => .completed
  | .failed disposition _ => disposition

end ApalisExecutionOutcome

/-! ## Errors -/

inductive BrokerWorkerErrorKind
  | decode
  | metadata
  | settlement
  | decodeSettlement
  | metadataSettlement
  | heartbeat
  | heartbeatSettlement
  | deadLetterUnavailable
  | deadLetterPublish
  | deadLetterOutcomeUnknown
  | deadLetterSettlement
  deriving DecidableEq, Repr

structure BrokerWorkerError (D : Type*) where
  kind : BrokerWorkerErrorKind
  decoder : Option D := none
  metadata : Option MetadataKeyError := none
  heartbeat : Option AckError := none
  deadLetter : Option DeadLetterPublishError := none
  acknowledgement : Option AckError := none

namespace BrokerWorkerError

variable {D : Type*}

def ofDecode (error : D) : BrokerWorkerError D :=
  { kind := .decode, decoder := some error }

def ofMetadata (error : MetadataKeyError) : BrokerWorkerError D :=
  { kind := .metadata, metadata := some error }

def settlement (error : AckError) : BrokerWorkerError D :=
  { kind := .settlement, acknowledgement := some error }

def decodeSettlement (decoder : D) (acknowledgement : AckError) : BrokerWorkerError D :=
  { kind := .decodeSettlement, decoder := some decoder, acknowledgement := some acknowledgement }

def metadataSettlement (metadata : MetadataKeyError) (acknowledgement : AckError) :
    BrokerWorkerError D :=
  { kind := .metadataSettlement
    metadata := some metadata
    acknowledgement := some acknowledgement }

def ofHeartbeat (error : AckError) : BrokerWorkerError D :=
  { kind := .heartbeat, heartbeat := some error }

def heartbeatSettlement (heartbeat acknowledgement : AckError) : BrokerWorkerError D :=
  { kind := .heartbeatSettlement
    heartbeat := some heartbeat
    acknowledgement := some acknowledgement }

def deadLetterUnavailable : BrokerWorkerError D :=
  { kind := .deadLetterUnavailable }

def deadLetterPublish (error : DeadLetterPublishError) : BrokerWorkerError D :=
  { kind := .deadLetterPublish, deadLetter := some error }

def deadLetterOutcomeUnknown : BrokerWorkerError D :=
  { kind := .deadLetterOutcomeUnknown }

def deadLetterSettlement (error : AckError) : BrokerWorkerError D :=
  { kind := .deadLetterSettlement, acknowledgement := some error }

end BrokerWorkerError

/-! ## The service -/

structure DecodedWorkerMessage (T : Type*) where
  identity : WorkerContextIdentity
  message : T

structure ApalisJob (T : Type*) where
  context : WorkerContext
  message : T

/-- How an execution goes: what the heartbeats sent before it completes are answered, and
what the worker returns. -/
structure Course (E : Type*) where
  heartbeats : List (Except AckError Unit) := []
  result : ExecutionResult E

/-- `BrokerDeliveryService`, as the answers of its parts: payloads `T`, decoder errors `D`
and handler errors `E`. -/
structure BrokerDeliveryService (T D E : Type*) where
  decode : SerializedMessage → Except D (DecodedWorkerMessage T)
  worker : ApalisJob T → Course E
  shutdown : ℕ
  deadLetterSink : Option (DeadLetter → PublishResult DeadLetterPublishError)
  now : SystemTime

/-- What the service calls, and what it is answered. -/
inductive Event (T E : Type*)
  | execute (job : ApalisJob T)
  | executed (result : ExecutionResult E)
  | heartbeat (answer : Except AckError Unit)
  | cancel (reason : TaskCancellationReason)
  | publishDeadLetter (deadLetter : DeadLetter) (answer : PublishResult DeadLetterPublishError)
  | ack (answer : Except AckError Unit)
  | nack (reason : NackReason) (answer : Except AckError Unit)

/-- `combined_metadata`: the broker's headers replace the message's own. -/
def combinedMetadata (delivery : Delivery) : Except MetadataKeyError MessageMetadata :=
  delivery.brokerMetadata.entries.foldlM
    (fun metadata entry => (metadata.insert entry.1 entry.2).map Prod.fst) delivery.message.headers

section service

variable {T D E : Type*}

/-- The loop of `execute_with_heartbeat` after the given number of failures in a row. -/
def heartbeatLoop (maxConsecutiveFailures : ℕ) (result : ExecutionResult E) :
    ℕ → List (Except AckError Unit) → List (Event T E) × Except AckError (ExecutionResult E)
  | _, [] => ([.executed result], .ok result)
  | _, .ok () :: rest =>
    let (events, returned) := heartbeatLoop maxConsecutiveFailures result 0 rest
    (.heartbeat (.ok ()) :: events, returned)
  | failures, .error error :: rest =>
    let failures := saturatingAddU32 failures 1
    if maxConsecutiveFailures ≤ failures then
      ([.heartbeat (.error error), .cancel .leaseLost], .error error)
    else
      let (events, returned) := heartbeatLoop maxConsecutiveFailures result failures rest
      (.heartbeat (.error error) :: events, returned)

def executeWithHeartbeat (course : Course E) (config : DeliveryHeartbeatConfig) :
    List (Event T E) × Except AckError (ExecutionResult E) :=
  heartbeatLoop config.maxConsecutiveFailures.val course.result 0 course.heartbeats

/-- `nack`s the delivery and returns `failed`, or `unsettled` when that fails too. -/
def rejectWith (delivery : Delivery) (reason : NackReason) (failed : BrokerWorkerError D)
    (unsettled : AckError → BrokerWorkerError D) :
    List (Event T E) × Except (BrokerWorkerError D) (ApalisExecutionOutcome E) :=
  let answer := delivery.acknowledger.nack reason
  match answer with
  | .ok () => ([.nack reason answer], .error failed)
  | .error acknowledgement => ([.nack reason answer], .error (unsettled acknowledgement))

def rejectDecode (delivery : Delivery) (error : D) :
    List (Event T E) × Except (BrokerWorkerError D) (ApalisExecutionOutcome E) :=
  rejectWith delivery .consumerRejected (.ofDecode error) (.decodeSettlement error)

def rejectMetadata (delivery : Delivery) (error : MetadataKeyError) :
    List (Event T E) × Except (BrokerWorkerError D) (ApalisExecutionOutcome E) :=
  rejectWith delivery .consumerRejected (.ofMetadata error) (.metadataSettlement error)

def rejectHeartbeat (delivery : Delivery) (heartbeat : AckError) :
    List (Event T E) × Except (BrokerWorkerError D) (ApalisExecutionOutcome E) :=
  rejectWith delivery .retryable (.ofHeartbeat heartbeat) (.heartbeatSettlement heartbeat)

namespace BrokerDeliveryService

variable (service : BrokerDeliveryService T D E) (delivery : Delivery)

def publishDeadLetter : List (Event T E) × Except (BrokerWorkerError D) Unit :=
  match service.deadLetterSink with
  | none => ([], .error .deadLetterUnavailable)
  | some sink =>
    let deadLetter :=
      { message := delivery.message
        reason := utf8 "handler_failed"
        attempts := delivery.attempt
        failedAt := service.now }
    let answer := sink deadLetter
    let published := .publishDeadLetter deadLetter answer
    match answer with
    | .ok .confirmed =>
      let settled := delivery.acknowledger.nack .permanent
      ([published, .nack .permanent settled], settled.mapError .deadLetterSettlement)
    | .ok .outcomeUnknown => ([published], .error .deadLetterOutcomeUnknown)
    | .error error => ([published], .error (.deadLetterPublish error))

def nackWith (reason : NackReason) : List (Event T E) × Except (BrokerWorkerError D) Unit :=
  let answer := delivery.acknowledger.nack reason
  ([.nack reason answer], answer.mapError .settlement)

def settleDelivery (disposition : ApalisDisposition) :
    List (Event T E) × Except (BrokerWorkerError D) Unit :=
  match disposition with
  | .completed =>
    let answer := delivery.acknowledger.ack
    ([.ack answer], answer.mapError .settlement)
  | .retryAfter delay => nackWith delivery (.retryAfter delay)
  | .doNotRetry => nackWith delivery .permanent
  | .shutdown _ => nackWith delivery .shutdown
  | .deadLetter => service.publishDeadLetter delivery

def settleResult (result : ExecutionResult E) :
    List (Event T E) × Except (BrokerWorkerError D) (ApalisExecutionOutcome E) :=
  let outcome := ApalisExecutionOutcome.fromWorkerResult result
  let (events, settled) := service.settleDelivery delivery outcome.disposition
  (events, settled.map fun () => outcome)

def runJob (job : ApalisJob T) : List (Event T E) × Except AckError (ExecutionResult E) :=
  let course := service.worker job
  match delivery.heartbeat with
  | some config => executeWithHeartbeat course config
  | none => ([.executed course.result], .ok course.result)

/-- `BrokerDeliveryService::execute`, with `cancellation` for the handle of the new token. -/
def execute (cancellation : ℕ) :
    List (Event T E) × Except (BrokerWorkerError D) (ApalisExecutionOutcome E) :=
  match service.decode delivery.message with
  | .error error => rejectDecode delivery error
  | .ok decoded =>
    match combinedMetadata delivery with
    | .error error => rejectMetadata delivery error
    | .ok metadata =>
      let context := .fromIdentity decoded.identity delivery.attempt metadata
        service.shutdown cancellation
      let job := { context, message := decoded.message }
      let (ran, executed) := service.runJob delivery job
      let (settled, returned) := match executed with
        | .ok result => service.settleResult delivery result
        | .error error => rejectHeartbeat delivery error
      (.execute job :: (ran ++ settled), returned)

end BrokerDeliveryService

end service

end PlenoraRuntime.Apalis
