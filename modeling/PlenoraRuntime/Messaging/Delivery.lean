import PlenoraRuntime.Messaging.Message

/-!
# Deliveries and dead letters

A delivery carries its acknowledger. What the acknowledger answers is part of the
delivery; that `ack` and `nack` consume it is for the code that calls them to show.
-/

namespace PlenoraRuntime.Messaging

/-- How a delivery that was not processed is handed back. -/
inductive NackReason
  | retryable
  | retryAfter (delay : Duration)
  | permanent
  | shutdown
  | consumerRejected
  deriving DecidableEq, Repr

/-- The broker drops the message for good. -/
def NackReason.terminates : NackReason → Bool
  | .permanent | .consumerRejected => true
  | .retryable | .retryAfter _ | .shutdown => false

inductive AckOperation
  | ack
  | nack
  | heartbeat
  deriving DecidableEq, Repr

structure AckError where
  operation : AckOperation
  message : Text
  deriving DecidableEq

inductive DeliveryHeartbeatConfigError
  | zeroInterval
  | zeroFailureLimit
  deriving DecidableEq, Repr

structure DeliveryHeartbeatConfig where
  interval : Duration
  maxConsecutiveFailures : Fin (2 ^ 32)
  interval_pos : 0 < interval
  failures_pos : 0 < maxConsecutiveFailures.val

def DeliveryHeartbeatConfig.new (interval : Duration) (maxConsecutiveFailures : Fin (2 ^ 32)) :
    Except DeliveryHeartbeatConfigError DeliveryHeartbeatConfig :=
  if hinterval : interval = 0 then .error .zeroInterval
  else if hfails : maxConsecutiveFailures.val = 0 then .error .zeroFailureLimit
  else .ok
    { interval
      maxConsecutiveFailures
      interval_pos := Nat.pos_of_ne_zero hinterval
      failures_pos := Nat.pos_of_ne_zero hfails }

/-- What the acknowledger of a delivery answers. -/
structure DeliveryAcknowledger where
  ack : Except AckError Unit
  nack : NackReason → Except AckError Unit

structure Delivery where
  message : SerializedMessage
  attempt : ℕ
  brokerMetadata : MessageMetadata
  heartbeat : Option DeliveryHeartbeatConfig
  acknowledger : DeliveryAcknowledger

structure DeadLetter where
  message : SerializedMessage
  reason : Text
  attempts : ℕ
  failedAt : UtcDateTime

inductive DeadLetterPublishErrorKind
  | metadata
  | publication
  deriving DecidableEq, Repr

structure DeadLetterPublishError where
  kind : DeadLetterPublishErrorKind
  deriving DecidableEq, Repr

end PlenoraRuntime.Messaging
