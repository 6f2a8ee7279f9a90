import PlenoraRuntime.Core.Time
import PlenoraRuntime.Messaging.Metadata

/-!
# Messages, their publication and their retries
-/

namespace PlenoraRuntime.Messaging

structure MessageId where
  uuid : Uuid
  deriving DecidableEq

structure CorrelationId where
  uuid : Uuid
  deriving DecidableEq

structure CausationId where
  uuid : Uuid
  deriving DecidableEq

structure SerializedMessage where
  contentType : Text
  bytes : Bytes
  headers : MessageMetadata
  deriving DecidableEq

def SerializedMessage.new (contentType : Text) (bytes : Bytes) : SerializedMessage where
  contentType := contentType
  bytes := bytes
  headers := .new

def SerializedMessage.len (message : SerializedMessage) : ℕ :=
  message.bytes.length

inductive PublishOutcome
  | confirmed
  | outcomeUnknown
  deriving DecidableEq, Repr

/-- What a `MessageProducer` with errors `E` answers. -/
abbrev PublishResult (E : Type*) := Except E PublishOutcome

/-- How an error asks to be retried. -/
inductive RetryErrorClass
  | retryable
  | permanent
  | deadLetter
  | outcomeUnknown
  deriving DecidableEq, Repr

inductive RetryDecision
  | retryAfter (delay : Duration)
  | doNotRetry
  | deadLetter
  deriving DecidableEq, Repr

end PlenoraRuntime.Messaging
