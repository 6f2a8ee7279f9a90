import PlenoraRuntime.Apalis.Lease
import PlenoraRuntime.Apalis.Offered
import PlenoraRuntime.Apalis.Settlement
import PlenoraRuntime.Capabilities.Codec
import PlenoraRuntime.Capabilities.HandlerErrors
import PlenoraRuntime.Capabilities.Limits
import PlenoraRuntime.Capabilities.Negotiation
import PlenoraRuntime.Capabilities.RetryAdvice
import PlenoraRuntime.Capabilities.Schema
import PlenoraRuntime.Control.Authorization
import PlenoraRuntime.Core.CriticalFailure
import PlenoraRuntime.Http.Cookies
import PlenoraRuntime.Messaging.Backoff
import PlenoraRuntime.Messaging.DeadLetters
import PlenoraRuntime.Nats.IterationOrder
import PlenoraRuntime.Observability.Propagation
import PlenoraRuntime.Outbox.Attempts
import PlenoraRuntime.Outbox.Sequence
import PlenoraRuntime.Resources.Concurrent
import PlenoraRuntime.Resources.SharedGate
import PlenoraRuntime.Scheduler.AtMostOnce
import PlenoraRuntime.Scheduler.Backlog
import PlenoraRuntime.Scheduler.Cursor
import PlenoraRuntime.Scheduler.Plans
import PlenoraRuntime.Scheduler.Restart
import PlenoraRuntime.Scheduler.Saturation
import PlenoraRuntime.Subprocess.Capture
import PlenoraRuntime.Subprocess.Containment
import PlenoraRuntime.Testkit.Delays
import PlenoraRuntime.Worker.Admission
import PlenoraRuntime.Worker.Cancellation
import PlenoraRuntime.Worker.Instance
import PlenoraRuntime.Worker.Reasons
import PlenoraRuntime.Worker.RemoteEffect
import PlenoraRuntime.Worker.RetryBudget
