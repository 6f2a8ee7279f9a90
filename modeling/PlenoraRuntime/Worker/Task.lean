import PlenoraRuntime.Messaging.Message

/-!
# Tasks: cancellation, lifecycle and errors

What one execution reports and how it ends. A task's lifecycle is kept behind a
lock, so each function here is atomic: it takes the state of the reporter to its next
state and the event the observer receives.
-/

namespace PlenoraRuntime.Worker

open Messaging

/-! ## Cancellation -/

inductive TaskCancellationReason
  | timeout
  | leaseLost
  | requested
  | executionDropped
  | runtimeShutdown
  | workerDraining
  | controlCapacityUnavailable
  | admissionPaused
  deriving DecidableEq, Repr

/-- The reason a cancellation token holds, if it is cancelled. -/
abbrev TokenState := Option TaskCancellationReason

/-- `TaskCancellationToken::cancel`: the first reason stays. -/
def TokenState.cancel (token : TokenState) (reason : TaskCancellationReason) : TokenState × Bool :=
  match token with
  | none => (some reason, true)
  | some first => (some first, false)

/-! ## Lifecycle -/

inductive TaskState
  | queued
  | running
  | succeeded
  | failed
  | cancelled (reason : TaskCancellationReason)
  | timedOut
  deriving DecidableEq, Repr

def TaskState.isTerminal : TaskState → Bool
  | .queued | .running => false
  | .succeeded | .failed | .cancelled _ | .timedOut => true

abbrev U64 := Fin (2 ^ 64)

inductive TaskProgressError
  | completedExceedsTotal
  | taskAlreadyTerminal
  | sequenceExhausted
  deriving DecidableEq, Repr

structure TaskProgress where
  completedUnits : U64
  totalUnits : Option { total : U64 // total ≠ 0 }
  completed_le : ∀ total ∈ totalUnits, completedUnits ≤ total.val

def TaskProgress.new (completedUnits : U64) (totalUnits : Option { total : U64 // total ≠ 0 }) :
    Except TaskProgressError TaskProgress :=
  if h : ∀ total ∈ totalUnits, completedUnits ≤ total.val then
    .ok { completedUnits, totalUnits, completed_le := h }
  else .error .completedExceedsTotal

inductive TaskLifecycleEventKind
  | stateChanged (state : TaskState)
  | progress (progress : TaskProgress)
  | heartbeat (progress : Option TaskProgress)

structure TaskLifecycleEvent where
  messageId : MessageId
  correlationId : CorrelationId
  attempt : ℕ
  sequence : ℕ
  observedAt : SystemTime
  kind : TaskLifecycleEventKind

/-- Whom a reporter reports about. -/
structure TaskIdentity where
  messageId : MessageId
  correlationId : CorrelationId
  attempt : ℕ

structure LifecycleState where
  current : TaskState := .queued
  sequence : ℕ := 0
  latestProgress : Option TaskProgress := none

namespace LifecycleState

variable (state : LifecycleState) (task : TaskIdentity) (now : SystemTime)

/-- `record_locked`: numbers the event, unless the numbers are used up. -/
def record (kind : TaskLifecycleEventKind) :
    LifecycleState × Except TaskProgressError TaskLifecycleEvent :=
  let sequence := state.sequence + 1
  if sequence ≤ Word.maxValue 64 then
    ({ state with sequence },
      .ok
        { messageId := task.messageId
          correlationId := task.correlationId
          attempt := task.attempt
          sequence
          observedAt := now
          kind })
  else (state, .error .sequenceExhausted)

/-- `TaskProgressReporter::start`: a new reporter announces the queued task. -/
def start : LifecycleState × Except TaskProgressError TaskLifecycleEvent :=
  record {} task now (.stateChanged .queued)

/-- `transition`: a terminal state is not left, and nothing is reported then. -/
def transition (next : TaskState) : LifecycleState × Option TaskLifecycleEvent :=
  if state.current.isTerminal then (state, none)
  else
    let (state, recorded) := { state with current := next }.record task now (.stateChanged next)
    (state, recorded.toOption)

def report (progress : TaskProgress) :
    LifecycleState × Except TaskProgressError TaskLifecycleEvent :=
  if state.current.isTerminal then (state, .error .taskAlreadyTerminal)
  else { state with latestProgress := some progress }.record task now (.progress progress)

def heartbeat : LifecycleState × Except TaskProgressError TaskLifecycleEvent :=
  if state.current.isTerminal then (state, .error .taskAlreadyTerminal)
  else state.record task now (.heartbeat state.latestProgress)

end LifecycleState

/-! ## Configuration -/

inductive WorkerConfigError
  | zeroMaxInFlight
  | zeroShutdownGracePeriod
  | zeroExecutionTimeout
  | zeroTaskCancellationGracePeriod
  | zeroLifecycleHeartbeatInterval
  deriving DecidableEq, Repr

structure WorkerConcurrency where
  maxInFlight : Usize := 1

structure WorkerConfig where
  concurrency : WorkerConcurrency := {}
  shutdownGracePeriod : Duration := 30 * 10 ^ 9
  executionTimeout : Option Duration := none
  taskCancellationGracePeriod : Duration := 10 ^ 9
  timeoutRetryDecision : RetryDecision := .doNotRetry
  lifecycleHeartbeatInterval : Option Duration := none

def WorkerConfig.validate (config : WorkerConfig) : Except WorkerConfigError Unit :=
  if config.concurrency.maxInFlight = 0 then .error .zeroMaxInFlight
  else if config.shutdownGracePeriod = 0 then .error .zeroShutdownGracePeriod
  else if config.executionTimeout = some 0 then .error .zeroExecutionTimeout
  else if config.taskCancellationGracePeriod = 0 then .error .zeroTaskCancellationGracePeriod
  else if config.lifecycleHeartbeatInterval = some 0 then .error .zeroLifecycleHeartbeatInterval
  else .ok ()

theorem WorkerConfig.validate_default : ({} : WorkerConfig).validate = .ok () :=
  rfl

/-! ## Errors -/

inductive WorkerAdmissionReason
  | draining
  | shutdownRequested
  | controlCapacityUnavailable
  | paused
  deriving DecidableEq, Repr

/-- How an execution fails, for handler errors `E`. -/
inductive WorkerExecutionError (E : Type*)
  | admission (reason : WorkerAdmissionReason)
  | handler (source : E) (retryDecision : RetryDecision)
  | timedOut (timeout : Duration) (retryDecision : RetryDecision)
  | cancelled (reason : TaskCancellationReason)

inductive WorkerExecutionPhase
  | admission
  | handling
  deriving DecidableEq, Repr

inductive WorkerRemoteEffect
  | notStarted
  | unknown
  deriving DecidableEq, Repr

namespace WorkerExecutionError

variable {E : Type*}

def phase : WorkerExecutionError E → WorkerExecutionPhase
  | .admission _ => .admission
  | .handler _ _ | .timedOut _ _ | .cancelled _ => .handling

def remoteEffect : WorkerExecutionError E → WorkerRemoteEffect
  | .admission _ => .notStarted
  | .handler _ _ | .timedOut _ _ | .cancelled _ => .unknown

def retryDecision : WorkerExecutionError E → Option RetryDecision
  | .admission _ | .cancelled _ => none
  | .handler _ decision | .timedOut _ decision => some decision

def admissionReason : WorkerExecutionError E → Option WorkerAdmissionReason
  | .admission reason => some reason
  | .handler _ _ | .timedOut _ _ | .cancelled _ => none

def cancellationReason : WorkerExecutionError E → Option TaskCancellationReason
  | .cancelled reason => some reason
  | .admission _ | .handler _ _ | .timedOut _ _ => none

end WorkerExecutionError

end PlenoraRuntime.Worker
