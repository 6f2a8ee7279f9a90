import PlenoraRuntime.Foundation.Machine
import PlenoraRuntime.Worker.Registry

/-!
# The worker executor

Any number of `execute` calls, `begin_drain` and `drain` calls on clones and handles
of one `WorkerExecutor`, under every interleaving. What the clones share is the
`State`: the lifecycle behind its lock, the semaphore, the registry of active tasks
and the cancellation tokens. One step accesses the shared state once, so two
accesses of the source that another thread can come between are two steps here.

`Phase` says where an execution is. When it returns, is dropped or panics, its
guards go out of scope innermost first: the task's registration, the in-flight count,
the permit and the execution guard. `Phase.scope` lists that glue as a sequence of
`Op`s, which `leaving` performs one at a time.

Tokio's semaphore is modelled by the number of permits it has left. Whether a waiter
is granted one of them is an input of the poll.
-/

namespace PlenoraRuntime.Worker

open Messaging Transition

/-! ## Shared state -/

inductive WorkerAdmissionState
  | accepting
  | paused
  | draining
  deriving DecidableEq, Repr

/-- `tokio::sync::Semaphore`. -/
structure Semaphore where
  available : ℕ
  closed : Bool := false

/-- A validated configuration and the retry policy. -/
structure Executor (E : Type*) where
  config : WorkerConfig
  retryPolicy : ℕ → E → RetryDecision
  valid : config.validate = .ok ()

/-- The number of permits, which is also the capacity of the registry. -/
def Executor.maxInFlight {E : Type*} (executor : Executor E) : ℕ :=
  executor.config.concurrency.maxInFlight.val

theorem Executor.maxInFlight_le {E : Type*} (executor : Executor E) :
    executor.maxInFlight ≤ usizeMax :=
  Nat.le_sub_one_of_lt executor.config.concurrency.maxInFlight.isLt

/-- What an execution is called with. `shutdown` and `cancellation` are handles;
contexts may share them. -/
structure WorkerContext where
  task : TaskIdentity
  causationId : Option CausationId
  metadata : MessageMetadata
  shutdown : ℕ
  cancellation : ℕ

structure WorkerContextIdentity where
  messageId : MessageId
  correlationId : CorrelationId
  causationId : Option CausationId

/-- `WorkerContext::from_identity`, with the token of `with_cancellation`. -/
def WorkerContext.fromIdentity (identity : WorkerContextIdentity) (attempt : ℕ)
    (metadata : MessageMetadata) (shutdown cancellation : ℕ) : WorkerContext where
  task :=
    { messageId := identity.messageId
      correlationId := identity.correlationId
      attempt }
  causationId := identity.causationId
  metadata := metadata
  shutdown := shutdown
  cancellation := cancellation

/-! ## Executions -/

/-- One access of the code that runs when an execution leaves. -/
inductive Op
  /-- `TaskCancellationToken::cancel`, the answer ignored. -/
  | cancel (reason : TaskCancellationReason)
  /-- `TaskProgressReporter::transition`. -/
  | transition (state : TaskState)
  /-- `ActiveTaskGuard::drop`. -/
  | deregister (taskId : WorkerTaskId)
  /-- `InFlightGuard::drop`: the count. -/
  | finish
  /-- `InFlightGuard::drop`: the notification. -/
  | notify
  /-- The permit goes back to the semaphore. -/
  | release
  /-- `ExecutionGuard::drop`, when the guard was not completed. -/
  | dropGuard
  deriving DecidableEq, Repr

/-- Why a running handler is given up. -/
inductive Stop
  | cancelled (reason : TaskCancellationReason)
  | deadline (timeout : Duration) (observed : TaskCancellationReason)

abbrev ExecutionResult (E : Type*) := Except (WorkerExecutionError E) Unit

inductive Phase (E : Type*)
  | created
  /-- About to check for shutdown. -/
  | checking
  /-- About to check the admission state. -/
  | gating
  /-- Waiting for a permit; about to check for shutdown. -/
  | waiting
  /-- Waiting for a permit; about to check for cancellation. -/
  | polling
  /-- About to ask the semaphore. -/
  | acquiring
  /-- The semaphore is closed; about to read the admission state for the reason. -/
  | closed
  /-- Holds a permit; about to check for shutdown again. -/
  | acquired
  /-- About to check for cancellation again. -/
  | confirming
  /-- About to `try_start`. -/
  | starting
  /-- `try_start` failed; about to read the admission state for the reason. -/
  | refused
  /-- In flight; about to register the task. -/
  | registering
  /-- Registered; about to report the running task. -/
  | entering (taskId : WorkerTaskId)
  /-- About to call the handler. -/
  | invoking (taskId : WorkerTaskId)
  /-- About to poll the handler. -/
  | handling (taskId : WorkerTaskId)
  /-- The handler is pending; about to check for cancellation and the timers. -/
  | watching (taskId : WorkerTaskId)
  /-- About to report a heartbeat. -/
  | beating (taskId : WorkerTaskId)
  /-- The handler completed; about to check for cancellation. -/
  | handled (taskId : WorkerTaskId) (result : Except E Unit)
  /-- About to report the failed task. -/
  | failing (taskId : WorkerTaskId) (source : E)
  /-- About to ask the retry policy. -/
  | deciding (taskId : WorkerTaskId) (source : E)
  /-- The deadline elapsed; about to cancel the task. -/
  | expired (taskId : WorkerTaskId) (timeout : Duration)
  /-- Gives the handler time to clean up. -/
  | cleaning (taskId : WorkerTaskId) (stop : Stop)
  /-- Runs the rest of its code; without an outcome when it was dropped or panicked. -/
  | leaving (ops : List Op) (outcome : Option (ExecutionResult E))
  | done

/-- The guards in scope, in the order in which they are dropped, but for the execution
guard. -/
def Phase.scope {E : Type*} : Phase E → List Op
  | .acquired | .confirming | .starting | .refused => [.release]
  | .registering => [.finish, .notify, .release]
  | .entering taskId | .invoking taskId | .handling taskId | .watching taskId | .beating taskId
  | .handled taskId _ | .failing taskId _ | .deciding taskId _ | .expired taskId _
  | .cleaning taskId _ => [.deregister taskId, .finish, .notify, .release]
  | .leaving ops _ => ops
  | .created | .checking | .gating | .waiting | .polling | .acquiring | .closed | .done => []

structure Execution (E : Type*) where
  context : WorkerContext
  reporter : LifecycleState := {}
  phase : Phase E := .created

/-! ## Drains -/

inductive WorkerDrainOutcome
  | completed
  | timedOut (remainingInFlight : ℕ)
  deriving DecidableEq, Repr

/-- Where a call of `begin_drain` or `drain` is. -/
inductive DrainPhase
  /-- About to close admission. -/
  | starting
  /-- Closed admission; about to close the semaphore. -/
  | closing
  /-- About to read the in-flight count. -/
  | checking
  /-- About to listen for changes of the count. -/
  | listening
  /-- Heard `seen` notifications; about to read the count. -/
  | reading (seen : ℕ)
  /-- Waits for the next notification or the end of the grace period. -/
  | waiting (seen : ℕ)
  /-- The grace period elapsed; about to read the count. -/
  | expired
  | done
  deriving DecidableEq, Repr

/-- A call of `begin_drain`, or of `drain` when it waits. -/
structure Drain where
  waits : Bool
  phase : DrainPhase := .starting
  deriving DecidableEq, Repr

/-! ## Steps -/

/-- The executor's shared state, and the calls on it. -/
structure State (E : Type*) where
  admission : WorkerAdmissionState := .accepting
  inFlight : ℕ := 0
  permits : Semaphore
  notifications : ℕ := 0
  registry : ActiveTaskRegistryState := {}
  executions : List (Execution E) := []
  drains : List Drain := []
  tokens : ℕ → TokenState := fun _ => none
  shutdowns : ℕ → Bool := fun _ => false

def Executor.init {E : Type*} (executor : Executor E) : State E where
  permits := { available := executor.maxInFlight }

/-- What the futures an execution awaits answer to one poll, and the time. -/
structure Poll (E : Type*) where
  now : SystemTime := 0
  granted : Bool := false
  handler : Option (Except E Unit) := none
  deadline : Bool := false
  heartbeat : Bool := false
  grace : Bool := false

inductive Event (E : Type*)
  | lifecycle (execution : ℕ) (event : TaskLifecycleEvent)
  | refused (execution : ℕ) (error : TaskProgressError)
  /-- The execution passed `try_start`. -/
  | started (execution : ℕ)
  | registered (execution : ℕ) (result : Except ActiveTaskRegistrationError WorkerTaskId)
  | invoked (execution : ℕ)
  | handled (execution : ℕ) (result : Except E Unit)
  | finished (execution : ℕ) (outcome : Option (ExecutionResult E))
  | paused (changed : Bool)
  | resumed (changed : Bool)
  /-- Admission was closed for good. -/
  | draining
  | drainBegun (drain : ℕ) (changed : Bool)
  | drained (drain : ℕ) (outcome : WorkerDrainOutcome)

inductive Action (E : Type*)
  | execute (context : WorkerContext)
  | poll (execution : ℕ) (input : Poll E)
  | drop (execution : ℕ)
  | panic (execution : ℕ)
  | report (execution : ℕ) (progress : TaskProgress) (now : SystemTime)
  | heartbeat (execution : ℕ) (now : SystemTime)
  | pauseAdmission
  | resumeAdmission
  | beginDrain
  | drain
  | pollDrain (drain : ℕ) (elapsed : Bool)
  | dropDrain (drain : ℕ)
  | cancel (token : ℕ) (reason : TaskCancellationReason)
  | requestShutdown (signal : ℕ)

namespace State

variable {E : Type*} (s : State E) (i : ℕ) (execution : Execution E)

def setExecution : State E :=
  { s with executions := s.executions.set i execution }

def enter (phase : Phase E) : State E :=
  s.setExecution i { execution with phase }

def cancelToken (token : ℕ) (reason : TaskCancellationReason) : State E :=
  { s with tokens := Function.update s.tokens token ((s.tokens token).cancel reason).1 }

def reported (phase : Phase E) (next : LifecycleState × Option TaskLifecycleEvent) :
    State E × List (Event E) :=
  (s.setExecution i { execution with reporter := next.1, phase },
    next.2.toList.map (.lifecycle i))

/-- Returns `result`, after the given accesses and those of the guards in scope. -/
def leave (ops : List Op) (result : ExecutionResult E) : State E :=
  s.enter i execution (.leaving (ops ++ execution.phase.scope) (some result))

end State

def finishAdmission (reason : WorkerAdmissionReason) : List Op :=
  let cancellation := match reason with
    | .draining => .workerDraining
    | .shutdownRequested => .runtimeShutdown
    | .controlCapacityUnavailable => .controlCapacityUnavailable
    | .paused => .admissionPaused
  [.cancel cancellation, .transition (.cancelled cancellation)]

namespace State

variable {E : Type*} (s : State E) (i : ℕ) (execution : Execution E)

def reject (reason : WorkerAdmissionReason) : State E :=
  s.leave i execution (finishAdmission reason) (.error (.admission reason))

/-- The reason given when the gate was found closed. -/
def rejectionReason : WorkerAdmissionReason :=
  match s.admission with
  | .paused => .paused
  | .accepting | .draining => .draining

/-- Ends with the reason its token holds. -/
def leaveCancelled (reason : TaskCancellationReason) : State E :=
  s.leave i execution [.transition (.cancelled reason)] (.error (.cancelled reason))

/-- Goes on in `next` unless shutdown was requested. -/
def checkShutdown (next : Phase E) : State E :=
  if s.shutdowns execution.context.shutdown then s.reject i execution .shutdownRequested
  else s.enter i execution next

/-- Goes on in `next` unless the task was cancelled. -/
def checkCancellation (next : Phase E) : State E :=
  match s.tokens execution.context.cancellation with
  | some reason => s.leaveCancelled i execution reason
  | none => s.enter i execution next

/-- One access of an execution that leaves. -/
def perform (now : SystemTime) (op : Op) (ops : List Op) (outcome : Option (ExecutionResult E)) :
    State E × List (Event E) :=
  let rest := .leaving ops outcome
  match op with
  | .cancel reason =>
    ((s.cancelToken execution.context.cancellation reason).enter i execution rest, [])
  | .transition state =>
    s.reported i execution rest
      (execution.reporter.transition execution.context.task now state)
  | .deregister taskId =>
    ({ s with registry := s.registry.remove taskId }.enter i execution rest, [])
  | .finish => ({ s with inFlight := s.inFlight - 1 }.enter i execution rest, [])
  | .notify => ({ s with notifications := s.notifications + 1 }.enter i execution rest, [])
  | .release =>
    let permits := { s.permits with available := s.permits.available + 1 }
    ({ s with permits }.enter i execution rest, [])
  | .dropGuard =>
    match s.tokens execution.context.cancellation with
    | some reason =>
      (s.enter i execution (.leaving (.transition (.cancelled reason) :: ops) outcome), [])
    | none =>
      (s.enter i execution
        (.leaving (.cancel .executionDropped ::
          .transition (.cancelled .executionDropped) :: ops) outcome), [])

/-- Runs `execute` number `i` to its next access of the shared state. -/
def poll (executor : Executor E) (input : Poll E) : Option (State E × List (Event E)) :=
  let context := execution.context
  match execution.phase with
  | .created =>
    let (reporter, recorded) := LifecycleState.start context.task input.now
    some (s.reported i execution .checking (reporter, recorded.toOption))
  | .checking => some (s.checkShutdown i execution .gating, [])
  | .gating =>
    match s.admission with
    | .accepting => some (s.enter i execution .waiting, [])
    | .paused => some (s.reject i execution .paused, [])
    | .draining => some (s.reject i execution .draining, [])
  | .waiting => some (s.checkShutdown i execution .polling, [])
  | .polling => some (s.checkCancellation i execution .acquiring, [])
  | .acquiring =>
    if s.permits.closed then some (s.enter i execution .closed, [])
    else if input.granted ∧ 0 < s.permits.available then
      let permits := { s.permits with available := s.permits.available - 1 }
      some ({ s with permits }.enter i execution .acquired, [])
    else some (s.enter i execution .waiting, [])
  | .closed => some (s.reject i execution s.rejectionReason, [])
  | .acquired => some (s.checkShutdown i execution .confirming, [])
  | .confirming => some (s.checkCancellation i execution .starting, [])
  | .starting =>
    if s.admission ≠ .accepting then some (s.enter i execution .refused, [])
    else
      let inFlight := saturatingAdd s.inFlight 1
      some ({ s with inFlight }.enter i execution .registering, [.started i])
  | .refused => some (s.reject i execution s.rejectionReason, [])
  | .registering =>
    let (registry, result) :=
      s.registry.register executor.maxInFlight context.task input.now context.cancellation
    match result with
    | .ok taskId =>
      some ({ s with registry }.enter i execution (.entering taskId),
        [.registered i (.ok taskId)])
    | .error error =>
      some ({ s with registry }.reject i execution .controlCapacityUnavailable,
        [.registered i (.error error)])
  | .entering taskId =>
    some (s.reported i execution (.invoking taskId)
      (execution.reporter.transition context.task input.now .running))
  | .invoking taskId => some (s.enter i execution (.handling taskId), [.invoked i])
  | .handling taskId =>
    match input.handler with
    | some result => some (s.enter i execution (.handled taskId result), [.handled i result])
    | none => some (s.enter i execution (.watching taskId), [])
  | .watching taskId =>
    match s.tokens context.cancellation with
    | some reason => some (s.enter i execution (.cleaning taskId (.cancelled reason)), [])
    | none =>
      match executor.config.executionTimeout, input.deadline with
      | some timeout, true => some (s.enter i execution (.expired taskId timeout), [])
      | _, _ =>
        if executor.config.lifecycleHeartbeatInterval.isSome ∧ input.heartbeat then
          some (s.enter i execution (.beating taskId), [])
        else some (s.enter i execution (.handling taskId), [])
  | .beating taskId =>
    let (reporter, recorded) := execution.reporter.heartbeat context.task input.now
    some (s.reported i execution (.handling taskId) (reporter, recorded.toOption))
  | .handled taskId result =>
    match s.tokens context.cancellation, result with
    | some reason, _ => some (s.leaveCancelled i execution reason, [])
    | none, .ok () => some (s.leave i execution [.transition .succeeded] (.ok ()), [])
    | none, .error source => some (s.enter i execution (.failing taskId source), [])
  | .failing taskId source =>
    some (s.reported i execution (.deciding taskId source)
      (execution.reporter.transition context.task input.now .failed))
  | .deciding _ source =>
    let decision := executor.retryPolicy context.task.attempt source
    some (s.leave i execution [] (.error (.handler source decision)), [])
  | .expired taskId timeout =>
    -- `deadline_cancellation_reason`: an earlier reason wins.
    let observed := (s.tokens context.cancellation).getD .timeout
    some ((s.cancelToken context.cancellation .timeout).enter i execution
      (.cleaning taskId (.deadline timeout observed)), [])
  | .cleaning _ stop =>
    if input.handler.isSome ∨ input.grace then
      match stop with
      | .cancelled reason => some (s.leaveCancelled i execution reason, [])
      | .deadline timeout observed =>
        if observed ≠ .timeout then some (s.leaveCancelled i execution observed, [])
        else
          let error := .timedOut timeout executor.config.timeoutRetryDecision
          some (s.leave i execution [.transition .timedOut] (.error error), [])
    else some (s, [])
  | .leaving (op :: ops) outcome => some (s.perform i execution input.now op ops outcome)
  | .leaving [] outcome => some (s.enter i execution .done, [.finished i outcome])
  | .done => none

/-- The future of `execute` number `i` is dropped at one of its await points. -/
def drop : Option (State E × List (Event E)) :=
  match execution.phase with
  | .created => some (s.enter i execution .done, [.finished i none])
  | .waiting | .handling _ | .cleaning _ _ =>
    some (s.enter i execution (.leaving (execution.phase.scope ++ [.dropGuard]) none), [])
  | _ => none

/-- The handler or the retry policy panics. -/
def panic : Option (State E × List (Event E)) :=
  match execution.phase with
  | .handling _ | .cleaning _ _ =>
    some (s.enter i execution (.leaving (execution.phase.scope ++ [.dropGuard]) none), [])
  | .deciding _ _ => some (s.enter i execution (.leaving execution.phase.scope none), [])
  | _ => none

/-- A clone of the execution's reporter reports `next`. There is no reporter before the
first poll, which starts one that has announced the task. -/
def reportFrom (next : LifecycleState × Except TaskProgressError TaskLifecycleEvent) :
    Option (State E × List (Event E)) :=
  if execution.reporter.sequence = 0 then none
  else
    let event := match next.2 with
      | .ok event => .lifecycle i event
      | .error error => .refused i error
    some (s.setExecution i { execution with reporter := next.1 }, [event])

def pauseAdmission : State E × List (Event E) :=
  if s.admission = .accepting then ({ s with admission := .paused }, [.paused true])
  else (s, [.paused false])

def resumeAdmission : State E × List (Event E) :=
  if s.admission = .paused then ({ s with admission := .accepting }, [.resumed true])
  else (s, [.resumed false])

def setDrain (j : ℕ) (drain : Drain) : State E :=
  { s with drains := s.drains.set j drain }

def drainBegun (j : ℕ) (drain : Drain) (changed : Bool) : State E × List (Event E) :=
  if drain.waits then (s.setDrain j { drain with phase := .checking }, [])
  else (s.setDrain j { drain with phase := .done }, [.drainBegun j changed])

def drained (j : ℕ) (drain : Drain) (outcome : WorkerDrainOutcome) : State E × List (Event E) :=
  (s.setDrain j { drain with phase := .done }, [.drained j outcome])

/-- Runs call number `j` of `begin_drain` or `drain` to its next access. -/
def pollDrain (j : ℕ) (drain : Drain) (elapsed : Bool) : Option (State E × List (Event E)) :=
  match drain.phase with
  | .starting =>
    if s.admission = .draining then some (s.drainBegun j drain false)
    else
      some ({ s with admission := .draining }.setDrain j { drain with phase := .closing },
        [.draining])
  | .closing =>
    let permits := { s.permits with closed := true }
    some ({ s with permits }.drainBegun j drain true)
  | .checking =>
    if s.inFlight = 0 then some (s.drained j drain .completed)
    else some (s.setDrain j { drain with phase := .listening }, [])
  | .listening => some (s.setDrain j { drain with phase := .reading s.notifications }, [])
  | .reading seen =>
    if s.inFlight = 0 then some (s.drained j drain .completed)
    else some (s.setDrain j { drain with phase := .waiting seen }, [])
  | .waiting seen =>
    if s.notifications ≠ seen then some (s.setDrain j { drain with phase := .listening }, [])
    else if elapsed then some (s.setDrain j { drain with phase := .expired }, [])
    else some (s, [])
  | .expired =>
    if s.inFlight = 0 then some (s.drained j drain .completed)
    else some (s.drained j drain (.timedOut s.inFlight))
  | .done => none

def dropDrain (j : ℕ) (drain : Drain) : Option (State E × List (Event E)) :=
  match drain.phase with
  | .waiting _ => some (s.setDrain j { drain with phase := .done }, [])
  | _ => none

end State

variable {E : Type*}

/-- One atomic step of the calls on an executor and of the parties that share its
tokens. -/
def step (executor : Executor E) (s : State E) : Action E → Option (State E × List (Event E))
  | .execute context => some ({ s with executions := s.executions ++ [{ context }] }, [])
  | .poll i input => s.executions[i]?.bind fun execution => s.poll i execution executor input
  | .drop i => s.executions[i]?.bind fun execution => s.drop i execution
  | .panic i => s.executions[i]?.bind fun execution => s.panic i execution
  | .report i progress now =>
    s.executions[i]?.bind fun execution =>
      s.reportFrom i execution (execution.reporter.report execution.context.task now progress)
  | .heartbeat i now =>
    s.executions[i]?.bind fun execution =>
      s.reportFrom i execution (execution.reporter.heartbeat execution.context.task now)
  | .pauseAdmission => some s.pauseAdmission
  | .resumeAdmission => some s.resumeAdmission
  | .beginDrain => some ({ s with drains := s.drains ++ [{ waits := false }] }, [])
  | .drain => some ({ s with drains := s.drains ++ [{ waits := true }] }, [])
  | .pollDrain j elapsed => s.drains[j]?.bind fun drain => s.pollDrain j drain elapsed
  | .dropDrain j => s.drains[j]?.bind fun drain => s.dropDrain j drain
  | .cancel token reason => some (s.cancelToken token reason, [])
  | .requestShutdown signal =>
    some ({ s with shutdowns := Function.update s.shutdowns signal true }, [])

/-- The calls on one executor under every interleaving. -/
def machine (executor : Executor E) : Machine (State E) (Action E) (Event E) where
  step := step executor

/-- `s` is reached, with the given history, from a new executor. -/
def Reaches (executor : Executor E) (history : List (Event E)) (s : State E) : Prop :=
  Runs (machine executor).Step executor.init history s

/-! ## A sample executor -/

namespace Sample

def executor : Executor Unit where
  config := {}
  retryPolicy := fun _ _ => .doNotRetry
  valid := WorkerConfig.validate_default

def context : WorkerContext where
  task := { messageId := ⟨0⟩, correlationId := ⟨0⟩, attempt := 1 }
  causationId := none
  metadata := .new
  shutdown := 0
  cancellation := 0

/-- Polls execution `i` the given number of times; the semaphore grants what it has. -/
def polls (i n : ℕ) : List (Action Unit) :=
  List.replicate n (.poll i { granted := true })

def after (actions : List (Action Unit)) : State Unit × List (Event Unit) :=
  (machine executor).after executor.init actions

theorem reaches (actions : List (Action Unit))
    (hsome : ((machine executor).run executor.init actions).isSome = true) :
    Reaches executor (after actions).2 (after actions).1 :=
  Machine.runs_after hsome

end Sample

end PlenoraRuntime.Worker
