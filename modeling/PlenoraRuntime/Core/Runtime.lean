import PlenoraRuntime.Core.Health
import PlenoraRuntime.Core.Time
import PlenoraRuntime.Foundation.Machine
import PlenoraRuntime.Foundation.Slots

/-!
# The runtime handle

`RuntimeHandle` shares one `RuntimeInner` between the callers of `spawn`,
`request_shutdown` and `shutdown`, and the supervisors of the tasks. Each of these is a
process here: a stage that says how far it has come, and a function that performs its
next access to the shared structures. The structures are locked one at a time, so the
processes interleave between any two accesses.

What the tasks themselves do is left open: a future may end in any of the four ways a
supervisor tells apart, at any time. Time is left open too: the grace period of a
shutdown may elapse whenever it waits.
-/

namespace PlenoraRuntime.Core

open Transition

/-! ## Tasks and their reports -/

inductive RuntimePhase
  | running
  | draining
  | stopped
  deriving DecidableEq, Repr

inductive TaskCriticality
  | critical
  | required
  | optional
  deriving DecidableEq, Repr

structure TaskSpec where
  name : Text
  criticality : TaskCriticality
  deriving DecidableEq

inductive TaskFailureKind
  | error
  | panicked
  | cancelled
  deriving DecidableEq, Repr

/-- `TaskFailure`, without the error it was made from. -/
structure TaskFailure where
  kind : TaskFailureKind
  message : Text
  deriving DecidableEq

def TaskFailure.fromError : TaskFailure :=
  ⟨.error, utf8 "supervised task returned an error"⟩

def TaskFailure.fromPanic : TaskFailure :=
  ⟨.panicked, utf8 "supervised task panicked"⟩

def TaskFailure.cancelled : TaskFailure :=
  ⟨.cancelled, utf8 "supervised task was cancelled"⟩

inductive TaskOutcome
  | completed
  | failed (failure : TaskFailure)
  deriving DecidableEq

structure TaskReport where
  spec : TaskSpec
  outcome : TaskOutcome
  deriving DecidableEq

/-- How the future of a task ends, as its join handle says. -/
inductive JoinResult
  | ok
  | error
  | panicked
  | cancelled
  deriving DecidableEq, Repr

/-- The outcome that the supervisor of `spawn` makes of it. -/
def JoinResult.outcome : JoinResult → TaskOutcome
  | .ok => .completed
  | .error => .failed .fromError
  | .panicked => .failed .fromPanic
  | .cancelled => .failed .cancelled

inductive OptionalTaskFailurePolicy
  | ignore
  | markDegraded
  | shutdown
  deriving DecidableEq, Repr

/-- `RuntimeConfig`, without the length of the grace period. -/
structure RuntimeConfig where
  optionalTaskFailure : OptionalTaskFailurePolicy := .markDegraded
  maxConcurrentTasks : Usize := 256
  taskReportCapacity : Usize := 1024

inductive SpawnError
  | noRuntime
  | runtimeNotRunning (phase : RuntimePhase)
  | taskCapacityExceeded (limit : ℕ)
  | taskIdentifierExhausted
  deriving DecidableEq, Repr

inductive DrainOutcome
  | completed
  | timedOut (remainingTasks : ℕ)
  deriving DecidableEq, Repr

/-! ## The shared structures -/

/-- `RuntimeInner`. An abort handle is known by the task it aborts; `taskChange` counts
the calls of `notify_waiters`, by which a waiter tells whether it was notified. -/
structure RuntimeInner where
  phase : RuntimePhase
  activeTasks : ℕ
  cancelled : Bool
  taskChange : ℕ
  health : HealthRegistry
  reports : List TaskReport
  abortHandles : List (ℕ × Unit)
  nextTaskId : ℕ

namespace RuntimeInner

variable (inner : RuntimeInner)

/-- `RuntimeHandle::with_config`. -/
def new : RuntimeInner where
  phase := .running
  activeTasks := 0
  cancelled := false
  taskChange := 0
  health := .new
  reports := []
  abortHandles := []
  nextTaskId := 1

/-- The lifecycle update of `begin_shutdown`, and whether it changed the phase. -/
def beginShutdown : RuntimeInner × Bool :=
  if inner.phase = .running then ({ inner with phase := .draining }, true) else (inner, false)

def registerTask (config : RuntimeConfig) : Except SpawnError (RuntimeInner × ℕ) :=
  if inner.phase ≠ .running then .error (.runtimeNotRunning inner.phase)
  else if config.maxConcurrentTasks.val ≤ inner.activeTasks then
    .error (.taskCapacityExceeded config.maxConcurrentTasks.val)
  else if inner.nextTaskId + 1 < 2 ^ 64 then
    .ok ({ inner with
            nextTaskId := inner.nextTaskId + 1
            activeTasks := saturatingAdd inner.activeTasks 1 }, inner.nextTaskId)
  else .error .taskIdentifierExhausted

/-- The report history of `finish_task`. -/
def recordReport (config : RuntimeConfig) (report : TaskReport) : RuntimeInner :=
  if 0 < config.taskReportCapacity.val then
    let kept := if inner.reports.length = config.taskReportCapacity.val then inner.reports.tail
      else inner.reports
    { inner with reports := kept ++ [report] }
  else inner

end RuntimeInner

/-! ## Supervisors -/

/-- One access of `apply_task_failure`. -/
inductive FailureEffect
  | setHealth (health : ComponentHealth)
  | setReadiness (readiness : ComponentReadiness)
  | beginShutdown
  | cancel
  deriving DecidableEq

def TaskSpec.component (spec : TaskSpec) : Text :=
  utf8 "runtime.task." ++ spec.name

/-- `apply_task_failure`: its accesses, in order. -/
def applyTaskFailure (config : RuntimeConfig) (spec : TaskSpec) (failure : TaskFailure) :
    List FailureEffect :=
  let component := spec.component
  let message := some failure.message
  match spec.criticality with
  | .critical =>
    [.setHealth ⟨component, .unhealthy, message⟩, .setReadiness ⟨component, .notReady, message⟩,
      .beginShutdown]
  | .required =>
    [.setHealth ⟨component, .degraded, message⟩, .setReadiness ⟨component, .notReady, message⟩]
  | .optional =>
    match config.optionalTaskFailure with
    | .ignore => []
    | .markDegraded => [.setHealth ⟨component, .degraded, message⟩]
    | .shutdown =>
      [.setHealth ⟨component, .unhealthy, message⟩,
        .setReadiness ⟨component, .notReady, message⟩, .beginShutdown]

/-- How far a task has come, from its registration to the end of its supervisor. -/
inductive TaskStage
  | registered
  | supervised
  | applying (outcome : TaskOutcome) (effects : List FailureEffect)
  | recording (outcome : TaskOutcome)
  | removing (outcome : TaskOutcome)
  | releasing (outcome : TaskOutcome)
  | notifying (outcome : TaskOutcome)
  | sending (outcome : TaskOutcome)
  | finished (outcome : TaskOutcome)
  deriving DecidableEq

structure Task where
  id : ℕ
  spec : TaskSpec
  stage : TaskStage
  deriving DecidableEq

/-- What can be seen of the runtime from outside, and of its supervisors. -/
inductive Event
  | registered (id : ℕ)
  | rejected (error : SpawnError)
  /-- The future of the task is over, as its supervisor learns from the join handle. -/
  | ended (id : ℕ) (outcome : TaskOutcome)
  | completed (id : ℕ) (report : TaskReport)
  | released (id : ℕ)
  | reported (id : ℕ) (report : TaskReport)
  | aborted (id : ℕ)
  | requested (changed : Bool)
  | drained (outcome : DrainOutcome)
  deriving DecidableEq

/-- The next access of `apply_task_failure`, and what is left of it. -/
def FailureEffect.perform (inner : RuntimeInner) (rest : List FailureEffect) :
    FailureEffect → RuntimeInner × List FailureEffect
  | .setHealth health => ({ inner with health := inner.health.setHealth health }, rest)
  | .setReadiness readiness =>
    ({ inner with health := inner.health.setReadiness readiness }, rest)
  | .beginShutdown =>
    let (inner, changed) := inner.beginShutdown
    (inner, if changed then .cancel :: rest else rest)
  | .cancel => ({ inner with cancelled := true }, rest)

/-- The next access of `spawn` or of `finish_task` for a task. -/
def Task.advance (config : RuntimeConfig) (inner : RuntimeInner) (task : Task) :
    Option (RuntimeInner × TaskStage × List Event) :=
  match task.stage with
  | .registered =>
    some ({ inner with abortHandles := OrderedTable.insert task.id () inner.abortHandles },
      .supervised, [])
  | .supervised => none
  | .applying outcome [] => some (inner, .recording outcome, [])
  | .applying outcome (effect :: rest) =>
    let (inner, rest) := effect.perform inner rest
    some (inner, .applying outcome rest, [])
  | .recording outcome =>
    some (inner.recordReport config ⟨task.spec, outcome⟩, .removing outcome,
      [.completed task.id ⟨task.spec, outcome⟩])
  | .removing outcome =>
    some ({ inner with abortHandles := OrderedTable.erase task.id inner.abortHandles },
      .releasing outcome, [])
  | .releasing outcome =>
    some ({ inner with activeTasks := inner.activeTasks - 1 }, .notifying outcome,
      [.released task.id])
  | .notifying outcome =>
    some ({ inner with taskChange := inner.taskChange + 1 }, .sending outcome, [])
  | .sending outcome =>
    some (inner, .finished outcome, [.reported task.id ⟨task.spec, outcome⟩])
  | .finished _ => none

/-- The stage of a supervised task whose future has ended. -/
def Task.ended (config : RuntimeConfig) (task : Task) (result : JoinResult) : Option TaskStage :=
  match task.stage with
  | .supervised =>
    match result.outcome with
    | .completed => some (.recording .completed)
    | .failed failure =>
      some (.applying (.failed failure) (applyTaskFailure config task.spec failure))
  | _ => none

/-! ## Shutdown -/

/-- How far a call of `request_shutdown` has come. -/
inductive RequestStage
  | starting
  | cancelling
  | returned (changed : Bool)
  deriving DecidableEq, Repr

/-- The next access of `request_shutdown`. -/
def RequestStage.advance (inner : RuntimeInner) :
    RequestStage → Option (RuntimeInner × RequestStage × List Event)
  | .starting =>
    let (inner, changed) := inner.beginShutdown
    if changed then some (inner, .cancelling, [])
    else some (inner, .returned false, [.requested false])
  | .cancelling => some ({ inner with cancelled := true }, .returned true, [.requested true])
  | .returned _ => none

/-- How far a call of `shutdown` has come. A waiter remembers the count of notifications
when it began to listen. -/
inductive ShutdownStage
  | starting
  | cancelling
  | probing
  | listening
  | checking (seen : ℕ)
  | parked (seen : ℕ)
  | expired
  | aborting (remaining : ℕ)
  | stopping (outcome : DrainOutcome)
  | returned (outcome : DrainOutcome)
  | abandoned
  deriving DecidableEq, Repr

/-- The next access of `shutdown`. -/
def ShutdownStage.advance (inner : RuntimeInner) :
    ShutdownStage → Option (RuntimeInner × ShutdownStage × List Event)
  | .starting =>
    let (inner, changed) := inner.beginShutdown
    some (inner, if changed then .cancelling else .probing, [])
  | .cancelling => some ({ inner with cancelled := true }, .probing, [])
  | .probing =>
    some (inner, if inner.activeTasks = 0 then .stopping .completed else .listening, [])
  | .listening => some (inner, .checking inner.taskChange, [])
  | .checking seen =>
    some (inner, if inner.activeTasks = 0 then .stopping .completed else .parked seen, [])
  | .parked seen => if seen < inner.taskChange then some (inner, .listening, []) else none
  | .expired =>
    some (inner, if inner.activeTasks = 0 then .stopping .completed
      else .aborting inner.activeTasks, [])
  | .aborting remaining =>
    some (inner, .stopping (.timedOut remaining),
      inner.abortHandles.map fun handle => .aborted handle.1)
  | .stopping outcome =>
    some ({ inner with phase := .stopped }, .returned outcome, [.drained outcome])
  | .returned _ => none
  | .abandoned => none

/-! ## The runtime as a machine -/

/-- The shared structures, the tasks that were registered and the calls that were made. -/
structure State where
  inner : RuntimeInner
  tasks : List Task
  requests : List RequestStage
  shutdowns : List ShutdownStage

/-- What the application does to the registry it shares with the runtime. -/
inductive RegistryWrite
  | setHealth (health : ComponentHealth)
  | setReadiness (readiness : ComponentReadiness)
  | removeHealth (component : Text)
  | removeReadiness (component : Text)
  deriving DecidableEq

namespace RegistryWrite

def component : RegistryWrite → Text
  | .setHealth health => health.component
  | .setReadiness readiness => readiness.component
  | .removeHealth component => component
  | .removeReadiness component => component

def apply (registry : HealthRegistry) : RegistryWrite → HealthRegistry
  | .setHealth health => registry.setHealth health
  | .setReadiness readiness => registry.setReadiness readiness
  | .removeHealth component => (registry.removeHealth component).1
  | .removeReadiness component => (registry.removeReadiness component).1

end RegistryWrite

/-- One step of a caller, of a supervisor, of a task or of time. Tasks and calls are named
by their position. -/
inductive Action
  | spawn (runtimeActive : Bool) (spec : TaskSpec)
  | advanceTask (task : ℕ)
  | ends (task : ℕ) (result : JoinResult)
  | requestShutdown
  | advanceRequest (call : ℕ)
  | shutdown
  | advanceShutdown (call : ℕ)
  | expires (call : ℕ)
  | abandons (call : ℕ)
  | application (write : RegistryWrite)
  deriving DecidableEq

/-- `RuntimeHandle::spawn` up to the registration. -/
def spawn (config : RuntimeConfig) (s : State) (runtimeActive : Bool) (spec : TaskSpec) :
    State × List Event :=
  if !runtimeActive then (s, [.rejected .noRuntime])
  else
    match s.inner.registerTask config with
    | .error error => (s, [.rejected error])
    | .ok (inner, id) =>
      ({ s with inner, tasks := s.tasks ++ [⟨id, spec, .registered⟩] }, [.registered id])

/-- The runtime, from any of whose processes the next step may come. -/
def machine (config : RuntimeConfig) : Machine State Action Event where
  step s
    | .spawn runtimeActive spec => some (spawn config s runtimeActive spec)
    | .advanceTask i =>
      s.tasks[i]?.bind fun task =>
        (task.advance config s.inner).map fun (inner, stage, events) =>
          ({ s with inner, tasks := s.tasks.set i { task with stage } }, events)
    | .ends i result =>
      s.tasks[i]?.bind fun task =>
        (task.ended config result).map fun stage =>
          ({ s with tasks := s.tasks.set i { task with stage } },
            [.ended task.id result.outcome])
    | .requestShutdown => some ({ s with requests := s.requests ++ [.starting] }, [])
    | .advanceRequest i =>
      s.requests[i]?.bind fun stage =>
        (stage.advance s.inner).map fun (inner, stage, events) =>
          ({ s with inner, requests := s.requests.set i stage }, events)
    | .shutdown => some ({ s with shutdowns := s.shutdowns ++ [.starting] }, [])
    | .advanceShutdown i =>
      s.shutdowns[i]?.bind fun stage =>
        (stage.advance s.inner).map fun (inner, stage, events) =>
          ({ s with inner, shutdowns := s.shutdowns.set i stage }, events)
    | .expires i =>
      match s.shutdowns[i]? with
      | some (.parked _) => some ({ s with shutdowns := s.shutdowns.set i .expired }, [])
      | _ => none
    | .abandons i =>
      match s.shutdowns[i]? with
      | some (.parked _) => some ({ s with shutdowns := s.shutdowns.set i .abandoned }, [])
      | _ => none
    | .application write =>
      some ({ s with inner := { s.inner with health := write.apply s.inner.health } }, [])

def init : State :=
  ⟨.new, [], [], []⟩

end PlenoraRuntime.Core
