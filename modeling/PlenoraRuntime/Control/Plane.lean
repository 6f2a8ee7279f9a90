import PlenoraRuntime.Core.Text
import PlenoraRuntime.Resources.Monitor
import PlenoraRuntime.Scheduler.Model

/-!
# The control plane

A control plane holds the registered components by identity: workers, schedulers and the
sources of two read-only snapshots. Its operations look a component up and pass the
request on. A worker's handle acts on the state that the worker's executor and its calls
share; a scheduler is known by its trait only.

`Mutation` lists the operations that change something, each with the component and the
object it acts on, and `ControlPlane.apply` what they do.
-/

namespace PlenoraRuntime.Control

open Resources (MemoryPressureSnapshot)
open Scheduler (ManualTriggerOutcome ScheduleBuildError ScheduleId ScheduleSnapshot)
open Worker (ActiveWorkerTask TaskCancellationReason WorkerAdmissionState WorkerTaskId)

/-! ## Identities -/

def maxControlComponentIdBytes : ℕ := 96

inductive ControlComponentIdError
  | empty
  | tooLong
  | invalidCharacter
  deriving DecidableEq, Repr

/-- The bytes that `ControlComponentId::new` accepts. -/
def isControlComponentIdByte (byte : UInt8) : Bool :=
  isAsciiLowercase byte || isAsciiDigit byte || byte == 46 || byte == 95 || byte == 45

structure ControlComponentId where
  value : Text
  value_ne_nil : value ≠ []
  length_le : value.length ≤ maxControlComponentIdBytes
  portable : value.all isControlComponentIdByte = true
  deriving DecidableEq

def ControlComponentId.new (value : Text) : Except ControlComponentIdError ControlComponentId :=
  if hempty : value = [] then .error .empty
  else if hlen : maxControlComponentIdBytes < value.length then .error .tooLong
  else if hport : value.all isControlComponentIdByte = true then
    .ok ⟨value, hempty, Nat.le_of_not_lt hlen, hport⟩
  else .error .invalidCharacter

inductive ControlComponentKind
  | worker
  | scheduler
  | memory
  | subprocess
  deriving DecidableEq, Repr

structure ControlComponent where
  id : ControlComponentId
  kind : ControlComponentKind
  deriving DecidableEq

inductive ControlPlaneError
  | unknownComponent (kind : ControlComponentKind) (id : ControlComponentId)
  deriving DecidableEq

/-! ## Workers -/

inductive ControlMutationOutcome
  | applied
  | alreadyInState
  | rejected
  deriving DecidableEq, Repr

inductive WorkerTaskCancellationOutcome
  | requested
  | alreadyRequested (reason : TaskCancellationReason)
  | notFound
  deriving DecidableEq, Repr

structure WorkerControlSnapshot where
  admission : WorkerAdmissionState
  capacity : ℕ
  inFlight : ℕ
  available : ℕ
  activeTasks : List ActiveWorkerTask

/-- `WorkerControlHandle`: the capacity of a worker and the state its executor shares. -/
structure WorkerControlHandle (E : Type*) where
  capacity : ℕ
  state : Worker.State E

namespace WorkerControlHandle

variable {E : Type*} (handle : WorkerControlHandle E)

def activeTasks : List ActiveWorkerTask :=
  handle.state.registry.tasks.map fun (_, record) =>
    { record.snapshot with cancellationReason := handle.state.tokens record.cancellation }

def snapshot : WorkerControlSnapshot where
  admission := handle.state.admission
  capacity := handle.capacity
  inFlight := handle.state.inFlight
  available := handle.capacity - handle.state.inFlight
  activeTasks := handle.activeTasks

def pause : WorkerControlHandle E × ControlMutationOutcome :=
  let paused := { handle with state := handle.state.pauseAdmission.1 }
  (paused,
    if handle.state.admission = .accepting then .applied
    else if paused.state.admission = .paused then .alreadyInState
    else .rejected)

def resume : WorkerControlHandle E × ControlMutationOutcome :=
  let resumed := { handle with state := handle.state.resumeAdmission.1 }
  (resumed,
    if handle.state.admission = .paused then .applied
    else if resumed.state.admission = .accepting then .alreadyInState
    else .rejected)

/-- `drain`: closes admission and the semaphore for good. -/
def drain : WorkerControlHandle E × ControlMutationOutcome :=
  if handle.state.admission = .draining then (handle, .alreadyInState)
  else
    let permits := { handle.state.permits with closed := true }
    ({ handle with state := { handle.state with admission := .draining, permits } }, .applied)

/-- `cancel_task`, which is `request_cancellation` of the worker's tasks. -/
def cancelTask (taskId : WorkerTaskId) :
    WorkerControlHandle E × WorkerTaskCancellationOutcome :=
  match OrderedTable.get taskId handle.state.registry.tasks with
  | none => (handle, .notFound)
  | some record =>
    let cancelled := handle.state.cancelToken record.cancellation .requested
    match handle.state.tokens record.cancellation with
    | none => ({ handle with state := cancelled }, .requested)
    | some reason => ({ handle with state := cancelled }, .alreadyRequested reason)

end WorkerControlHandle

/-! ## Schedulers and other components -/

/-- `SchedulerControl`: what a registered scheduler does, as a function of its state. -/
structure SchedulerControl (σ : Type*) where
  snapshots : σ → List ScheduleSnapshot
  pause : σ → ScheduleId → σ × Except ScheduleBuildError Unit
  resume : σ → ScheduleId → σ × Except ScheduleBuildError Unit
  trigger : σ → ScheduleId → SystemTime → σ × Except ScheduleBuildError ManualTriggerOutcome

structure SubprocessSnapshot where
  capacity : ℕ
  inFlight : ℕ
  available : ℕ
  started : ℕ
  completed : ℕ
  spawnFailures : ℕ
  cancellations : ℕ
  timeouts : ℕ
  memoryTerminations : ℕ
  treeTerminationFailures : ℕ
  deriving DecidableEq, Repr

/-! ## The plane -/

structure ControlPlane (E σ : Type*) where
  workers : List (ControlComponentId × WorkerControlHandle E) := []
  schedulers : List (ControlComponentId × σ) := []
  memory : List (ControlComponentId × MemoryPressureSnapshot) := []
  subprocess : List (ControlComponentId × SubprocessSnapshot) := []

namespace ControlPlane

variable {E σ : Type*} (plane : ControlPlane E σ) (control : SchedulerControl σ)

def components : List ControlComponent :=
  (plane.workers.map fun (id, _) => ⟨id, .worker⟩) ++
    (plane.schedulers.map fun (id, _) => ⟨id, .scheduler⟩) ++
    (plane.memory.map fun (id, _) => ⟨id, .memory⟩) ++
    plane.subprocess.map fun (id, _) => ⟨id, .subprocess⟩

/-- An operation of one worker's handle; `worker` looks the handle up. -/
def onWorker {α : Type*} (id : ControlComponentId)
    (operation : WorkerControlHandle E → WorkerControlHandle E × α) :
    ControlPlane E σ × Except ControlPlaneError α :=
  match Keyed.lookup Prod.fst id plane.workers with
  | none => (plane, .error (.unknownComponent .worker id))
  | some (_, handle) =>
    let (handle, answer) := operation handle
    ({ plane with workers := Keyed.replace Prod.fst id (id, handle) plane.workers }, .ok answer)

/-- An operation of one scheduler; `scheduler` looks it up. -/
def onScheduler {α : Type*} (id : ControlComponentId) (operation : σ → σ × α) :
    ControlPlane E σ × Except ControlPlaneError α :=
  match Keyed.lookup Prod.fst id plane.schedulers with
  | none => (plane, .error (.unknownComponent .scheduler id))
  | some (_, scheduler) =>
    let (scheduler, answer) := operation scheduler
    ({ plane with schedulers := Keyed.replace Prod.fst id (id, scheduler) plane.schedulers },
      .ok answer)

def workerSnapshot (id : ControlComponentId) : Except ControlPlaneError WorkerControlSnapshot :=
  match Keyed.lookup Prod.fst id plane.workers with
  | none => .error (.unknownComponent .worker id)
  | some (_, handle) => .ok handle.snapshot

def schedulerSnapshots (id : ControlComponentId) :
    Except ControlPlaneError (List ScheduleSnapshot) :=
  match Keyed.lookup Prod.fst id plane.schedulers with
  | none => .error (.unknownComponent .scheduler id)
  | some (_, scheduler) => .ok (control.snapshots scheduler)

def memorySnapshot (id : ControlComponentId) : Except ControlPlaneError MemoryPressureSnapshot :=
  match Keyed.lookup Prod.fst id plane.memory with
  | none => .error (.unknownComponent .memory id)
  | some (_, snapshot) => .ok snapshot

def subprocessSnapshot (id : ControlComponentId) : Except ControlPlaneError SubprocessSnapshot :=
  match Keyed.lookup Prod.fst id plane.subprocess with
  | none => .error (.unknownComponent .subprocess id)
  | some (_, snapshot) => .ok snapshot

def pauseWorker (id : ControlComponentId) :
    ControlPlane E σ × Except ControlPlaneError ControlMutationOutcome :=
  plane.onWorker id WorkerControlHandle.pause

def resumeWorker (id : ControlComponentId) :
    ControlPlane E σ × Except ControlPlaneError ControlMutationOutcome :=
  plane.onWorker id WorkerControlHandle.resume

def drainWorker (id : ControlComponentId) :
    ControlPlane E σ × Except ControlPlaneError ControlMutationOutcome :=
  plane.onWorker id WorkerControlHandle.drain

def cancelWorkerTask (id : ControlComponentId) (taskId : WorkerTaskId) :
    ControlPlane E σ × Except ControlPlaneError WorkerTaskCancellationOutcome :=
  plane.onWorker id fun handle => handle.cancelTask taskId

def pauseSchedule (id : ControlComponentId) (schedule : ScheduleId) :
    ControlPlane E σ × Except ControlPlaneError (Except ScheduleBuildError Unit) :=
  plane.onScheduler id fun scheduler => control.pause scheduler schedule

def resumeSchedule (id : ControlComponentId) (schedule : ScheduleId) :
    ControlPlane E σ × Except ControlPlaneError (Except ScheduleBuildError Unit) :=
  plane.onScheduler id fun scheduler => control.resume scheduler schedule

def triggerSchedule (id : ControlComponentId) (schedule : ScheduleId) (triggeredAt : SystemTime) :
    ControlPlane E σ × Except ControlPlaneError (Except ScheduleBuildError ManualTriggerOutcome) :=
  plane.onScheduler id fun scheduler => control.trigger scheduler schedule triggeredAt

end ControlPlane

/-! ## Mutations -/

inductive Mutation
  | pauseWorker (component : ControlComponentId)
  | resumeWorker (component : ControlComponentId)
  | drainWorker (component : ControlComponentId)
  | cancelWorkerTask (component : ControlComponentId) (task : WorkerTaskId)
  | pauseSchedule (component : ControlComponentId) (schedule : ScheduleId)
  | resumeSchedule (component : ControlComponentId) (schedule : ScheduleId)
  | triggerSchedule (component : ControlComponentId) (schedule : ScheduleId)
      (triggeredAt : SystemTime)
  deriving DecidableEq

namespace Mutation

def component : Mutation → ControlComponentId
  | .pauseWorker component | .resumeWorker component | .drainWorker component
  | .cancelWorkerTask component _ | .pauseSchedule component _ | .resumeSchedule component _
  | .triggerSchedule component _ _ => component

/-- The text that `Display` prints for the task or schedule affected. -/
def target : Mutation → Option Text
  | .pauseWorker _ | .resumeWorker _ | .drainWorker _ => none
  | .cancelWorkerTask _ task => some (decimal task.val)
  | .pauseSchedule _ schedule | .resumeSchedule _ schedule | .triggerSchedule _ schedule _ =>
    some schedule.value

end Mutation

def ControlPlane.apply {E σ : Type*} (control : SchedulerControl σ) (plane : ControlPlane E σ) :
    Mutation → ControlPlane E σ
  | .pauseWorker component => (plane.pauseWorker component).1
  | .resumeWorker component => (plane.resumeWorker component).1
  | .drainWorker component => (plane.drainWorker component).1
  | .cancelWorkerTask component task => (plane.cancelWorkerTask component task).1
  | .pauseSchedule component schedule => (plane.pauseSchedule control component schedule).1
  | .resumeSchedule component schedule => (plane.resumeSchedule control component schedule).1
  | .triggerSchedule component schedule triggeredAt =>
    (plane.triggerSchedule control component schedule triggeredAt).1

end PlenoraRuntime.Control
