import PlenoraRuntime.Control.Plane

/-!
# The control plane over HTTP

Every request names a route and carries texts from its path. A handler validates the
texts, asks the application's authorizer one question and then calls the control plane.
What is modelled of a call is the plane after it, the response and, as events, the
question with its answer and the mutation, in the order in which they happen.

The authorizer is shown the text of the path; the plane is called with what was parsed
from it.
-/

namespace PlenoraRuntime.Control

open Resources (MemoryPressureSnapshot)
open Scheduler (ManualTriggerOutcome ScheduleBuildError ScheduleId ScheduleSnapshot)
open Worker (WorkerTaskId)

/-! ## Authorization -/

inductive ControlAction
  | viewComponents
  | viewWorker
  | viewScheduler
  | viewMemory
  | viewSubprocess
  | pauseWorker
  | resumeWorker
  | drainWorker
  | cancelWorkerTask
  | pauseSchedule
  | resumeSchedule
  | triggerSchedule
  deriving DecidableEq, Repr

structure ControlAuthorizationRequest (H : Type*) where
  headers : H
  action : ControlAction
  component : Option ControlComponentId
  target : Option Text
  deriving DecidableEq

def Mutation.action : Mutation → ControlAction
  | .pauseWorker _ => .pauseWorker
  | .resumeWorker _ => .resumeWorker
  | .drainWorker _ => .drainWorker
  | .cancelWorkerTask _ _ => .cancelWorkerTask
  | .pauseSchedule _ _ => .pauseSchedule
  | .resumeSchedule _ _ => .resumeSchedule
  | .triggerSchedule _ _ _ => .triggerSchedule

/-! ## Requests and responses -/

/-- Why the body of a trigger request was not read: `JsonRejection`. -/
inductive JsonRejection
  | payloadTooLarge
  | other
  deriving DecidableEq, Repr

/-- A request, by its route; `triggeredAt` is `triggered_at_unix_ms` of the body. -/
inductive Request
  | components
  | worker (component : Text)
  | scheduler (component : Text)
  | memory (component : Text)
  | subprocess (component : Text)
  | pauseWorker (component : Text)
  | resumeWorker (component : Text)
  | drainWorker (component : Text)
  | cancelTask (component task : Text)
  | pauseSchedule (component schedule : Text)
  | resumeSchedule (component schedule : Text)
  | triggerSchedule (component schedule : Text) (triggeredAt : Except JsonRejection (Fin (2 ^ 64)))

/-- The body of a response. Snapshots stand for the records made of them. -/
inductive Body
  | error (code : Text)
  | outcome (outcome : Text)
  | components (components : List ControlComponent)
  | worker (snapshot : WorkerControlSnapshot)
  | schedules (schedules : List ScheduleSnapshot)
  | memory (snapshot : MemoryPressureSnapshot)
  | subprocess (snapshot : SubprocessSnapshot)

structure Response where
  status : ℕ
  body : Body

def response (status : ℕ) (code : String) : Response := ⟨status, .error (utf8 code)⟩

def forbidden : Response := response 403 "forbidden"

def invalid (code : String) : Response := response 400 code

def notFound (code : String) : Response := response 404 code

def conflict (code : String) : Response := response 409 code

/-- `OutcomeDto::from`, of a mutation's outcome. -/
def mutationText : ControlMutationOutcome → Text
  | .applied => utf8 "applied"
  | .alreadyInState => utf8 "already_in_state"
  | .rejected => utf8 "rejected"

/-- `OutcomeDto::from`, of a cancellation's outcome. -/
def cancellationText : WorkerTaskCancellationOutcome → Text
  | .requested => utf8 "requested"
  | .alreadyRequested _ => utf8 "already_requested"
  | .notFound => utf8 "not_found"

/-- `OutcomeDto::from`, of a trigger's outcome. -/
def triggerText : ManualTriggerOutcome → Text
  | .confirmed => utf8 "confirmed"
  | .notStarted => utf8 "not_started"
  | .outcomeUnknown => utf8 "outcome_unknown"
  | .timedOut => utf8 "timed_out"
  | .saturated => utf8 "saturated"
  | .reconciliationRequired => utf8 "reconciliation_required"

def mutationResponse (outcome : ControlMutationOutcome) : Response :=
  ⟨if outcome = .rejected then 409 else 200, .outcome (mutationText outcome)⟩

def controlError (_ : ControlPlaneError) : Response := notFound "component_not_found"

def scheduleError : ScheduleBuildError → Response
  | .unknownSchedule _ => notFound "schedule_not_found"
  | .reconciliationNotRequired _ | .transitionNotAllowed _ => conflict "invalid_schedule_state"

/-- `UNIX_EPOCH.checked_add(Duration::from_millis(millis))`, whose seconds are an `i64`. -/
def unixMillis (millis : Fin (2 ^ 64)) : Option SystemTime :=
  if millis.val / 1000 < 2 ^ 63 then some (Int.ofNat (millis.val * 10 ^ 6)) else none

/-! ## Handlers -/

inductive Event (H : Type*)
  | asked (request : ControlAuthorizationRequest H) (granted : Bool)
  | mutated (mutation : Mutation)

/-- The plane after a request, the response and the events. -/
structure Handled (E σ H : Type*) where
  plane : ControlPlane E σ
  response : Response
  events : List (Event H) := []

/-- `HttpState` and the headers of the request. -/
structure HttpState (E σ H : Type*) where
  plane : ControlPlane E σ
  control : SchedulerControl σ
  authorizer : ControlAuthorizationRequest H → Bool
  headers : H

namespace HttpState

variable {E σ H : Type*} (state : HttpState E σ H)

/-- Asks the authorizer, and goes on when it grants the request. -/
def authorized (action : ControlAction) (component : Option ControlComponentId)
    (target : Option Text) (next : Handled E σ H) : Handled E σ H :=
  let request := { headers := state.headers, action, component, target }
  if state.authorizer request then
    { next with events := .asked request true :: next.events }
  else { plane := state.plane, response := forbidden, events := [.asked request false] }

/-- Refuses a request before the authorizer is asked. -/
def refuse (response : Response) : Handled E σ H :=
  { plane := state.plane, response }

def withComponent (component : Text) (next : ControlComponentId → Handled E σ H) :
    Handled E σ H :=
  match ControlComponentId.new component with
  | .error _ => state.refuse (invalid "invalid_component")
  | .ok component => next component

def withSchedule (schedule : Text) (next : ScheduleId → Handled E σ H) : Handled E σ H :=
  match ScheduleId.new schedule with
  | .error _ => state.refuse (invalid "invalid_schedule")
  | .ok schedule => next schedule

/-- A handler that shows a snapshot of one component. -/
def view {α : Type*} (component : Text) (action : ControlAction)
    (snapshot : ControlComponentId → Except ControlPlaneError α) (body : α → Body) :
    Handled E σ H :=
  state.withComponent component fun component =>
    state.authorized action (some component) none
      { plane := state.plane
        response := match snapshot component with
          | .ok snapshot => ⟨200, body snapshot⟩
          | .error error => controlError error }

def components : Handled E σ H :=
  state.authorized .viewComponents none none
    { plane := state.plane, response := ⟨200, .components state.plane.components⟩ }

def worker (component : Text) : Handled E σ H :=
  state.view component .viewWorker state.plane.workerSnapshot .worker

def scheduler (component : Text) : Handled E σ H :=
  state.view component .viewScheduler (state.plane.schedulerSnapshots state.control) .schedules

def memory (component : Text) : Handled E σ H :=
  state.view component .viewMemory state.plane.memorySnapshot .memory

def subprocess (component : Text) : Handled E σ H :=
  state.view component .viewSubprocess state.plane.subprocessSnapshot .subprocess

def workerMutation (component : Text) (action : ControlAction)
    (mutation : ControlComponentId → Mutation)
    (operation : ControlPlane E σ → ControlComponentId →
      ControlPlane E σ × Except ControlPlaneError ControlMutationOutcome) : Handled E σ H :=
  state.withComponent component fun component =>
    state.authorized action (some component) none
      (let (plane, result) := operation state.plane component
      { plane
        response := match result with
          | .ok outcome => mutationResponse outcome
          | .error error => controlError error
        events := [.mutated (mutation component)] })

def pauseWorker (component : Text) : Handled E σ H :=
  state.workerMutation component .pauseWorker .pauseWorker ControlPlane.pauseWorker

def resumeWorker (component : Text) : Handled E σ H :=
  state.workerMutation component .resumeWorker .resumeWorker ControlPlane.resumeWorker

def drainWorker (component : Text) : Handled E σ H :=
  state.workerMutation component .drainWorker .drainWorker ControlPlane.drainWorker

/-- `cancel_task`: the authorizer is shown the text that the task was parsed from. -/
def cancelTask (component task : Text) : Handled E σ H :=
  state.withComponent component fun component =>
    match parseU64 task with
    | none => state.refuse (invalid "invalid_task")
    | some taskId =>
      state.authorized .cancelWorkerTask (some component) (some task)
        (let (plane, result) := state.plane.cancelWorkerTask component taskId
        { plane
          response := match result with
            | .ok .notFound => notFound "task_not_found"
            | .ok outcome => ⟨200, .outcome (cancellationText outcome)⟩
            | .error error => controlError error
          events := [.mutated (.cancelWorkerTask component taskId)] })

def scheduleMutation (component schedule : Text) (action : ControlAction)
    (mutation : ControlComponentId → ScheduleId → Mutation)
    (operation : ControlPlane E σ → ControlComponentId → ScheduleId →
      ControlPlane E σ × Except ControlPlaneError (Except ScheduleBuildError Unit)) :
    Handled E σ H :=
  state.withComponent component fun component =>
    state.withSchedule schedule fun scheduleId =>
      state.authorized action (some component) (some schedule)
        (let (plane, result) := operation state.plane component scheduleId
        { plane
          response := match result with
            | .ok (.ok ()) => mutationResponse .applied
            | .ok (.error error) => scheduleError error
            | .error error => controlError error
          events := [.mutated (mutation component scheduleId)] })

def pauseSchedule (component schedule : Text) : Handled E σ H :=
  state.scheduleMutation component schedule .pauseSchedule .pauseSchedule
    fun plane => plane.pauseSchedule state.control

def resumeSchedule (component schedule : Text) : Handled E σ H :=
  state.scheduleMutation component schedule .resumeSchedule .resumeSchedule
    fun plane => plane.resumeSchedule state.control

/-- `trigger_schedule`: the body is looked at after the authorizer has answered. -/
def triggerSchedule (component schedule : Text)
    (triggeredAt : Except JsonRejection (Fin (2 ^ 64))) : Handled E σ H :=
  state.withComponent component fun component =>
    state.withSchedule schedule fun scheduleId =>
      state.authorized .triggerSchedule (some component) (some schedule)
        (match triggeredAt with
        | .error .payloadTooLarge => state.refuse (response 413 "payload_too_large")
        | .error .other => state.refuse (invalid "invalid_trigger_request")
        | .ok millis =>
          match unixMillis millis with
          | none => state.refuse (invalid "invalid_trigger_time")
          | some triggeredAt =>
            let (plane, result) :=
              state.plane.triggerSchedule state.control component scheduleId triggeredAt
            { plane
              response := match result with
                | .ok (.ok outcome) => ⟨200, .outcome (triggerText outcome)⟩
                | .ok (.error error) => scheduleError error
                | .error error => controlError error
              events := [.mutated (.triggerSchedule component scheduleId triggeredAt)] })

/-- The router of an adapter with mutations enabled. -/
def serve : Request → Handled E σ H
  | .components => state.components
  | .worker component => state.worker component
  | .scheduler component => state.scheduler component
  | .memory component => state.memory component
  | .subprocess component => state.subprocess component
  | .pauseWorker component => state.pauseWorker component
  | .resumeWorker component => state.resumeWorker component
  | .drainWorker component => state.drainWorker component
  | .cancelTask component task => state.cancelTask component task
  | .pauseSchedule component schedule => state.pauseSchedule component schedule
  | .resumeSchedule component schedule => state.resumeSchedule component schedule
  | .triggerSchedule component schedule triggeredAt =>
    state.triggerSchedule component schedule triggeredAt

end HttpState

end PlenoraRuntime.Control
