import PlenoraRuntime.Control.Http

/-!
# What the authorizer was asked about what is changed

`Calls` says which mutation a request leads to, and `Outcome` what the router does with any
request: it refuses it, is denied it, shows something, or asks once and then performs that
one mutation.

The question carries the text of the path. For schedules that is the identity itself. The
number of a task has several spellings, and the text is the one that the task's `Display`
prints exactly when it has neither a plus sign nor a leading zero (`target_iff_of_calls`).
-/

namespace PlenoraRuntime.Control

open List

open Scheduler (ScheduleId)

/-! ## Which mutation a request leads to -/

/-- The text that a request shows the authorizer. -/
def Request.target : Request → Option Text
  | .cancelTask _ task => some task
  | .pauseSchedule _ schedule | .resumeSchedule _ schedule | .triggerSchedule _ schedule _ =>
    some schedule
  | .components | .worker _ | .scheduler _ | .memory _ | .subprocess _ | .pauseWorker _
  | .resumeWorker _ | .drainWorker _ => none

/-- A request whose path texts are valid leads to the mutation. -/
inductive Calls : Request → Mutation → Prop
  | pauseWorker {component : Text} {id : ControlComponentId}
      (hid : ControlComponentId.new component = .ok id) :
      Calls (.pauseWorker component) (.pauseWorker id)
  | resumeWorker {component : Text} {id : ControlComponentId}
      (hid : ControlComponentId.new component = .ok id) :
      Calls (.resumeWorker component) (.resumeWorker id)
  | drainWorker {component : Text} {id : ControlComponentId}
      (hid : ControlComponentId.new component = .ok id) :
      Calls (.drainWorker component) (.drainWorker id)
  | cancelTask {component task : Text} {id : ControlComponentId} {taskId : Fin (2 ^ 64)}
      (hid : ControlComponentId.new component = .ok id) (htask : parseU64 task = some taskId) :
      Calls (.cancelTask component task) (.cancelWorkerTask id taskId)
  | pauseSchedule {component schedule : Text} {id : ControlComponentId} {scheduleId : ScheduleId}
      (hid : ControlComponentId.new component = .ok id)
      (hsched : ScheduleId.new schedule = .ok scheduleId) :
      Calls (.pauseSchedule component schedule) (.pauseSchedule id scheduleId)
  | resumeSchedule {component schedule : Text} {id : ControlComponentId}
      {scheduleId : ScheduleId} (hid : ControlComponentId.new component = .ok id)
      (hsched : ScheduleId.new schedule = .ok scheduleId) :
      Calls (.resumeSchedule component schedule) (.resumeSchedule id scheduleId)
  | triggerSchedule {component schedule : Text} {millis : Fin (2 ^ 64)}
      {id : ControlComponentId} {scheduleId : ScheduleId} {triggeredAt : SystemTime}
      (hid : ControlComponentId.new component = .ok id)
      (hsched : ScheduleId.new schedule = .ok scheduleId)
      (htime : unixMillis millis = some triggeredAt) :
      Calls (.triggerSchedule component schedule (.ok millis))
        (.triggerSchedule id scheduleId triggeredAt)

inductive Outcome {E σ H : Type*} (state : HttpState E σ H) (request : Request) :
    Handled E σ H → Prop
  | refused (response : Response) : Outcome state request (state.refuse response)
  | asked (question : ControlAuthorizationRequest H) (response : Response) :
      Outcome state request
        ⟨state.plane, response, [.asked question (state.authorizer question)]⟩
  | mutated {mutation question} (hcalls : Calls request mutation) (hquestion : question =
        ⟨state.headers, mutation.action, some mutation.component, request.target⟩)
      (hgranted : state.authorizer question = true) (response : Response) :
      Outcome state request
        ⟨state.plane.apply state.control mutation, response,
          [.asked question true, .mutated mutation]⟩

variable {component : Text} {request : Request}

section outcome

variable {E σ H : Type*} {state : HttpState E σ H} {mutation : Mutation}

theorem outcome_authorized (hcalls : Calls request mutation) {next : Handled E σ H}
    (hplane : next.plane = state.plane.apply state.control mutation)
    (hevents : next.events = [.mutated mutation]) :
    Outcome state request
      (state.authorized mutation.action (some mutation.component) request.target next) := by
  simp only [HttpState.authorized]
  split_ifs with hgranted
  · rw [hplane, hevents]
    exact .mutated hcalls rfl hgranted _
  · rw [← Bool.eq_false_of_not_eq_true hgranted]
    exact .asked _ _

theorem outcome_shown (action : ControlAction) (component : Option ControlComponentId)
    (target : Option Text) (response : Response) :
    Outcome state request (state.authorized action component target (state.refuse response)) := by
  simp only [HttpState.authorized]
  split_ifs with hgranted
  · rw [← hgranted]
    exact .asked _ _
  · rw [← Bool.eq_false_of_not_eq_true hgranted]
    exact .asked _ _

/-- A path whose component is not valid is refused. -/
theorem outcome_withComponent {next : ControlComponentId → Handled E σ H}
    (hnext : ∀ id, ControlComponentId.new component = .ok id → Outcome state request (next id)) :
    Outcome state request (state.withComponent component next) := by
  unfold HttpState.withComponent
  split
  case h_1 => exact .refused _
  case h_2 id hid => exact hnext id hid

theorem outcome_withSchedule {schedule} {next : ScheduleId → Handled E σ H}
    (hnext : ∀ id, ScheduleId.new schedule = .ok id → Outcome state request (next id)) :
    Outcome state request (state.withSchedule schedule next) := by
  unfold HttpState.withSchedule
  split
  case h_1 => exact .refused _
  case h_2 id hid => exact hnext id hid

theorem outcome_serve (state : HttpState E σ H) (request : Request) :
    Outcome state request (state.serve request) := by
  cases request with
  | components => exact outcome_shown ..
  | worker component | scheduler component | memory component | subprocess component =>
    exact outcome_withComponent fun _ _ => outcome_shown ..
  | pauseWorker component =>
    exact outcome_withComponent fun _ hid => outcome_authorized (.pauseWorker hid) rfl rfl
  | resumeWorker component =>
    exact outcome_withComponent fun _ hid => outcome_authorized (.resumeWorker hid) rfl rfl
  | drainWorker component =>
    exact outcome_withComponent fun _ hid => outcome_authorized (.drainWorker hid) rfl rfl
  | cancelTask component task =>
    refine outcome_withComponent fun _ hid => ?_
    cases htask : parseU64 task with
    | none => exact .refused _
    | some taskId => exact outcome_authorized (.cancelTask hid htask) rfl rfl
  | pauseSchedule component schedule =>
    exact outcome_withComponent fun _ hid => outcome_withSchedule fun _ hsched =>
      outcome_authorized (.pauseSchedule hid hsched) rfl rfl
  | resumeSchedule component schedule =>
    exact outcome_withComponent fun _ hid => outcome_withSchedule fun _ hsched =>
      outcome_authorized (.resumeSchedule hid hsched) rfl rfl
  | triggerSchedule component schedule triggeredAt =>
    refine outcome_withComponent fun _ hid => outcome_withSchedule fun _ hsched => ?_
    match triggeredAt with
    | .error .payloadTooLarge | .error .other => exact outcome_shown ..
    | .ok millis =>
      dsimp only
      cases htime : unixMillis millis with
      | none => exact outcome_shown ..
      | some instant => exact outcome_authorized (.triggerSchedule hid hsched htime) rfl rfl

/-! ## What is asked and what is changed -/

theorem value_of_new {value id} (h : ScheduleId.new value = .ok id) :
    id.value = value := by
  unfold ScheduleId.new at h
  split_ifs at h
  cases h
  rfl

/-- The path spells the number of the task in another way than `Display` does. -/
def Request.respelled : Request → Bool
  | .cancelTask component task =>
    (ControlComponentId.new component).isOk && (parseU64 task).isSome && isPadded task
  | _ => false

/-- The text shown is the one of the object changed, unless a task was respelled. -/
theorem target_iff_of_calls (hcalls : Calls request mutation) :
    request.target = mutation.target ↔ request.respelled = false := by
  cases hcalls with
  | pauseWorker | resumeWorker | drainWorker => exact iff_of_true rfl rfl
  | pauseSchedule hid hsched | resumeSchedule hid hsched
  | triggerSchedule hid hsched =>
    exact iff_of_true (congrArg some (value_of_new hsched).symm) rfl
  | @cancelTask component task id taskId hid htask =>
    have hspelling := decimal_eq_iff_of_parseU64 htask
    simp only [Request.target, Mutation.target, Request.respelled, hid, htask, Except.toBool,
      Option.isSome_some, Bool.true_and, Option.some.injEq]
    rw [← hspelling]
    exact eq_comm

end outcome

def Event.mutation? {H : Type*} : Event H → Option Mutation
  | .asked _ _ => none
  | .mutated mutation => some mutation

def Event.question? {H : Type*} : Event H → Option (ControlAuthorizationRequest H)
  | .asked question _ => some question
  | .mutated _ => none

def Handled.mutations {E σ H : Type*} (handled : Handled E σ H) : List Mutation :=
  handled.events.filterMap Event.mutation?

def Handled.questions {E σ H : Type*} (handled : Handled E σ H) :
    List (ControlAuthorizationRequest H) :=
  handled.events.filterMap Event.question?

/-- The question that names the object a mutation changes. -/
def Mutation.question {H : Type*} (headers : H) (mutation : Mutation) :
    ControlAuthorizationRequest H :=
  ⟨headers, mutation.action, some mutation.component, mutation.target⟩

/-- The plane is changed at most once, by the mutation of the route, and only after the
authorizer has granted the question that names what is changed. -/
structure Names {E σ H : Type*} (state : HttpState E σ H) (request : Request)
    (handled : Handled E σ H) : Prop where
  once : handled.mutations.length ≤ 1
  plane : handled.plane =
    handled.mutations.foldl (ControlPlane.apply state.control) state.plane
  calls : ∀ mutation ∈ handled.mutations, Calls request mutation
  granted : ∀ before mutation after, handled.events = before ++ .mutated mutation :: after →
    .asked (mutation.question state.headers) true ∈ before ∧
      state.authorizer (mutation.question state.headers) = true

section names

variable {E σ H : Type*} {state : HttpState E σ H} {handled : Handled E σ H} {task : Text}

theorem Outcome.names (hout : Outcome state request handled)
    (hplain : request.respelled = false) : Names state request handled := by
  cases hout with
  | refused response =>
    exact ⟨Nat.zero_le 1, rfl, by simp [HttpState.refuse, Handled.mutations],
      by simp [HttpState.refuse]⟩
  | asked question response =>
    refine ⟨Nat.zero_le 1, rfl, by simp [Handled.mutations, Event.mutation?], ?_⟩
    intro before mutation after hevents
    change [_] = _ at hevents
    have hmem : Event.mutated mutation ∈ [.asked question (state.authorizer question)] := by
      rw [hevents]
      exact mem_append_right before mem_cons_self
    simp at hmem
  | @mutated mutation question hcalls hquestion hgranted response =>
    -- The text of the path is what the mutation's object prints.
    have htarget : question = mutation.question state.headers := by
      rw [hquestion, (target_iff_of_calls hcalls).2 hplain]
      rfl
    subst htarget
    refine ⟨Nat.le_refl 1, rfl, ?_, ?_⟩
    · intro other hother
      obtain rfl := mem_singleton.1 hother
      exact hcalls
    · intro before other after hevents
      cases before with
      | nil => simp at hevents
      | cons first before =>
        obtain ⟨rfl, hrest⟩ := List.cons.inj hevents
        cases before with
        | cons second before => simp at hrest
        | nil =>
          obtain ⟨rfl, _⟩ : mutation = other ∧ after = [] := by simpa using hrest
          exact ⟨mem_cons_self, hgranted⟩

/-- When everything is granted, the task is cancelled after a question about its path text. -/
theorem events_cancelTask {id taskId} (hid : ControlComponentId.new component = .ok id)
    (htask : parseU64 task = some taskId)
    (hgranted : state.authorizer ⟨state.headers, .cancelWorkerTask, some id, some task⟩ = true) :
    (state.serve (.cancelTask component task)).events =
      [.asked ⟨state.headers, .cancelWorkerTask, some id, some task⟩ true,
        .mutated (.cancelWorkerTask id taskId)] := by
  simp [HttpState.serve, HttpState.cancelTask, HttpState.withComponent, hid, htask,
    HttpState.authorized, hgranted]

/-- A request that names what it changes under every authorizer respells no task. -/
theorem not_respelled_of_names (hgranted : ∀ question, state.authorizer question = true)
    (hnames : Names state request (state.serve request)) : request.respelled = false := by
  cases request with
  | cancelTask component task =>
    refine Bool.eq_false_of_not_eq_true fun hrespelled => ?_
    cases hid : ControlComponentId.new component with
    | error error => simp [Request.respelled, hid, Except.toBool] at hrespelled
    | ok id =>
      cases htask : parseU64 task with
      | none => simp [Request.respelled, htask] at hrespelled
      | some taskId =>
        have hevents := events_cancelTask hid htask (hgranted _)
        have hasked := mem_singleton.1 (hnames.granted [_] _ [] hevents).1
        have htarget : some task = (Mutation.cancelWorkerTask id taskId).target :=
          congrArg ControlAuthorizationRequest.target (Event.asked.inj hasked).1.symm
        have hplain := (target_iff_of_calls (.cancelTask hid htask)).1 htarget
        simp [hrespelled] at hplain
  | _ => rfl

/-- Two spellings of one task that are not respelled are the same text. -/
theorem questions_eq_of_not_respelled {other} (hparse : parseU64 task = parseU64 other)
    (hsome : (parseU64 task).isSome = true)
    (htask : (Request.cancelTask component task).respelled = false)
    (hother : (Request.cancelTask component other).respelled = false) :
    (state.serve (.cancelTask component task)).questions =
      (state.serve (.cancelTask component other)).questions := by
  cases hid : ControlComponentId.new component with
  | error error =>
    simp [HttpState.serve, HttpState.cancelTask, HttpState.withComponent, hid]
  | ok id =>
    obtain ⟨taskId, htaskId⟩ := Option.isSome_iff_exists.1 hsome
    have hotherId : parseU64 other = some taskId := hparse ▸ htaskId
    have htext : some task = _ := (target_iff_of_calls (.cancelTask hid htaskId)).2 htask
    have hotherText : some other = _ := (target_iff_of_calls (.cancelTask hid hotherId)).2 hother
    obtain rfl : task = other := Option.some.inj (htext.trans hotherText.symm)
    rfl

/-- A request names what it changes under every authorizer exactly when it does not respell
a task, and such requests about one task ask the same question. -/
theorem control_authorization_iff (plane : ControlPlane E σ) (control : SchedulerControl σ)
    (headers : H) :
    (∀ request : Request,
      (∀ authorizer,
        Names ⟨plane, control, authorizer, headers⟩ request
          (HttpState.serve ⟨plane, control, authorizer, headers⟩ request)) ↔
      request.respelled = false) ∧
    ∀ component task other : Text,
      (parseU64 task).isSome = true → parseU64 task = parseU64 other →
      (Request.cancelTask component task).respelled = false →
      (Request.cancelTask component other).respelled = false →
      ∀ authorizer,
        (HttpState.serve ⟨plane, control, authorizer, headers⟩
            (.cancelTask component task)).questions =
          (HttpState.serve ⟨plane, control, authorizer, headers⟩
            (.cancelTask component other)).questions := by
  refine ⟨fun request => ⟨fun hnames => ?_, fun hplain authorizer => ?_⟩, ?_⟩
  · exact not_respelled_of_names (fun _ => rfl) (hnames fun _ => true)
  · exact (outcome_serve _ request).names hplain
  · intro component task other hsome hparse htask hother authorizer
    exact questions_eq_of_not_respelled hparse hsome htask hother

end names

/-! ## A worker whose task 7 must not be cancelled -/

def jobs : ControlComponentId := ⟨utf8 "jobs", by decide, by decide, by decide⟩

def jobsPlane : ControlPlane Unit Unit where
  workers :=
    [(jobs,
      { capacity := 1
        state :=
          { inFlight := 1
            permits := { available := 0 }
            registry :=
              { nextTaskId := 8
                tasks := [(7, ⟨⟨7, ⟨0⟩, ⟨0⟩, 1, 0, none⟩, 0⟩)]
                sorted := List.pairwise_singleton _ _ } } })]

def noSchedules : SchedulerControl Unit where
  snapshots _ := []
  pause _ id := ((), .error (.unknownSchedule id))
  resume _ id := ((), .error (.unknownSchedule id))
  trigger _ id _ := ((), .error (.unknownSchedule id))

def protectSeven (question : ControlAuthorizationRequest Unit) : Bool :=
  question.target != some (utf8 "7")

/-- With everything granted, task `7` is cancelled under its own name. -/
theorem control_authorization_iff_plain_seven :
    let state : HttpState Unit Unit Unit := ⟨jobsPlane, noSchedules, fun _ => true, ()⟩
    let request := Request.cancelTask (utf8 "jobs") (utf8 "7")
    (state.serve request).mutations = [.cancelWorkerTask jobs 7] ∧
      Names state request (state.serve request) :=
  ⟨by decide +kernel, ((control_authorization_iff jobsPlane noSchedules ()).1 _).2
    (by decide +kernel) fun _ => true⟩

/-- Cancelling task `7` is forbidden, and cancelling task `007` cancels it. -/
theorem protected_task_cancelled :
    (HttpState.serve ⟨jobsPlane, noSchedules, protectSeven, ()⟩
        (.cancelTask (utf8 "jobs") (utf8 "7"))).mutations = [] ∧
      (HttpState.serve ⟨jobsPlane, noSchedules, protectSeven, ()⟩
        (.cancelTask (utf8 "jobs") (utf8 "007"))).mutations = [.cancelWorkerTask jobs 7] ∧
      (HttpState.serve ⟨jobsPlane, noSchedules, protectSeven, ()⟩
        (.cancelTask (utf8 "jobs") (utf8 "007"))).plane.workers.map
          (fun worker => worker.2.activeTasks.map fun task =>
            (task.taskId, task.cancellationReason)) = [[(7, some .requested)]] ∧
      ¬ Names ⟨jobsPlane, noSchedules, protectSeven, ()⟩ (.cancelTask (utf8 "jobs") (utf8 "007"))
        (HttpState.serve ⟨jobsPlane, noSchedules, protectSeven, ()⟩
          (.cancelTask (utf8 "jobs") (utf8 "007"))) := by
  have hevents : (HttpState.serve ⟨jobsPlane, noSchedules, protectSeven, ()⟩
      (.cancelTask (utf8 "jobs") (utf8 "007"))).events =
        [.asked ⟨(), .cancelWorkerTask, some jobs, some (utf8 "007")⟩ true,
          .mutated (.cancelWorkerTask jobs 7)] :=
    events_cancelTask (by decide +kernel) (by decide +kernel) (by decide +kernel)
  refine ⟨by decide +kernel, by decide +kernel, by decide +kernel, fun hnames => ?_⟩
  have hgranted := (hnames.granted [_] _ [] hevents).2
  have hforbidden : protectSeven (Mutation.question () (.cancelWorkerTask jobs 7)) = false := by
    decide +kernel
  exact absurd hgranted (by simp [hforbidden])

end PlenoraRuntime.Control
