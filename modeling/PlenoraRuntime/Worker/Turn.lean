import PlenoraRuntime.Foundation.Slots
import PlenoraRuntime.Worker.Executor

/-!
# One execution among the others

An execution is only affected by its own steps and by whoever cancels its token.

* **The view.** `View` is what an execution sees of itself: where it is, its reporter and
  its token.
* **Turns.** `Turn` lists what one of its own steps can do to the view, whatever the shared
  state holds, and is the only case analysis of `poll`, `drop` and `panic` that the results
  about single executions need.
* **Effects.** Of all executions, a step of the executor gives one a turn, or is about
  something else (`State.Effect`). The others keep everything but their tokens.
* **Runs.** An invariant of one execution holds of a new one, and its turns keep it and so
  does whoever cancels its token (`Holds`). `Holds.run` cuts the run of one execution out of
  a run of the executor.
-/

namespace PlenoraRuntime.Worker

open Messaging Transition List Option Function

variable {E : Type*}

structure View (E : Type*) where
  phase : Phase E
  reporter : LifecycleState
  token : TokenState

def State.view (s : State E) (execution : Execution E) : View E where
  phase := execution.phase
  reporter := execution.reporter
  token := s.tokens execution.context.cancellation

/-- The phases between the first report and the registration of the task. -/
def Phase.admitting : Phase E → Bool
  | .checking | .gating | .waiting | .polling | .acquiring | .closed | .acquired | .confirming
  | .starting | .refused | .registering => true
  | _ => false

/-- The phases in which the future can be dropped once it was polled. -/
def Phase.suspended : Phase E → Bool
  | .waiting | .handling _ | .cleaning _ _ => true
  | _ => false

/-- An access that neither reports nor touches the token. -/
def Op.isRelease : Op → Bool
  | .deregister _ | .finish | .notify | .release => true
  | .cancel _ | .transition _ | .dropGuard => false

/-- How an execution ends whose handler was given up. -/
def Stop.ending (executor : Executor E) : Stop → TaskState × WorkerExecutionError E
  | .cancelled reason => (.cancelled reason, .cancelled reason)
  | .deadline timeout observed =>
    if observed ≠ .timeout then (.cancelled observed, .cancelled observed)
    else (.timedOut, .timedOut timeout executor.config.timeoutRetryDecision)

/-- What a clone of an execution's reporter is answered. -/
def Event.ofReport (i : ℕ) : Except TaskProgressError TaskLifecycleEvent → Event E
  | .ok event => .lifecycle i event
  | .error error => .refused i error

section

variable (executor : Executor E) (i : ℕ) (context : WorkerContext)

/-- What an execution's own step does to its view, and the events it reports. -/
inductive Turn :
    Action E → View E → List (Event E) → View E → Prop
  | start {input reporter token} :
      Turn (.poll i input) ⟨.created, reporter, token⟩
        ((LifecycleState.start context.task input.now).2.toOption.toList.map (.lifecycle i))
        ⟨.checking, (LifecycleState.start context.task input.now).1, token⟩
  /-- Admission goes on. -/
  | advance {input} {phase phase' : Phase E} {reporter token events}
      (hphase : phase.admitting = true) (hphase' : phase'.admitting = true)
      (hevents : events = [] ∨ events = [.started i]) :
      Turn (.poll i input) ⟨phase, reporter, token⟩ events
        ⟨phase', reporter, token⟩
  | reject {input} {phase : Phase E} {reporter token events} (hphase : phase.admitting = true)
      (hevents : events = [] ∨ ∃ error, events = [.registered i (.error error)])
      (reason : WorkerAdmissionReason) :
      Turn (.poll i input) ⟨phase, reporter, token⟩ events
        ⟨.leaving (finishAdmission reason ++ phase.scope) (some (.error (.admission reason))),
          reporter, token⟩
  /-- The token was cancelled before the handler was called. -/
  | forestall {input} {phase : Phase E} {reporter} (hphase : phase.admitting = true)
      (reason : TaskCancellationReason) :
      Turn (.poll i input) ⟨phase, reporter, some reason⟩ []
        ⟨.leaving ([.transition (.cancelled reason)] ++ phase.scope)
          (some (.error (.cancelled reason))), reporter, some reason⟩
  | register {input reporter token} (taskId : WorkerTaskId) :
      Turn (.poll i input) ⟨.registering, reporter, token⟩
        [.registered i (.ok taskId)] ⟨.entering taskId, reporter, token⟩
  | enter {input taskId reporter token} :
      Turn (.poll i input) ⟨.entering taskId, reporter, token⟩
        ((reporter.transition context.task input.now .running).2.toList.map (.lifecycle i))
        ⟨.invoking taskId, (reporter.transition context.task input.now .running).1, token⟩
  | invoke {input taskId reporter token} :
      Turn (.poll i input) ⟨.invoking taskId, reporter, token⟩ [.invoked i]
        ⟨.handling taskId, reporter, token⟩
  | handle {input : Poll E} {taskId reporter token result}
      (hhandler : input.handler = some result) :
      Turn (.poll i input) ⟨.handling taskId, reporter, token⟩
        [.handled i result] ⟨.handled taskId result, reporter, token⟩
  | suspend {input : Poll E} {taskId reporter token} (hhandler : input.handler = none) :
      Turn (.poll i input) ⟨.handling taskId, reporter, token⟩ []
        ⟨.watching taskId, reporter, token⟩
  | interrupt {input taskId reporter} (reason : TaskCancellationReason) :
      Turn (.poll i input) ⟨.watching taskId, reporter, some reason⟩ []
        ⟨.cleaning taskId (.cancelled reason), reporter, some reason⟩
  | expire {input : Poll E} {taskId reporter timeout} (hdeadline : input.deadline = true) :
      Turn (.poll i input) ⟨.watching taskId, reporter, none⟩ []
        ⟨.expired taskId timeout, reporter, none⟩
  | beat {input taskId reporter} :
      Turn (.poll i input) ⟨.watching taskId, reporter, none⟩ []
        ⟨.beating taskId, reporter, none⟩
  | resume {input taskId reporter} :
      Turn (.poll i input) ⟨.watching taskId, reporter, none⟩ []
        ⟨.handling taskId, reporter, none⟩
  | beaten {input taskId reporter token} :
      Turn (.poll i input) ⟨.beating taskId, reporter, token⟩
        ((reporter.heartbeat context.task input.now).2.toOption.toList.map (.lifecycle i))
        ⟨.handling taskId, (reporter.heartbeat context.task input.now).1, token⟩
  /-- The handler completed, but the token was cancelled. -/
  | overrule {input taskId result reporter} (reason : TaskCancellationReason) :
      Turn (.poll i input) ⟨.handled taskId result, reporter, some reason⟩ []
        ⟨.leaving ([.transition (.cancelled reason)] ++ Phase.scope (.handled taskId result))
          (some (.error (.cancelled reason))), reporter, some reason⟩
  | succeed {input taskId reporter} :
      Turn (.poll i input) ⟨.handled taskId (.ok ()), reporter, none⟩ []
        ⟨.leaving ([.transition .succeeded] ++ Phase.scope (E := E) (.handled taskId (.ok ())))
          (some (.ok ())), reporter, none⟩
  | fail {input taskId source reporter} :
      Turn (.poll i input) ⟨.handled taskId (.error source), reporter, none⟩ []
        ⟨.failing taskId source, reporter, none⟩
  | failed {input taskId source reporter token} :
      Turn (.poll i input) ⟨.failing taskId source, reporter, token⟩
        ((reporter.transition context.task input.now .failed).2.toList.map (.lifecycle i))
        ⟨.deciding taskId source, (reporter.transition context.task input.now .failed).1, token⟩
  | decide {input taskId source reporter token} :
      Turn (.poll i input) ⟨.deciding taskId source, reporter, token⟩ []
        ⟨.leaving (Phase.scope (.deciding taskId source))
          (some (.error (.handler source
            (executor.retryPolicy context.task.attempt source)))), reporter, token⟩
  | stop {input taskId timeout reporter token} :
      Turn (.poll i input) ⟨.expired taskId timeout, reporter, token⟩ []
        ⟨.cleaning taskId (.deadline timeout (token.getD .timeout)), reporter,
          (token.cancel .timeout).1⟩
  | clean {input : Poll E} {taskId stop reporter token} (hhandler : input.handler = none) :
      Turn (.poll i input) ⟨.cleaning taskId stop, reporter, token⟩ []
        ⟨.cleaning taskId stop, reporter, token⟩
  | cleaned {input taskId stop reporter token} :
      Turn (.poll i input) ⟨.cleaning taskId stop, reporter, token⟩ []
        ⟨.leaving ([.transition (stop.ending executor).1] ++
            Phase.scope (E := E) (.cleaning taskId stop))
          (some (.error (stop.ending executor).2)), reporter, token⟩
  | cancel {input reason ops outcome reporter token} :
      Turn (.poll i input)
        ⟨.leaving (.cancel reason :: ops) outcome, reporter, token⟩ []
        ⟨.leaving ops outcome, reporter, (token.cancel reason).1⟩
  | transition {input state ops outcome reporter token} :
      Turn (.poll i input)
        ⟨.leaving (.transition state :: ops) outcome, reporter, token⟩
        ((reporter.transition context.task input.now state).2.toList.map (.lifecycle i))
        ⟨.leaving ops outcome, (reporter.transition context.task input.now state).1, token⟩
  | release {input} {op : Op} (hop : op.isRelease = true) {ops outcome reporter token} :
      Turn (.poll i input) ⟨.leaving (op :: ops) outcome, reporter, token⟩ []
        ⟨.leaving ops outcome, reporter, token⟩
  /-- The execution guard finds the token cancelled. -/
  | guard {input ops outcome reporter} (reason : TaskCancellationReason) :
      Turn (.poll i input)
        ⟨.leaving (.dropGuard :: ops) outcome, reporter, some reason⟩ []
        ⟨.leaving (.transition (.cancelled reason) :: ops) outcome, reporter, some reason⟩
  /-- The execution guard cancels the token. -/
  | abandon {input ops outcome reporter} :
      Turn (.poll i input)
        ⟨.leaving (.dropGuard :: ops) outcome, reporter, none⟩ []
        ⟨.leaving (.cancel .executionDropped :: .transition (.cancelled .executionDropped) :: ops)
          outcome, reporter, none⟩
  | finish {input outcome reporter token} :
      Turn (.poll i input) ⟨.leaving [] outcome, reporter, token⟩
        [.finished i outcome] ⟨.done, reporter, token⟩
  | dropUnpolled {reporter token} :
      Turn (.drop i) ⟨.created, reporter, token⟩ [.finished i none]
        ⟨.done, reporter, token⟩
  /-- The future is dropped, or the handler panics. -/
  | unwind {action} (hact : action = .drop i ∨ action = .panic i) {phase : Phase E}
      (hphase : phase.suspended = true) {reporter token} :
      Turn action ⟨phase, reporter, token⟩ []
        ⟨.leaving (phase.scope ++ [.dropGuard]) none, reporter, token⟩
  /-- The retry policy panics. -/
  | policyPanic {taskId source reporter token} :
      Turn (.panic i) ⟨.deciding taskId source, reporter, token⟩ []
        ⟨.leaving (Phase.scope (.deciding taskId source)) none, reporter, token⟩
  | report {progress now phase} {reporter : LifecycleState} {token}
      (hstart : reporter.sequence ≠ 0) :
      Turn (.report i progress now) ⟨phase, reporter, token⟩
        [.ofReport i (reporter.report context.task now progress).2]
        ⟨phase, (reporter.report context.task now progress).1, token⟩
  | heartbeat {now phase} {reporter : LifecycleState} {token} (hstart : reporter.sequence ≠ 0) :
      Turn (.heartbeat i now) ⟨phase, reporter, token⟩
        [.ofReport i (reporter.heartbeat context.task now).2]
        ⟨phase, (reporter.heartbeat context.task now).1, token⟩

end

/-! ## Steps of the executor are turns -/

/-- The gate is as it was. -/
structure SameGate (s s' : State E) : Prop where
  admission : s'.admission = s.admission
  closed : s'.permits.closed = s.permits.closed
  drains : s'.drains = s.drains

namespace State

/-- Execution `i` takes a turn, and nothing else that executions see changes. -/
def Turns (executor : Executor E) (s : State E) (i : ℕ) (execution : Execution E)
    (action : Action E) (next : State E × List (Event E)) : Prop :=
  ∃ execution', next.1.executions = s.executions.set i execution' ∧
    execution'.context = execution.context ∧
    (∀ token, token ≠ execution.context.cancellation → next.1.tokens token = s.tokens token) ∧
    Turn executor i execution.context action (s.view execution) next.2 (next.1.view execution')

variable {executor : Executor E} {s s₁ : State E} {i : ℕ} {action : Action E}
  {context : WorkerContext} {reporter reporter' : LifecycleState} {phase phase' : Phase E}
  {events : List (Event E)} {next : State E × List (Event E)} {execution : Execution E}
  {input : Poll E}

theorem turns_on (hexecs : s₁.executions = s.executions) (htokens : s₁.tokens = s.tokens)
    (hturn : Turn executor i context action ⟨phase, reporter, s.tokens context.cancellation⟩
      events ⟨phase', reporter', s.tokens context.cancellation⟩)
    (hgate : SameGate s s₁ := by exact ⟨rfl, rfl, rfl⟩) :
    s.Turns executor i ⟨context, reporter, phase⟩ action
        (s₁.setExecution i ⟨context, reporter', phase'⟩, events) ∧
      SameGate s (s₁.setExecution i ⟨context, reporter', phase'⟩) := by
  refine ⟨⟨⟨context, reporter', phase'⟩, ?_, rfl, fun token _ => congrFun htokens token, ?_⟩,
    hgate.admission, hgate.closed, hgate.drains⟩
  · rw [setExecution, hexecs]
  · simp only [setExecution, htokens]
    exact hturn

/-- A turn that cancels the token, as far as it is not cancelled yet. -/
theorem turns_cancel {reason : TaskCancellationReason}
    (hturn : Turn executor i context action ⟨phase, reporter, s.tokens context.cancellation⟩
      events ⟨phase', reporter, ((s.tokens context.cancellation).cancel reason).1⟩) :
    let next := (s.cancelToken context.cancellation reason).setExecution i
      ⟨context, reporter, phase'⟩
    s.Turns executor i ⟨context, reporter, phase⟩ action (next, events) ∧ SameGate s next := by
  refine ⟨⟨⟨context, reporter, phase'⟩, rfl, rfl, fun token hne => update_of_ne hne _ _,
    ?_⟩, rfl, rfl, rfl⟩
  simp only [view, setExecution, cancelToken, update_self]
  exact hturn

theorem turns_checkShutdown (hphase : phase.admitting = true) (hphase' : phase'.admitting = true) :
    s.Turns executor i ⟨context, reporter, phase⟩ (.poll i input)
        (s.checkShutdown i ⟨context, reporter, phase⟩ phase', []) ∧
      SameGate s (s.checkShutdown i ⟨context, reporter, phase⟩ phase') := by
  unfold checkShutdown
  split
  · exact turns_on rfl rfl (.reject hphase (.inl rfl) .shutdownRequested)
  · exact turns_on rfl rfl (.advance hphase hphase' (.inl rfl))

theorem turns_checkCancellation (hphase : phase.admitting = true)
    (hphase' : phase'.admitting = true) :
    s.Turns executor i ⟨context, reporter, phase⟩ (.poll i input)
        (s.checkCancellation i ⟨context, reporter, phase⟩ phase', []) ∧
      SameGate s (s.checkCancellation i ⟨context, reporter, phase⟩ phase') := by
  unfold checkCancellation
  split
  case h_1 reason htoken =>
    refine turns_on rfl rfl ?_
    rw [htoken]
    exact .forestall hphase reason
  case h_2 => exact turns_on rfl rfl (.advance hphase hphase' (.inl rfl))

theorem perform_turns (op : Op) (ops : List Op) (outcome : Option (ExecutionResult E))
    (input : Poll E) :
    let next :=
      s.perform i ⟨context, reporter, .leaving (op :: ops) outcome⟩ input.now op ops outcome
    s.Turns executor i ⟨context, reporter, .leaving (op :: ops) outcome⟩ (.poll i input) next ∧
      SameGate s next.1 := by
  cases op with
  | cancel reason => exact turns_cancel .cancel
  | transition state => exact turns_on rfl rfl .transition
  | deregister taskId | finish | notify | release => exact turns_on rfl rfl (.release rfl)
  | dropGuard =>
    simp only [perform]
    split
    case h_1 reason htoken =>
      refine turns_on rfl rfl ?_
      rw [htoken]
      exact .guard reason
    case h_2 htoken =>
      refine turns_on rfl rfl ?_
      rw [htoken]
      exact .abandon

theorem poll_turns (hexec : s.executions[i]? = some execution)
    (hpoll : s.poll i execution executor input = some next) :
    s.Turns executor i execution (.poll i input) next ∧ SameGate s next.1 := by
  obtain ⟨context, reporter, phase⟩ := execution
  cases phase <;> simp only [poll] at hpoll
  -- A poll can do one thing only here.
  case created | entering | failing | beating | deciding | invoking =>
    cases hpoll
    first
      | exact turns_on rfl rfl .start
      | exact turns_on rfl rfl .enter
      | exact turns_on rfl rfl .failed
      | exact turns_on rfl rfl .beaten
      | exact turns_on rfl rfl .decide
      | exact turns_on rfl rfl .invoke
  case checking | waiting | acquired =>
    cases hpoll
    exact turns_checkShutdown rfl rfl
  case polling | confirming =>
    cases hpoll
    exact turns_checkCancellation rfl rfl
  case closed | refused =>
    cases hpoll
    exact turns_on rfl rfl (.reject rfl (.inl rfl) _)
  case gating =>
    split at hpoll <;> cases hpoll
    · exact turns_on rfl rfl (.advance rfl rfl (.inl rfl))
    · exact turns_on rfl rfl (.reject rfl (.inl rfl) _)
    · exact turns_on rfl rfl (.reject rfl (.inl rfl) _)
  case acquiring =>
    split at hpoll
    · cases hpoll
      exact turns_on rfl rfl (.advance rfl rfl (.inl rfl))
    · split at hpoll <;> cases hpoll <;>
        exact turns_on rfl rfl (.advance rfl rfl (.inl rfl))
  case starting =>
    split at hpoll <;> cases hpoll
    · exact turns_on rfl rfl (.advance rfl rfl (.inl rfl))
    · exact turns_on rfl rfl (.advance rfl rfl (.inr rfl))
  case registering =>
    split at hpoll <;> cases hpoll
    · exact turns_on rfl rfl (.register _)
    · exact turns_on rfl rfl (.reject rfl (.inr ⟨_, rfl⟩) _)
  case handling =>
    split at hpoll <;> cases hpoll
    case h_1 hhandler => exact turns_on rfl rfl (.handle hhandler)
    case h_2 hhandler => exact turns_on rfl rfl (.suspend hhandler)
  -- The token comes first, then the deadline and the heartbeat.
  case watching =>
    split at hpoll
    case h_1 reason htoken =>
      cases hpoll
      refine turns_on rfl rfl ?_
      rw [htoken]
      exact .interrupt reason
    case h_2 htoken =>
      split at hpoll
      case h_1 timeout hdeadline =>
        cases hpoll
        refine turns_on rfl rfl ?_
        rw [htoken]
        exact .expire hdeadline
      case h_2 =>
        split at hpoll <;> cases hpoll <;> refine turns_on rfl rfl ?_ <;>
          rw [htoken]
        · exact .beat
        · exact .resume
  case handled =>
    split at hpoll
    all_goals
      rename_i htoken
      cases hpoll
      refine turns_on rfl rfl ?_
      rw [htoken]
    · exact .overrule _
    · exact .succeed
    · exact .fail
  case expired =>
    cases hpoll
    exact turns_cancel .stop
  case cleaning taskId stop =>
    split at hpoll
    case isTrue =>
      -- How it ends depends on why the handler was given up.
      have hcleaned : next = (s.leave i ⟨context, reporter, .cleaning taskId stop⟩
          [.transition (stop.ending executor).1] (.error (stop.ending executor).2), []) := by
        cases stop with
        | cancelled reason => exact (Option.some.inj hpoll).symm
        | deadline timeout observed =>
          simp only [Stop.ending] at hpoll ⊢
          split at hpoll
          case isTrue hobs =>
            rw [if_pos hobs]
            exact (Option.some.inj hpoll).symm
          case isFalse hobs =>
            rw [if_neg hobs]
            exact (Option.some.inj hpoll).symm
      rw [hcleaned]
      exact turns_on rfl rfl .cleaned
    case isFalse hpend =>
      cases hpoll
      -- The handler still cleans up, and nothing changes.
      refine ⟨⟨_, (Slots.set_self hexec).symm, rfl, fun _ _ => rfl, ?_⟩, rfl, rfl, rfl⟩
      exact .clean (not_isSome_iff_eq_none.mp (not_or.mp hpend).1)
  case leaving ops outcome =>
    cases ops with
    | nil =>
      cases hpoll
      exact turns_on rfl rfl .finish
    | cons op ops =>
      cases hpoll
      exact perform_turns op ops outcome input
  case done => cases hpoll

theorem drop_turns (hdrop : s.drop i execution = some next) :
    s.Turns executor i execution (.drop i) next ∧ SameGate s next.1 := by
  obtain ⟨context, reporter, phase⟩ := execution
  cases phase <;> simp only [drop] at hdrop
  case created =>
    cases hdrop
    exact turns_on rfl rfl .dropUnpolled
  case waiting | handling | cleaning =>
    cases hdrop
    exact turns_on rfl rfl (.unwind (.inl rfl) rfl)
  all_goals cases hdrop

theorem panic_turns (hpanic : s.panic i execution = some next) :
    s.Turns executor i execution (.panic i) next ∧ SameGate s next.1 := by
  obtain ⟨context, reporter, phase⟩ := execution
  cases phase <;> simp only [panic] at hpanic
  case handling | cleaning =>
    cases hpanic
    exact turns_on rfl rfl (.unwind (.inr rfl) rfl)
  case deciding =>
    cases hpanic
    exact turns_on rfl rfl .policyPanic
  all_goals cases hpanic

theorem reportFrom_turns {answer : LifecycleState × Except TaskProgressError TaskLifecycleEvent}
    (hturn : ∀ token, execution.reporter.sequence ≠ 0 →
      Turn executor i execution.context action ⟨execution.phase, execution.reporter, token⟩
        [.ofReport i answer.2] ⟨execution.phase, answer.1, token⟩)
    (hrep : s.reportFrom i execution answer = some next) :
    s.Turns executor i execution action next ∧ SameGate s next.1 := by
  unfold reportFrom at hrep
  split at hrep
  case isTrue => cases hrep
  case isFalse hstart =>
    cases hrep
    exact turns_on rfl rfl (hturn _ hstart)

end State

/-! ## Steps, seen by one execution -/

def Action.execution? : Action E → Option ℕ
  | .poll i _ | .drop i | .panic i | .report i _ _ | .heartbeat i _ => some i
  | _ => none

def Event.execution? : Event E → Option ℕ
  | .lifecycle i _ | .refused i _ | .started i | .registered i _ | .invoked i | .handled i _
  | .finished i _ => some i
  | .paused _ | .resumed _ | .draining | .drainBegun _ _ | .drained _ _ => none

section steps

variable {executor : Executor E} {s s' : State E} {i j : ℕ} {action : Action E}
  {execution other : Execution E} {context : WorkerContext} {v v' : View E}
  {events history : List (Event E)} {actions : List (Action E)} {event : Event E}

theorem Turn.action_execution? (h : Turn executor i context action v events v') :
    action.execution? = some i := by
  cases h with
  | unwind hact => rcases hact with rfl | rfl <;> rfl
  | _ => rfl

/-- The events of a turn are about the execution that takes it. -/
theorem Turn.event_execution? (h : Turn executor i context action v events v') :
    ∀ event ∈ events, event.execution? = some i := by
  have hlifecycle : ∀ recorded : Option TaskLifecycleEvent,
      ∀ event ∈ recorded.toList.map (Event.lifecycle (E := E) i), event.execution? = some i := by
    intro recorded event hevent
    obtain ⟨_, -, rfl⟩ := List.mem_map.mp hevent
    rfl
  have hrep : ∀ answer, (Event.ofReport (E := E) i answer).execution? = some i := by
    intro answer
    cases answer <;> rfl
  intro event hevent
  cases h with
  | start | enter | beaten | failed | transition => exact hlifecycle _ event hevent
  | report | heartbeat => exact mem_singleton.mp hevent ▸ hrep _
  | advance _ _ hevents =>
    rcases hevents with rfl | rfl
    · cases hevent
    · exact mem_singleton.mp hevent ▸ rfl
  | reject _ hevents =>
    rcases hevents with rfl | ⟨error, rfl⟩
    · cases hevent
    · exact mem_singleton.mp hevent ▸ rfl
  | register | invoke | handle | finish | dropUnpolled =>
    exact mem_singleton.mp hevent ▸ rfl
  | _ => cases hevent

theorem Turn.about_ne (h : Turn executor j context action v events v') (hne : j ≠ i) :
    action.execution? ≠ some i ∧ ∀ event ∈ events, event.execution? ≠ some i := by
  have hsome : ∀ {k : Option ℕ}, k = some j → k ≠ some i :=
    fun hk hi => hne (Option.some.inj (hk.symm.trans hi))
  exact ⟨hsome h.action_execution?, fun event hevent => hsome (h.event_execution? event hevent)⟩

/-- A turn leaves the token alone or cancels it. -/
theorem Turn.token (h : Turn executor i context action v events v') :
    v'.token = v.token ∨ ∃ reason, v'.token = (v.token.cancel reason).1 := by
  cases h with
  | stop => exact .inr ⟨.timeout, rfl⟩
  | @cancel _ reason => exact .inr ⟨reason, rfl⟩
  | _ => exact .inl rfl

inductive State.Effect (executor : Executor E) (s : State E) :
    Action E → State E → List (Event E) → Prop
  | turn {j : ℕ} {other action s' events} (hother : s.executions[j]? = some other)
      (hturns : s.Turns executor j other action (s', events)) :
      Effect executor s action s' events
  | execute (context : WorkerContext) :
      Effect executor s (.execute context)
        { s with executions := s.executions ++ [{ context }] } []
  | cancel (token : ℕ) (reason : TaskCancellationReason) :
      Effect executor s (.cancel token reason) (s.cancelToken token reason) []
  /-- The step is about something else. -/
  | frame {action : Action E} {s' : State E} {events} (hact : action.execution? = none)
      (hexecs : s'.executions = s.executions) (htokens : s'.tokens = s.tokens)
      (hevents : ∀ event ∈ events, event.execution? = none) :
      Effect executor s action s' events

theorem State.pollDrain_frame {drain : Drain} {elapsed : Bool}
    (hpoll : s.pollDrain j drain elapsed = some (s', events)) :
    s'.executions = s.executions ∧ s'.tokens = s.tokens ∧
      ∀ event ∈ events, event.execution? = none := by
  unfold State.pollDrain State.drainBegun State.drained at hpoll
  split at hpoll
  case h_8 => cases hpoll
  all_goals
    try split at hpoll
    all_goals
      try split at hpoll
      all_goals
        cases hpoll
        exact ⟨rfl, rfl, by simp [Event.execution?]⟩

/-- A step of an execution is a turn of it, and leaves the gate alone. -/
theorem step_turns (hstep : step executor s action = some (s', events))
    (hact : action.execution? = some j) :
    ∃ other, s.executions[j]? = some other ∧ s.Turns executor j other action (s', events) ∧
      SameGate s s' := by
  cases action with
  | poll i input =>
    cases hact
    obtain ⟨other, hother, hpoll⟩ := bind_eq_some_iff.mp hstep
    exact ⟨other, hother, State.poll_turns hother hpoll⟩
  | drop i =>
    cases hact
    obtain ⟨other, hother, hdrop⟩ := bind_eq_some_iff.mp hstep
    exact ⟨other, hother, State.drop_turns hdrop⟩
  | panic i =>
    cases hact
    obtain ⟨other, hother, hpanic⟩ := bind_eq_some_iff.mp hstep
    exact ⟨other, hother, State.panic_turns hpanic⟩
  | report i progress now =>
    cases hact
    obtain ⟨other, hother, hrep⟩ := bind_eq_some_iff.mp hstep
    exact ⟨other, hother, State.reportFrom_turns (fun _ => .report) hrep⟩
  | heartbeat i now =>
    cases hact
    obtain ⟨other, hother, hrep⟩ := bind_eq_some_iff.mp hstep
    exact ⟨other, hother, State.reportFrom_turns (fun _ => .heartbeat) hrep⟩
  | _ => cases hact

theorem step_effect (hstep : step executor s action = some (s', events)) :
    s.Effect executor action s' events := by
  cases action with
  | execute context =>
    cases hstep
    exact .execute context
  | cancel token reason =>
    cases hstep
    exact .cancel token reason
  | poll | drop | panic | report | heartbeat =>
    obtain ⟨other, hother, hturns, -⟩ := step_turns hstep rfl
    exact .turn hother hturns
  | pauseAdmission | resumeAdmission =>
    simp only [step, State.pauseAdmission, State.resumeAdmission] at hstep
    split at hstep <;> cases hstep <;>
      exact .frame rfl rfl rfl (by simp [Event.execution?])
  | pollDrain j elapsed =>
    obtain ⟨drain, -, hpoll⟩ := bind_eq_some_iff.mp hstep
    obtain ⟨hexecs, htokens, hevents⟩ := State.pollDrain_frame hpoll
    exact .frame rfl hexecs htokens hevents
  | dropDrain j =>
    obtain ⟨drain, -, hdrop⟩ := bind_eq_some_iff.mp hstep
    unfold State.dropDrain at hdrop
    split at hdrop
    · cases hdrop
      exact .frame rfl rfl rfl (by simp)
    · cases hdrop
  | beginDrain | drain | requestShutdown =>
    cases hstep
    exact .frame rfl rfl rfl (by simp)

/-- Someone else may cancel the token: it is asked for, or another execution has it. -/
def State.Shared (s : State E) (i token : ℕ) (action : Action E) : Prop :=
  (∃ reason, action = .cancel token reason) ∨
    ∃ j other, j ≠ i ∧ s.executions[j]? = some other ∧ other.context.cancellation = token

/-- What a step leaves an execution that does not take it: everything but its token. -/
structure State.Leaves (s : State E) (i : ℕ) (execution : Execution E) (action : Action E)
    (s' : State E) (events : List (Event E)) : Prop where
  action_ne : action.execution? ≠ some i
  event_ne : ∀ event ∈ events, event.execution? ≠ some i
  kept : s'.executions[i]? = some execution
  view : s'.view execution = s.view execution ∨
    s.Shared i execution.context.cancellation action ∧
      ∃ reason, s'.view execution =
        { s.view execution with token := ((s.view execution).token.cancel reason).1 }

theorem State.Turns.leaves (hother : s.executions[j]? = some other)
    (hturns : s.Turns executor j other action (s', events)) (hne : j ≠ i)
    (hexec : s.executions[i]? = some execution) : s.Leaves i execution action s' events := by
  obtain ⟨other', hexecs, hctx, htokens, hturn⟩ := hturns
  obtain ⟨hact, hevents⟩ := hturn.about_ne hne
  refine ⟨hact, hevents, ?_, ?_⟩
  · rw [hexecs, getElem?_set_ne hne]
    exact hexec
  · by_cases htoken : execution.context.cancellation = other.context.cancellation
    · -- Both have one token, so what the other does to it counts here too.
      have hshared := hturn.token
      simp only [State.view, hctx, ← htoken] at hshared
      rcases hshared with hsame | ⟨reason, hcancel⟩
      · exact .inl (by simp only [State.view, hsame])
      · exact .inr ⟨.inr ⟨j, other, hne, hother, htoken.symm⟩, reason,
          by simp only [State.view, hcancel]⟩
    · exact .inl (congrArg (View.mk _ _) (htokens _ htoken))

section effect

variable (heff : s.Effect executor action s' events)

include heff

/-- What a step does to an execution: it is a turn of it, or leaves all but its token
alone. -/
theorem State.Effect.view (hexec : s.executions[i]? = some execution) :
    (∃ execution', s'.executions[i]? = some execution' ∧
      execution'.context = execution.context ∧
      Turn executor i execution.context action (s.view execution) events (s'.view execution')) ∨
    s.Leaves i execution action s' events := by
  cases heff with
  | @turn j other _ _ _ hother hturns =>
    by_cases hj : j = i
    · subst hj
      obtain rfl : other = execution := Option.some.inj (hother.symm.trans hexec)
      obtain ⟨execution', hexecs, hctx, -, hturn⟩ := hturns
      have hlt : j < s.executions.length := (List.getElem?_eq_some_iff.mp hexec).1
      refine .inl ⟨execution', ?_, hctx, hturn⟩
      rw [hexecs, getElem?_set_self hlt]
    · exact .inr (hturns.leaves hother hj hexec)
  | execute context =>
    exact .inr ⟨by simp [Action.execution?], by simp,
      Slots.getElem?_concat_eq_some.mpr (.inl hexec), .inl rfl⟩
  | cancel token reason =>
    refine .inr ⟨by simp [Action.execution?], by simp, hexec, ?_⟩
    by_cases htoken : execution.context.cancellation = token
    · subst htoken
      refine .inr ⟨.inl ⟨reason, rfl⟩, reason, ?_⟩
      simp only [State.view, State.cancelToken, update_self]
    · left
      simp only [State.view, State.cancelToken, update_of_ne htoken]
  | frame hact hexecs htokens hevents =>
    exact .inr ⟨by simp [hact], fun event hevent => by simp [hevents event hevent],
      hexecs ▸ hexec, .inl (by simp only [State.view, htokens])⟩

theorem State.Effect.absent (habsent : s.executions[i]? = none) :
    action.execution? ≠ some i ∧ (∀ event ∈ events, event.execution? ≠ some i) ∧
      ∀ execution, s'.executions[i]? = some execution → ∃ context, execution = { context } := by
  cases heff with
  | @turn j other _ _ _ hother hturns =>
    obtain ⟨other', hexecs, -, -, hturn⟩ := hturns
    have hne : j ≠ i := by
      rintro rfl
      cases hother.symm.trans habsent
    obtain ⟨hact, hevents⟩ := hturn.about_ne hne
    refine ⟨hact, hevents, fun execution hexec => ?_⟩
    rw [hexecs, getElem?_set_ne hne, habsent] at hexec
    cases hexec
  | execute context =>
    refine ⟨by simp [Action.execution?], by simp, ?_⟩
    intro execution hexec
    rcases Slots.getElem?_concat_eq_some.mp hexec with hold | ⟨-, rfl⟩
    · cases habsent.symm.trans hold
    · exact ⟨context, rfl⟩
  | cancel token reason =>
    refine ⟨by simp [Action.execution?], by simp, fun _ hexec => ?_⟩
    cases habsent.symm.trans hexec
  | frame hact hexecs _ hevents =>
    refine ⟨by simp [hact], fun event hevent => by simp [hevents event hevent], ?_⟩
    intro execution hexec
    rw [hexecs, habsent] at hexec
    cases hexec

theorem State.Effect.exists_context (hexec : s.executions[i]? = some execution) :
    ∃ execution', s'.executions[i]? = some execution' ∧
      execution'.context = execution.context := by
  rcases heff.view hexec with ⟨execution', hexec', hctx, -⟩ | hleaves
  · exact ⟨execution', hexec', hctx⟩
  · exact ⟨execution, hleaves.kept, rfl⟩

/-- A token that nobody asks to cancel and that no execution has stays as it is. -/
theorem State.Effect.tokens {token : ℕ} (hcancel : ∀ reason, action ≠ .cancel token reason)
    (hunused : ∀ (j : ℕ) (other : Execution E), s.executions[j]? = some other →
      other.context.cancellation ≠ token) : s'.tokens token = s.tokens token := by
  cases heff with
  | @turn j other _ _ _ hother hturns =>
    obtain ⟨-, -, -, htokens, -⟩ := hturns
    exact htokens token (hunused j other hother).symm
  | execute => rfl
  | cancel other reason =>
    refine update_of_ne ?_ _ _
    rintro rfl
    exact hcancel reason rfl
  | frame _ _ htokens => exact congrFun htokens token

end effect

/-! ## Runs, seen by one execution -/

def actionsOf (i : ℕ) (actions : List (Action E)) : List (Action E) :=
  actions.filter (·.execution? = some i)

def eventsOf (i : ℕ) (history : List (Event E)) : List (Event E) :=
  history.filter (·.execution? = some i)

theorem actionsOf_concat_of_ne (h : action.execution? ≠ some i) :
    actionsOf i (actions ++ [action]) = actionsOf i actions := by
  simp [actionsOf, h]

theorem actionsOf_concat (h : action.execution? = some i) :
    actionsOf i (actions ++ [action]) = actionsOf i actions ++ [action] := by
  simp [actionsOf, h]

theorem eventsOf_append_of_ne (h : ∀ event ∈ events, event.execution? ≠ some i) :
    eventsOf i (history ++ events) = eventsOf i history := by
  simpa [eventsOf] using h

theorem eventsOf_append (h : ∀ event ∈ events, event.execution? = some i) :
    eventsOf i (history ++ events) = eventsOf i history ++ events := by
  simpa [eventsOf] using h

theorem mem_eventsOf (h : event.execution? = some i) :
    event ∈ eventsOf i history ↔ event ∈ history := by
  simp [eventsOf, h]

structure Holds (executor : Executor E) (i : ℕ)
    (I : View E → List (Action E) → List (Event E) → Prop) : Prop where
  created : ∀ token, I ⟨.created, {}, token⟩ [] []
  turn : ∀ {context action v v' actions past events}, I v actions past →
    Turn executor i context action v events v' → I v' (actions ++ [action]) (past ++ events)
  cancel : ∀ {v actions past} reason, I v actions past →
    I { v with token := (v.token.cancel reason).1 } actions past

/-- The same for an invariant that speaks of what the execution was called with. -/
structure HoldsIn (executor : Executor E) (i : ℕ)
    (I : WorkerContext → View E → List (Action E) → List (Event E) → Prop) : Prop where
  created : ∀ context token, I context ⟨.created, {}, token⟩ [] []
  turn : ∀ {context action v v' actions past events}, I context v actions past →
    Turn executor i context action v events v' →
    I context v' (actions ++ [action]) (past ++ events)
  cancel : ∀ {context v actions past} reason, I context v actions past →
    I context { v with token := (v.token.cancel reason).1 } actions past

variable {I : View E → List (Action E) → List (Event E) → Prop}
  {J : WorkerContext → View E → List (Action E) → List (Event E) → Prop}
  {outcome : Option (ExecutionResult E)}

theorem Holds.holdsIn (hI : Holds executor i I) : HoldsIn executor i fun _ => I :=
  ⟨fun _ => hI.created, hI.turn, hI.cancel⟩

/-- What an execution's invariant says in a state of the executor. -/
private structure Kept (i : ℕ)
    (J : WorkerContext → View E → List (Action E) → List (Event E) → Prop)
    (s : State E) (actions : List (Action E)) (history : List (Event E)) : Prop where
  absent : s.executions[i]? = none → actionsOf i actions = [] ∧ eventsOf i history = []
  present : ∀ execution, s.executions[i]? = some execution →
    J execution.context (s.view execution) (actionsOf i actions) (eventsOf i history)

private theorem Kept.step (hJ : HoldsIn executor i J) (h : Kept i J s actions history)
    (hstep : (machine executor).step s action = some (s', events)) :
    Kept i J s' (actions ++ [action]) (history ++ events) := by
  have heff := step_effect hstep
  cases hexec : s.executions[i]? with
  | none =>
    obtain ⟨hact, hevents, hnew⟩ := heff.absent hexec
    obtain ⟨hactions₀, hevents₀⟩ := h.absent hexec
    rw [← actionsOf_concat_of_ne hact] at hactions₀
    rw [← eventsOf_append_of_ne hevents] at hevents₀
    refine ⟨fun _ => ⟨hactions₀, hevents₀⟩, ?_⟩
    intro execution hexec'
    obtain ⟨context, rfl⟩ := hnew execution hexec'
    rw [hactions₀, hevents₀]
    exact hJ.created context _
  | some execution =>
    have hpre := h.present execution hexec
    rcases heff.view hexec with ⟨execution', hexec', hctx, hturn⟩ | hleaves
    · refine ⟨fun habsent => by simp [habsent] at hexec', ?_⟩
      intro other hother
      cases hexec'.symm.trans hother
      rw [actionsOf_concat hturn.action_execution?, eventsOf_append hturn.event_execution?,
        hctx]
      exact hJ.turn hpre hturn
    · have hkept := hleaves.kept
      refine ⟨fun habsent => by simp [habsent] at hkept, ?_⟩
      intro other hother
      cases hkept.symm.trans hother
      rw [actionsOf_concat_of_ne hleaves.action_ne, eventsOf_append_of_ne hleaves.event_ne]
      rcases hleaves.view with hsame | ⟨-, reason, hcancel⟩
      · rw [hsame]
        exact hpre
      · rw [hcancel]
        exact hJ.cancel reason hpre

private theorem Kept.run (hJ : HoldsIn executor i J)
    (hrun : (machine executor).run executor.init actions = some (s, history)) :
    Kept i J s actions history := by
  have hinit : Kept i J executor.init [] [] := by
    refine ⟨fun _ => ⟨rfl, rfl⟩, ?_⟩
    intro execution hexec
    simp [Executor.init] at hexec
  exact Machine.run_history (I := Kept i J) (fun h hstep => h.step hJ hstep) [] [] hrun hinit

/-- The run of one execution, cut out of a run of the executor. -/
theorem HoldsIn.run (hJ : HoldsIn executor i J)
    (hrun : (machine executor).run executor.init actions = some (s, history))
    (hexec : s.executions[i]? = some execution) :
    J execution.context (s.view execution) (actionsOf i actions) (eventsOf i history) :=
  (Kept.run hJ hrun).present execution hexec

theorem Holds.run (hI : Holds executor i I)
    (hrun : (machine executor).run executor.init actions = some (s, history))
    (hexec : s.executions[i]? = some execution) :
    I (s.view execution) (actionsOf i actions) (eventsOf i history) :=
  hI.holdsIn.run hrun hexec

/-- Only an execution that has left, or was never polled, finishes. -/
theorem Turn.finished_inv (h : Turn executor i context action v events v')
    (hfin : .finished i outcome ∈ events) :
    v'.phase = .done ∧ (v.phase = .leaving [] outcome ∨ outcome = none ∧ action = .drop i) := by
  cases h with
  | finish =>
    obtain ⟨-, rfl⟩ := Event.finished.inj (mem_singleton.mp hfin)
    exact ⟨rfl, .inl rfl⟩
  | dropUnpolled =>
    obtain ⟨-, rfl⟩ := Event.finished.inj (mem_singleton.mp hfin)
    exact ⟨rfl, .inr ⟨rfl, rfl⟩⟩
  | report | heartbeat =>
    have hother : ∀ answer, Event.finished i outcome ≠ .ofReport i answer := by
      intro answer
      cases answer <;> simp [Event.ofReport]
    exact absurd (mem_singleton.mp hfin) (hother _)
  | advance _ _ hevents => rcases hevents with rfl | rfl <;> simp at hfin
  | reject _ hevents => rcases hevents with rfl | ⟨error, rfl⟩ <;> simp at hfin
  | _ => simp at hfin

theorem Turn.done_inv (h : Turn executor i context action v events v') (hphase : v'.phase = .done) :
    v.phase = .done ∨ ∃ outcome, .finished i outcome ∈ events := by
  cases h with
  | finish | dropUnpolled => exact .inr ⟨_, mem_cons_self⟩
  | report | heartbeat => exact .inl hphase
  | advance _ hadm =>
    obtain rfl : _ = Phase.done := hphase
    cases hadm
  | _ => cases hphase

/-- Once an execution has ended, only clones of its reporter are left. -/
theorem Turn.of_done (h : Turn executor i context action v events v')
    (hphase : v.phase = .done) : v'.phase = .done ∧ v.reporter.sequence ≠ 0 := by
  cases h with
  | report hstart | heartbeat hstart => exact ⟨hphase, hstart⟩
  | advance hadm | reject hadm | forestall hadm =>
    obtain rfl : _ = Phase.done := hphase
    cases hadm
  | unwind _ hsusp =>
    obtain rfl : _ = Phase.done := hphase
    cases hsusp
  | _ => cases hphase

theorem done_of_finished (hrun : (machine executor).run executor.init actions = some (s, history))
    (hexec : s.executions[i]? = some execution) (hfin : .finished i outcome ∈ history) :
    execution.phase = .done := by
  have hholds : Holds executor i fun v _ events =>
      ∀ outcome, .finished i outcome ∈ events → v.phase = .done := by
    refine ⟨fun _ _ h => absurd h not_mem_nil, ?_, fun _ h => h⟩
    intro context action v v' actions past events h hturn outcome hfin
    rcases mem_append.mp hfin with hold | hnew
    · exact (hturn.of_done (h outcome hold)).1
    · exact (hturn.finished_inv hnew).1
  exact hholds.run hrun hexec outcome ((mem_eventsOf rfl).mpr hfin)

/-- What is reported about an execution is reported about one that exists. -/
theorem exists_execution (hrun : (machine executor).run executor.init actions = some (s, history))
    (hevent : event ∈ history) (habout : event.execution? = some i) :
    ∃ execution, s.executions[i]? = some execution := by
  have hholds : Holds executor i fun _ _ _ => True :=
    ⟨fun _ => trivial, fun _ _ => trivial, fun _ _ => trivial⟩
  refine ne_none_iff_exists'.mp fun habsent => ?_
  have hmem := (mem_eventsOf habout).mpr hevent
  rw [((Kept.run hholds.holdsIn hrun).absent habsent).2] at hmem
  cases hmem

end steps

end PlenoraRuntime.Worker
