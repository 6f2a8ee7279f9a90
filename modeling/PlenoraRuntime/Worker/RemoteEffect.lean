import PlenoraRuntime.Worker.Moments

/-!
# What an error says about the handler

An error tells its phase and the certainty about effects from its kind alone. All kinds
but one are made on one side of the call of the handler. A cancellation is returned on
both: by an execution that gave its handler up, and by one that found its token cancelled
while it waited to be admitted, which has not called the handler and reports that it has.

`Course` forgets everything about an execution but the side it is on and how it leaves;
`Turn.moves` says how one turn changes that.
-/

namespace PlenoraRuntime.Worker

open Messaging Transition List

variable {E : Type*} {executor : Executor E} {i : ℕ} {action : Action E}

/-- The execution is about to look at its token on the way to the handler, and will find it
cancelled. -/
def Forestalled (v : View E) : Prop :=
  (v.phase = .polling ∨ v.phase = .confirming) ∧ v.token.isSome = true

/-- Before the call of the handler, after it, leaving with an outcome, or done. -/
inductive Course (E : Type*)
  | before
  | handling
  | leaving (outcome : Option (ExecutionResult E))
  | done

def Phase.course : Phase E → Course E
  | .created | .checking | .gating | .waiting | .polling | .acquiring | .closed | .acquired
  | .confirming | .starting | .refused | .registering | .entering _ | .invoking _ => .before
  | .handling _ | .watching _ | .beating _ | .handled _ _ | .failing _ _ | .deciding _ _
  | .expired _ _ | .cleaning _ _ => .handling
  | .leaving _ outcome => .leaving outcome
  | .done => .done

/-- The event is neither the call of the handler nor the end. -/
def Event.isQuiet : Event E → Bool
  | .invoked _ | .finished _ _ => false
  | _ => true

/-- How one turn changes an execution's course. -/
inductive Moves (i : ℕ) : Course E → List (Event E) → Course E → Prop
  | stay (course : Course E) {events} (hquiet : ∀ event ∈ events, event.isQuiet = true) :
      Moves i course events course
  | reject (reason : WorkerAdmissionReason) {events}
      (hquiet : ∀ event ∈ events, event.isQuiet = true) :
      Moves i .before events (.leaving (some (.error (.admission reason))))
  | forestall (reason : TaskCancellationReason) :
      Moves i .before [] (.leaving (some (.error (.cancelled reason))))
  | invoke : Moves i .before [.invoked i] .handling
  | abandon : Moves i .before [] (.leaving none)
  | leave {outcome} (hhandled : ∀ reason, outcome ≠ some (.error (.admission reason))) :
      Moves i .handling [] (.leaving outcome)
  | finish (outcome : Option (ExecutionResult E)) :
      Moves i (.leaving outcome) [.finished i outcome] .done
  | drop : Moves i .before [.finished i none] .done

variable {events : List (Event E)} {phase : Phase E}

section turns

variable {context : WorkerContext} {v v' : View E}

theorem course_of_admitting (h : phase.admitting = true) : phase.course = .before := by
  cases phase <;> first | rfl | cases h

theorem Stop.ending_ne_admission (executor : Executor E) (stop : Stop)
    (reason : WorkerAdmissionReason) : (stop.ending executor).2 ≠ .admission reason := by
  intro h
  cases stop with
  | cancelled => cases h
  | deadline timeout observed =>
    by_cases hobs : observed = .timeout <;> simp [Stop.ending, hobs] at h

theorem quiet_lifecycle (recorded : Option TaskLifecycleEvent) :
    ∀ event ∈ recorded.toList.map (Event.lifecycle (E := E) i), event.isQuiet = true := by
  intro event hevent
  obtain ⟨_, -, rfl⟩ := mem_map.mp hevent
  rfl

theorem quiet_ofReport (answer : Except TaskProgressError TaskLifecycleEvent) :
    ∀ event ∈ [Event.ofReport (E := E) i answer], event.isQuiet = true := by
  intro event hevent
  obtain rfl := mem_singleton.mp hevent
  cases answer <;> rfl

theorem Turn.moves (h : Turn executor i context action v events v') :
    Moves i v.phase.course events v'.phase.course := by
  cases h with
  | start | enter | beaten | failed | transition => exact .stay _ (quiet_lifecycle _)
  | report | heartbeat => exact .stay _ (quiet_ofReport _)
  | advance hphase hphase' hevents =>
    rw [course_of_admitting hphase, course_of_admitting hphase']
    refine .stay _ ?_
    rcases hevents with rfl | rfl <;> simp [Event.isQuiet]
  | reject hphase hevents reason =>
    rw [course_of_admitting hphase]
    refine .reject reason ?_
    rcases hevents with rfl | ⟨error, rfl⟩ <;> simp [Event.isQuiet]
  | forestall hphase reason =>
    rw [course_of_admitting hphase]
    exact .forestall reason
  | register | handle => exact .stay _ (by simp [Event.isQuiet])
  | invoke => exact .invoke
  | suspend | interrupt | expire | beat | resume | fail | stop | clean | cancel | release | guard
  | abandon => exact .stay _ (by simp)
  | overrule | succeed | decide | policyPanic => exact .leave nofun
  | cleaned =>
    refine .leave fun reason heq => ?_
    exact Stop.ending_ne_admission executor _ reason (Except.error.inj (Option.some.inj heq))
  | finish => exact .finish _
  | dropUnpolled => exact .drop
  | @unwind _ _ phase hsusp =>
    cases phase with
    | waiting => exact .abandon
    | handling | cleaning => exact .leave nofun
    | _ => cases hsusp

/-- Only an execution that found its token cancelled leaves so before the call. -/
theorem Turn.forestall_inv {reason} (h : Turn executor i context action v events v')
    (hpre : v.phase.course = .before)
    (hleaving : v'.phase.course = .leaving (some (.error (.cancelled reason)))) :
    v.phase.admitting = true ∧ v.token = some reason ∧ action.isPoll = true := by
  cases h with
  | forestall hphase => exact ⟨hphase, by cases hleaving; rfl, rfl⟩
  | advance _ hphase' =>
    rw [course_of_admitting hphase'] at hleaving
    cases hleaving
  | unwind | reject | start | register | enter | invoke | finish | dropUnpolled => cases hleaving
  | report | heartbeat =>
    rw [hpre] at hleaving
    cases hleaving
  | _ => cases hpre

end turns

/-! ## The poll that finds the token cancelled -/

section polls

variable {s s' : State E} {execution execution' : Execution E}

theorem course_ne_of_before (h : phase.course = .before) (reason : TaskCancellationReason) :
    phase.course ≠ .leaving (some (.error (.cancelled reason))) := by
  intro hleaving
  cases h.symm.trans hleaving

theorem course_ne_of_rejected (ops : List Op) (reason : WorkerAdmissionReason)
    (other : TaskCancellationReason) :
    (Phase.leaving ops (some (.error (.admission reason))) : Phase E).course ≠
      .leaving (some (.error (.cancelled other))) := by
  intro hleaving
  cases hleaving

/-- Other polls on the way to the handler do not end in a cancellation. -/
theorem State.poll_not_cancelled {input next}
    (hpoll : s.poll i execution executor input = some next)
    (hadm : execution.phase.admitting = true)
    (hphase : ¬ (execution.phase = .polling ∨ execution.phase = .confirming)) :
    ∃ phase : Phase E, next.1.executions = s.executions.set i { execution with phase } ∧
      ∀ reason, phase.course ≠ .leaving (some (.error (.cancelled reason))) := by
  obtain ⟨context, reporter, phase⟩ := execution
  cases phase <;> simp only [poll] at hpoll
  -- These look at the shutdown signal and not at the token.
  case checking | waiting | acquired =>
    cases hpoll
    unfold checkShutdown
    split
    · exact ⟨_, rfl, course_ne_of_rejected _ _⟩
    · exact ⟨_, rfl, course_ne_of_before rfl⟩
  case gating =>
    split at hpoll <;> cases hpoll
    case h_1 => exact ⟨_, rfl, course_ne_of_before rfl⟩
    all_goals exact ⟨_, rfl, course_ne_of_rejected _ _⟩
  case acquiring =>
    split at hpoll
    · cases hpoll
      exact ⟨_, rfl, course_ne_of_before rfl⟩
    · split at hpoll <;> cases hpoll <;>
        exact ⟨_, rfl, course_ne_of_before rfl⟩
  case closed | refused =>
    cases hpoll
    exact ⟨_, rfl, course_ne_of_rejected _ _⟩
  case starting =>
    split at hpoll <;> cases hpoll <;>
      exact ⟨_, rfl, course_ne_of_before rfl⟩
  case registering =>
    split at hpoll <;> cases hpoll
    · exact ⟨_, rfl, course_ne_of_before rfl⟩
    · exact ⟨_, rfl, course_ne_of_rejected _ _⟩
  case polling => exact absurd (.inl rfl) hphase
  case confirming => exact absurd (.inr rfl) hphase
  all_goals cases hadm

/-- The execution leaves as cancelled before the call of the handler exactly by the poll
that finds the token cancelled. -/
theorem forestalled_iff (hexec : s.executions[i]? = some execution)
    (hexec' : s'.executions[i]? = some execution')
    (hstep : step executor s action = some (s', events))
    (hturn : Turn executor i execution.context action (s.view execution) events
      (s'.view execution')) :
    action.isPoll = true ∧ Forestalled (s.view execution) ↔
      execution.phase.course = .before ∧
        ∃ reason, execution'.phase.course = .leaving (some (.error (.cancelled reason))) := by
  have hlt : i < s.executions.length := (List.getElem?_eq_some_iff.mp hexec).1
  constructor
  · rintro ⟨hpoll, hphase, htoken⟩
    obtain ⟨input, rfl⟩ := Action.eq_poll hturn.action_execution? hpoll
    obtain ⟨reason, hreason⟩ := Option.isSome_iff_exists.mp htoken
    replace hstep := poll_of_step hexec hstep
    -- In both phases the poll looks at the token first.
    have hleft : s' = s.leaveCancelled i execution reason := by
      obtain ⟨context, reporter, phase⟩ := execution
      rcases hphase with hphase | hphase <;>
      · obtain rfl : phase = _ := hphase
        simp only [State.poll, Option.some.injEq, Prod.mk.injEq] at hstep
        rw [← hstep.1, State.checkCancellation, show s.tokens context.cancellation = some reason
          from hreason]
    rw [hleft, State.leaveCancelled, State.leave, State.enter, State.setExecution,
      getElem?_set_self hlt] at hexec'
    cases hexec'
    refine ⟨?_, reason, rfl⟩
    rcases hphase with hphase | hphase <;>
    · rw [show execution.phase = _ from hphase]
      rfl
  · rintro ⟨hpre, reason, hleaving⟩
    obtain ⟨hadm, htoken, hpoll⟩ := hturn.forestall_inv hpre hleaving
    refine ⟨hpoll, ?_, by rw [htoken]; rfl⟩
    obtain ⟨input, rfl⟩ := Action.eq_poll hturn.action_execution? hpoll
    -- No other poll before the call ends with a cancellation.
    by_contra hphase
    obtain ⟨phase, hset, hother⟩ := State.poll_not_cancelled (poll_of_step hexec hstep)
      hadm hphase
    rw [hset, getElem?_set_self hlt] at hexec'
    cases hexec'
    exact hother reason hleaving

end polls

/-! ## Runs -/

/-- What an outcome says about the call of the handler: an admission error is made before
it, all others after it, but for the cancellation of a forestalled execution. -/
def Tells (invoked forestalled : Prop) : Option (ExecutionResult E) → Prop
  | none => True
  | some (.error (.admission _)) => ¬ invoked ∧ ¬ forestalled
  | some (.error (.cancelled _)) => invoked ↔ ¬ forestalled
  | some (.error (.handler _ _)) | some (.error (.timedOut _ _)) | some (.ok ()) =>
    invoked ∧ ¬ forestalled

/-- The same for an execution that has not left. -/
def Course.Tells (invoked forestalled : Prop) : Course E → Prop
  | .before => ¬ invoked ∧ ¬ forestalled
  | .handling => invoked ∧ ¬ forestalled
  | .leaving outcome => Worker.Tells invoked forestalled outcome
  | .done => True

/-- The course of an execution agrees with whether it called its handler. -/
structure Truthful (i : ℕ) (forestalled : Prop) (course : Course E) (past : List (Event E)) :
    Prop where
  tells : course.Tells (.invoked i ∈ past) forestalled
  finished : ∀ outcome, .finished i outcome ∈ past →
    course = .done ∧ Tells (.invoked i ∈ past) forestalled outcome

theorem tells_of_handling {invoked forestalled : Prop} {outcome : Option (ExecutionResult E)}
    (hinv : invoked) (hfore : ¬ forestalled)
    (hhandled : ∀ reason, outcome ≠ some (.error (.admission reason))) :
    Tells invoked forestalled outcome := by
  rcases outcome with _ | (error | _)
  · trivial
  · cases error with
    | admission reason => exact absurd rfl (hhandled reason)
    | handler | timedOut => exact ⟨hinv, hfore⟩
    | cancelled => exact iff_of_true hinv hfore
  · exact ⟨hinv, hfore⟩

section runs

variable {met : Prop} {course course' : Course E} {past : List (Event E)}

theorem mem_append_quiet {event} (hquiet : ∀ event ∈ events, event.isQuiet = true)
    (hevent : event.isQuiet = false) : event ∈ past ++ events ↔ event ∈ past := by
  rw [mem_append]
  refine or_iff_left fun hmem => ?_
  rw [hquiet event hmem] at hevent
  cases hevent

theorem Truthful.quiet (h : Truthful i met course past)
    (hquiet : ∀ event ∈ events, event.isQuiet = true) : Truthful i met course (past ++ events) := by
  have hinv : (.invoked i ∈ past ++ events) = (.invoked i ∈ past) :=
    propext (mem_append_quiet hquiet rfl)
  refine ⟨by rw [hinv]; exact h.tells, fun outcome hfin => ?_⟩
  rw [hinv]
  exact h.finished outcome ((mem_append_quiet hquiet rfl).mp hfin)

/-- Nothing is known yet of how an execution ends that has not. -/
theorem Truthful.not_finished (h : Truthful i met course past) (hcourse : course ≠ .done)
    (outcome : Option (ExecutionResult E)) : .finished i outcome ∉ past :=
  fun hfin => hcourse (h.finished outcome hfin).1

theorem Truthful.turn {met' : Prop} (h : Truthful i met course past) (hcourse : course ≠ .done)
    (htells : course'.Tells (.invoked i ∈ past) met') : Truthful i met' course' past :=
  ⟨htells, fun outcome hfin => absurd hfin (h.not_finished hcourse outcome)⟩

theorem Moves.truthful (hmoves : Moves i course events course') (h : Truthful i met course past) :
    Truthful i (met ∨ course = .before ∧
      ∃ reason, course' = .leaving (some (.error (.cancelled reason)))) course'
      (past ++ events) := by
  cases hmoves with
  | stay _ hquiet =>
    -- An execution that stays has not been cancelled before its call.
    have hsame : (met ∨ course = .before ∧
        ∃ reason, course = .leaving (some (.error (.cancelled reason)))) = met := by
      refine propext (or_iff_left ?_)
      rintro ⟨rfl, reason, heq⟩
      cases heq
    rw [hsame]
    exact h.quiet hquiet
  | reject reason hquiet =>
    have htells := h.tells
    refine Truthful.quiet (h.turn nofun ?_) hquiet
    exact ⟨htells.1, by simpa using htells.2⟩
  | forestall reason =>
    have htells := h.tells
    rw [append_nil]
    refine h.turn nofun (iff_of_false htells.1 ?_)
    exact not_not.mpr (.inr ⟨rfl, reason, rfl⟩)
  | invoke =>
    have hnever := h.not_finished nofun
    refine ⟨⟨mem_append_right _ mem_cons_self, by simpa using h.tells.2⟩, ?_⟩
    intro outcome hfin
    simp [hnever] at hfin
  | abandon =>
    rw [append_nil]
    exact h.turn nofun trivial
  | leave hhandled =>
    rw [append_nil]
    refine h.turn nofun (tells_of_handling h.tells.1 ?_ hhandled)
    simpa using h.tells.2
  | finish outcome =>
    have hnever := h.not_finished nofun
    refine ⟨trivial, fun other hfin => ⟨rfl, ?_⟩⟩
    obtain rfl : other = outcome := by simpa [hnever] using hfin
    have htells : Worker.Tells _ _ other := h.tells
    simpa using htells
  | drop =>
    have hnever := h.not_finished nofun
    refine ⟨trivial, fun other hfin => ⟨rfl, ?_⟩⟩
    obtain rfl : other = none := by simpa [hnever] using hfin
    trivial

theorem follows_truthful (executor : Executor E) (i : ℕ) :
    Follows executor i Forestalled fun met v past => Truthful i met v.phase.course past where
  created := fun _ => ⟨⟨not_mem_nil, id⟩, fun _ h => absurd h not_mem_nil⟩
  cancel := fun _ h => h
  turn := by
    intro met s s' action execution execution' past events hexec hexec' hstep hturn h
    rw [propext (forestalled_iff hexec hexec' hstep hturn)]
    exact hturn.moves.truthful h

end runs

/-- The error tells truthfully whether the handler was called. -/
def WorkerExecutionError.Truthful (error : WorkerExecutionError E) (invoked : Prop) : Prop :=
  (error.phase = .handling ∧ error.remoteEffect = .unknown ↔ invoked) ∧
    (error.phase = .admission ∧ error.remoteEffect = .notStarted ↔ ¬ invoked)

/-- An error tells truthfully whether the handler was called, exactly if the execution did
not find its token cancelled on the way to the handler. -/
theorem error_truthful_iff {executor : Executor E} {actions : List (Action E)} {s : State E}
    {history : List (Event E)} {i : ℕ} {error : WorkerExecutionError E}
    (hrun : (machine executor).run executor.init actions = some (s, history))
    (hfinished : .finished i (some (.error error)) ∈ history) :
    error.Truthful (.invoked i ∈ history) ↔ ¬ PolledIn executor actions i Forestalled := by
  obtain ⟨execution, hexecution⟩ := exists_execution hrun hfinished rfl
  have htruthful := (follows_truthful executor i).run hrun hexecution
  have htells := (htruthful.finished _ ((mem_eventsOf rfl).mpr hfinished)).2
  rw [propext (mem_eventsOf rfl)] at htells
  cases error with
  | admission reason =>
    obtain ⟨hinvoked, hforestalled⟩ := htells
    exact iff_of_true ⟨by simp [WorkerExecutionError.phase, hinvoked],
      by simp [WorkerExecutionError.phase, WorkerExecutionError.remoteEffect, hinvoked]⟩
      hforestalled
  | handler | timedOut =>
    obtain ⟨hinvoked, hforestalled⟩ := htells
    exact iff_of_true ⟨by simp [WorkerExecutionError.phase, WorkerExecutionError.remoteEffect,
      hinvoked], by simp [WorkerExecutionError.phase, hinvoked]⟩ hforestalled
  | cancelled reason =>
    have hiff : .invoked i ∈ history ↔ ¬ PolledIn executor actions i Forestalled := htells
    rw [← hiff]
    simp [WorkerExecutionError.Truthful, WorkerExecutionError.phase,
      WorkerExecutionError.remoteEffect]

/-- An execution that finds the gate paused. -/
def Sample.turnedAway : List (Action Unit) :=
  [.pauseAdmission, .execute context] ++ polls 0 6

theorem error_truthful_iff_turnedAway :
    let history := (Sample.after Sample.turnedAway).2
    .finished 0 (some (.error (.admission .paused))) ∈ history ∧ .invoked 0 ∉ history ∧
      ¬ PolledIn Sample.executor Sample.turnedAway 0 Forestalled := by
  intro history
  have hfinished : .finished 0 (some (.error (.admission .paused))) ∈ history :=
    List.mem_of_getElem? (i := 3) rfl
  have hinvoked : .invoked 0 ∉ history :=
    mt any_isInvoked_eventsOf.mpr
      (Bool.false_ne_true : ¬ (eventsOf 0 history).any Event.isInvoked = true)
  have hrun : (machine Sample.executor).run Sample.executor.init Sample.turnedAway =
      some (Sample.after Sample.turnedAway) := Machine.run_eq_after rfl
  exact ⟨hfinished, hinvoked, (error_truthful_iff hrun hfinished).mp
    ⟨iff_of_false (fun h => nomatch h.1) hinvoked, iff_of_true ⟨rfl, rfl⟩ hinvoked⟩⟩

/-- A task that is cancelled before it is executed. -/
def Sample.cancelledEarly : List (Action Unit) :=
  [.cancel 0 .requested, .execute context] ++ polls 0 7

/-- Its error says that the handler was running. -/
theorem cancelled_before_handling :
    let history := (Sample.after Sample.cancelledEarly).2
    ∃ error : WorkerExecutionError Unit, .finished 0 (some (.error error)) ∈ history ∧
      error.phase = .handling ∧ error.remoteEffect = .unknown ∧ .invoked 0 ∉ history := by
  intro history
  have hinvoked : .invoked 0 ∉ history :=
    mt any_isInvoked_eventsOf.mpr
      (Bool.false_ne_true : ¬ (eventsOf 0 history).any Event.isInvoked = true)
  exact ⟨.cancelled .requested, List.mem_of_getElem? (i := 2) rfl, rfl, rfl, hinvoked⟩

end PlenoraRuntime.Worker
