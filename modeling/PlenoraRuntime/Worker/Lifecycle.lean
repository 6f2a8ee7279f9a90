import PlenoraRuntime.Worker.Turn

/-!
# The lifecycle events of one execution

What the observer receives about one execution, whoever else holds a clone of its
reporter. A reporter numbers what it delivers and delivers nothing after a terminal
state (`Journal`). Which states it has announced is known from where the execution is
(`Phase.Stage`): an execution that leaves has announced a terminal state or still has
to, and it has announced that it runs exactly when it called its handler.
-/

namespace PlenoraRuntime.Worker

open Messaging Transition List

variable {E : Type*} {reporter : LifecycleState}

/-! ## What a reporter delivers -/

def TaskLifecycleEventKind.state? : TaskLifecycleEventKind → Option TaskState
  | .stateChanged state => some state
  | .progress _ | .heartbeat _ => none

def TaskLifecycleEvent.isTerminal (event : TaskLifecycleEvent) : Bool :=
  event.kind.state?.any TaskState.isTerminal

def TaskLifecycleEvent.isRunning (event : TaskLifecycleEvent) : Bool :=
  event.kind.state? = some .running

namespace LifecycleState

variable {state next : LifecycleState} {task : TaskIdentity} {now : SystemTime}

/-- What an access of the reporter can do: nothing, or deliver the next event. -/
inductive Records (state : LifecycleState) : LifecycleState → List TaskLifecycleEvent → Prop
  | idle : Records state state []
  | record {next : LifecycleState} {event : TaskLifecycleEvent}
      (hactive : state.current.isTerminal = false)
      (hnumber : event.sequence = state.sequence + 1) (hseq : next.sequence = event.sequence)
      (hcur : next.current = event.kind.state?.getD state.current) :
      Records state next [event]

/-- There are numbers left. -/
def Room (state : LifecycleState) : Prop :=
  state.sequence < Word.maxValue 64

theorem room_new : Room {} := by
  unfold Room
  decide

theorem record_of_room (hroom : state.Room) (kind : TaskLifecycleEventKind) :
    state.record task now kind = ({ state with sequence := state.sequence + 1 },
      .ok ⟨task.messageId, task.correlationId, task.attempt, state.sequence + 1, now, kind⟩) :=
  if_pos (Nat.succ_le_of_lt hroom)

theorem transition_of_active (hactive : state.current.isTerminal = false) (hroom : state.Room)
    (target : TaskState) :
    state.transition task now target =
      ({ state with current := target, sequence := state.sequence + 1 },
        some ⟨task.messageId, task.correlationId, task.attempt, state.sequence + 1, now,
          .stateChanged target⟩) := by
  have hroom' : Room { state with current := target } := hroom
  simp only [transition, hactive, record_of_room hroom', Bool.false_eq_true]
  rfl

theorem transition_of_terminal (hterm : state.current.isTerminal = true) (target : TaskState) :
    state.transition task now target = (state, none) :=
  if_pos hterm

theorem transition_records (hroom : state.Room) (target : TaskState) :
    state.Records (state.transition task now target).1
      (state.transition task now target).2.toList := by
  cases hterm : state.current.isTerminal with
  | true =>
    rw [transition_of_terminal hterm]
    exact .idle
  | false =>
    rw [transition_of_active hterm hroom]
    exact .record hterm rfl rfl rfl

theorem report_records (hroom : state.Room) (progress : TaskProgress) :
    state.Records (state.report task now progress).1
      (state.report task now progress).2.toOption.toList := by
  have hroom' : Room { state with latestProgress := some progress } := hroom
  unfold report
  split
  case isTrue => exact .idle
  case isFalse hactive =>
    rw [record_of_room hroom']
    exact .record (Bool.eq_false_of_not_eq_true hactive) rfl rfl rfl

theorem heartbeat_records (hroom : state.Room) :
    state.Records (state.heartbeat task now).1 (state.heartbeat task now).2.toOption.toList := by
  unfold heartbeat
  split
  case isTrue => exact .idle
  case isFalse hactive =>
    rw [record_of_room hroom]
    exact .record (Bool.eq_false_of_not_eq_true hactive) rfl rfl rfl

/-- An access that announces no state. -/
structure Quiet (state next : LifecycleState) (events : List TaskLifecycleEvent) : Prop where
  current : next.current = state.current
  runs : events.countP (·.isRunning) = 0

theorem record_quiet (kind : TaskLifecycleEventKind) (hkind : kind.state? = none)
    (task : TaskIdentity) (now : SystemTime) (state : LifecycleState) :
    state.Quiet (state.record task now kind).1 (state.record task now kind).2.toOption.toList := by
  unfold record
  dsimp only
  split
  · exact ⟨rfl, by simp [Except.toOption, TaskLifecycleEvent.isRunning, hkind]⟩
  · exact ⟨rfl, rfl⟩

theorem report_quiet (progress : TaskProgress) :
    state.Quiet (state.report task now progress).1
      (state.report task now progress).2.toOption.toList := by
  unfold report
  split
  · exact ⟨rfl, rfl⟩
  · have hrec := record_quiet (.progress progress) rfl task now
      { state with latestProgress := some progress }
    exact ⟨hrec.current, hrec.runs⟩

theorem heartbeat_quiet :
    state.Quiet (state.heartbeat task now).1
      (state.heartbeat task now).2.toOption.toList := by
  unfold heartbeat
  split
  · exact ⟨rfl, rfl⟩
  · exact record_quiet _ rfl task now state

theorem start_records : Records {} (start task now).1 (start task now).2.toOption.toList := by
  exact .record rfl rfl rfl rfl

end LifecycleState

/-- A reporter and what it has delivered. -/
structure Journal (reporter : LifecycleState) (stream : List TaskLifecycleEvent) : Prop where
  numbered : stream.map (·.sequence) = List.range' 1 reporter.sequence
  active : reporter.current.isTerminal = false → ∀ event ∈ stream, event.isTerminal = false
  terminal : reporter.current.isTerminal = true →
    ∃ before last, stream = before ++ [last] ∧ last.isTerminal = true ∧
      ∀ event ∈ before, event.isTerminal = false

section journal

variable {next : LifecycleState} {stream events : List TaskLifecycleEvent}

theorem Journal.length (h : Journal reporter stream) : stream.length = reporter.sequence := by
  have hlen := congrArg List.length h.numbered
  simpa using hlen

theorem Journal.records (h : Journal reporter stream) (hrecords : reporter.Records next events) :
    Journal next (stream ++ events) := by
  cases hrecords with
  | idle =>
    rw [append_nil]
    exact h
  | @record _ event hactive hnumber hseq hcur =>
    have hpre := h.active hactive
    have hterm : event.isTerminal = next.current.isTerminal := by
      rw [hcur, TaskLifecycleEvent.isTerminal]
      cases event.kind.state? with
      | none => exact hactive.symm
      | some state => rfl
    refine ⟨?_, ?_, ?_⟩
    · rw [map_append, h.numbered, hseq, hnumber, List.range'_concat]
      simp [hnumber, Nat.add_comm]
    · exact fun hnext => forall_mem_concat hpre (hterm.trans hnext)
    · intro hnext
      exact ⟨stream, event, rfl, by rw [hterm, hnext], hpre⟩

end journal

/-! ## What an execution has announced -/

def Event.lifecycleEvent? : Event E → Option TaskLifecycleEvent
  | .lifecycle _ event => some event
  | _ => none

def Event.isInvoked : Event E → Bool
  | .invoked _ => true
  | _ => false

def Action.isPoll : Action E → Bool
  | .poll _ _ => true
  | _ => false

def stream (events : List (Event E)) : List TaskLifecycleEvent :=
  events.filterMap Event.lifecycleEvent?

/-- What is known of an execution's past: whether it was polled, the state it announced
last, how often it announced that it runs, and whether it called its handler. -/
structure Marks where
  polled : Bool
  current : TaskState
  runs : ℕ
  invoked : Bool

def marks (v : View E) (actions : List (Action E)) (events : List (Event E)) : Marks where
  polled := actions.any Action.isPoll
  current := v.reporter.current
  runs := (stream events).countP (·.isRunning)
  invoked := events.any Event.isInvoked

/-- An access that announces a terminal state, or leads to one. -/
def Op.ends : Op → Bool
  | .transition state => state.isTerminal
  | .dropGuard => true
  | _ => false

/-- An access that announces no other state. -/
def Op.endsOnly : Op → Bool
  | .transition state => state.isTerminal
  | _ => true

/-- What an execution has announced where it is. -/
def Phase.Stage (phase : Phase E) (marks : Marks) : Prop :=
  match phase with
  | .created => marks = ⟨false, .queued, 0, false⟩
  | .checking | .gating | .waiting | .polling | .acquiring | .closed | .acquired | .confirming
  | .starting | .refused | .registering | .entering _ => marks = ⟨true, .queued, 0, false⟩
  | .invoking _ => marks = ⟨true, .running, 1, false⟩
  | .handling _ | .watching _ | .beating _ | .handled _ _ | .failing _ _ | .expired _ _
  | .cleaning _ _ => marks = ⟨true, .running, 1, true⟩
  | .deciding _ _ => marks = ⟨true, .failed, 1, true⟩
  | .leaving ops _ =>
    marks.polled = true ∧ (marks.current.isTerminal = true ∨ ops.any Op.ends = true) ∧
      ops.all Op.endsOnly = true ∧ marks.runs = marks.invoked.toNat
  | .done =>
    (marks.polled = true → marks.current.isTerminal = true) ∧
      marks.runs = marks.invoked.toNat

/-- The past of an execution agrees with where it is. -/
structure Recorded (v : View E) (actions : List (Action E)) (events : List (Event E)) :
    Prop where
  journal : Journal v.reporter (stream events)
  stage : v.phase.Stage (marks v actions events)
  created : v.phase = .created → v.reporter = {}
  first : (actions.any Action.isPoll = false → stream events = []) ∧
    (actions.any Action.isPoll = true →
      ∃ event rest, stream events = event :: rest ∧ event.kind = .stateChanged .queued)

section turns

variable {executor : Executor E} {i : ℕ} {context : WorkerContext} {action : Action E}
  {v v' : View E} {past events : List (Event E)} {actions : List (Action E)} {phase : Phase E}

@[simp]
theorem stream_lifecycle (recorded : Option TaskLifecycleEvent) :
    stream (recorded.toList.map (Event.lifecycle (E := E) i)) = recorded.toList := by
  cases recorded <;> rfl

@[simp]
theorem stream_ofReport (answer : Except TaskProgressError TaskLifecycleEvent) :
    stream [Event.ofReport (E := E) i answer] = answer.toOption.toList := by
  cases answer <;> rfl

theorem Turn.records (hturn : Turn executor i context action v events v')
    (hroom : v.reporter.Room) (hcreated : v.phase = .created → v.reporter = {}) :
    v.reporter.Records v'.reporter (stream events) := by
  cases hturn with
  | start =>
    obtain rfl : _ = ({} : LifecycleState) := hcreated rfl
    exact LifecycleState.start_records
  | enter | failed | transition =>
    rw [stream_lifecycle]
    exact LifecycleState.transition_records hroom _
  | beaten | report | heartbeat =>
    simp [LifecycleState.report_records hroom, LifecycleState.heartbeat_records hroom]
  | advance _ _ hevents => rcases hevents with rfl | rfl <;> exact .idle
  | reject _ hevents => rcases hevents with rfl | ⟨error, rfl⟩ <;> exact .idle
  | _ => exact .idle

/-- The marks after a turn. -/
def Marks.after (marks : Marks) (action : Action E) (reporter : LifecycleState)
    (events : List (Event E)) : Marks where
  polled := marks.polled || action.isPoll
  current := reporter.current
  runs := marks.runs + (stream events).countP (·.isRunning)
  invoked := marks.invoked || events.any Event.isInvoked

theorem marks_append (v v' : View E) :
    marks v' (actions ++ [action]) (past ++ events) =
      (marks v actions past).after action v'.reporter events := by
  simp [marks, Marks.after, stream]

variable {marks : Marks}

theorem stage_iff_of_admitting (h : phase.admitting = true) :
    phase.Stage marks ↔ marks = ⟨true, .queued, 0, false⟩ := by
  cases phase <;> first | exact Iff.rfl | cases h

theorem scope_endsOnly (h : ∀ ops outcome, phase ≠ .leaving ops outcome) :
    phase.scope.all Op.endsOnly = true := by
  cases phase with
  | leaving ops outcome => exact absurd rfl (h ops outcome)
  | _ => rfl

/-- A turn that announces no state and does not call the handler leaves the marks alone. -/
theorem Marks.after_quiet {reporter'} (hcur : marks.current = reporter.current)
    (hquiet : reporter.Quiet reporter' (stream events))
    (hinv : events.any Event.isInvoked = false)
    (hpolled : marks.polled = true ∨ action.isPoll = false) :
    marks.after action reporter' events = marks := by
  obtain ⟨polled, current, runs, invoked⟩ := marks
  obtain rfl : current = reporter.current := hcur
  have hor : (polled || action.isPoll) = polled := by
    rcases hpolled with rfl | hpolled
    · rfl
    · rw [hpolled, Bool.or_false]
  simp [Marks.after, hquiet.current, hquiet.runs, hinv, hor]

theorem any_isInvoked_lifecycle (recorded : Option TaskLifecycleEvent) :
    (recorded.toList.map (Event.lifecycle (E := E) i)).any Event.isInvoked = false := by
  cases recorded <;> rfl

theorem any_isInvoked_ofReport (answer : Except TaskProgressError TaskLifecycleEvent) :
    [Event.ofReport (E := E) i answer].any Event.isInvoked = false := by
  cases answer <;> rfl

/-- A transition of an active reporter, among the marks. -/
theorem Marks.after_transition {target input} (hactive : reporter.current.isTerminal = false)
    (hroom : reporter.Room) :
    marks.after (.poll i input)
      (reporter.transition context.task input.now target).1
      ((reporter.transition context.task input.now target).2.toList.map
        (Event.lifecycle (E := E) i)) =
      ⟨true, target, marks.runs + (if target = .running then 1 else 0), marks.invoked⟩ := by
  rw [LifecycleState.transition_of_active hactive hroom]
  by_cases htarget : target = .running <;>
    simp [Marks.after, Action.isPoll, Event.isInvoked, stream, Event.lifecycleEvent?,
      TaskLifecycleEvent.isRunning, TaskLifecycleEventKind.state?]

theorem Stop.ending_isTerminal (executor : Executor E) (stop : Stop) :
    (stop.ending executor).1.isTerminal = true := by
  cases stop with
  | cancelled reason => rfl
  | deadline timeout observed =>
    unfold Stop.ending
    dsimp only
    split <;> rfl

theorem Op.ends_of_isRelease {op : Op} (hop : op.isRelease = true) : op.ends = false := by
  cases op <;> first | rfl | cases hop

theorem stage_leave_of_admitting (hphase : phase.admitting = true) (hstage : phase.Stage marks)
    {ops : List Op} (hends : ops.any Op.ends = true) (hall : ops.all Op.endsOnly = true)
    {outcome : Option (ExecutionResult E)} :
    Phase.Stage (.leaving (ops ++ phase.scope) outcome) marks := by
  obtain rfl := (stage_iff_of_admitting hphase).mp hstage
  refine ⟨rfl, .inr ?_, ?_, rfl⟩
  · rw [any_append, hends, Bool.true_or]
  · have hscope : phase.scope.all Op.endsOnly = true :=
      scope_endsOnly (by rintro ops outcome rfl; cases hphase)
    rw [all_append, hall, hscope, Bool.and_self]

theorem Turn.stage (hturn : Turn executor i context action v events v') (hroom : v.reporter.Room)
    (hcur : marks.current = v.reporter.current) (hstage : v.phase.Stage marks) :
    v'.phase.Stage (marks.after action v'.reporter events) := by
  obtain ⟨phase, reporter, token⟩ := v
  dsimp only at hroom hcur hstage ⊢
  have hactive (state : TaskState) (hstate : state.isTerminal = false)
      (hmarks : marks.current = state) : reporter.current.isTerminal = false := by
    rw [← hcur, hmarks, hstate]
  -- A turn that announces nothing leaves the marks as they are.
  have hsilent : ∀ {events : List (Event E)} {action : Action E}, marks.polled = true →
      stream events = [] → events.any Event.isInvoked = false →
      marks.after action reporter events = marks := by
    intro events action hpolled hstream hinv
    exact Marks.after_quiet hcur ⟨rfl, by rw [hstream]; rfl⟩ hinv (.inl hpolled)
  cases hturn with
  | start =>
    obtain rfl := hstage
    simp [Phase.Stage, Marks.after, LifecycleState.start,
      LifecycleState.record_of_room LifecycleState.room_new, Action.isPoll, Event.isInvoked,
      TaskLifecycleEvent.isRunning, TaskLifecycleEventKind.state?, Except.toOption, stream,
      Event.lifecycleEvent?]
  | advance hphase hphase' hevents =>
    obtain rfl := (stage_iff_of_admitting hphase).mp hstage
    rw [stage_iff_of_admitting hphase']
    rcases hevents with rfl | rfl <;> exact hsilent rfl rfl rfl
  | reject hphase hevents reason =>
    have hpolled : marks.polled = true := by
      rw [(stage_iff_of_admitting hphase).mp hstage]
    rw [hsilent hpolled (by rcases hevents with rfl | ⟨error, rfl⟩ <;> rfl)
      (by rcases hevents with rfl | ⟨error, rfl⟩ <;> rfl)]
    exact stage_leave_of_admitting hphase hstage (by cases reason <;> rfl)
      (by cases reason <;> rfl)
  | forestall hphase reason =>
    have hpolled : marks.polled = true := by
      rw [(stage_iff_of_admitting hphase).mp hstage]
    rw [hsilent hpolled rfl rfl]
    exact stage_leave_of_admitting hphase hstage rfl rfl
  | enter =>
    obtain rfl := hstage
    exact Marks.after_transition (hactive .queued rfl rfl) hroom
  | failed =>
    obtain rfl := hstage
    exact Marks.after_transition (hactive .running rfl rfl) hroom
  | invoke =>
    obtain rfl := hstage
    simp [Phase.Stage, Marks.after, Event.isInvoked, stream, Event.lifecycleEvent?, ← hcur]
  | beaten =>
    obtain rfl := hstage
    exact Marks.after_quiet hcur (by simpa using LifecycleState.heartbeat_quiet)
      (any_isInvoked_lifecycle _) (.inl rfl)
  | report | heartbeat =>
    rw [Marks.after_quiet hcur (by simp [LifecycleState.report_quiet,
      LifecycleState.heartbeat_quiet]) (any_isInvoked_ofReport _) (.inr rfl)]
    exact hstage
  | dropUnpolled =>
    obtain rfl := hstage
    exact ⟨nofun, rfl⟩
  | finish =>
    obtain ⟨hpolled, hends, -, hruns⟩ := hstage
    rw [hsilent hpolled rfl rfl]
    exact ⟨fun _ => hends.resolve_right nofun, hruns⟩
  | overrule | succeed =>
    obtain rfl := hstage
    exact ⟨rfl, .inr rfl, rfl, rfl⟩
  | @cleaned _ _ stop =>
    obtain rfl := hstage
    have hterm := stop.ending_isTerminal executor
    refine ⟨rfl, .inr ?_, ?_, rfl⟩ <;> simp [Op.ends, Op.endsOnly, hterm, Phase.scope]
  | decide | policyPanic =>
    obtain rfl := hstage
    rw [hsilent rfl rfl rfl]
    exact ⟨rfl, .inl rfl, rfl, rfl⟩
  | unwind hact hphase =>
    have hpoll : action.isPoll = false := by rcases hact with rfl | rfl <;> rfl
    rw [Marks.after_quiet hcur ⟨rfl, rfl⟩ rfl (.inr hpoll)]
    -- Only the guards in scope are left to run, and they announce terminal states at most.
    have hscope : phase.scope.all Op.endsOnly = true :=
      scope_endsOnly (by rintro ops outcome rfl; cases hphase)
    have hmarks : marks.polled = true ∧ marks.runs = marks.invoked.toNat := by
      cases phase <;> first | (obtain rfl := hstage; exact ⟨rfl, rfl⟩) | cases hphase
    exact ⟨hmarks.1, .inr (by simp [Op.ends]), by simp [hscope, Op.endsOnly], hmarks.2⟩
  | transition =>
    obtain ⟨hpolled, hends, hall, hruns⟩ := hstage
    rw [all_cons, Bool.and_eq_true] at hall
    obtain ⟨hstate, hall⟩ := hall
    -- A terminal state is not left; any other is followed by the announced one.
    cases hterm : reporter.current.isTerminal with
    | true =>
      rw [LifecycleState.transition_of_terminal hterm, hsilent hpolled rfl rfl]
      exact ⟨hpolled, .inl (hcur ▸ hterm), hall, hruns⟩
    | false =>
      rw [Marks.after_transition hterm hroom]
      refine ⟨rfl, .inl hstate, hall, ?_⟩
      rw [if_neg (by rintro rfl; cases hstate)]
      exact hruns
  | @release _ op hop =>
    obtain ⟨hpolled, hends, hall, hruns⟩ := hstage
    rw [all_cons, Bool.and_eq_true] at hall
    rw [hsilent hpolled rfl rfl]
    refine ⟨hpolled, hends.imp_right fun hany => ?_, hall.2, hruns⟩
    rw [any_cons, Op.ends_of_isRelease hop] at hany
    exact hany
  | cancel =>
    obtain ⟨hpolled, hends, hall, hruns⟩ := hstage
    rw [hsilent hpolled rfl rfl]
    exact ⟨hpolled, hends, hall, hruns⟩
  | guard reason | abandon =>
    obtain ⟨hpolled, -, hall, hruns⟩ := hstage
    rw [hsilent hpolled rfl rfl]
    exact ⟨hpolled, .inr rfl, hall, hruns⟩
  | _ =>
    obtain rfl := hstage
    exact hsilent rfl rfl rfl

/-- A turn of an execution that was not polled before. -/
theorem Turn.of_created (hturn : Turn executor i context action v events v')
    (hphase : v.phase = .created) (hreporter : v.reporter = {}) :
    (action.isPoll = true ∧ ∃ event, stream events = [event] ∧
        event.kind = .stateChanged .queued) ∨
      action.isPoll = false ∧ stream events = [] := by
  cases hturn with
  | start =>
    refine .inl ⟨rfl, ?_⟩
    rw [LifecycleState.start]
    exact ⟨_, rfl, rfl⟩
  | dropUnpolled => exact .inr ⟨rfl, rfl⟩
  | report hstart | heartbeat hstart =>
    obtain rfl : _ = ({} : LifecycleState) := hreporter
    exact absurd rfl hstart
  | advance hadm | reject hadm | forestall hadm =>
    obtain rfl : _ = Phase.created := hphase
    cases hadm
  | unwind _ hsusp =>
    obtain rfl : _ = Phase.created := hphase
    cases hsusp
  | _ => cases hphase

theorem Turn.phase_ne_created (hturn : Turn executor i context action v events v')
    (hreporter : v.phase = .created → v.reporter = {}) : v'.phase ≠ .created := by
  intro hphase
  cases hturn with
  | report hstart | heartbeat hstart =>
    obtain rfl : _ = ({} : LifecycleState) := hreporter hphase
    exact hstart rfl
  | advance _ hadm =>
    obtain rfl : _ = Phase.created := hphase
    cases hadm
  | _ => cases hphase

theorem phase_of_unpolled (hstage : phase.Stage marks) (hpolled : marks.polled = false) :
    phase = .created ∨ phase = .done := by
  cases phase with
  | created => exact .inl rfl
  | done => exact .inr rfl
  | leaving ops outcome =>
    cases hpolled.symm.trans hstage.1
  | _ =>
    obtain rfl := hstage
    cases hpolled

theorem Recorded.turn (h : Recorded v actions past)
    (hturn : Turn executor i context action v events v')
    (hcount : (stream (past ++ events)).length < Word.maxValue 64) :
    Recorded v' (actions ++ [action]) (past ++ events) := by
  have hstream : stream (past ++ events) = stream past ++ stream events :=
    filterMap_append
  have hroom : v.reporter.Room := by
    rw [hstream, length_append, h.journal.length] at hcount
    exact Nat.lt_of_le_of_lt (Nat.le_add_right _ _) hcount
  have hstage : v'.phase.Stage (marks v' (actions ++ [action]) (past ++ events)) := by
    rw [marks_append v v']
    exact hturn.stage hroom rfl h.stage
  have hjournal := h.journal.records (hturn.records hroom h.created)
  have hany : (actions ++ [action]).any Action.isPoll =
      (actions.any Action.isPoll || action.isPoll) := by simp
  refine ⟨hstream ▸ hjournal, hstage, fun hcreated => ?_, ?_⟩
  · exact absurd hcreated (hturn.phase_ne_created h.created)
  rw [hany, hstream]
  cases hpolled : actions.any Action.isPoll with
  | true =>
    obtain ⟨event, rest, hfirst, hkind⟩ := h.first.2 hpolled
    exact ⟨nofun, fun _ => ⟨event, rest ++ stream events, by rw [hfirst]; rfl, hkind⟩⟩
  | false =>
    have hpast := h.first.1 hpolled
    rw [hpast]
    rcases phase_of_unpolled h.stage hpolled with hphase | hphase
    · rcases hturn.of_created hphase (h.created hphase) with
        ⟨hpoll, event, hevents, hkind⟩ | ⟨hpoll, hevents⟩
      · rw [hpoll, hevents]
        exact ⟨nofun, fun _ => ⟨event, [], rfl, hkind⟩⟩
      · rw [hpoll, hevents]
        exact ⟨fun _ => rfl, nofun⟩
    · have hseq := h.journal.length
      rw [hpast] at hseq
      exact absurd hseq.symm (hturn.of_done hphase).2

/-! ## Runs -/

def lifecycleOf (i : ℕ) (history : List (Event E)) : List TaskLifecycleEvent :=
  stream (eventsOf i history)

variable {s : State E} {execution : Execution E} {history : List (Event E)}

theorem recorded_of_run (hrun : (machine executor).run executor.init actions = some (s, history))
    (hexec : s.executions[i]? = some execution)
    (hcount : (lifecycleOf i history).length < Word.maxValue 64) :
    Recorded (s.view execution) (actionsOf i actions) (eventsOf i history) := by
  have hholds : Holds executor i fun v actions events =>
      (stream events).length < Word.maxValue 64 → Recorded v actions events := by
    refine ⟨fun token _ => ?_, ?_, fun _ h hcount => ?_⟩
    · exact ⟨⟨rfl, fun _ _ h => absurd h not_mem_nil, nofun⟩, rfl, fun _ => rfl,
        fun _ => rfl, nofun⟩
    · intro context action v v' actions past events h hturn hcount
      -- Fewer events were delivered before the turn.
      have hle : (stream past).length ≤ (stream (past ++ events)).length := by
        simp [stream]
      exact (h (Nat.lt_of_le_of_lt hle hcount)).turn hturn hcount
    · obtain ⟨hjournal, hstage, hcreated, hfirst⟩ := h hcount
      exact ⟨hjournal, hstage, hcreated, hfirst⟩
  exact hholds.run hrun hexec hcount

theorem any_isPoll_actionsOf :
    (actionsOf i actions).any Action.isPoll = true ↔ ∃ input, .poll i input ∈ actions := by
  rw [any_eq_true]
  constructor
  · rintro ⟨action, hact, hpoll⟩
    obtain ⟨hmem, hown⟩ := mem_filter.mp hact
    cases action with
    | poll j input =>
      obtain rfl : j = i := by simpa [Action.execution?] using hown
      exact ⟨input, hmem⟩
    | _ => cases hpoll
  · rintro ⟨input, hmem⟩
    exact ⟨.poll i input, mem_filter.mpr ⟨hmem, by simp [Action.execution?]⟩, rfl⟩

theorem any_isInvoked_eventsOf :
    (eventsOf i history).any Event.isInvoked = true ↔ .invoked i ∈ history := by
  rw [any_eq_true]
  constructor
  · rintro ⟨event, hevent, hinv⟩
    obtain ⟨hmem, hown⟩ := mem_filter.mp hevent
    cases event with
    | invoked j =>
      obtain rfl : j = i := by simpa [Event.execution?] using hown
      exact hmem
    | _ => cases hinv
  · intro hmem
    exact ⟨.invoked i, (mem_eventsOf rfl).mpr hmem, rfl⟩

/-- An execution has announced that it runs if it called its handler, or is about to. -/
theorem Phase.Stage.runs (h : phase.Stage marks) :
    marks.runs = marks.invoked.toNat ∨
      marks.runs = 1 ∧ ∃ taskId, phase = .invoking taskId := by
  cases phase with
  | invoking taskId =>
    obtain rfl := h
    exact .inr ⟨rfl, taskId, rfl⟩
  | leaving ops outcome => exact .inl h.2.2.2
  | done => exact .inl h.2
  | _ =>
    obtain rfl := h
    exact .inl rfl

/-- A journal with a terminal event ends with it, and its reporter refuses everything. -/
theorem Journal.of_terminal {stream before after} {event} (h : Journal reporter stream)
    (hstream : stream = before ++ event :: after) (hterm : event.isTerminal = true) :
    after = [] ∧ reporter.current.isTerminal = true := by
  have hmem : event ∈ stream := by simp [hstream]
  cases hcur : reporter.current.isTerminal with
  | false =>
    have hactive := h.active hcur event hmem
    rw [hterm] at hactive
    cases hactive
  | true =>
    obtain ⟨first, last, hlast, -, hfirst⟩ := h.terminal hcur
    refine ⟨?_, rfl⟩
    rcases eq_nil_or_concat after with rfl | ⟨middle, final, rfl⟩
    · rfl
    · -- Otherwise the event is among those before the last.
      have hsplit : (before ++ event :: middle) ++ [final] = first ++ [last] := by
        rw [← hlast, hstream]
        simp
      obtain ⟨hinit, -⟩ := append_inj' hsplit rfl
      have hinact := hfirst event (by simp [← hinit])
      rw [hterm] at hinact
      cases hinact

/-- The events the observer receives about an execution are numbered from one. The first
announces the queued task. The execution announces that it runs at most once, and
exactly when it calls its handler. A terminal state is announced last, by every
execution that returns, panics or is dropped after its first poll, and whoever reports
after that is refused. A future that is never polled announces nothing. -/
theorem lifecycle_stream
    (hrun : (machine executor).run executor.init actions = some (s, history))
    (hexecution : s.executions[i]? = some execution)
    (hcount : (lifecycleOf i history).length < 2 ^ 64 - 1) :
    (lifecycleOf i history).map (·.sequence) = List.range' 1 (lifecycleOf i history).length ∧
    ((∃ input, .poll i input ∈ actions) → ∃ event, (lifecycleOf i history).head? = some event ∧
      event.kind = .stateChanged .queued) ∧
    ((¬ ∃ input, .poll i input ∈ actions) → lifecycleOf i history = []) ∧
    (lifecycleOf i history).countP (·.isRunning) ≤ 1 ∧
    (.invoked i ∈ history → (lifecycleOf i history).countP (·.isRunning) = 1) ∧
    (∀ outcome, .finished i outcome ∈ history →
      (lifecycleOf i history).countP (·.isRunning) = 1 → .invoked i ∈ history) ∧
    (∀ before event after, lifecycleOf i history = before ++ event :: after →
      event.isTerminal = true → after = []) ∧
    (∀ outcome, .finished i outcome ∈ history → (∃ input, .poll i input ∈ actions) →
      ∃ before last, lifecycleOf i history = before ++ [last] ∧ last.isTerminal = true ∧
        ∀ event ∈ before, event.isTerminal = false) ∧
    (∀ event ∈ lifecycleOf i history, event.isTerminal = true → ∀ action : Action E,
      (∃ progress now, action = .report i progress now) ∨ (∃ now, action = .heartbeat i now) →
      ∃ s', (machine executor).step s action = some (s', [.refused i .taskAlreadyTerminal])) := by
  obtain ⟨hjournal, hstage, -, hfirst⟩ := recorded_of_run hrun hexecution hcount
  have hlength : (lifecycleOf i history).length = execution.reporter.sequence := hjournal.length
  -- The running state was announced for the call of the handler, or right before it.
  have hruns : (lifecycleOf i history).countP (·.isRunning) =
        ((eventsOf i history).any Event.isInvoked).toNat ∨
      (lifecycleOf i history).countP (·.isRunning) = 1 ∧
        ∃ taskId, execution.phase = .invoking taskId := hstage.runs
  refine ⟨?_, ?_, ?_, ?_, ?_, ?_, ?_, ?_, ?_⟩
  · -- Numbers without a gap.
    rw [hlength]
    exact hjournal.numbered
  · -- The first poll announces the queued task.
    intro hpolled
    obtain ⟨event, rest, hstream, hkind⟩ := hfirst.2 (any_isPoll_actionsOf.mpr hpolled)
    exact ⟨event, by rw [lifecycleOf, hstream]; rfl, hkind⟩
  · -- Before it, there is no reporter.
    intro hunpolled
    exact hfirst.1 (Bool.eq_false_of_not_eq_true (mt any_isPoll_actionsOf.mp hunpolled))
  · -- Running at most once.
    rcases hruns with hruns | ⟨hruns, -⟩
    · rw [hruns]
      exact Bool.toNat_le _
    · exact hruns.le
  · -- Once the handler is called, exactly once.
    intro hinvoked
    rcases hruns with hruns | ⟨hruns, -⟩
    · rw [hruns, any_isInvoked_eventsOf.mpr hinvoked]
      rfl
    · exact hruns
  · -- An execution that has returned is past the announcement before the call.
    intro outcome hfinished hone
    rcases hruns with hruns | ⟨-, taskId, hphase⟩
    · rw [hruns] at hone
      exact any_isInvoked_eventsOf.mp (Bool.toNat_eq_one.mp hone)
    · cases (done_of_finished hrun hexecution hfinished).symm.trans hphase
  · -- A terminal state is the last.
    intro before event after hstream hterminal
    exact (hjournal.of_terminal hstream hterminal).1
  · -- An execution that has returned has announced one.
    intro outcome hfinished hpolled
    have hphase : (s.view execution).phase = .done := done_of_finished hrun hexecution hfinished
    rw [hphase] at hstage
    exact hjournal.terminal (hstage.1 (any_isPoll_actionsOf.mpr hpolled))
  · -- From then on, clones of the reporter are refused.
    intro event hevent hterminal action haction
    obtain ⟨before, after, hstream⟩ := List.append_of_mem hevent
    have hcurrent : execution.reporter.current.isTerminal = true :=
      (hjournal.of_terminal hstream hterminal).2
    have hstarted : execution.reporter.sequence ≠ 0 := by
      rw [← hlength]
      exact List.length_pos_of_mem hevent |>.ne'
    rcases haction with ⟨progress, now, rfl⟩ | ⟨now, rfl⟩ <;>
      simp [machine, step, hexecution, State.reportFrom, hstarted, LifecycleState.report,
        LifecycleState.heartbeat, hcurrent]

end turns

/-- An execution whose handler reports progress and succeeds; the report of a clone that
outlives it is refused. -/
def Sample.reporting : List (Action Unit) :=
  let progress := { completedUnits := 1, totalUnits := none, completed_le := nofun }
  [.execute context] ++ polls 0 12 ++ [.report 0 progress 0,
    .poll 0 { handler := some (.ok ()) }] ++ polls 0 7 ++ [.report 0 progress 0]

theorem lifecycle_stream_reporting :
    let last := Sample.after Sample.reporting
    .finished 0 (some (.ok ())) ∈ last.2 ∧ (lifecycleOf 0 last.2).length = 4 ∧
      (lifecycleOf 0 last.2).map (·.sequence) = List.range' 1 (lifecycleOf 0 last.2).length ∧
      ∃ before event, lifecycleOf 0 last.2 = before ++ [event] ∧ event.isTerminal = true ∧
        ∀ other ∈ before, other.isTerminal = false := by
  intro last
  have hrun : (machine Sample.executor).run Sample.executor.init Sample.reporting = some last :=
    Machine.run_eq_after rfl
  have hfinished : .finished 0 (some (.ok ())) ∈ last.2 := List.mem_of_getElem? (i := 8) rfl
  have hlength : (lifecycleOf 0 last.2).length = 4 := rfl
  have hpolled : .poll 0 { granted := true } ∈ Sample.reporting :=
    List.mem_of_getElem? (i := 1) rfl
  obtain ⟨execution, hexecution⟩ : ∃ execution, last.1.executions[0]? = some execution :=
    ⟨_, rfl⟩
  have hcount : (lifecycleOf 0 last.2).length < 2 ^ 64 - 1 := by
    rw [hlength]
    decide
  obtain ⟨hnumbered, -, -, -, -, -, -, hterminal, -⟩ := lifecycle_stream hrun hexecution hcount
  exact ⟨hfinished, hlength, hnumbered, hterminal _ hfinished ⟨_, hpolled⟩⟩

end PlenoraRuntime.Worker
