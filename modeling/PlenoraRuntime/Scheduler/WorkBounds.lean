import PlenoraRuntime.Scheduler.History
import PlenoraRuntime.Scheduler.Turns

/-!
# How much one tick may do

The work of a tick is bounded whatever the plans, the dispatcher and the other
callers do. `TickLedger` compares the tick's own counters with the history: the global
budget and the calls made add up, and `attempted` is the number of occurrences of the
frame's schedule that the tick has dispatched or skipped. An identity that is still
ahead has none, and is entered once.

Every turn uses up some of `Tick.left`, so a tick takes boundedly many steps of its
own, however they are interleaved with the steps of others.
-/

namespace PlenoraRuntime.Scheduler

open Transition List
open Option hiding or_self

variable {T : Type*} {config : SchedulerConfig} {tick tick' : Tick T} {actions : List (Action T)}
  {i : ℕ} {entries' entries : List (ScheduleEntry T)} {action : Action T} {s : State T}

/-! ## The work of a tick in a history -/

def Event.isCallBy (i : ℕ) : Event T → Bool
  | .dispatched _ j _ _ => j = i
  | _ => false

/-- The event is a dispatcher call by tick `i` for the schedule `id`, or a skip of
one of its occurrences. -/
def Event.isWorkOn (i : ℕ) (id : ScheduleId) : Event T → Bool
  | .dispatched _ j _ occurrence => j = i && occurrence.id.scheduleId = id
  | .skipped j occurrence => j = i && occurrence.scheduleId = id
  | _ => false

def callsBy (i : ℕ) (history : List (Event T)) : ℕ :=
  history.countP (Event.isCallBy i)

/-- The number of occurrences of the schedule `id` that tick `i` dispatched or skipped. -/
def workOn (i : ℕ) (id : ScheduleId) (history : List (Event T)) : ℕ :=
  history.countP (Event.isWorkOn i id)

/-- The dispatcher calls that a report accounts for. -/
def SchedulerTickReport.answered (report : SchedulerTickReport) : ℕ :=
  report.dispatched + report.notStartedFailures + report.reconciliationRequired

variable {history events : List (Event T)}

section count

variable {id : ScheduleId}

theorem callsBy_append : callsBy i (history ++ events) = callsBy i history + callsBy i events :=
  countP_append ..

theorem workOn_append :
    workOn i id (history ++ events) = workOn i id history + workOn i id events :=
  countP_append ..

theorem callsBy_of_worker (h : ∀ event ∈ events, event.worker ≠ some i) : callsBy i events = 0 := by
  refine countP_eq_zero.mpr fun event hevent => ?_
  have hworker := h event hevent
  cases event <;> simp_all [Event.isCallBy, Event.worker]

theorem workOn_of_worker (h : ∀ event ∈ events, event.worker ≠ some i) :
    workOn i id events = 0 := by
  refine countP_eq_zero.mpr fun event hevent => ?_
  have hworker := h event hevent
  cases event <;> simp_all [Event.isWorkOn, Event.worker]

theorem workOn_skips (id : ScheduleId) (frame : Frame) (dues : List SystemTime) :
    workOn i id (dues.map fun due => (.skipped i ⟨frame.id, due⟩ : Event T)) =
      if frame.id = id then dues.length else 0 := by
  simp only [workOn, countP_map]
  split
  case isTrue hid => exact countP_eq_length.mpr (by simp [Event.isWorkOn, hid])
  case isFalse hid => exact countP_eq_zero.mpr (by simp [Event.isWorkOn, hid])

end count

/-! ## The counters of one turn -/

@[simp] theorem Frame.answered_examine (frame : Frame) (report : SchedulerTickReport) :
    (frame.examine report).answered = report.answered := by
  simp [SchedulerTickReport.answered]

@[simp] theorem SchedulerTickReport.answered_skip (report : SchedulerTickReport) :
    report.skip.answered = report.answered := rfl

/-- What one skip leaves alone, a settlement leaves alone. -/
theorem Tick.report_settlement {α : Type*} {f : SchedulerTickReport → α}
    (hskip : ∀ report, f (SchedulerTickReport.skip report) = f report) (tick : Tick T)
    (frame : Frame) (dispatch : PendingDispatch T) (outcome : DispatchOutcome)
    (entry : ScheduleEntry T) :
    f (tick.settlement config frame dispatch outcome entry).report = f tick.report := by
  have hskips : ∀ (n : ℕ) (report : SchedulerTickReport),
      f (SchedulerTickReport.skip^[n] report) = f report := by
    intro n
    induction n with
    | zero => exact fun _ => rfl
    | succ n ih =>
      intro report
      rw [Function.iterate_succ_apply, ih, hskip]
  have hspec := (applyOutcome_spec config { entry with dispatchToken := none } outcome
    dispatch.misfired tick.now frame.attempted tick.report).2
  exact (congrArg f hspec).trans (hskips _ _)

/-- An outcome is counted once, as long as the counters have room for it. -/
theorem SchedulerTickReport.answered_answer {report : SchedulerTickReport}
    (outcome : DispatchOutcome) (hroom : report.answered + 1 ≤ usizeMax) :
    (report.answer outcome).answered = report.answered + 1 := by
  unfold SchedulerTickReport.answered at hroom ⊢
  cases outcome with
  | confirmed | notStarted | unknown =>
    simp only [answer]
    rw [saturatingAdd_eq (by omega)]
    omega

theorem length_skipThroughNow_le (now : SystemTime) (grace : Duration) (limit : ℕ)
    (entry : ScheduleEntry T) (report : SchedulerTickReport) :
    (skipThroughNow now grace limit entry report).2.2.length ≤ limit := by
  induction limit generalizing entry report with
  | zero => exact Nat.le_refl 0
  | succ limit ih =>
    unfold skipThroughNow
    split
    · exact Nat.zero_le _
    · split
      · exact Nat.succ_le_succ (ih entry.advanceOnce report.skip)
      · exact Nat.zero_le _

/-- A settlement adds what it swept to `attempted`, within the per-schedule bound. -/
theorem Tick.attempted_settlement {frame : Frame} (dispatch : PendingDispatch T)
    (outcome : DispatchOutcome) (entry : ScheduleEntry T)
    (hbound : frame.attempted ≤ config.maxCatchUpPerSchedule) :
    let settlement := tick.settlement config frame dispatch outcome entry
    settlement.attempted = frame.attempted + settlement.swept.length ∧
      settlement.attempted ≤ config.maxCatchUpPerSchedule := by
  cases outcome with
  | notStarted | unknown => exact ⟨rfl, hbound⟩
  | confirmed =>
    simp only [Tick.settlement, ScheduleEntry.applyOutcome]
    split
    case isFalse => exact ⟨rfl, hbound⟩
    case isTrue =>
      have hmax := config.maxCatchUpPerSchedule_le
      have hswept := fun released : ScheduleEntry T =>
        length_skipThroughNow_le tick.now config.misfireGrace
          (config.maxCatchUpPerSchedule - frame.attempted) released tick.report
      rw [saturatingAdd_eq ((Nat.add_le_of_le_sub' hbound (hswept _)).trans hmax)]
      exact ⟨rfl, Nat.add_le_of_le_sub' hbound (hswept _)⟩

/-! ## The ledger of a tick -/

/-- The locals of `process_entry`, while the tick is inside it. -/
def TickPhase.frame : TickPhase T → Option Frame
  | .deciding frame | .dispatching frame _ | .applying frame _ _ | .finishing frame => some frame
  | _ => none

/-- The identities that the tick has listed and not yet entered. -/
def TickPhase.ahead : TickPhase T → List ScheduleId
  | .looping rest | .left rest => rest
  | .deciding frame | .dispatching frame _ | .applying frame _ _ | .finishing frame => frame.rest
  | _ => []

/-- The dispatcher calls in flight. -/
def TickPhase.outstanding : TickPhase T → ℕ
  | .dispatching _ _ => 1
  | _ => 0

/-- The counters of tick `i` agree with the history. -/
structure TickLedger (config : SchedulerConfig) (i : ℕ) (history : List (Event T)) (tick : Tick T) :
    Prop where
  budget : callsBy i history + tick.remainingGlobal = config.maxDispatchesPerTick
  answered : tick.phase ≠ .done →
    tick.report.answered + tick.phase.outstanding = callsBy i history
  work_le : ∀ id, workOn i id history ≤ config.maxCatchUpPerSchedule
  fresh : tick.phase = .listing → ∀ id, workOn i id history = 0
  current : ∀ frame, tick.phase.frame = some frame →
    workOn i frame.id history = frame.attempted ∧ frame.id ∉ frame.rest
  ahead : ∀ id ∈ tick.phase.ahead, workOn i id history = 0
  ahead_nodup : tick.phase.ahead.Nodup
  finished : ∀ report, .tickFinished i report ∈ history →
    tick.phase = .done ∧ tick.report = report ∧ report.answered = callsBy i history

namespace TickLedger

variable {i : ℕ} {history events : List (Event T)} {tick tick' : Tick T}

theorem new (now : SystemTime) (observesShutdown : Bool)
    (hworker : ∀ event ∈ history, event.worker ≠ some i) :
    TickLedger config i history (Tick.new config now observesShutdown) where
  budget := by simp [callsBy_of_worker hworker, Tick.new]
  answered _ := (callsBy_of_worker hworker).symm
  work_le id := by simp [workOn_of_worker hworker]
  fresh _ _ := workOn_of_worker hworker
  current _ hframe := by cases hframe
  ahead id hid := by cases hid
  ahead_nodup := nodup_nil
  finished report hrep := absurd rfl (hworker _ hrep)

theorem append (h : TickLedger config i history tick)
    (hworker : ∀ event ∈ events, event.worker ≠ some i) :
    TickLedger config i (history ++ events) tick := by
  have hcalls : callsBy i (history ++ events) = callsBy i history := by
    rw [callsBy_append, callsBy_of_worker hworker, Nat.add_zero]
  have hwork : ∀ id, workOn i id (history ++ events) = workOn i id history := by
    intro id
    rw [workOn_append, workOn_of_worker hworker, Nat.add_zero]
  constructor <;> try simp only [hcalls, hwork]
  · exact h.budget
  · exact h.answered
  · exact h.work_le
  · exact h.fresh
  · exact h.current
  · exact h.ahead
  · exact h.ahead_nodup
  · intro report hrep
    exact h.finished report ((mem_append.mp hrep).resolve_right fun hnew => hworker _ hnew rfl)

theorem drop (h : TickLedger config i history tick) :
    TickLedger config i history { tick with phase := .done } where
  budget := h.budget
  answered hdone := absurd rfl hdone
  work_le := h.work_le
  fresh hlisting := by cases hlisting
  current _ hframe := by cases hframe
  ahead id hid := by cases hid
  ahead_nodup := nodup_nil
  finished report hrep := ⟨rfl, (h.finished report hrep).2⟩

theorem not_finished (h : TickLedger config i history tick) (hphase : tick.phase ≠ .done)
    (report : SchedulerTickReport) : .tickFinished i report ∉ history :=
  fun hrep => hphase (h.finished report hrep).1

theorem move (h : TickLedger config i history tick)
    (hrem : tick'.remainingGlobal = tick.remainingGlobal)
    (hansw : tick'.report.answered + tick'.phase.outstanding =
      tick.report.answered + tick.phase.outstanding)
    (hcur : ∀ frame, tick'.phase.frame = some frame →
      workOn i frame.id history = frame.attempted ∧ frame.id ∉ frame.rest)
    (hahead : ∀ id ∈ tick'.phase.ahead, workOn i id history = 0) (hnodup : tick'.phase.ahead.Nodup)
    (hphase : tick.phase ≠ .done := by simp) (hlisting : tick'.phase ≠ .listing := by simp)
    (hworker : ∀ event ∈ events, event.worker = none := by simp [Event.worker]) :
    TickLedger config i (history ++ events) tick' := by
  refine append ?_ fun event hevent => by simp [hworker event hevent]
  refine ⟨hrem ▸ h.budget, fun _ => ?_, h.work_le, fun hfresh => absurd hfresh hlisting,
    hcur, hahead, hnodup, fun report hrep => ?_⟩
  · rw [hansw]
    exact h.answered hphase
  · exact absurd hrep (h.not_finished hphase report)

theorem finish (h : TickLedger config i history tick) (hphase : tick.phase ≠ .done)
    (houtstanding : tick.phase.outstanding = 0) {report : SchedulerTickReport}
    (hansw : report.answered = tick.report.answered) :
    TickLedger config i (history ++ [.tickFinished i report])
      { tick with report, phase := .done } := by
  have hcalls : callsBy i (history ++ [.tickFinished i report]) = callsBy i history := by
    simp [callsBy, Event.isCallBy]
  have hwork : ∀ id, workOn i id (history ++ [.tickFinished i report]) = workOn i id history := by
    intro id
    simp [workOn, Event.isWorkOn]
  have hall := h.answered hphase
  rw [houtstanding, Nat.add_zero] at hall
  refine ⟨hcalls ▸ h.budget, fun hdone => absurd rfl hdone, fun id => hwork id ▸ h.work_le id,
    by simp, by simp [TickPhase.frame], by simp [TickPhase.ahead], nodup_nil,
    fun report' hrep => ⟨rfl, ?_⟩⟩
  rcases mem_append.mp hrep with hrep | hrep
  · exact absurd hrep (h.not_finished hphase report')
  · obtain rfl : report' = report := by simpa using hrep
    exact ⟨rfl, by rw [hcalls, hansw, hall]⟩

theorem work (h : TickLedger config i history tick) (frame : Frame) (attempted : ℕ)
    (hphase : tick.phase ≠ .done) (hframe : tick.phase.frame = some frame)
    (hahead : tick.phase.ahead = frame.rest)
    (hwork : ∀ id, workOn i id events = if frame.id = id then attempted - frame.attempted else 0)
    (hmore : frame.attempted ≤ attempted) (hbound : attempted ≤ config.maxCatchUpPerSchedule)
    (hbudget : callsBy i events + tick'.remainingGlobal = tick.remainingGlobal)
    (hansw : tick'.report.answered + tick'.phase.outstanding =
      tick.report.answered + tick.phase.outstanding + callsBy i events)
    (hunfin : ∀ report, .tickFinished i report ∉ events) (hlisting : tick'.phase ≠ .listing)
    (hframe' : ∀ frame', tick'.phase.frame = some frame' → frame'.id = frame.id ∧
      frame'.rest = frame.rest ∧ frame'.attempted = attempted)
    (hahead' : tick'.phase.ahead = frame.rest) : TickLedger config i (history ++ events) tick' := by
  obtain ⟨hcur, hnew⟩ := h.current frame hframe
  have hall := h.answered hphase
  have hcalls := h.budget
  have hnodup := h.ahead_nodup
  have hzero := h.ahead
  rw [hahead] at hnodup hzero
  -- All the work of the events is on the schedule of the frame.
  have htotal : workOn i frame.id (history ++ events) = attempted := by
    rw [workOn_append, hwork, if_pos rfl, hcur]
    omega
  have hother : ∀ id, frame.id ≠ id → workOn i id (history ++ events) = workOn i id history := by
    intro id hne
    rw [workOn_append, hwork, if_neg hne, Nat.add_zero]
  refine ⟨?_, fun _ => ?_, fun id => ?_, fun hfresh => absurd hfresh hlisting,
    fun frame' hframe'' => ?_, fun id hid => ?_, hahead' ▸ hnodup, fun report hrep => ?_⟩
  · rw [callsBy_append]
    omega
  · rw [callsBy_append]
    omega
  · by_cases hid : frame.id = id
    · rw [← hid, htotal]
      exact hbound
    · rw [hother id hid]
      exact h.work_le id
  · obtain ⟨hid, hrest, hatt⟩ := hframe' frame' hframe''
    rw [hid, hrest, hatt]
    exact ⟨htotal, hnew⟩
  · rw [hahead'] at hid
    rw [hother id fun heq => hnew (heq ▸ hid)]
    exact hzero id hid
  · rcases mem_append.mp hrep with hrep | hrep
    · exact absurd hrep (h.not_finished hphase report)
    · exact absurd hrep (hunfin report)

end TickLedger

theorem Turn.ledger (hturn : Turn config i entries tick events entries' tick')
    (hids : (entries.map ScheduleEntry.id).Nodup) (h : TickLedger config i history tick) :
    TickLedger config i (history ++ events) tick' := by
  obtain ⟨now, observes, remaining, report, phase⟩ := tick
  have hmax := config.maxCatchUpPerSchedule_le
  cases hturn with
  | list hphase =>
    cases hphase
    exact h.move rfl rfl (by simp [TickPhase.frame]) (fun id _ => h.fresh rfl id) hids
  | finish hphase | exhaust hphase =>
    cases hphase
    exact h.finish (by simp) rfl rfl
  | enter hphase =>
    cases hphase
    obtain ⟨hid, hrest⟩ := nodup_cons.mp h.ahead_nodup
    refine h.move rfl rfl ?_ (fun id hmem => h.ahead id (mem_cons_of_mem _ hmem)) hrest
    rintro frame hframe
    cases hframe
    exact ⟨h.ahead _ mem_cons_self, hid⟩
  | pass hphase | proceed hphase =>
    cases hphase
    exact h.move rfl rfl (by simp [TickPhase.frame]) h.ahead h.ahead_nodup
  | @stop frame _ hphase | @shutdown frame _ hphase =>
    cases hphase
    refine h.move rfl (by simp [TickPhase.outstanding]) ?_ h.ahead h.ahead_nodup
    rintro frame' hframe
    cases hframe
    exact h.current frame rfl
  | @skip frame entry skipped due hphase hfind hroom hskips =>
    cases hphase
    -- One more occurrence is worked on, without a call.
    refine h.work frame (frame.attempted + 1) (by simp) rfl rfl (fun id => ?_) (by omega) hroom ?_
      ?_ (by simp) (by simp) ?_ rfl
    · simpa using workOn_skips (T := T) (i := i) id frame [due]
    · simp [callsBy, Event.isCallBy]
    · simp [callsBy, Event.isCallBy, TickPhase.outstanding]
    · rintro frame' hframe
      cases hframe
      exact ⟨rfl, rfl, saturatingAdd_eq (by omega)⟩
  | @dispatch frame entry due token guard hphase hfind hrem hroom hready =>
    cases hphase
    have hid : entry.id = frame.id := Keyed.key_of_lookup hfind
    -- One more call, from the budget.
    have hcalls : callsBy i [.dispatched guard i now
        (entry.pendingDispatch config now due token guard).occurrence] = 1 := by
      simp [callsBy, Event.isCallBy]
    refine h.work frame (frame.attempted + 1) (by simp) rfl rfl (fun id => ?_) (by omega) hroom ?_
      ?_ (by simp) (by simp) ?_ rfl
    · simp [workOn, Event.isWorkOn, ScheduleEntry.pendingDispatch, hid, countP_cons]
    · rw [hcalls]
      exact Nat.add_sub_cancel' (Nat.one_le_iff_ne_zero.mpr hrem)
    · simp [hcalls, TickPhase.outstanding]
    · rintro frame' hframe
      cases hframe
      exact ⟨rfl, rfl, saturatingAdd_eq (by omega)⟩
  | returned result hphase =>
    cases hphase
    have hall : report.answered + 1 = callsBy i history := h.answered (by simp)
    have hcalls : callsBy i history + remaining = config.maxDispatchesPerTick := h.budget
    -- The budget bounds the calls, so the counter does not saturate.
    have hroom : report.answered + 1 ≤ usizeMax := by
      have hdisp := config.maxDispatchesPerTick_le
      omega
    exact h.move rfl (SchedulerTickReport.answered_answer _ hroom) h.current h.ahead h.ahead_nodup
  | @settle frame dispatch outcome entry hphase hfind hstatus hcur hocc =>
    cases hphase
    -- The sweep after the outcome stays within the bound for one schedule.
    have hbound : frame.attempted ≤ config.maxCatchUpPerSchedule := by
      have hwork := h.work_le frame.id
      rwa [(h.current frame rfl).1] at hwork
    let tick : Tick T := ⟨now, observes, remaining, report, .applying frame dispatch outcome⟩
    obtain ⟨hatt, hroom⟩ := tick.attempted_settlement dispatch outcome entry hbound
    have hansw : (tick.settlement config frame dispatch outcome entry).report.answered =
        report.answered :=
      tick.report_settlement SchedulerTickReport.answered_skip frame dispatch outcome entry
    generalize tick.settlement config frame dispatch outcome entry = settlement at *
    refine h.work frame settlement.attempted (by simp) rfl rfl (fun id => ?_) (by omega) hroom ?_ ?_
      (by simp) ?_ ?_ ?_
    · have hskips := workOn_skips (T := T) (i := i) id frame settlement.swept
      simp only [workOn, countP_cons, Event.isWorkOn, Bool.false_eq_true, ↓reduceIte,
        Nat.add_zero, hatt, Nat.add_sub_cancel_left] at hskips ⊢
      exact hskips
    · simp [callsBy, Event.isCallBy]
    all_goals
      dsimp only
      split
    any_goals simp [callsBy, Event.isCallBy, TickPhase.outstanding, hansw]
    any_goals simp [TickPhase.frame, TickPhase.ahead]
  | close hphase =>
    cases hphase
    refine h.move rfl ?_ (by simp [TickPhase.frame]) h.ahead h.ahead_nodup
    dsimp only
    split <;> rfl

/-! ## The turns a tick has left -/

/-- The most turns that a tick takes for one listed identity: three for each
occurrence it dispatches, and four to enter and leave. -/
def SchedulerConfig.turnsPerSchedule (config : SchedulerConfig) : ℕ :=
  3 * config.maxCatchUpPerSchedule + 4

def SchedulerConfig.turnsPerTick (config : SchedulerConfig) : ℕ :=
  config.maxSchedules * config.turnsPerSchedule + 2

/-- The most turns that a tick takes from a phase on. -/
def TickPhase.turns (config : SchedulerConfig) : TickPhase T → ℕ
  | .listing => config.turnsPerTick
  | .looping rest => rest.length * config.turnsPerSchedule + 1
  | .left rest => rest.length * config.turnsPerSchedule + 2
  | .finishing frame => frame.rest.length * config.turnsPerSchedule + 3
  | .deciding frame =>
    frame.rest.length * config.turnsPerSchedule +
      3 * (config.maxCatchUpPerSchedule - frame.attempted) + 4
  | .applying frame _ _ =>
    frame.rest.length * config.turnsPerSchedule +
      3 * (config.maxCatchUpPerSchedule - frame.attempted) + 5
  | .dispatching frame _ =>
    frame.rest.length * config.turnsPerSchedule +
      3 * (config.maxCatchUpPerSchedule - frame.attempted) + 6
  | .done => 0

theorem Turn.turns_lt (hturn : Turn config i entries tick events entries' tick')
    (hcap : entries.length ≤ config.maxSchedules)
    (hbound : ∀ frame, tick.phase.frame = some frame →
      frame.attempted ≤ config.maxCatchUpPerSchedule) :
    tick'.phase.turns config < tick.phase.turns config := by
  have hmax := config.maxCatchUpPerSchedule_le
  cases hturn with
  | list hphase =>
    have hall := Nat.mul_le_mul_right config.turnsPerSchedule hcap
    simp only [hphase, TickPhase.turns, SchedulerConfig.turnsPerTick, length_map]
    omega
  | enter hphase =>
    simp only [hphase, TickPhase.turns, length_cons, Nat.add_one_mul]
    unfold SchedulerConfig.turnsPerSchedule
    omega
  | skip hphase _ hroom | dispatch hphase _ _ hroom =>
    simp only [hphase, TickPhase.turns]
    rw [saturatingAdd_eq (by omega)]
    omega
  | @settle frame dispatch outcome entry hphase =>
    obtain ⟨hatt, -⟩ := tick.attempted_settlement dispatch outcome entry
      (hbound frame (by simp [hphase, TickPhase.frame]))
    rw [hphase]
    dsimp only
    split
    all_goals
      simp only [TickPhase.turns]
      omega
  | finish hphase | exhaust hphase => simp [hphase, TickPhase.turns]
  | pass hphase | stop hphase | shutdown hphase | returned _ hphase | close hphase
  | proceed hphase =>
    simp only [hphase, TickPhase.turns]
    omega

/-! ## Whole runs -/

/-- What has been recorded of tick `i`, if it has started. -/
inductive Recorded (config : SchedulerConfig) (i : ℕ) (actions : List (Action T))
    (history : List (Event T)) : Option (Tick T) → Prop
  | unstarted (hworker : ∀ event ∈ history, event.worker ≠ some i)
      (hactions : actions.countP (Action.drives i) = 0) : Recorded config i actions history none
  | started {tick : Tick T} (hledger : TickLedger config i history tick)
      (hturns : actions.countP (Action.drives i) + tick.phase.turns config ≤ config.turnsPerTick) :
      Recorded config i actions history (some tick)

theorem Recorded.bystands {tick? tick?' : Option (Tick T)}
    (h : Recorded config i actions history tick?) (hdrives : action.drives i = false)
    (hbystands : Bystands config tick? tick?') (hworker : ∀ event ∈ events, event.worker ≠ some i) :
    Recorded config i (actions ++ [action]) (history ++ events) tick?' := by
  have hcount : (actions ++ [action]).countP (Action.drives i) =
      actions.countP (Action.drives i) := by
    simp [hdrives]
  cases h with
  | unstarted hpast hactions =>
    have hnone : ∀ event ∈ history ++ events, event.worker ≠ some i :=
      forall_mem_append.mpr ⟨hpast, hworker⟩
    cases hbystands with
    | same => exact .unstarted hnone (hcount ▸ hactions)
    | started now observesShutdown =>
      refine .started (.new now observesShutdown hnone) ?_
      rw [hcount, hactions, Nat.zero_add]
      exact Nat.le_refl _
  | @started tick hledger hturns =>
    cases hbystands with
    | same => exact .started (hledger.append hworker) (hcount ▸ hturns)
    | dropped =>
      refine .started (hledger.append hworker).drop ?_
      rw [hcount]
      exact Nat.le_trans (Nat.le_add_right ..) hturns

theorem Recorded.turns {next : State T × List (Event T)} (hinv : Inv config s)
    (htick : s.ticks[i]? = some tick) (h : Recorded config i actions history s.ticks[i]?)
    (hdrives : action.drives i = true) (hturns : Turns config s i tick next) :
    Recorded config i (actions ++ [action]) (history ++ next.2) next.1.ticks[i]? := by
  obtain ⟨tick', hturn, hticks⟩ := hturns
  obtain ⟨hlt, -⟩ := List.getElem?_eq_some_iff.mp htick
  rw [hticks, getElem?_set_self hlt]
  rw [htick] at h
  cases h with
  | started hledger hleft =>
    refine .started (hturn.ledger hinv.ids_nodup hledger) ?_
    have hless := hturn.turns_lt hinv.capacity fun frame hframe => by
      have hwork := hledger.work_le frame.id
      rwa [(hledger.current frame hframe).1] at hwork
    have hcount : (actions ++ [action]).countP (Action.drives i) =
        actions.countP (Action.drives i) + 1 := by
      simp [hdrives]
    omega

section run

variable {builder : SchedulerBuilder T}

theorem recorded_of_run (hreg : Registers config builder)
    (hrun : (machine T config).run (builder.build config) actions = some (s, history)) (i : ℕ) :
    Inv config s ∧ Recorded config i actions history s.ticks[i]? := by
  refine Machine.run_history (I := fun s actions history =>
    Inv config s ∧ Recorded config i actions history s.ticks[i]?) ?_ [] [] hrun ?_
  · rintro s actions past action s' events ⟨hinv, hrec⟩ hstep
    have hinv' : Inv config s' :=
      (step_updates ⟨action, hstep⟩).invariant (fun h hupdate => hupdate.inv h) hinv
    refine ⟨hinv', ?_⟩
    cases hdrives : action.drives i with
    | true =>
      obtain ⟨tick, htick, hturns⟩ := step_turns hinv hdrives hstep
      exact hrec.turns hinv htick hdrives hturns
    | false =>
      obtain ⟨hbystands, hworker⟩ := step_bystands hinv hdrives hstep
      exact hrec.bystands hdrives hbystands hworker
  · exact ⟨hreg.valid.inv, .unstarted (by simp) rfl⟩

/-- Until it has returned or was dropped, a tick can be polled, or its dispatcher can
return with any result. -/
theorem isSome_step (htick : s.ticks[i]? = some tick) (hphase : tick.phase ≠ .done)
    (result : DispatchResult) :
    (step config s (.poll i false)).isSome = true ∨
      (step config s (.dispatchReturns i result)).isSome = true := by
  simp only [step, htick, bind_some]
  cases hcase : tick.phase with
  | dispatching frame dispatch => exact .inr (by simp [State.dispatchReturns, hcase])
  | done => exact absurd hcase hphase
  | looping rest => cases rest <;> exact .inl (by simp [State.poll, hcase])
  | left rest =>
    refine .inl ?_
    simp only [State.poll, hcase]
    split <;> rfl
  | listing | deciding frame | applying frame dispatch outcome | finishing frame =>
    exact .inl (by simp [State.poll, hcase])

/-- In every run of the scheduler, whatever its plans, its dispatcher and its other
callers do, tick `i` makes at most `maxDispatchesPerTick` dispatcher calls, dispatches
or skips at most `maxCatchUpPerSchedule` occurrences of one schedule, takes at most
`turnsPerTick` steps and can take one until it has ended. The report of a tick that
returned counts its calls exactly, and its skips up to the largest `usize`. -/
theorem tick_work_bounded (hregisters : Registers config builder)
    (hrun : (machine T config).run (builder.build config) actions = some (s, history)) (i : ℕ) :
    callsBy i history ≤ config.maxDispatchesPerTick ∧
      (∀ id, workOn i id history ≤ config.maxCatchUpPerSchedule) ∧
      actions.countP (Action.drives i) ≤ config.turnsPerTick ∧
      (∀ tick, s.ticks[i]? = some tick → tick.phase ≠ .done →
        ∃ action : Action T, action.drives i = true ∧ (step config s action).isSome = true) ∧
      ∀ report, .tickFinished i report ∈ history →
        report.dispatched + report.notStartedFailures + report.reconciliationRequired =
          callsBy i history ∧
        report.skippedMisfires = min (skipsBy i history) usizeMax := by
  obtain ⟨-, hrecorded⟩ := recorded_of_run hregisters hrun i
  have hchronicle : Chronicle s history :=
    Reaches.chronicle ⟨builder, hregisters, Machine.runs_of_run hrun⟩
  cases htick : s.ticks[i]? with
  | none =>
    rw [htick] at hrecorded
    obtain ⟨hworker, hactions⟩ := hrecorded
    refine ⟨by simp [callsBy_of_worker hworker], fun id => by simp [workOn_of_worker hworker],
      by simp [hactions], fun _ hsome => (nomatch hsome), fun report hreport => ?_⟩
    exact absurd rfl (hworker _ hreport)
  | some tick =>
    rw [htick] at hrecorded
    obtain ⟨⟩ | ⟨hledger, hturns⟩ := hrecorded
    have hbudget := hledger.budget
    refine ⟨by omega, hledger.work_le, by omega, fun tick' hsome hphase => ?_,
      fun report hreport => ?_⟩
    · cases hsome
      rcases isSome_step htick hphase .ok with hpoll | hreturns
      · exact ⟨.poll i false, decide_eq_true rfl, hpoll⟩
      · exact ⟨.dispatchReturns i .ok, decide_eq_true rfl, hreturns⟩
    · obtain ⟨-, rfl, hanswered⟩ := hledger.finished report hreport
      exact ⟨hanswered, hchronicle.counted htick⟩

end run

namespace Sample

/-- A whole tick at twenty: the occurrence at zero is confirmed, the one at ten swept. -/
def wholeTick : List (Action Unit) :=
  dispatching 20 ++ [.dispatchReturns 0 .ok, .poll 0 false, .poll 0 false, .poll 0 false,
    .poll 0 false, .poll 0 false]

end Sample

theorem tick_work_bounded_sample :
    let history := (Sample.after Sample.wholeTick).2
    workOn 0 Sample.id history = 2 ∧ callsBy 0 history ≤ 2 ∧
      (∀ id, workOn 0 id history ≤ 2) ∧
      .tickFinished 0 ⟨1, 1, 0, 0, 1, true⟩ ∈ history ∧ 1 + 0 + 0 = callsBy 0 history := by
  have hrun : (machine Unit Sample.config).run Sample.start Sample.wholeTick =
      some (Sample.after Sample.wholeTick) := Machine.run_eq_after rfl
  have hbounds := tick_work_bounded (.register Sample.schedule .new rfl) hrun 0
  have hfinished : .tickFinished 0 ⟨1, 1, 0, 0, 1, true⟩ ∈ (Sample.after Sample.wholeTick).2 := by
    refine List.mem_of_getElem? (i := 5) ?_
    rfl
  exact ⟨rfl, hbounds.1, hbounds.2.1, hfinished, (hbounds.2.2.2.2 _ hfinished).1⟩

/-! ## A tick that skips more than a counter holds -/

namespace Flood

/-- One tick may work through `usize::MAX` occurrences of a schedule. -/
def bounds : SchedulerConfig where
  tickInterval := 1
  dispatchTimeout := 1
  misfireGrace := 0
  maxSchedules := 2
  maxDispatchesPerTick := 2
  maxCatchUpPerSchedule := usizeMax
  tickInterval_pos := Nat.one_pos
  dispatchTimeout_pos := Nat.one_pos
  maxSchedules_pos := Nat.two_pos
  maxDispatchesPerTick_pos := Nat.two_pos
  maxCatchUpPerSchedule_pos := Nat.lt_of_lt_of_le Nat.two_pos two_le_usizeMax
  maxSchedules_le := two_le_usizeMax
  maxDispatchesPerTick_le := two_le_usizeMax
  maxCatchUpPerSchedule_le := Nat.le_refl _

def last : ScheduleId where
  value := [98]
  value_ne_nil := by decide
  length_le := by decide
  portable := by decide

def dense : Schedule Unit :=
  (Schedule.new Sample.id ()
    { firstDueAt := 0, nextAfter := fun previous => some (previous + 1) }).withMisfirePolicy .skip

def single : Schedule Unit :=
  (Schedule.new last () { firstDueAt := 0, nextAfter := fun _ => none }).withMisfirePolicy .skip

def start : State Unit :=
  SchedulerBuilder.build bounds { ids := [last, Sample.id], schedules := [dense, single] }

/-- The instant right after the last occurrence that one tick can skip. -/
def now : SystemTime := usizeMax + 1

/-- The state in which the tick has skipped the first `k` occurrences. -/
def skipping (k : ℕ) : State Unit where
  registry :=
    { entries := [{ scheduleEntry dense with nextDueAt := some k }, scheduleEntry single]
      running := [] }
  flags := []
  dispatchTokens := 0
  manualPermits := 2
  ticks :=
    [{ now := now, observesShutdown := false, remainingGlobal := 2
       report := { schedulesExamined := 1, skippedMisfires := k }
       phase := .deciding { id := Sample.id, rest := [last], attempted := k, examined := true } }]
  triggers := []

variable {k : ℕ}

theorem isOverdue_now (hk : k < usizeMax) : isOverdue now k 0 = true := by
  rw [isOverdue_iff, now]
  omega

theorem advance_dense (k : ℕ) : dense.plan.advance (some (k : ℤ)) = some ((k + 1 : ℕ) : ℤ) := by
  have hlater : (k : ℤ) < k + 1 := by omega
  simp [dense, Schedule.withMisfirePolicy, Schedule.new, SchedulePlan.advance, hlater]

/-- The decision at the `k`th occurrence: it is overdue, and the policy drops it. -/
theorem decide_dense (hk : k < usizeMax) :
    ScheduleEntry.decide bounds { scheduleEntry dense with nextDueAt := some (k : ℤ) } now false
        ⟨2, k, true⟩ { schedulesExamined := 1, skippedMisfires := k } 0 0 =
      (.skipped, { scheduleEntry dense with nextDueAt := some ((k + 1 : ℕ) : ℤ) },
        { schedulesExamined := 1, skippedMisfires := k + 1 }) := by
  have hstatus : (scheduleEntry dense).status = .active := rfl
  have hpol : (scheduleEntry dense).misfirePolicy = .skip := rfl
  have hplan : (scheduleEntry dense).plan = dense.plan := rfl
  have hgrace : bounds.misfireGrace = 0 := rfl
  have hroom : ¬ bounds.maxCatchUpPerSchedule ≤ k := Nat.not_le_of_lt hk
  have hdue : (k : ℤ) ≤ now := le_of_isOverdue (isOverdue_now hk)
  have hcount : saturatingAdd k 1 = k + 1 := saturatingAdd_eq hk
  simp only [ScheduleEntry.decide, hstatus, hroom, ne_eq, not_true_eq_false, OfNat.ofNat_ne_zero,
    or_self, ↓reduceIte, Option.filter, hdue, decide_true, ScheduleEntry.suppresses, hpol,
    reduceCtorEq, decide_false, Bool.false_and, Bool.false_eq_true, hgrace, isOverdue_now hk,
    and_self, ScheduleEntry.advanceOnce, hplan, advance_dense, SchedulerTickReport.skip, hcount]
  rfl

theorem step_skipping (hk : k < usizeMax) :
    (machine Unit bounds).Step (skipping k) [.skipped 0 ⟨Sample.id, k⟩] (skipping (k + 1)) := by
  refine ⟨.poll 0 false, congrArg some ?_⟩
  let frame : Frame := { id := Sample.id, rest := [last], attempted := k, examined := true }
  let tick : Tick Unit :=
    { now := now, observesShutdown := false, remainingGlobal := 2
      report := { schedulesExamined := 1, skippedMisfires := k }, phase := .deciding frame }
  let entry : ScheduleEntry Unit := { scheduleEntry dense with nextDueAt := some (k : ℤ) }
  let decision := entry.decide bounds now false ⟨2, k, true⟩ tick.report 0 0
  have hcount : saturatingAdd k 1 = k + 1 := saturatingAdd_eq hk
  change State.act (skipping k) 0 tick frame entry decision.1 decision.2.1 decision.2.2 = _
  simp only [decision, entry, tick, decide_dense hk, State.act, frame, hcount]
  rfl

theorem runs_skipping (n : ℕ) (hn : n + 1 ≤ usizeMax) :
    ∃ events, Runs (machine Unit bounds).Step (skipping 1) events (skipping (n + 1)) ∧
      skipsBy 0 events = n := by
  induction n with
  | zero => exact ⟨[], .refl _, rfl⟩
  | succ n ih =>
    obtain ⟨events, hrun, hcount⟩ := ih (by omega)
    have hroom : n + 1 < usizeMax := by omega
    refine ⟨_, hrun.trans (.single (step_skipping hroom)), ?_⟩
    rw [skipsBy, countP_append, ← skipsBy, hcount]
    rfl

/-- The tick starts, and skips the first occurrence of the dense schedule. -/
def begins : List (Action Unit) :=
  [.tick now false, .poll 0 false, .poll 0 false, .poll 0 false]

/-- The tick leaves the dense schedule, skips the occurrence of the other one and
returns. -/
def ends : List (Action Unit) :=
  List.replicate 9 (.poll 0 false)

end Flood

/-- A tick that skips `usize::MAX` occurrences of one schedule and one of another
reports one less than it skipped. -/
theorem skipped_misfires_saturates :
    ∃ (history : List (Event Unit)) (s : State Unit) (report : SchedulerTickReport),
      Reaches Flood.bounds history s ∧ .tickFinished 0 report ∈ history ∧
        skipsBy 0 history = usizeMax + 1 ∧ report.skippedMisfires = usizeMax := by
  have hlast : usizeMax - 1 + 1 = usizeMax :=
    Nat.sub_add_cancel (Nat.le_of_succ_le two_le_usizeMax)
  obtain ⟨events, hskips, hcount⟩ := Flood.runs_skipping (usizeMax - 1) (Nat.le_of_eq hlast)
  rw [hlast] at hskips
  have hbegins : (machine Unit Flood.bounds).run Flood.start Flood.begins =
      some (Flood.skipping 1, [.tickStarted 0 Flood.now, .skipped 0 ⟨Sample.id, 0⟩]) := rfl
  let report : SchedulerTickReport :=
    { schedulesExamined := 2, skippedMisfires := usizeMax, saturated := true }
  have hends : ((machine Unit Flood.bounds).after (Flood.skipping usizeMax) Flood.ends).2 =
      [.skipped 0 ⟨Flood.last, 0⟩, .tickFinished 0 report] := rfl
  have hfinish := Machine.runs_after
    (show ((machine Unit Flood.bounds).run (Flood.skipping usizeMax) Flood.ends).isSome from rfl)
  rw [hends] at hfinish
  have hregisters : Registers Flood.bounds
      { ids := [Flood.last, Sample.id], schedules := [Flood.dense, Flood.single] } :=
    .register Flood.single (.register Flood.dense .new rfl) rfl
  have hrun := (Machine.runs_of_run hbegins).trans (hskips.trans hfinish)
  refine ⟨_, _, report, ⟨_, hregisters, hrun⟩, by simp, ?_, rfl⟩
  have hfirst : List.countP (Event.isSkipBy 0)
      [(.tickStarted 0 Flood.now : Event Unit), .skipped 0 ⟨Sample.id, 0⟩] = 1 := rfl
  have hother : List.countP (Event.isSkipBy 0)
      [(.skipped 0 ⟨Flood.last, 0⟩ : Event Unit), .tickFinished 0 report] = 1 := rfl
  rw [skipsBy] at hcount
  rw [skipsBy, List.countP_append, List.countP_append, hfirst, hcount, hother, ← Nat.add_assoc,
    Nat.add_comm 1, hlast]

end PlenoraRuntime.Scheduler
