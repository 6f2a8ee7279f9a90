import PlenoraRuntime.Foundation.Machine
import PlenoraRuntime.Scheduler.Entry

/-!
# The scheduler as a machine

Every public operation of `Scheduler` works on the registry inside one
lock-protected section, except `tick`, which takes the lock several times and
releases it around each dispatcher call. A tick is therefore a process of its
own: `TickPhase` says at which point its future is suspended, and `poll` runs it
through the section it is waiting for. Any number of ticks and manual triggers
are in progress at once; `abort` drops a tick future at whatever point it has
reached.

`restart` ends the process and rebuilds the scheduler from the snapshots of the
moment, with the same definitions.

The positions of ticks, manual triggers and liveness flags in their lists are
their names. They only ever grow, so an event names the tick and the dispatcher
call it belongs to for the whole history, also across restarts.
-/

namespace PlenoraRuntime.Scheduler

open Transition

variable {T : Type*}

/-! ## Ticks in progress -/

/-- The locals of `process_entry`, with the identities the tick has yet to visit. -/
structure Frame where
  id : ScheduleId
  rest : List ScheduleId
  attempted : ℕ
  examined : Bool

/-- Where a tick future is suspended. -/
inductive TickPhase (T : Type*)
  /-- Waiting for the lock to list the registered identities. -/
  | listing
  | looping (rest : List ScheduleId)
  /-- Waiting for the lock to decide the next action. -/
  | deciding (frame : Frame)
  /-- Awaiting the dispatcher, with the lock released. -/
  | dispatching (frame : Frame) (dispatch : PendingDispatch T)
  /-- The dispatcher returned; waiting for the lock to apply the outcome. -/
  | applying (frame : Frame) (dispatch : PendingDispatch T) (outcome : DispatchOutcome)
  /-- Waiting for the lock to see whether the per-schedule bound left work behind. -/
  | finishing (frame : Frame)
  /-- `process_entry` returned. -/
  | left (rest : List ScheduleId)
  | done

/-- One call of `tick`, or of `tick_observing` with a shutdown signal. -/
structure Tick (T : Type*) where
  now : SystemTime
  observesShutdown : Bool
  remainingGlobal : ℕ
  report : SchedulerTickReport
  phase : TickPhase T

def Tick.new (config : SchedulerConfig) (now : SystemTime) (observesShutdown : Bool) : Tick T where
  now := now
  observesShutdown := observesShutdown
  remainingGlobal := config.maxDispatchesPerTick
  report := {}
  phase := .listing

inductive TriggerPhase
  | dispatching
  | done
  deriving DecidableEq

/-- The scheduler together with the calls in progress on it. -/
structure State (T : Type*) where
  registry : Registry T
  flags : List Bool
  dispatchTokens : ℕ
  manualPermits : ℕ
  ticks : List (Tick T)
  triggers : List TriggerPhase

/-! ## Observations -/

inductive Answer
  | added (result : Except ScheduleRegistrationError Unit)
  | removed (result : Except ScheduleBuildError ScheduleSnapshot)
  | paused (result : Except ScheduleBuildError Unit)
  | resumed (result : Except ScheduleBuildError Unit)
  | triggered (result : Except ScheduleBuildError ManualTriggerOutcome)
  | resolved (result : Except ScheduleBuildError Unit)
  | snapshots (snapshots : List ScheduleSnapshot)

inductive Event (T : Type*)
  | answered (answer : Answer)
  | registered (schedule : Schedule T)
  | removed (id : ScheduleId)
  | tickStarted (tick : ℕ) (now : SystemTime)
  | tickFinished (tick : ℕ) (report : SchedulerTickReport)
  | tickAborted (tick : ℕ)
  | dispatched (call tick : ℕ) (now : SystemTime) (occurrence : ScheduledOccurrence T)
  /-- The dispatcher call returned to its tick, or its timeout elapsed. -/
  | returned (call : ℕ) (occurrence : ScheduleOccurrenceId) (result : DispatchResult)
  /-- The tick applied the outcome of its dispatcher call. -/
  | settled (call : ℕ) (occurrence : ScheduleOccurrenceId) (outcome : DispatchOutcome)
  /-- A tick counted an occurrence as a skipped misfire and moved past it. -/
  | skipped (tick : ℕ) (occurrence : ScheduleOccurrenceId)
  | resolved (id : ScheduleId) (cursor : Option SystemTime)
      (resolution : ReconciliationResolution)
  | manualDispatched (trigger : ℕ) (occurrence : ScheduledOccurrence T)
  | manualAborted (trigger : ℕ)
  /-- After a dispatch, the schedule was no longer registered. -/
  | entryMissing (tick : ℕ) (id : ScheduleId)
  /-- After a dispatch, the entry carried another dispatch's token. -/
  | tokenMismatch (tick : ℕ) (id : ScheduleId)
  /-- A due occurrence found no free slot for an unsettled attempt. -/
  | noSlot (tick : ℕ) (id : ScheduleId)
  | restarted

inductive Action (T : Type*)
  | tick (now : SystemTime) (observesShutdown : Bool)
  | poll (tick : ℕ) (cancelled : Bool)
  | dispatchReturns (tick : ℕ) (result : DispatchResult)
  | abort (tick : ℕ)
  | addSchedule (schedule : Schedule T)
  | removeSchedule (id : ScheduleId)
  | pauseSchedule (id : ScheduleId)
  | resumeSchedule (id : ScheduleId)
  | triggerSchedule (id : ScheduleId) (triggeredAt : SystemTime)
  | triggerReturns (trigger : ℕ) (result : DispatchResult)
  | triggerAborts (trigger : ℕ)
  | resolveReconciliation (id : ScheduleId) (resolution : ReconciliationResolution)
  | snapshots
  | restart

/-! ## The sections of a tick -/

namespace State

variable (config : SchedulerConfig) (s : State T)

def setTick (i : ℕ) (tick : Tick T) : State T :=
  { s with ticks := s.ticks.set i tick }

/-- The tick records its observation and returns. -/
def finishTick (i : ℕ) (tick : Tick T) : State T × List (Event T) :=
  (s.setTick i { tick with phase := .done }, [.tickFinished i tick.report])

/-- What `process_entry` does with a decision: `entry` is the entry the decision
was made for, already examined, and `decided` is what the decision left of it. -/
def act (i : ℕ) (tick : Tick T) (frame : Frame) (entry : ScheduleEntry T)
    (decision : Decision T) (decided : ScheduleEntry T) (report : SchedulerTickReport) :
    State T × List (Event T) :=
  let s := { s with registry := s.registry.put decided }
  match decision with
  | .stop => (s.setTick i { tick with report, phase := .finishing frame }, [])
  | .saturated =>
    (s.setTick i
        { tick with report := { report with saturated := true }, phase := .left frame.rest },
      [.noSlot i frame.id])
  | .skipped =>
    (s.setTick i
        { tick with
          report
          phase := .deciding { frame with attempted := saturatingAdd frame.attempted 1 } },
      entry.nextDueAt.toList.map fun due => .skipped i ⟨frame.id, due⟩)
  | .dispatch dispatch =>
    let flags := s.flags ++ [true]
    ({ s with
        registry := s.registry.begin flags frame.id dispatch.guard
        flags
        dispatchTokens := Word.wrappingAdd 64 s.dispatchTokens 1
        ticks := s.ticks.set i
          { tick with
            report
            remainingGlobal := tick.remainingGlobal - 1
            phase := .dispatching
              { frame with attempted := saturatingAdd frame.attempted 1 } dispatch } },
      [.dispatched dispatch.guard i tick.now dispatch.occurrence])

/-- The section in `process_entry` that chooses the next action. -/
def decideSection (i : ℕ) (tick : Tick T) (frame : Frame) (cancelled : Bool) :
    State T × List (Event T) :=
  let registry := s.registry.prune s.flags
  let hasCapacity := registry.hasDispatchCapacity config.maxSchedules
  let s := { s with registry }
  match registry.find frame.id with
  | none => (s.setTick i { tick with phase := .left frame.rest }, [])
  | some entry =>
    if frame.examined = false ∧ entry.status ≠ .active then
      (s.setTick i { tick with phase := .left frame.rest }, [])
    else
      let report :=
        if frame.examined then tick.report
        else { tick.report with
          schedulesExamined := saturatingAdd tick.report.schedulesExamined 1 }
      let budget := { remainingGlobal := tick.remainingGlobal, attempted := frame.attempted
                      hasCapacity }
      let decision :=
        entry.decide config tick.now (tick.observesShutdown && cancelled) budget report
          s.dispatchTokens s.flags.length
      s.act i tick { frame with examined := true } entry decision.1 decision.2.1 decision.2.2

/-- `DispatchGuard::drop`. -/
def dropGuard (guard : ℕ) : State T :=
  { s with flags := s.flags.set guard false }

/-- The section in `process_entry` that applies the outcome of a dispatch. -/
def applySection (i : ℕ) (tick : Tick T) (frame : Frame) (dispatch : PendingDispatch T)
    (outcome : DispatchOutcome) : State T × List (Event T) :=
  match s.registry.find frame.id with
  | none =>
    ((s.dropGuard dispatch.guard).setTick i { tick with phase := .left frame.rest },
      [.entryMissing i frame.id])
  | some entry =>
    if entry.dispatchToken ≠ some dispatch.token then
      ((s.dropGuard dispatch.guard).setTick i { tick with phase := .left frame.rest },
        [.tokenMismatch i frame.id])
    else
      let settlement :=
        { entry with dispatchToken := none }.applyOutcome config outcome dispatch.misfired tick.now
          frame.attempted tick.report
      let s := { s with registry := s.registry.put settlement.entry }
      let frame := { frame with attempted := settlement.attempted }
      ((s.dropGuard dispatch.guard).setTick i
          { tick with
            report := settlement.report
            phase := if settlement.keepGoing then .deciding frame else .finishing frame },
        .settled dispatch.guard dispatch.occurrence.id outcome ::
          settlement.swept.map fun due => .skipped i ⟨frame.id, due⟩)

/-- The last section of `process_entry`. -/
def finishSection (i : ℕ) (tick : Tick T) (frame : Frame) : State T × List (Event T) :=
  let leftBehind := (s.registry.find frame.id).any fun entry =>
    entry.status = .active && config.maxCatchUpPerSchedule ≤ frame.attempted &&
      entry.nextDueAt.any fun due => due ≤ tick.now
  (s.setTick i
      { tick with
        report := if leftBehind then { tick.report with saturated := true } else tick.report
        phase := .left frame.rest },
    [])

/-- Runs tick `i` from the point where it is suspended to the next one.
`cancelled` is the state of the shutdown signal, for a tick that observes one. -/
def poll (i : ℕ) (tick : Tick T) (cancelled : Bool) : Option (State T × List (Event T)) :=
  match tick.phase with
  | .listing =>
    some (s.setTick i { tick with phase := .looping (s.registry.entries.map ScheduleEntry.id) },
      [])
  | .looping [] => some (s.finishTick i tick)
  | .looping (id :: rest) =>
    if tick.observesShutdown && cancelled then some (s.finishTick i tick)
    else
      some (s.setTick i
        { tick with phase := .deciding { id, rest, attempted := 0, examined := false } }, [])
  | .deciding frame => some (s.decideSection config i tick frame cancelled)
  | .dispatching _ _ => none
  | .applying frame dispatch outcome => some (s.applySection config i tick frame dispatch outcome)
  | .finishing frame => some (s.finishSection config i tick frame)
  | .left rest =>
    if tick.remainingGlobal = 0 then
      some (s.finishTick i
        { tick with
          report := { tick.report with
            saturated := tick.report.saturated ||
              entriesHaveDue s.registry.entries tick.now } })
    else some (s.setTick i { tick with phase := .looping rest }, [])
  | .done => none

/-- The dispatcher call of tick `i` returns, or its timeout elapses. -/
def dispatchReturns (i : ℕ) (tick : Tick T) (result : DispatchResult) :
    Option (State T × List (Event T)) :=
  match tick.phase with
  | .dispatching frame dispatch =>
    let outcome := classify result
    let report := match outcome with
      | .confirmed => { tick.report with dispatched := saturatingAdd tick.report.dispatched 1 }
      | .notStarted =>
        { tick.report with
          notStartedFailures := saturatingAdd tick.report.notStartedFailures 1 }
      | .unknown =>
        { tick.report with
          reconciliationRequired := saturatingAdd tick.report.reconciliationRequired 1 }
    some (s.setTick i { tick with report, phase := .applying frame dispatch outcome },
      [.returned dispatch.guard dispatch.occurrence.id result])
  | _ => none

/-- Drops the future of tick `i`, and with it the guard of its dispatch. -/
def abort (i : ℕ) (tick : Tick T) : Option (State T × List (Event T)) :=
  match tick.phase with
  | .done => none
  | .dispatching _ dispatch | .applying _ dispatch _ =>
    some ((s.dropGuard dispatch.guard).setTick i { tick with phase := .done }, [.tickAborted i])
  | _ => some (s.setTick i { tick with phase := .done }, [.tickAborted i])

/-! ## The public operations -/

def addSchedule (schedule : Schedule T) : State T × List (Event T) :=
  let s := { s with registry := s.registry.prune s.flags }
  if config.maxSchedules ≤ s.registry.entries.length then
    (s, [.answered (.added (.error (.capacityExceeded config.maxSchedules)))])
  else if (s.registry.entries.any fun entry => entry.id = schedule.id) ||
      s.registry.isRunning s.flags schedule.id then
    (s, [.answered (.added (.error (.duplicateId schedule.id)))])
  else
    ({ s with
        registry := { s.registry with
          entries := s.registry.entries ++ [scheduleEntry schedule] } },
      [.registered schedule, .answered (.added (.ok ()))])

def removeSchedule (id : ScheduleId) : State T × List (Event T) :=
  let s := { s with registry := s.registry.prune s.flags }
  match s.registry.find id with
  | none => (s, [.answered (.removed (.error (.unknownSchedule id)))])
  | some entry =>
    if entry.status = .reconciliationRequired then
      (s, [.answered (.removed (.error (.transitionNotAllowed id)))])
    else
      ({ s with
          registry := { s.registry with
            entries := Keyed.erase ScheduleEntry.id id s.registry.entries } },
        [.removed id, .answered (.removed (.ok entry.snapshot))])

/-- The common body of `pause_schedule` and `resume_schedule`. -/
def setStatus (id : ScheduleId) (status : ScheduleStatus)
    (answer : Except ScheduleBuildError Unit → Answer) : State T × List (Event T) :=
  let s := { s with registry := s.registry.prune s.flags }
  match s.registry.find id with
  | none => (s, [.answered (answer (.error (.unknownSchedule id)))])
  | some entry =>
    match entry.status with
    | .active | .paused =>
      ({ s with registry := s.registry.put { entry with status } },
        [.answered (answer (.ok ()))])
    | .completed | .reconciliationRequired =>
      (s, [.answered (answer (.error (.transitionNotAllowed id)))])

def pauseSchedule (id : ScheduleId) : State T × List (Event T) :=
  s.setStatus id .paused .paused

def resumeSchedule (id : ScheduleId) : State T × List (Event T) :=
  s.setStatus id .active .resumed

/-- The admission section of `trigger_schedule`, and the dispatcher call after it. -/
def triggerSchedule (id : ScheduleId) (triggeredAt : SystemTime) : State T × List (Event T) :=
  match s.registry.find id with
  | none => (s, [.answered (.triggered (.error (.unknownSchedule id)))])
  | some entry =>
    if entry.status = .reconciliationRequired then
      (s, [.answered (.triggered (.ok .reconciliationRequired))])
    else if s.manualPermits = 0 then (s, [.answered (.triggered (.ok .saturated))])
    else
      ({ s with
          manualPermits := s.manualPermits - 1
          triggers := s.triggers ++ [.dispatching] },
        [.manualDispatched s.triggers.length
          { id := { scheduleId := id, dueAt := triggeredAt }, dueAt := triggeredAt
            payload := entry.payload }])

/-- The outcome `trigger_schedule` reports for a dispatcher result. -/
def manualOutcome : DispatchResult → ManualTriggerOutcome
  | .ok => .confirmed
  | .failed .notStarted => .notStarted
  | .failed .outcomeUnknown => .outcomeUnknown
  | .elapsed => .timedOut

def endTrigger (n : ℕ) : State T :=
  { s with manualPermits := s.manualPermits + 1, triggers := s.triggers.set n .done }

def resolveReconciliation (id : ScheduleId) (resolution : ReconciliationResolution) :
    State T × List (Event T) :=
  let s := { s with registry := s.registry.prune s.flags }
  if s.registry.isRunning s.flags id then
    (s, [.answered (.resolved (.error (.transitionNotAllowed id)))])
  else
    match s.registry.find id with
    | none => (s, [.answered (.resolved (.error (.unknownSchedule id)))])
    | some entry =>
      if entry.status ≠ .reconciliationRequired then
        (s, [.answered (.resolved (.error (.reconciliationNotRequired id)))])
      else
        let released := { entry with dispatchToken := none }
        let resolved := match resolution with
          | .confirmed => released.advanceOnce
          | .retry => { released with skipBacklogThrough := none, status := .active }
        ({ s with registry := s.registry.put resolved },
          [.resolved id entry.nextDueAt resolution, .answered (.resolved (.ok ()))])

end State

/-! ## Building and rebuilding -/

def SchedulerBuilder.build (config : SchedulerConfig) (builder : SchedulerBuilder T) : State T where
  registry := { entries := builder.schedules.map scheduleEntry, running := [] }
  flags := []
  dispatchTokens := 0
  manualPermits := config.maxDispatchesPerTick
  ticks := []
  triggers := []

/-- The definition an entry was registered with, restored from its snapshot. -/
def ScheduleEntry.restore (entry : ScheduleEntry T) : Except ScheduleRestoreError (Schedule T) :=
  ((Schedule.new entry.id entry.payload entry.plan).withMisfirePolicy
    entry.misfirePolicy).restoreFrom entry.snapshot

/-- Registers the restored definitions in order. -/
def rebuild (config : SchedulerConfig) :
    List (ScheduleEntry T) → SchedulerBuilder T → Option (SchedulerBuilder T)
  | [], builder => some builder
  | entry :: rest, builder =>
    match entry.restore with
    | .error _ => none
    | .ok schedule =>
      match builder.register config schedule with
      | .error _ => none
      | .ok builder => rebuild config rest builder

/-- The process ends, whatever it was doing, and a new one rebuilds the scheduler
from the snapshots of that moment. -/
def State.restart (config : SchedulerConfig) (s : State T) : Option (State T) :=
  (rebuild config s.registry.entries {}).map fun builder =>
    { builder.build config with
      flags := s.flags.map fun _ => false
      ticks := s.ticks.map fun tick => { tick with phase := .done }
      triggers := s.triggers.map fun _ => .done }

/-- One atomic step of the scheduler and its callers. -/
def step (config : SchedulerConfig) (s : State T) : Action T → Option (State T × List (Event T))
  | .tick now observesShutdown =>
    some ({ s with ticks := s.ticks ++ [Tick.new config now observesShutdown] },
      [.tickStarted s.ticks.length now])
  | .poll i cancelled => (s.ticks[i]?).bind fun tick => s.poll config i tick cancelled
  | .dispatchReturns i result => (s.ticks[i]?).bind fun tick => s.dispatchReturns i tick result
  | .abort i => (s.ticks[i]?).bind fun tick => s.abort i tick
  | .addSchedule schedule => some (s.addSchedule config schedule)
  | .removeSchedule id => some (s.removeSchedule id)
  | .pauseSchedule id => some (s.pauseSchedule id)
  | .resumeSchedule id => some (s.resumeSchedule id)
  | .triggerSchedule id triggeredAt => some (s.triggerSchedule id triggeredAt)
  | .triggerReturns n result =>
    if s.triggers[n]? = some .dispatching then
      some (s.endTrigger n, [.answered (.triggered (.ok (State.manualOutcome result)))])
    else none
  | .triggerAborts n =>
    if s.triggers[n]? = some .dispatching then some (s.endTrigger n, [.manualAborted n])
    else none
  | .resolveReconciliation id resolution => some (s.resolveReconciliation id resolution)
  | .snapshots =>
    some (s, [.answered (.snapshots (s.registry.entries.map ScheduleEntry.snapshot))])
  | .restart => (s.restart config).map fun rebuilt => (rebuilt, [.restarted])

/-- The scheduler under every interleaving of its callers. -/
def machine (T : Type*) (config : SchedulerConfig) : Machine (State T) (Action T) (Event T) where
  step := step config

/-- The builders that any sequence of `register` calls can produce: a rejected
call leaves the builder as it was. -/
inductive Registers (config : SchedulerConfig) : SchedulerBuilder T → Prop
  | new : Registers config {}
  | register {builder next : SchedulerBuilder T} (schedule : Schedule T) :
      Registers config builder → builder.register config schedule = .ok next →
      Registers config next

/-- `s` is reached, with the given history, by a scheduler built from any schedules. -/
def Reaches (config : SchedulerConfig) (history : List (Event T)) (s : State T) : Prop :=
  ∃ builder, Registers config builder ∧
    Runs (machine T config).Step (builder.build config) history s

/-! ## A scheduler with one schedule -/

namespace Sample

/-- Small bounds, and a misfire grace of five. -/
def config : SchedulerConfig where
  tickInterval := 1
  dispatchTimeout := 1
  misfireGrace := 5
  maxSchedules := 2
  maxDispatchesPerTick := 2
  maxCatchUpPerSchedule := 2
  tickInterval_pos := Nat.one_pos
  dispatchTimeout_pos := Nat.one_pos
  maxSchedules_pos := Nat.two_pos
  maxDispatchesPerTick_pos := Nat.two_pos
  maxCatchUpPerSchedule_pos := Nat.two_pos
  maxSchedules_le := two_le_usizeMax
  maxDispatchesPerTick_le := two_le_usizeMax
  maxCatchUpPerSchedule_le := two_le_usizeMax

def id : ScheduleId where
  value := [97]
  value_ne_nil := by decide
  length_le := by decide
  portable := by decide

/-- Due at zero and every ten from there. -/
def schedule : Schedule Unit :=
  Schedule.new id () { firstDueAt := 0, nextAfter := fun previous => some (previous + 10) }

def start : State Unit :=
  SchedulerBuilder.build config { ids := [id], schedules := [schedule] }

def after (actions : List (Action Unit)) : State Unit × List (Event Unit) :=
  (machine Unit config).after start actions

theorem reaches (actions : List (Action Unit))
    (h : ((machine Unit config).run start actions).isSome) :
    Reaches config (after actions).2 (after actions).1 :=
  ⟨_, .register schedule .new rfl, Machine.runs_after h⟩

/-- A tick at `now`, up to its first dispatcher call. -/
def dispatching (now : SystemTime) : List (Action Unit) :=
  [.tick now false, .poll 0 false, .poll 0 false, .poll 0 false]

end Sample

end PlenoraRuntime.Scheduler
