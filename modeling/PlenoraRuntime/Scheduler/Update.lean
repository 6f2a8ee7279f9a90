import PlenoraRuntime.Scheduler.System

/-!
# What a step can do

Every step of the scheduler is a short sequence of elementary updates of its
state, and `Update` lists them: a record is pruned, an entry is edited, a tick
moves between two points at which it drives no dispatcher call, a call is issued,
returns, settles or is dropped. Each update carries the guards under which the
source performs it.

* **Calls in flight.** A `Hold` is a dispatch that a tick has issued and not yet settled, and
  a `Flight` one that a live tick drives, with its outcome once it returned.
* **Remarks** are the events that no schedule's history depends on.

`step_updates` is the only proof that looks into the sections of `System`. All
invariants are shown for updates and carried over to steps by it.
-/

namespace PlenoraRuntime.Scheduler

open Transition List Option Keyed

variable {T : Type*} {i : ℕ}

/-! ## Calls in flight -/

structure Hold (T : Type*) where
  id : ScheduleId
  dispatch : PendingDispatch T

structure Flight (T : Type*) extends Hold T where
  now : SystemTime
  outcome : Option DispatchOutcome

/-- The dispatcher call a tick is driving. -/
def Tick.flight (tick : Tick T) : Option (Flight T) :=
  match tick.phase with
  | .dispatching frame dispatch =>
    some { id := frame.id, dispatch, now := tick.now, outcome := none }
  | .applying frame dispatch outcome =>
    some { id := frame.id, dispatch, now := tick.now, outcome := some outcome }
  | _ => none

/-- `tick` became `tick'` without skipping an occurrence, and now drives `flight`. -/
structure Tick.Continues (tick tick' : Tick T) (flight : Option (Flight T)) : Prop where
  now_eq : tick'.now = tick.now
  skipped_eq : tick'.report.skippedMisfires = tick.report.skippedMisfires
  flight_eq : tick'.flight = flight

/-- The state after tick `i` issued the occurrence at `due` and became `tick'`. -/
def State.launch (config : SchedulerConfig) (s : State T) (i : ℕ) (tick' : Tick T)
    (entry : ScheduleEntry T) (due : SystemTime) : State T :=
  { s with
    registry := (s.registry.put (entry.issue config tick'.now due s.dispatchTokens)).begin
      (s.flags ++ [true]) entry.id s.flags.length
    flags := s.flags ++ [true]
    dispatchTokens := Word.wrappingAdd 64 s.dispatchTokens 1
    ticks := s.ticks.set i tick' }

/-- The state after tick `i` wrote the settled entry back, released the guard of its
dispatch and became `tick'`. -/
def State.land (s : State T) (i : ℕ) (tick' : Tick T) (guard : ℕ) (settled : ScheduleEntry T) :
    State T :=
  ({ s with registry := s.registry.put settled }.dropGuard guard).setTick i tick'

/-- The entry that the owner's resolution leaves behind. -/
def ScheduleEntry.resolve (entry : ScheduleEntry T) (resolution : ReconciliationResolution) :
    ScheduleEntry T :=
  match resolution with
  | .confirmed => { entry with dispatchToken := none }.advanceOnce
  | .retry => { entry with dispatchToken := none, skipBacklogThrough := none, status := .active }

/-- The status a schedule has between two dispatches, while its owner may pause it. -/
def ScheduleStatus.switchable (status : ScheduleStatus) : Prop :=
  status = .active ∨ status = .paused

inductive Event.Remark : Event T → Prop
  | answered (answer : Answer) : Remark (.answered answer)
  | tickAborted (i : ℕ) : Remark (.tickAborted i)
  | manualAborted (n : ℕ) : Remark (.manualAborted n)

section

variable (config : SchedulerConfig) (s : State T)

inductive Update : List (Event T) → State T → Prop
  | remark {event : Event T} (hremark : event.Remark) : Update [event] s
  | prune : Update [] { s with registry := s.registry.prune s.flags }
  | trigger (occurrence : ScheduledOccurrence T) (hpermits : s.manualPermits ≠ 0) :
      Update [.manualDispatched s.triggers.length occurrence]
        { s with manualPermits := s.manualPermits - 1, triggers := s.triggers ++ [.dispatching] }
  | endTrigger {n : ℕ} (htrigger : s.triggers[n]? = some .dispatching) :
      Update [] (s.endTrigger n)
  | start (now : SystemTime) (observesShutdown : Bool) :
      Update [.tickStarted s.ticks.length now]
        { s with ticks := s.ticks ++ [Tick.new config now observesShutdown] }
  | move {i : ℕ} {tick tick'} (htick : s.ticks[i]? = some tick)
      (hflight : tick.flight = none) (hcont : tick.Continues tick' none) :
      Update [] (s.setTick i tick')
  | finish {i : ℕ} {tick tick'} (htick : s.ticks[i]? = some tick)
      (hflight : tick.flight = none) (hcont : tick.Continues tick' none) :
      Update [.tickFinished i tick'.report] (s.setTick i tick')
  | register (schedule : Schedule T)
      (hcap : s.registry.entries.length < config.maxSchedules)
      (hnew : s.registry.find schedule.id = none)
      (hidle : s.registry.isRunning s.flags schedule.id = false) :
      Update [.registered schedule]
        { s with registry := { s.registry with
            entries := s.registry.entries ++ [scheduleEntry schedule] } }
  | remove {entry : ScheduleEntry T} (hfind : s.registry.find entry.id = some entry)
      (hstatus : entry.status ≠ .reconciliationRequired) :
      Update [.removed entry.id]
        { s with registry := { s.registry with
            entries := Keyed.erase ScheduleEntry.id entry.id s.registry.entries } }
  | setStatus {entry : ScheduleEntry T} {status : ScheduleStatus}
      (hfind : s.registry.find entry.id = some entry) (hold : entry.status.switchable)
      (hnew : status.switchable) :
      Update [] { s with registry := s.registry.put { entry with status } }
  | clear {entry : ScheduleEntry T} {now due}
      (hfind : s.registry.find entry.id = some entry) (hready : entry.Ready config now due) :
      Update []
        { s with registry := s.registry.put { entry with skipBacklogThrough := none } }
  | skip {i : ℕ} {tick} {entry : ScheduleEntry T} {skipped due}
      (htick : s.ticks[i]? = some tick) (hflight : tick.flight = none)
      (hfind : s.registry.find entry.id = some entry)
      (hskips : entry.Skips config tick.now due skipped) :
      Update [.skipped i ⟨entry.id, due⟩]
        ({ s with registry := s.registry.put skipped }.setTick i
          { tick with report := tick.report.skip })
  | noSlot {i : ℕ} {entry : ScheduleEntry T} {now due}
      (hfind : s.registry.find entry.id = some entry) (hready : entry.Ready config now due)
      (hfull : (s.registry.prune s.flags).hasDispatchCapacity config.maxSchedules = false) :
      Update [.noSlot i entry.id] s
  | dispatch {i : ℕ} {tick tick'} {entry : ScheduleEntry T} {due}
      (htick : s.ticks[i]? = some tick) (hflight : tick.flight = none)
      (hfind : s.registry.find entry.id = some entry) (hready : entry.Ready config tick.now due)
      (hcont : tick.Continues tick' (some
        { id := entry.id, now := tick.now, outcome := none
          dispatch :=
            entry.pendingDispatch config tick.now due s.dispatchTokens s.flags.length })) :
      Update
        [.dispatched s.flags.length i tick.now
          (entry.pendingDispatch config tick.now due s.dispatchTokens s.flags.length).occurrence]
        (s.launch config i tick' entry due)
  | returned {i : ℕ} {tick tick' flight} (result : DispatchResult)
      (htick : s.ticks[i]? = some tick) (hflight : tick.flight = some flight)
      (hout : flight.outcome = none) (hcont : tick.Continues tick'
        (some { flight with outcome := some (classify result) })) :
      Update [.returned flight.dispatch.guard flight.dispatch.occurrence.id result]
        (s.setTick i tick')
  | missing {i : ℕ} {tick flight} (htick : s.ticks[i]? = some tick)
      (hflight : tick.flight = some flight) (hfind : s.registry.find flight.id = none) :
      Update [.entryMissing i flight.id] s
  | mismatch {i : ℕ} {tick flight entry} (htick : s.ticks[i]? = some tick)
      (hflight : tick.flight = some flight) (hfind : s.registry.find flight.id = some entry)
      (htoken : entry.dispatchToken ≠ some flight.dispatch.token) :
      Update [.tokenMismatch i flight.id] s
  | settle {i : ℕ} {tick tick' flight outcome} {entry : ScheduleEntry T}
      (htick : s.ticks[i]? = some tick) (hflight : tick.flight = some flight)
      (hout : flight.outcome = some outcome) (hid : entry.id = flight.id)
      (hfind : s.registry.find entry.id = some entry)
      (htoken : entry.dispatchToken = some flight.dispatch.token)
      (hcont : tick.Continues tick' none) :
      Update [.settled flight.dispatch.guard flight.dispatch.occurrence.id outcome]
        (s.land i tick' flight.dispatch.guard
          ({ entry with dispatchToken := none }.settle outcome flight.dispatch.misfired
            flight.now))
  | drop {i : ℕ} {tick tick' flight} (htick : s.ticks[i]? = some tick)
      (hflight : tick.flight = some flight) (hcont : tick.Continues tick' none) :
      Update [] ((s.dropGuard flight.dispatch.guard).setTick i tick')
  | resolve {entry : ScheduleEntry T} (resolution : ReconciliationResolution)
      (hidle : s.registry.isRunning s.flags entry.id = false)
      (hfind : s.registry.find entry.id = some entry)
      (hstatus : entry.status = .reconciliationRequired) :
      Update [.resolved entry.id entry.nextDueAt resolution]
        { s with registry := s.registry.put (entry.resolve resolution) }
  | restart {s'} (hrestart : s.restart config = some s') :
      Update [.restarted] s'

end

/-! ## Registry and tick bookkeeping -/

variable {tick : Tick T} {s : State T}

section bookkeeping

variable {registry : Registry T} {id : ScheduleId} {entry entry' : ScheduleEntry T} {tick' : Tick T}

theorem Registry.id_of_find (h : registry.find id = some entry) : entry.id = id :=
  key_of_lookup h

theorem Registry.put_self (h : registry.find entry.id = some entry) :
    registry.put entry = registry := by
  simp only [Registry.put, replace_self h]

theorem Registry.put_put (h : entry.id = entry'.id) :
    (registry.put entry).put entry' = registry.put entry' := by
  simp only [Registry.put, h, replace_replace h]

theorem Registry.find_put_self (h : registry.find entry.id = some entry)
    (hid : entry'.id = entry.id) : (registry.put entry').find entry.id = some entry' := by
  simp only [Registry.put, hid]
  exact lookup_replace_self hid h

theorem Registry.find_put_of_ne (hne : id ≠ entry.id) :
    (registry.put entry).find id = registry.find id :=
  lookup_replace_of_ne rfl hne

@[simp] theorem Registry.prune_prune (flags : List Bool) :
    (registry.prune flags).prune flags = registry.prune flags := by
  simp [Registry.prune]

theorem State.setTick_self (h : s.ticks[i]? = some tick) : s.setTick i tick = s := by
  obtain ⟨hlt, rfl⟩ := List.getElem?_eq_some_iff.mp h
  simp [State.setTick]

@[simp] theorem State.setTick_setTick : (s.setTick i tick).setTick i tick' = s.setTick i tick' := by
  simp [State.setTick]

theorem State.ticks_setTick (h : s.ticks[i]? = some tick) :
    (s.setTick i tick').ticks[i]? = some tick' := by
  obtain ⟨hlt, -⟩ := List.getElem?_eq_some_iff.mp h
  simp [State.setTick, hlt]

end bookkeeping

/-! ## Every step is a sequence of updates -/

section steps

variable {config : SchedulerConfig} {events : List (Event T)} {s' : State T} {frame : Frame}
  {cancelled : Bool}

private theorem runs_of_some_eq {result : State T × List (Event T)}
    (hrun : Runs (Update config) s result.2 result.1) (heq : some result = some (s', events)) :
    Runs (Update config) s events s' := by
  cases heq
  exact hrun

theorem move_setTick {counted next : Tick T} (htick : s.ticks[i]? = some tick)
    (hflight : counted.flight = none) (hcont : counted.Continues next none) :
    Update config (s.setTick i counted) [] (s.setTick i next) := by
  have hmove : Update config (s.setTick i counted) [] ((s.setTick i counted).setTick i next) :=
    .move (State.ticks_setTick htick) hflight hcont
  rwa [State.setTick_setTick] at hmove

/-- A sweep of one schedule, one skip update after the other. -/
theorem ScheduleEntry.Sweeps.updates {entry : ScheduleEntry T} {last} {now : SystemTime} {dues}
    (hsweeps : entry.Sweeps config now dues last) (htick : s.ticks[i]? = some tick)
    (hnow : tick.now = now) (hflight : tick.flight = none)
    (hfind : s.registry.find entry.id = some entry) :
    Runs (Update config) s (dues.map fun due => .skipped i ⟨entry.id, due⟩)
      ({ s with registry := s.registry.put last }.setTick i
        { tick with report := SchedulerTickReport.skip^[dues.length] tick.report }) := by
  induction hsweeps generalizing s tick with
  | done entry =>
    rw [Registry.put_self hfind]
    simpa [State.setTick_self htick] using Runs.refl s
  | @skip entry skipped last due rest hskips hswept ih =>
    subst hnow
    let counted : Tick T := { tick with report := tick.report.skip }
    let next := { s with registry := s.registry.put skipped }.setTick i counted
    have hnext : next.registry.find skipped.id = some skipped := by
      rw [hskips.id_eq]
      exact Registry.find_put_self hfind hskips.id_eq
    have hcount : next.ticks[i]? = some counted := State.ticks_setTick htick
    have hnow : counted.now = tick.now := rfl
    have hrest := ih hcount hnow hflight hnext
    have hstate : { next with registry := next.registry.put last }.setTick i
          { counted with report := SchedulerTickReport.skip^[rest.length] counted.report } =
        { s with registry := s.registry.put last }.setTick i
          { tick with report := SchedulerTickReport.skip^[rest.length + 1] tick.report } := by
      simp only [next, counted, State.setTick, set_set, Function.iterate_succ_apply,
        Registry.put_put hswept.id_eq.symm]
    rw [hstate, hskips.id_eq] at hrest
    exact .head (Update.skip htick hflight hfind hskips) hrest

theorem act_updates {entry : ScheduleEntry T} {decided} {budget : DispatchBudget}
    {decision report} {before : SchedulerTickReport} (htick : s.ticks[i]? = some tick)
    (hflight : tick.flight = none) (hid : entry.id = frame.id)
    (hfind : s.registry.find entry.id = some entry)
    (hpre : before.skippedMisfires = tick.report.skippedMisfires)
    (hcap : budget.hasCapacity =
      (s.registry.prune s.flags).hasDispatchCapacity config.maxSchedules) (hdecides :
      entry.Decides config tick.now cancelled budget before s.dispatchTokens s.flags.length decision
      decided report) :
    Runs (Update config) s (s.act i tick frame entry decision decided report).2
      (s.act i tick frame entry decision decided report).1 := by
  obtain ⟨id, rest, attempted, examined⟩ := frame
  subst hid
  cases hdecides with
  | idle _ =>
    simp only [State.act, Registry.put_self hfind]
    exact .single (.move htick hflight ⟨rfl, hpre, rfl⟩)
  | skip due _ hskips =>
    simp only [State.act, hskips.cursor, toList_some, map_cons]
    -- The skip is counted before the tick goes on to decide.
    let counted : Tick T := { tick with report := tick.report.skip }
    let deciding : Tick T :=
      { tick with
        report := before.skip
        phase := .deciding
          { id := entry.id, rest, attempted := saturatingAdd attempted 1, examined } }
    have hcont : counted.Continues deciding none :=
      ⟨rfl, by simp only [counted, deciding, SchedulerTickReport.skip, hpre], rfl⟩
    exact .cons (.skip htick hflight hfind hskips)
      (.single (move_setTick htick hflight hcont))
  | shutdown due hready _ =>
    exact .silent (.clear hfind hready) (.single (.move htick hflight ⟨rfl, hpre, rfl⟩))
  | noSlot due hready hfull =>
    rw [hcap] at hfull
    exact .cons (.noSlot hfind hready hfull)
      (.silent (.clear hfind hready) (.single (.move htick hflight ⟨rfl, hpre, rfl⟩)))
  | dispatch due hready _ =>
    let issuing : Tick T :=
      { tick with
        report
        remainingGlobal := tick.remainingGlobal - 1
        phase := .dispatching
          { id := entry.id, rest, attempted := saturatingAdd attempted 1, examined }
          (entry.pendingDispatch config tick.now due s.dispatchTokens s.flags.length) }
    have hcont : tick.Continues issuing _ := ⟨rfl, hpre, rfl⟩
    exact .single (.dispatch htick hflight hfind hready hcont)

theorem decideSection_updates (cancelled : Bool) (htick : s.ticks[i]? = some tick)
    (hflight : tick.flight = none) :
    Runs (Update config) s (s.decideSection config i tick frame cancelled).2
      (s.decideSection config i tick frame cancelled).1 := by
  refine .silent .prune ?_
  simp only [State.decideSection]
  split
  case h_1 => exact .single (.move htick hflight ⟨rfl, rfl, rfl⟩)
  case h_2 entry hfind =>
    have hid : entry.id = frame.id := Registry.id_of_find hfind
    split
    case isTrue => exact .single (.move htick hflight ⟨rfl, rfl, rfl⟩)
    case isFalse =>
      refine act_updates htick hflight hid (hid ▸ hfind) ?_ ?_ (ScheduleEntry.decide_spec ..)
      · split <;> rfl
      · rw [Registry.prune_prune]

theorem applySection_updates {dispatch outcome} (htick : s.ticks[i]? = some tick)
    (hphase : tick.phase = .applying frame dispatch outcome) :
    Runs (Update config) s (s.applySection config i tick frame dispatch outcome).2
      (s.applySection config i tick frame dispatch outcome).1 := by
  have hflight : tick.flight =
      some { id := frame.id, dispatch, now := tick.now, outcome := some outcome } := by
    simp [Tick.flight, hphase]
  simp only [State.applySection]
  split
  -- The entry is gone or carries another token: the tick only lets its dispatch go.
  case h_1 hfind =>
    exact .cons (.missing htick hflight hfind) (.single (.drop htick hflight ⟨rfl, rfl, rfl⟩))
  case h_2 entry hfind =>
    have hid : entry.id = frame.id := Registry.id_of_find hfind
    split
    case isTrue htoken =>
      exact .cons (.mismatch htick hflight hfind htoken)
        (.single (.drop htick hflight ⟨rfl, rfl, rfl⟩))
    case isFalse htoken =>
      rw [not_not] at htoken
      obtain ⟨hsweeps, hrep⟩ := applyOutcome_spec config { entry with dispatchToken := none }
        outcome dispatch.misfired tick.now frame.attempted tick.report
      generalize ScheduleEntry.applyOutcome config _ outcome dispatch.misfired tick.now
        frame.attempted tick.report = settlement at hsweeps hrep ⊢
      -- Otherwise the outcome is settled, the sweep skips on, and the tick moves.
      let settled := { entry with dispatchToken := none }.settle outcome dispatch.misfired tick.now
      let landed : Tick T := { tick with phase := .finishing frame }
      have hsettle : Update config s [.settled dispatch.guard dispatch.occurrence.id outcome]
          (s.land i landed dispatch.guard settled) :=
        .settle htick hflight rfl hid (hid ▸ hfind) htoken ⟨rfl, rfl, rfl⟩
      have hlanded : (s.land i landed dispatch.guard settled).ticks[i]? = some landed :=
        State.ticks_setTick htick
      have hsettled : settled.id = frame.id := (ScheduleEntry.settle_id ..).trans hid
      have hfound : (s.land i landed dispatch.guard settled).registry.find settled.id =
          some settled := by
        have hput := Registry.find_put_self (hid ▸ hfind) (hsettled.trans hid.symm)
        rwa [hid, ← hsettled] at hput
      have hsweep := hsweeps.updates hlanded rfl rfl hfound
      rw [hsettled] at hsweep
      let final : Tick T :=
        { tick with
          report := settlement.report
          phase :=
            if settlement.keepGoing then
              .deciding { frame with attempted := settlement.attempted }
            else .finishing { frame with attempted := settlement.attempted } }
      have hfinal : final.flight = none := by
        simp only [final]
        cases settlement.keepGoing <;> rfl
      let swept : Tick T :=
        { landed with report := SchedulerTickReport.skip^[settlement.swept.length] landed.report }
      have hcont : swept.Continues final none :=
        ⟨rfl, congrArg SchedulerTickReport.skippedMisfires hrep, hfinal⟩
      have hmove : Update config _ [] _ :=
        move_setTick
          (s := { s.land i landed dispatch.guard settled with
            registry := (s.land i landed dispatch.guard settled).registry.put settlement.entry })
          hlanded rfl hcont
      have hrun := Runs.cons hsettle (hsweep.snoc_silent hmove)
      have hput : (s.registry.put settled).put settlement.entry = s.registry.put settlement.entry :=
        Registry.put_put hsweeps.id_eq.symm
      simpa only [State.land, State.setTick, State.dropGuard, set_set, hput] using hrun

theorem finishTick_updates {last : Tick T} (htick : s.ticks[i]? = some tick)
    (hflight : tick.flight = none) (hnow : last.now = tick.now)
    (hskip : last.report.skippedMisfires = tick.report.skippedMisfires) :
    Runs (Update config) s (s.finishTick i last).2 (s.finishTick i last).1 := by
  have hcont : tick.Continues { last with phase := .done } none := ⟨hnow, hskip, rfl⟩
  exact .single (.finish htick hflight hcont)

theorem poll_updates (htick : s.ticks[i]? = some tick)
    (hpoll : s.poll config i tick cancelled = some (s', events)) :
    Runs (Update config) s events s' := by
  rcases tick with ⟨now, observesShutdown, remainingGlobal, report, phase⟩
  cases phase with
  | listing =>
    cases hpoll
    exact .single (.move htick rfl ⟨rfl, rfl, rfl⟩)
  | looping rest =>
    cases rest with
    | nil => exact runs_of_some_eq (finishTick_updates htick rfl rfl rfl) hpoll
    | cons id rest =>
      simp only [State.poll] at hpoll
      split at hpoll
      · exact runs_of_some_eq (finishTick_updates htick rfl rfl rfl) hpoll
      · cases hpoll
        exact .single (.move htick rfl ⟨rfl, rfl, rfl⟩)
  | deciding frame => exact runs_of_some_eq (decideSection_updates cancelled htick rfl) hpoll
  | dispatching | done => cases hpoll
  | applying frame dispatch outcome =>
    exact runs_of_some_eq (applySection_updates htick rfl) hpoll
  | finishing frame =>
    cases hpoll
    refine .single (.move htick rfl ⟨rfl, ?_, rfl⟩)
    split <;> rfl
  | left rest =>
    simp only [State.poll] at hpoll
    split at hpoll
    · refine runs_of_some_eq ?_ hpoll
      exact finishTick_updates htick rfl rfl rfl
    · cases hpoll
      exact .single (.move htick rfl ⟨rfl, rfl, rfl⟩)

theorem dispatchReturns_updates {result} (htick : s.ticks[i]? = some tick)
    (hret : s.dispatchReturns i tick result = some (s', events)) :
    Runs (Update config) s events s' := by
  rcases tick with ⟨now, observesShutdown, remainingGlobal, report, phase⟩
  cases phase with
  | dispatching frame dispatch =>
    cases hret
    refine .single (.returned result htick rfl rfl ⟨rfl, ?_, rfl⟩)
    cases classify result <;> rfl
  | _ => cases hret

theorem abort_updates (htick : s.ticks[i]? = some tick)
    (habort : s.abort i tick = some (s', events)) : Runs (Update config) s events s' := by
  have hremark : Update config s' [.tickAborted i] s' := .remark (.tickAborted i)
  have hdone : tick.Continues { tick with phase := .done } none := ⟨rfl, rfl, rfl⟩
  rcases tick with ⟨now, observesShutdown, remainingGlobal, report, phase⟩
  cases phase with
  | done => cases habort
  | dispatching | applying =>
    cases habort
    exact .silent (.drop htick rfl hdone) (.single hremark)
  | _ =>
    cases habort
    exact .silent (.move htick rfl hdone) (.single hremark)

theorem addSchedule_updates (schedule : Schedule T) :
    Runs (Update config) s (s.addSchedule config schedule).2
      (s.addSchedule config schedule).1 := by
  refine .silent .prune ?_
  simp only [State.addSchedule]
  split
  case isTrue => exact .single (.remark (.answered _))
  case isFalse hcap =>
    split
    case isTrue => exact .single (.remark (.answered _))
    case isFalse hnew =>
      simp only [Bool.or_eq_true, List.any_eq_true, not_or, not_exists, Bool.not_eq_true] at hnew
      have hfind : (s.registry.prune s.flags).find schedule.id = none :=
        Keyed.lookup_eq_none_iff.mpr (by simpa using hnew.1)
      exact .cons (.register schedule (Nat.lt_of_not_le hcap) hfind hnew.2)
        (.single (.remark (.answered _)))

theorem removeSchedule_updates (id : ScheduleId) :
    Runs (Update config) s (s.removeSchedule id).2 (s.removeSchedule id).1 := by
  refine .silent .prune ?_
  simp only [State.removeSchedule]
  split
  case h_1 => exact .single (.remark (.answered _))
  case h_2 entry hfind =>
    obtain rfl : entry.id = id := Registry.id_of_find hfind
    split
    case isTrue => exact .single (.remark (.answered _))
    case isFalse hstatus => exact .cons (.remove hfind hstatus) (.single (.remark (.answered _)))

theorem setStatus_updates (id : ScheduleId) {status : ScheduleStatus}
    (answer : Except ScheduleBuildError Unit → Answer) (hstatus : status.switchable) :
    Runs (Update config) s (s.setStatus id status answer).2 (s.setStatus id status answer).1 := by
  refine .silent .prune ?_
  simp only [State.setStatus]
  split
  case h_1 => exact .single (.remark (.answered _))
  case h_2 entry hfind =>
    obtain rfl : entry.id = id := Registry.id_of_find hfind
    split
    case h_1 hactive =>
      exact .silent (.setStatus hfind (.inl hactive) hstatus) (.single (.remark (.answered _)))
    case h_2 hpaused =>
      exact .silent (.setStatus hfind (.inr hpaused) hstatus) (.single (.remark (.answered _)))
    case h_3 | h_4 => exact .single (.remark (.answered _))

theorem triggerSchedule_updates (id : ScheduleId) (triggeredAt : SystemTime) :
    Runs (Update config) s (s.triggerSchedule id triggeredAt).2
      (s.triggerSchedule id triggeredAt).1 := by
  simp only [State.triggerSchedule]
  split
  case h_1 => exact .single (.remark (.answered _))
  case h_2 =>
    split
    case isTrue => exact .single (.remark (.answered _))
    case isFalse =>
      split
      case isTrue => exact .single (.remark (.answered _))
      case isFalse hpermits => exact .single (.trigger _ hpermits)

theorem resolveReconciliation_updates (id : ScheduleId) (resolution : ReconciliationResolution) :
    Runs (Update config) s (s.resolveReconciliation id resolution).2
      (s.resolveReconciliation id resolution).1 := by
  refine .silent .prune ?_
  simp only [State.resolveReconciliation]
  split
  case isTrue => exact .single (.remark (.answered _))
  case isFalse hidle =>
    split
    case h_1 => exact .single (.remark (.answered _))
    case h_2 entry hfind =>
      obtain rfl : entry.id = id := Registry.id_of_find hfind
      split
      case isTrue => exact .single (.remark (.answered _))
      case isFalse hstatus =>
        rw [not_not] at hstatus
        rw [Bool.not_eq_true] at hidle
        have hresolve : Update config { s with registry := s.registry.prune s.flags } _ _ :=
          .resolve resolution hidle hfind hstatus
        cases resolution <;> exact .cons hresolve (.single (.remark (.answered _)))

/-- Every step of the scheduler is a sequence of updates that reports the same events. -/
theorem step_updates (hstep : (machine T config).Step s events s') :
    Runs (Update config) s events s' := by
  obtain ⟨action, hact⟩ := hstep
  change step config s action = some (s', events) at hact
  cases action with
  | tick now observesShutdown =>
    cases hact
    exact .single (.start now observesShutdown)
  | poll i cancelled =>
    obtain ⟨tick, htick, hpoll⟩ := bind_eq_some_iff.mp hact
    exact poll_updates htick hpoll
  | dispatchReturns i result =>
    obtain ⟨tick, htick, hret⟩ := bind_eq_some_iff.mp hact
    exact dispatchReturns_updates htick hret
  | abort i =>
    obtain ⟨tick, htick, habort⟩ := bind_eq_some_iff.mp hact
    exact abort_updates htick habort
  -- The calls of the owner: only a manual trigger is answered by a later action.
  | addSchedule schedule =>
    exact runs_of_some_eq (addSchedule_updates schedule) hact
  | removeSchedule id =>
    exact runs_of_some_eq (removeSchedule_updates id) hact
  | pauseSchedule id =>
    exact runs_of_some_eq (setStatus_updates id _ (.inr rfl)) hact
  | resumeSchedule id =>
    exact runs_of_some_eq (setStatus_updates id _ (.inl rfl)) hact
  | triggerSchedule id triggeredAt =>
    exact runs_of_some_eq (triggerSchedule_updates id triggeredAt) hact
  | triggerReturns n result =>
    simp only [step, ite_none_right_eq_some] at hact
    obtain ⟨htrigger, hact⟩ := hact
    cases hact
    exact .silent (.endTrigger htrigger) (.single (.remark (.answered _)))
  | triggerAborts n =>
    simp only [step, ite_none_right_eq_some] at hact
    obtain ⟨htrigger, hact⟩ := hact
    cases hact
    exact .silent (.endTrigger htrigger) (.single (.remark (.manualAborted n)))
  | resolveReconciliation id resolution =>
    exact runs_of_some_eq (resolveReconciliation_updates id resolution) hact
  | snapshots =>
    cases hact
    exact .single (.remark (.answered _))
  | restart =>
    simp only [step, map_eq_some_iff] at hact
    obtain ⟨rebuilt, hrestart, heq⟩ := hact
    cases heq
    exact .single (.restart hrestart)

end steps

end PlenoraRuntime.Scheduler
