import PlenoraRuntime.Scheduler.Invariant

/-!
# The turns of one tick

`Update` forgets the counters that bound a tick. `Turn` keeps them: it says what
one poll of a tick, or the return of its dispatcher call, does to the tick's own
record and to the registered entries, which is all that a tick reads. The branches
that the source keeps only as guards are not turns: in a consistent state they are
never taken.

A step that tick `i` takes itself is one of its turns (`step_turns`). Any other step starts
the tick, drops it or leaves its record alone (`Bystands`).
-/

namespace PlenoraRuntime.Scheduler

open Transition List Option

variable {T : Type*} {config : SchedulerConfig} {now : SystemTime} {cancelled : Bool}
  {events : List (Event T)} {result : DispatchResult} {budget : DispatchBudget} {i : ℕ}

/-! ## Reports -/

/-- The report of a tick that looks at the entry of its frame, which counts as
examined once. -/
def Frame.examine (frame : Frame) (report : SchedulerTickReport) : SchedulerTickReport :=
  if frame.examined then report
  else { report with schedulesExamined := saturatingAdd report.schedulesExamined 1 }

section examine

variable (frame : Frame) (report : SchedulerTickReport)

@[simp] theorem Frame.examine_dispatched :
    (frame.examine report).dispatched = report.dispatched := by
  unfold Frame.examine
  split <;> rfl

@[simp] theorem Frame.examine_notStartedFailures :
    (frame.examine report).notStartedFailures = report.notStartedFailures := by
  unfold Frame.examine
  split <;> rfl

@[simp] theorem Frame.examine_reconciliationRequired :
    (frame.examine report).reconciliationRequired = report.reconciliationRequired := by
  unfold Frame.examine
  split <;> rfl

@[simp] theorem Frame.examine_saturated : (frame.examine report).saturated = report.saturated := by
  unfold Frame.examine
  split <;> rfl

end examine

/-- The report of a tick whose dispatcher call returned. -/
def SchedulerTickReport.answer (report : SchedulerTickReport) (outcome : DispatchOutcome) :
    SchedulerTickReport :=
  match outcome with
  | .confirmed => { report with dispatched := saturatingAdd report.dispatched 1 }
  | .notStarted => { report with notStartedFailures := saturatingAdd report.notStartedFailures 1 }
  | .unknown =>
    { report with reconciliationRequired := saturatingAdd report.reconciliationRequired 1 }

/-! ## Turns -/

def ScheduleEntry.isDue (now : SystemTime) (entry : ScheduleEntry T) : Bool :=
  entry.status = .active && entry.nextDueAt.any fun due => due ≤ now

variable {entry : ScheduleEntry T}

theorem ScheduleEntry.isDue_iff :
    entry.isDue now = true ↔
      entry.status = .active ∧ ∃ due, entry.nextDueAt = some due ∧ due ≤ now := by
  simp only [isDue, Bool.and_eq_true]
  cases entry.nextDueAt <;> simp

/-- The settlement that a tick computes when it applies the outcome of its dispatch. -/
def Tick.settlement (config : SchedulerConfig) (tick : Tick T) (frame : Frame)
    (dispatch : PendingDispatch T) (outcome : DispatchOutcome) (entry : ScheduleEntry T) :
    Settlement T :=
  { entry with dispatchToken := none }.applyOutcome config outcome dispatch.misfired tick.now
    frame.attempted tick.report

section

variable (config : SchedulerConfig) (i : ℕ) (entries : List (ScheduleEntry T)) (tick : Tick T)

/-- What a turn of tick `i` does to the entries and to its own record. -/
inductive Turn : List (Event T) → List (ScheduleEntry T) → Tick T → Prop
  | list (hphase : tick.phase = .listing) :
      Turn [] entries
        { tick with phase := .looping (entries.map ScheduleEntry.id) }
  | finish {rest} (hphase : tick.phase = .looping rest)
      (hrest : rest = [] ∨ tick.observesShutdown = true) :
      Turn [.tickFinished i tick.report] entries { tick with phase := .done }
  | enter {id rest} (hphase : tick.phase = .looping (id :: rest)) :
      Turn [] entries
        { tick with phase := .deciding { id, rest, attempted := 0, examined := false } }
  | pass {frame} (hphase : tick.phase = .deciding frame)
      (hinact : ∀ entry, Keyed.lookup ScheduleEntry.id frame.id entries = some entry →
        entry.status ≠ .active) :
      Turn [] entries { tick with phase := .left frame.rest }
  | stop {frame entry} (hphase : tick.phase = .deciding frame)
      (hfind : Keyed.lookup ScheduleEntry.id frame.id entries = some entry)
      (hstop : tick.remainingGlobal = 0 ∨ config.maxCatchUpPerSchedule ≤ frame.attempted ∨
        entry.isDue tick.now = false) :
      Turn [] entries
        { tick with
          report := frame.examine tick.report
          phase := .finishing { frame with examined := true } }
  | shutdown {frame entry} (hphase : tick.phase = .deciding frame)
      (hfind : Keyed.lookup ScheduleEntry.id frame.id entries = some entry)
      (hobs : tick.observesShutdown = true) :
      Turn []
        (Keyed.replace ScheduleEntry.id frame.id { entry with skipBacklogThrough := none } entries)
        { tick with
          report := frame.examine tick.report
          phase := .finishing { frame with examined := true } }
  | skip {frame entry skipped due} (hphase : tick.phase = .deciding frame)
      (hfind : Keyed.lookup ScheduleEntry.id frame.id entries = some entry)
      (hroom : frame.attempted < config.maxCatchUpPerSchedule)
      (hskips : entry.Skips config tick.now due skipped) :
      Turn [.skipped i ⟨frame.id, due⟩]
        (Keyed.replace ScheduleEntry.id frame.id skipped entries)
        { tick with
          report := (frame.examine tick.report).skip
          phase := .deciding
            { frame with attempted := saturatingAdd frame.attempted 1, examined := true } }
  | dispatch {frame entry due token guard} (hphase : tick.phase = .deciding frame)
      (hfind : Keyed.lookup ScheduleEntry.id frame.id entries = some entry)
      (hrem : tick.remainingGlobal ≠ 0)
      (hroom : frame.attempted < config.maxCatchUpPerSchedule)
      (hready : entry.Ready config tick.now due) :
      Turn
        [.dispatched guard i tick.now
          (entry.pendingDispatch config tick.now due token guard).occurrence]
        (Keyed.replace ScheduleEntry.id frame.id (entry.issue config tick.now due token) entries)
        { tick with
          report := frame.examine tick.report
          remainingGlobal := tick.remainingGlobal - 1
          phase := .dispatching
            { frame with attempted := saturatingAdd frame.attempted 1, examined := true }
            (entry.pendingDispatch config tick.now due token guard) }
  | returned {frame dispatch} (result : DispatchResult)
      (hphase : tick.phase = .dispatching frame dispatch) :
      Turn [.returned dispatch.guard dispatch.occurrence.id result] entries
        { tick with
          report := tick.report.answer (classify result)
          phase := .applying frame dispatch (classify result) }
  | settle {frame dispatch outcome entry} (hphase : tick.phase = .applying frame dispatch outcome)
      (hfind : Keyed.lookup ScheduleEntry.id frame.id entries = some entry)
      (hstatus : entry.status = .reconciliationRequired)
      (hcur : entry.nextDueAt = some dispatch.occurrence.dueAt)
      (hocc : dispatch.occurrence.id = ⟨frame.id, dispatch.occurrence.dueAt⟩) :
      Turn
        (.settled dispatch.guard dispatch.occurrence.id outcome ::
          (tick.settlement config frame dispatch outcome entry).swept.map fun due =>
            .skipped i ⟨frame.id, due⟩)
        (Keyed.replace ScheduleEntry.id frame.id
          (tick.settlement config frame dispatch outcome entry).entry entries)
        { tick with
          report := (tick.settlement config frame dispatch outcome entry).report
          phase :=
            if (tick.settlement config frame dispatch outcome entry).keepGoing then
              .deciding { frame with
                attempted := (tick.settlement config frame dispatch outcome entry).attempted }
            else
              .finishing { frame with
                attempted := (tick.settlement config frame dispatch outcome entry).attempted } }
  | close {frame} (hphase : tick.phase = .finishing frame) :
      Turn [] entries
        { tick with
          report :=
            if (Keyed.lookup ScheduleEntry.id frame.id entries).any (fun entry =>
                entry.isDue tick.now && config.maxCatchUpPerSchedule ≤ frame.attempted) then
              { tick.report with saturated := true }
            else tick.report
          phase := .left frame.rest }
  | exhaust {rest} (hphase : tick.phase = .left rest) (hrem : tick.remainingGlobal = 0) :
      Turn
        [.tickFinished i { tick.report with
          saturated := tick.report.saturated || entriesHaveDue entries tick.now }]
        entries
        { tick with
          report := { tick.report with
            saturated := tick.report.saturated || entriesHaveDue entries tick.now }
          phase := .done }
  | proceed {rest} (hphase : tick.phase = .left rest) (hrem : tick.remainingGlobal ≠ 0) :
      Turn [] entries { tick with phase := .looping rest }

end

variable {entries' entries : List (ScheduleEntry T)} {tick' tick : Tick T}

section turn

theorem Turn.now_eq (hturn : Turn config i entries tick events entries' tick') :
    tick'.now = tick.now := by
  cases hturn <;> rfl

theorem Turn.observesShutdown_eq (hturn : Turn config i entries tick events entries' tick') :
    tick'.observesShutdown = tick.observesShutdown := by
  cases hturn <;> rfl

/-- Only the tick that awaits its dispatcher sees it return. -/
theorem Turn.dispatching_of_returned (hturn : Turn config i entries tick events entries' tick')
    {call : ℕ} {occurrence} (hret : .returned call occurrence result ∈ events) :
    ∃ frame dispatch, tick.phase = .dispatching frame dispatch := by
  cases hturn with
  | @returned frame dispatch _ hphase => exact ⟨frame, dispatch, hphase⟩
  | _ => simp at hret

end turn

/-! ## Every step of a tick is a turn -/

theorem ScheduleEntry.isDue_eq_false_of_filter (h : entry.nextDueAt.filter (· ≤ now) = none) :
    entry.isDue now = false := by
  rw [Bool.eq_false_iff, ne_eq, isDue_iff]
  rintro ⟨-, due, hcur, hdue⟩
  rw [filter_eq_none_iff] at h
  exact h due hcur (by simpa using hdue)

variable {report : SchedulerTickReport}

/-- A decision other than `stop` is made within the per-schedule bound. -/
theorem ScheduleEntry.lt_of_decide {token guard : ℕ}
    (h : (entry.decide config now cancelled budget report token guard).1 ≠ .stop) :
    budget.attempted < config.maxCatchUpPerSchedule := by
  unfold ScheduleEntry.decide at h
  split at h
  case isTrue => exact absurd rfl h
  case isFalse hgo => exact Nat.lt_of_not_le fun hle => hgo (.inr (.inr hle))

theorem Tick.id_settlement (tick : Tick T) (frame : Frame) (dispatch : PendingDispatch T)
    (outcome : DispatchOutcome) (entry : ScheduleEntry T) :
    (tick.settlement config frame dispatch outcome entry).entry.id = entry.id := by
  have hsweeps := (applyOutcome_spec config { entry with dispatchToken := none } outcome
    dispatch.misfired tick.now frame.attempted tick.report).1
  exact hsweeps.id_eq.trans (ScheduleEntry.settle_id ..)

section steps

variable {s s' : State T} {frame : Frame} {j : ℕ}

def Turns (config : SchedulerConfig) (s : State T) (i : ℕ) (tick : Tick T)
    (next : State T × List (Event T)) : Prop :=
  ∃ tick', Turn config i s.registry.entries tick next.2 next.1.registry.entries tick' ∧
    next.1.ticks = s.ticks.set i tick'

theorem act_turns {decided decision} (hphase : tick.phase = .deciding frame)
    (hfind : Keyed.lookup ScheduleEntry.id frame.id s.registry.entries = some entry)
    (hrem : budget.remainingGlobal = tick.remainingGlobal)
    (hatt : budget.attempted = frame.attempted)
    (hcap : entry.status = .active → budget.hasCapacity = true)
    (hcanc : cancelled = true → tick.observesShutdown = true)
    (hroom : decision ≠ .stop → budget.attempted < config.maxCatchUpPerSchedule) (hdecides :
      entry.Decides config tick.now cancelled budget (frame.examine tick.report) s.dispatchTokens
      s.flags.length decision decided report) :
    Turns config s i tick
      (s.act i tick { frame with examined := true } entry decision decided report) := by
  have hid : entry.id = frame.id := Keyed.key_of_lookup hfind
  obtain ⟨id, rest, attempted, examined⟩ := frame
  subst hid
  rw [hatt] at hroom
  cases hdecides with
  | idle hstop =>
    refine ⟨_, ?_, rfl⟩
    -- The entry goes back as it was found.
    have hents : (s.registry.put entry).entries = s.registry.entries := by
      rw [Registry.put_self hfind]
    rw [hrem, hatt] at hstop
    simp only [State.act, State.setTick, hents]
    refine .stop hphase hfind ?_
    rcases hstop with hstatus | hglobal | hbound | hidle
    · exact .inr (.inr (by simp [ScheduleEntry.isDue, hstatus]))
    · exact .inl hglobal
    · exact .inr (.inl hbound)
    · exact .inr (.inr (ScheduleEntry.isDue_eq_false_of_filter hidle))
  | skip due _ hskips =>
    refine ⟨_, ?_, rfl⟩
    simp only [State.act, hskips.cursor, toList_some, map_cons, Registry.put, hskips.id_eq]
    exact .skip hphase hfind (hroom (by simp)) hskips
  | shutdown due hready hstopping =>
    refine ⟨_, ?_, rfl⟩
    exact .shutdown hphase hfind (hcanc hstopping)
  | noSlot due hready hfull =>
    -- There is a slot for an active entry.
    rw [hcap hready.active] at hfull
    cases hfull
  | dispatch due hready hglobal =>
    refine ⟨_, ?_, rfl⟩
    exact .dispatch hphase hfind (hrem ▸ hglobal) (hroom (by simp)) hready

theorem decideSection_turns (hinv : Inv config s) (hphase : tick.phase = .deciding frame)
    (cancelled : Bool) : Turns config s i tick (s.decideSection config i tick frame cancelled) := by
  simp only [State.decideSection]
  split
  case h_1 hfind =>
    refine ⟨_, .pass hphase fun entry hentry => ?_, rfl⟩
    rw [show Keyed.lookup ScheduleEntry.id frame.id s.registry.entries = none from hfind] at hentry
    cases hentry
  case h_2 entry hfind =>
    change Keyed.lookup ScheduleEntry.id frame.id s.registry.entries = some entry at hfind
    have hid : entry.id = frame.id := Keyed.key_of_lookup hfind
    split
    case isTrue hinact =>
      refine ⟨_, .pass hphase fun entry' hentry => ?_, rfl⟩
      rw [hfind, Option.some.injEq] at hentry
      exact hentry ▸ hinact.2
    case isFalse =>
      refine act_turns (s := { s with registry := s.registry.prune s.flags }) hphase hfind rfl rfl
        ?_ ?_ ScheduleEntry.lt_of_decide (ScheduleEntry.decide_spec ..)
      · intro hactive
        exact hinv.hasDispatchCapacity (hid ▸ hfind) (by simp [hactive])
      · intro hstop
        exact (Bool.and_eq_true_iff.mp hstop).1

theorem applySection_turns {dispatch outcome} (hinv : Inv config s)
    (htick : s.ticks[i]? = some tick) (hphase : tick.phase = .applying frame dispatch outcome) :
    Turns config s i tick (s.applySection config i tick frame dispatch outcome) := by
  have hheld : s.held i = some ⟨frame.id, dispatch⟩ := by
    simp [State.held, State.flight_of_tick htick, Tick.flight, hphase]
  obtain ⟨-, -, ⟨entry, hfind, hstatus, htoken, hcur⟩, hocc⟩ := hinv.pinned hheld
  simp only [State.applySection, hfind, htoken, ne_eq, not_true_eq_false]
  have hid : (tick.settlement config frame dispatch outcome entry).entry.id = frame.id :=
    (tick.id_settlement frame dispatch outcome entry).trans (Registry.id_of_find hfind)
  have hents :
      (s.registry.put (tick.settlement config frame dispatch outcome entry).entry).entries =
        Keyed.replace ScheduleEntry.id frame.id
          (tick.settlement config frame dispatch outcome entry).entry s.registry.entries := by
    simp only [Registry.put, hid]
  refine ⟨_, ?_, rfl⟩
  have hturn : Turn config i s.registry.entries tick _ _ _ :=
    .settle hphase hfind hstatus hcur hocc
  rw [← hents] at hturn
  exact hturn

theorem finishSection_turns (hphase : tick.phase = .finishing frame) :
    Turns config s i tick (s.finishSection config i tick frame) := by
  refine ⟨_, ?_, rfl⟩
  have hturn : Turn config i s.registry.entries tick _ _ _ := .close hphase
  have hbound : ∀ entry : ScheduleEntry T,
      (entry.isDue tick.now && decide (config.maxCatchUpPerSchedule ≤ frame.attempted)) =
        (decide (entry.status = .active) &&
          decide (config.maxCatchUpPerSchedule ≤ frame.attempted) &&
          entry.nextDueAt.any fun due => due ≤ tick.now) := by
    intro entry
    rw [ScheduleEntry.isDue, Bool.and_right_comm]
  simp only [hbound] at hturn
  exact hturn

theorem poll_turns (hinv : Inv config s) (htick : s.ticks[i]? = some tick)
    (hpoll : s.poll config i tick cancelled = some (s', events)) :
    Turns config s i tick (s', events) := by
  unfold State.poll at hpoll
  split at hpoll
  case h_1 hphase =>
    cases hpoll
    exact ⟨_, .list hphase, rfl⟩
  case h_2 hphase =>
    cases hpoll
    exact ⟨_, .finish hphase (.inl rfl), rfl⟩
  case h_3 id rest hphase =>
    split at hpoll
    case isTrue hstop =>
      cases hpoll
      exact ⟨_, .finish hphase (.inr (Bool.and_eq_true_iff.mp hstop).1), rfl⟩
    case isFalse =>
      cases hpoll
      exact ⟨_, .enter hphase, rfl⟩
  case h_4 frame hphase =>
    rw [← Option.some.inj hpoll]
    exact decideSection_turns hinv hphase cancelled
  case h_5 | h_9 => cases hpoll
  case h_6 frame dispatch outcome hphase =>
    rw [← Option.some.inj hpoll]
    exact applySection_turns hinv htick hphase
  case h_7 frame hphase =>
    rw [← Option.some.inj hpoll]
    exact finishSection_turns hphase
  case h_8 rest hphase =>
    split at hpoll
    case isTrue hrem =>
      cases hpoll
      exact ⟨_, .exhaust hphase hrem, rfl⟩
    case isFalse hrem =>
      cases hpoll
      exact ⟨_, .proceed hphase hrem, rfl⟩

theorem dispatchReturns_turns (hret : s.dispatchReturns i tick result = some (s', events)) :
    Turns config s i tick (s', events) := by
  unfold State.dispatchReturns at hret
  split at hret
  case h_1 frame dispatch hphase =>
    cases hret
    exact ⟨_, .returned result hphase, rfl⟩
  case h_2 => cases hret

/-! ## Steps that are not turns -/

/-- The action is a step that tick `i` takes itself. -/
def Action.drives (i : ℕ) : Action T → Bool
  | .poll j _ => j = i
  | .dispatchReturns j _ => j = i
  | _ => false

/-- The tick whose work an event records. -/
def Event.worker : Event T → Option ℕ
  | .tickFinished j _ => some j
  | .dispatched _ j _ _ => some j
  | .skipped j _ => some j
  | _ => none

/-- What a step that tick `i` does not take itself can do to the record of tick `i`. -/
inductive Bystands (config : SchedulerConfig) : Option (Tick T) → Option (Tick T) → Prop
  | same (tick? : Option (Tick T)) : Bystands config tick? tick?
  | started (now : SystemTime) (observesShutdown : Bool) :
      Bystands config none (some (Tick.new config now observesShutdown))
  | dropped (tick : Tick T) : Bystands config (some tick) (some { tick with phase := .done })

theorem Turn.worker (hturn : Turn config i entries tick events entries' tick') :
    ∀ event ∈ events, ∀ j, event.worker = some j → j = i := by
  intro event hevent j hworker
  cases hturn with
  | settle =>
    rcases mem_cons.mp hevent with rfl | hevent
    · cases hworker
    · obtain ⟨due, -, rfl⟩ := List.mem_map.mp hevent
      cases hworker
      rfl
  | finish | skip | dispatch | exhaust =>
    obtain rfl := mem_singleton.mp hevent
    cases hworker
    rfl
  | returned =>
    obtain rfl := mem_singleton.mp hevent
    cases hworker
  | _ => cases hevent

variable {action : Action T}

theorem step_turns (hinv : Inv config s) (hdrives : action.drives j = true)
    (hstep : step config s action = some (s', events)) :
    ∃ tick, s.ticks[j]? = some tick ∧ Turns config s j tick (s', events) := by
  cases action with
  | poll k cancelled =>
    obtain rfl : k = j := of_decide_eq_true hdrives
    obtain ⟨tick, htick, hpoll⟩ := bind_eq_some_iff.mp hstep
    exact ⟨tick, htick, poll_turns hinv htick hpoll⟩
  | dispatchReturns k result =>
    obtain rfl : k = j := of_decide_eq_true hdrives
    obtain ⟨tick, htick, hret⟩ := bind_eq_some_iff.mp hstep
    exact ⟨tick, htick, dispatchReturns_turns hret⟩
  | _ => cases hdrives

theorem Turns.bystands {next} (hne : j ≠ i) (h : Turns config s j tick next) :
    Bystands config s.ticks[i]? next.1.ticks[i]? ∧ ∀ event ∈ next.2, event.worker ≠ some i := by
  obtain ⟨tick', hturn, hticks⟩ := h
  refine ⟨?_, fun event hevent hworker => hne (hturn.worker event hevent i hworker).symm⟩
  rw [hticks, getElem?_set_ne hne]
  exact .same _

theorem abort_bystands (htick : s.ticks[j]? = some tick)
    (habort : s.abort j tick = some (s', events)) :
    Bystands config s.ticks[i]? s'.ticks[i]? ∧ ∀ event ∈ events, event.worker ≠ some i := by
  have hres : s'.ticks = s.ticks.set j { tick with phase := .done } ∧
      events = [.tickAborted j] := by
    unfold State.abort at habort
    split at habort
    · cases habort
    all_goals
      cases habort
      exact ⟨rfl, rfl⟩
  obtain ⟨hticks, rfl⟩ := hres
  refine ⟨?_, by simp [Event.worker]⟩
  rw [hticks]
  by_cases hji : j = i
  · subst hji
    obtain ⟨hlt, -⟩ := List.getElem?_eq_some_iff.mp htick
    rw [htick, getElem?_set_self hlt]
    exact .dropped tick
  · rw [getElem?_set_ne hji]
    exact .same _

theorem step_bystands (hinv : Inv config s) (hdrives : action.drives i = false)
    (hstep : step config s action = some (s', events)) :
    Bystands config s.ticks[i]? s'.ticks[i]? ∧ ∀ event ∈ events, event.worker ≠ some i := by
  cases action with
  | tick now observesShutdown =>
    cases hstep
    refine ⟨?_, by simp [Event.worker]⟩
    rcases Nat.lt_trichotomy i s.ticks.length with hlt | rfl | hgt
    · simp only [getElem?_append_left hlt]
      exact .same _
    · simp only [getElem?_concat_length, getElem?_eq_none (Nat.le_refl _)]
      exact .started now observesShutdown
    · have hnone : (s.ticks ++ [Tick.new config now observesShutdown])[i]? = none := by
        rw [List.getElem?_eq_none_iff, length_append]
        exact hgt
      simp only [hnone, getElem?_eq_none (Nat.le_of_lt hgt)]
      exact .same _
  | poll j cancelled =>
    have hne : j ≠ i := of_decide_eq_false hdrives
    have hself : (Action.poll j cancelled : Action T).drives j = true := decide_eq_true rfl
    obtain ⟨tick, -, hturns⟩ := step_turns hinv hself hstep
    exact hturns.bystands hne
  | dispatchReturns j result =>
    have hne : j ≠ i := of_decide_eq_false hdrives
    have hself : (Action.dispatchReturns j result : Action T).drives j = true :=
      decide_eq_true rfl
    obtain ⟨tick, -, hturns⟩ := step_turns hinv hself hstep
    exact hturns.bystands hne
  | abort j =>
    obtain ⟨tick, htick, habort⟩ := bind_eq_some_iff.mp hstep
    exact abort_bystands htick habort
  | addSchedule | removeSchedule | pauseSchedule | resumeSchedule | triggerSchedule
  | triggerReturns | triggerAborts | resolveReconciliation | snapshots =>
    -- The owner's operations touch no tick, whatever they answer.
    simp only [step, State.addSchedule, State.removeSchedule, State.pauseSchedule,
      State.resumeSchedule, State.setStatus, State.triggerSchedule,
      State.resolveReconciliation] at hstep
    repeat' split at hstep
    all_goals
      cases hstep
      try exact ⟨.same _, by simp [Event.worker]⟩
  | restart =>
    obtain ⟨rebuilt, hrestart, heq⟩ := map_eq_some_iff.mp hstep
    cases heq
    refine ⟨?_, by simp [Event.worker]⟩
    obtain ⟨builder, -, rfl⟩ := map_eq_some_iff.mp hrestart
    simp only [getElem?_map]
    cases s.ticks[i]? with
    | none => exact .same _
    | some tick => exact .dropped tick

end steps

end PlenoraRuntime.Scheduler
