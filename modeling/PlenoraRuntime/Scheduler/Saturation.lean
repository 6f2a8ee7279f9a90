import PlenoraRuntime.Scheduler.WorkBounds

/-!
# When a tick reports saturation

A tick that nobody disturbs visits the listed schedules one after the other, and
touches only the entry it is visiting. `Visited` says what is known of the schedules
that are not pending any more:

* if the flag is set, one of them is due;
* if one of them is due, the flag is set, or the tick got a `NotStarted` answer for
  it, or the global budget is used up, in which case the tick looks at all entries
  before it returns.

For the loop that repeats the tick until the flag is clear, `backlog` counts the
instants between the cursors and `now`. It never grows, and a tick whose dispatcher
always confirms and which still sets the flag has moved some cursor.
-/

namespace PlenoraRuntime.Scheduler

open Transition List Option Keyed

variable {T : Type*} {config : SchedulerConfig} {i start : ℕ}
  {entries entries' : List (ScheduleEntry T)} {events more : List (Event T)} {tick tick' : Tick T}
  {pending : List ScheduleId} {id : ScheduleId} {dispatch : PendingDispatch T}
  {entry : ScheduleEntry T} {frame : Frame} {now : SystemTime}

/-! ## Schedules that are not pending any more -/

/-- The schedule `id` is registered, active and due at `now`. -/
def DueIn (entries : List (ScheduleEntry T)) (now : SystemTime) (id : ScheduleId) : Prop :=
  ∃ entry, Keyed.lookup ScheduleEntry.id id entries = some entry ∧ entry.isDue now = true

/-- An attempt of tick `i` for the schedule `id` ended `NotStarted`. -/
def Refused (i : ℕ) (events : List (Event T)) (id : ScheduleId) : Prop :=
  ∃ call now occurrence, .dispatched call i now occurrence ∈ events ∧
    occurrence.id.scheduleId = id ∧
    .returned call occurrence.id (.failed .notStarted) ∈ events

/-- What tick `i` knows of the schedules it is done with. -/
structure Visited (i : ℕ) (entries : List (ScheduleEntry T)) (events : List (Event T))
    (tick : Tick T) (pending : List ScheduleId) : Prop where
  flagged : tick.report.saturated = true → ∃ id, id ∉ pending ∧ DueIn entries tick.now id
  cleared : ∀ id, id ∉ pending → DueIn entries tick.now id →
    tick.report.saturated = true ∨ Refused i events id ∨ tick.remainingGlobal = 0

theorem Refused.append (h : Refused i events id) : Refused i (events ++ more) id := by
  obtain ⟨call, now, occurrence, hcall, hid, hret⟩ := h
  exact ⟨call, now, occurrence, mem_append_left _ hcall, hid,
    mem_append_left _ hret⟩

/-- Work on pending schedules says nothing about the others. -/
theorem Visited.turn (h : Visited i entries events tick pending) (hnow : tick'.now = tick.now)
    (hsat : tick'.report.saturated = tick.report.saturated)
    (hrem : tick.remainingGlobal = 0 → tick'.remainingGlobal = 0)
    (hents : ∀ id, id ∉ pending →
      Keyed.lookup ScheduleEntry.id id entries' = Keyed.lookup ScheduleEntry.id id entries) :
    Visited i entries' (events ++ more) tick' pending := by
  have hdue : ∀ id, id ∉ pending → (DueIn entries' tick'.now id ↔ DueIn entries tick.now id) := by
    intro id hid
    rw [DueIn, DueIn, hnow, hents id hid]
  refine ⟨fun hflag => ?_, fun id hid hnew => ?_⟩
  · obtain ⟨id, hid, hold⟩ := h.flagged (hsat ▸ hflag)
    exact ⟨id, hid, (hdue id hid).mpr hold⟩
  · have hold := (hdue id hid).mp hnew
    rcases h.cleared id hid hold with hflag | hrefused | hzero
    · exact .inl (hsat ▸ hflag)
    · exact .inr (.inl hrefused.append)
    · exact .inr (.inr (hrem hzero))

/-- The tick is done with the schedule at the head. -/
theorem Visited.leave {id : ScheduleId} (h : Visited i entries events tick (id :: pending))
    (hhead : DueIn entries tick.now id → tick.report.saturated = true ∨ Refused i events id ∨
      tick.remainingGlobal = 0) : Visited i entries events tick pending := by
  refine ⟨fun hflag => ?_, fun other hother hdue => ?_⟩
  · obtain ⟨other, hother, hdue⟩ := h.flagged hflag
    exact ⟨other, mt (mem_cons_of_mem _) hother, hdue⟩
  · by_cases hid : other = id
    · subst hid
      exact hhead hdue
    · exact h.cleared other (by simp [hid, hother]) hdue

/-- The tick sets the flag because of the schedule at the head. -/
theorem Visited.flag (hid : id ∉ pending) (hdue : DueIn entries tick.now id)
    (hflag : tick.report.saturated = true) : Visited i entries events tick pending :=
  ⟨fun _ => ⟨id, hid, hdue⟩, fun _ _ _ => .inl hflag⟩

/-! ## The stages of an undisturbed tick -/

/-- The call for `dispatch` was issued by tick `i`, for the schedule of the frame. -/
structure Issued (i : ℕ) (events : List (Event T)) (tick : Tick T) (frame : Frame)
    (dispatch : PendingDispatch T) : Prop where
  call : .dispatched dispatch.guard i tick.now dispatch.occurrence ∈ events
  schedule : dispatch.occurrence.id.scheduleId = frame.id
  due : dispatch.occurrence.dueAt ≤ tick.now

/-- The call for `dispatch` returned with `outcome`. -/
def Returned (events : List (Event T)) (dispatch : PendingDispatch T) (outcome : DispatchOutcome) :
    Prop :=
  ∃ result, .returned dispatch.guard dispatch.occurrence.id result ∈ events ∧
    classify result = outcome

/-- What holds at each point of an undisturbed tick. -/
def Stage (config : SchedulerConfig) (i : ℕ) (entries : List (ScheduleEntry T))
    (events : List (Event T)) (tick : Tick T) : Prop :=
  match tick.phase with
  | .listing => tick.remainingGlobal ≠ 0 ∧ tick.report.saturated = false
  | .looping rest => tick.remainingGlobal ≠ 0 ∧ Visited i entries events tick rest
  | .deciding frame => Visited i entries events tick (frame.id :: frame.rest)
  | .dispatching frame dispatch =>
    Visited i entries events tick (frame.id :: frame.rest) ∧
      Issued i events tick frame dispatch
  | .applying frame dispatch outcome =>
    Visited i entries events tick (frame.id :: frame.rest) ∧
      Issued i events tick frame dispatch ∧ Returned events dispatch outcome
  | .finishing frame =>
    Visited i entries events tick (frame.id :: frame.rest) ∧
      (DueIn entries tick.now frame.id → config.maxCatchUpPerSchedule ≤ frame.attempted ∨
        Refused i events frame.id ∨ tick.remainingGlobal = 0)
  | .left rest => Visited i entries events tick rest
  | .done =>
    .tickFinished i tick.report ∈ events ∧
      (tick.report.saturated = true → ∃ id, DueIn entries tick.now id) ∧
      (tick.report.saturated = false →
        ∀ id, DueIn entries tick.now id → Refused i events id)

theorem Issued.refused (h : Issued i events tick frame dispatch)
    (hret : Returned events dispatch .notStarted) : Refused i events frame.id := by
  obtain ⟨result, hres, hclassify⟩ := hret
  obtain rfl := classify_eq_notStarted.mp hclassify
  exact ⟨dispatch.guard, tick.now, dispatch.occurrence, h.call, h.schedule, hres⟩

/-- A settlement other than a confirmation leaves a due schedule only after a
`NotStarted` answer. -/
theorem Tick.status_settlement {outcome : DispatchOutcome}
    (hstatus : entry.status = .reconciliationRequired)
    (hstops : (tick.settlement config frame dispatch outcome entry).keepGoing = false) :
    outcome = .notStarted ∨
      (tick.settlement config frame dispatch outcome entry).entry.status ≠ .active := by
  cases outcome with
  | confirmed =>
    simp only [Tick.settlement, ScheduleEntry.applyOutcome] at hstops
    split at hstops <;> cases hstops
  | notStarted => exact .inl rfl
  | unknown =>
    simp [Tick.settlement, ScheduleEntry.applyOutcome, hstatus]

/-- The entry of the frame is the only one that a turn writes. -/
theorem lookup_replace_of_pending {written : ScheduleEntry T}
    (hfind : Keyed.lookup ScheduleEntry.id frame.id entries = some entry)
    (hid : written.id = entry.id) (id : ScheduleId) (hpend : id ∉ frame.id :: frame.rest) :
    Keyed.lookup ScheduleEntry.id id
        (Keyed.replace ScheduleEntry.id frame.id written entries) =
      Keyed.lookup ScheduleEntry.id id entries := by
  refine lookup_replace_of_ne (hid.trans (key_of_lookup hfind)) ?_
  rintro rfl
  exact hpend mem_cons_self

theorem Turn.stage (hturn : Turn config i entries tick more entries' tick')
    (hobs : tick.observesShutdown = false) (hids : (entries.map ScheduleEntry.id).Nodup)
    (hfresh : ∀ frame, tick.phase.frame = some frame → frame.id ∉ frame.rest)
    (h : Stage config i entries events tick) : Stage config i entries' (events ++ more) tick' := by
  unfold Stage at h
  cases hturn with
  | list hphase =>
    rw [hphase] at h
    obtain ⟨hrem, hsat⟩ := h
    -- Every identity is still ahead, and the flag is not set.
    refine ⟨hrem, fun hflag => ?_, fun id hid hdue => ?_⟩
    · exact absurd hflag (by simp [hsat])
    · obtain ⟨entry, hfind, -⟩ := hdue
      exact absurd (List.mem_map.mpr ⟨entry, mem_of_lookup hfind,
        key_of_lookup hfind⟩) hid
  | finish hphase hrest =>
    rw [hphase] at h
    obtain ⟨hrem, hvisited⟩ := h
    obtain rfl : _ = [] := by simpa [hobs] using hrest
    refine ⟨by simp, fun hflag => ?_, fun hflag id hdue => ?_⟩
    · obtain ⟨id, -, hdue⟩ := hvisited.flagged hflag
      exact ⟨id, hdue⟩
    · rcases hvisited.cleared id (by simp) hdue with hset | hrefused | hzero
      · exact absurd hset (by simp [show tick.report.saturated = false from hflag])
      · exact hrefused.append
      · exact absurd hzero hrem
  | enter hphase =>
    rw [hphase] at h
    exact h.2.turn rfl rfl id fun _ _ => rfl
  | @pass frame hphase hinact =>
    rw [hphase] at h
    have hleft : Visited i entries events tick frame.rest := by
      refine Visited.leave h fun hdue => ?_
      obtain ⟨entry, hfind, hdue⟩ := hdue
      exact absurd (ScheduleEntry.isDue_iff.mp hdue).1 (hinact entry hfind)
    exact hleft.turn rfl rfl id fun _ _ => rfl
  | @stop frame entry hphase hfind hstop =>
    rw [hphase] at h
    refine ⟨h.turn rfl (by simp) id fun _ _ => rfl, fun hdue => ?_⟩
    -- What is still due here is due for one of the reasons to stop.
    rcases hstop with hzero | hbound | hidle
    · exact .inr (.inr hzero)
    · exact .inl hbound
    · obtain ⟨entry', hfind', hdue⟩ := hdue
      rw [hfind, Option.some.injEq] at hfind'
      subst hfind'
      exact absurd hdue (by simp [hidle])
  | shutdown hphase hfind hstops => exact absurd hstops (by simp [hobs])
  | @skip frame entry skipped due hphase hfind hroom hskips =>
    rw [hphase] at h
    exact Visited.turn h rfl (frame.examine_saturated _) id
      (lookup_replace_of_pending hfind hskips.id_eq)
  | @dispatch frame entry due token guard hphase hfind hrem hroom hready =>
    rw [hphase] at h
    refine ⟨Visited.turn h rfl (frame.examine_saturated _) (fun hzero => absurd hzero hrem)
      (lookup_replace_of_pending hfind rfl), ⟨by simp [ScheduleEntry.pendingDispatch], ?_,
        hready.due_le⟩⟩
    have hid : entry.id = frame.id := key_of_lookup hfind
    exact hid
  | @returned frame dispatch result hphase =>
    rw [hphase] at h
    obtain ⟨hvisited, hissued⟩ := h
    refine ⟨hvisited.turn rfl ?_ id fun _ _ => rfl, ⟨?_, hissued.schedule, hissued.due⟩,
      ⟨result, by simp, rfl⟩⟩
    · cases classify result <;> rfl
    · exact mem_append_left _ hissued.call
  | @settle frame dispatch outcome entry hphase hfind hstatus hcur hocc =>
    rw [hphase] at h
    obtain ⟨hvisited, hissued, hret⟩ := h
    have hsat : (tick.settlement config frame dispatch outcome entry).report.saturated =
        tick.report.saturated :=
      tick.report_settlement (f := SchedulerTickReport.saturated) (fun _ => rfl) frame dispatch
        outcome entry
    have hwritten : (tick.settlement config frame dispatch outcome entry).entry.id = entry.id :=
      tick.id_settlement frame dispatch outcome entry
    have hents := lookup_replace_of_pending hfind hwritten
    cases hgo : (tick.settlement config frame dispatch outcome entry).keepGoing with
    | true =>
      exact hvisited.turn rfl hsat id hents
    | false =>
      refine ⟨hvisited.turn rfl hsat id hents, fun hdue => ?_⟩
      -- The tick leaves early after a refused attempt, or when the schedule is no longer active.
      rcases Tick.status_settlement hstatus hgo with rfl | hinact
      · exact .inr (.inl (hissued.refused hret).append)
      · obtain ⟨settled, hsettled, hdue⟩ := hdue
        rw [lookup_replace_self (hwritten.trans (key_of_lookup hfind)) hfind,
          Option.some.injEq] at hsettled
        exact absurd (ScheduleEntry.isDue_iff.mp (hsettled ▸ hdue)).1 hinact
  | @close frame hphase =>
    rw [hphase] at h
    obtain ⟨hvisited, hframe⟩ := h
    have hid := hfresh frame (by simp [hphase, TickPhase.frame])
    split
    case isTrue hleft =>
      obtain ⟨entry, hfind, hdue⟩ := (Option.any_eq_true ..).mp hleft
      rw [Bool.and_eq_true] at hdue
      exact Visited.flag hid ⟨entry, hfind, hdue.1⟩ rfl
    case isFalse hnone =>
      refine (hvisited.leave fun hdue => ?_).turn rfl rfl id fun _ _ => rfl
      rcases hframe hdue with hbound | hrest
      · obtain ⟨entry, hfind, hdue⟩ := hdue
        exact absurd ((Option.any_eq_true ..).mpr ⟨entry, hfind, by simp [hdue, hbound]⟩) hnone
      · exact .inr hrest
  | @exhaust rest hphase hrem =>
    rw [hphase] at h
    refine ⟨by simp, fun hflag => ?_, fun hflag id hdue => ?_⟩
    · -- Without budget, the flag is set exactly if some entry is still due.
      rcases Bool.or_eq_true_iff.mp hflag with hset | hdue
      · obtain ⟨id, -, hdue⟩ := h.flagged hset
        exact ⟨id, hdue⟩
      · obtain ⟨entry, hentry, hdue⟩ := List.any_eq_true.mp hdue
        exact ⟨entry.id, entry, lookup_of_mem hids hentry, hdue⟩
    · obtain ⟨entry, hfind, hdue⟩ := hdue
      have hany : entriesHaveDue entries tick.now = true :=
        List.any_eq_true.mpr ⟨entry, mem_of_lookup hfind, hdue⟩
      exact absurd hany (by simp [(Bool.or_eq_false_iff.mp hflag).2])
  | proceed hphase hrem =>
    rw [hphase] at h
    exact ⟨hrem, h.turn rfl rfl id fun _ _ => rfl⟩

/-! ## The backlog -/

/-- The instants from the cursor up to `now`: an upper bound for the occurrences of the
schedule that are due. -/
def ScheduleEntry.backlog (now : SystemTime) (entry : ScheduleEntry T) : ℕ :=
  match entry.nextDueAt with
  | none => 0
  | some due => (now - due + 1).toNat

def backlog (now : SystemTime) (entries : List (ScheduleEntry T)) : ℕ :=
  (entries.map (ScheduleEntry.backlog now)).sum

theorem toNat_sub_pos {now due : ℤ} (hdue : due ≤ now) : 0 < (now - due + 1).toNat := by
  omega

theorem toNat_sub_lt {now due next : ℤ} (hdue : due ≤ now) (hlater : due < next) :
    (now - next + 1).toNat < (now - due + 1).toNat := by
  omega

section backlog

variable {due : SystemTime} {entry' last : ScheduleEntry T}

theorem ScheduleEntry.backlog_lt_of_advance (hcur : entry.nextDueAt = some due)
    (hdue : due ≤ now) (hadv : entry'.nextDueAt = entry.plan.advance (some due)) :
    entry'.backlog now < entry.backlog now := by
  unfold ScheduleEntry.backlog
  rw [hcur, hadv]
  cases hnext : entry.plan.advance (some due) with
  | none => exact toNat_sub_pos hdue
  | some next => exact toNat_sub_lt hdue (SchedulePlan.lt_of_advance hnext)

theorem ScheduleEntry.Skips.backlog_lt (h : entry.Skips config now due entry') :
    entry'.backlog now < entry.backlog now := by
  have hcur := h.cursor
  cases h with
  | abandoned _ _ hdue _ => exact backlog_lt_of_advance hcur hdue (by simp [hcur])
  | misfired hready _ _ => exact backlog_lt_of_advance hcur hready.due_le (by simp [hcur])

theorem ScheduleEntry.Sweeps.backlog_le {dues : List SystemTime}
    (h : entry.Sweeps config now dues last) : last.backlog now ≤ entry.backlog now := by
  induction h with
  | done => exact Nat.le_refl _
  | skip hskips _ ih => exact Nat.le_trans ih (Nat.le_of_lt hskips.backlog_lt)

/-- A confirmed occurrence leaves the backlog. -/
theorem Tick.backlog_settlement (hcur : entry.nextDueAt = some due) (hdue : due ≤ tick.now) :
    (tick.settlement config frame dispatch .confirmed entry).entry.backlog tick.now <
      entry.backlog tick.now := by
  let released : ScheduleEntry T := { entry with dispatchToken := none }
  have hsweeps := (applyOutcome_spec config released .confirmed dispatch.misfired tick.now
    frame.attempted tick.report).1
  refine Nat.lt_of_le_of_lt hsweeps.backlog_le ?_
  refine ScheduleEntry.backlog_lt_of_advance hcur hdue ?_
  rw [ScheduleEntry.settle_confirmed_nextDueAt, ← hcur]

theorem backlog_replace_lt (hfind : Keyed.lookup ScheduleEntry.id id entries = some entry)
    (h : entry'.backlog now < entry.backlog now) :
    backlog now (Keyed.replace ScheduleEntry.id id entry' entries) < backlog now entries := by
  have hsum := sum_map_replace (b := entry') (ScheduleEntry.backlog now) hfind
  unfold backlog
  omega

theorem backlog_replace_eq (hfind : Keyed.lookup ScheduleEntry.id id entries = some entry)
    (h : entry'.backlog now = entry.backlog now) :
    backlog now (Keyed.replace ScheduleEntry.id id entry' entries) = backlog now entries := by
  have hsum := sum_map_replace (b := entry') (ScheduleEntry.backlog now) hfind
  unfold backlog
  omega

end backlog

/-- Since the backlog was `start`, the tick moved some cursor, or it has neither used
any budget nor set the flag. -/
structure Progress (config : SchedulerConfig) (start : ℕ) (entries : List (ScheduleEntry T))
    (tick : Tick T) : Prop where
  le : backlog tick.now entries ≤ start
  unflagged : backlog tick.now entries = start → tick.report.saturated = false
  unused : backlog tick.now entries = start → tick.flight = none →
    tick.remainingGlobal = config.maxDispatchesPerTick ∧
      ∀ frame, tick.phase.frame = some frame → frame.attempted = 0

namespace Progress

variable {start : ℕ}

theorem of_lt (h : backlog tick.now entries < start) : Progress config start entries tick where
  le := Nat.le_of_lt h
  unflagged heq := absurd heq (Nat.ne_of_lt h)
  unused heq := absurd heq (Nat.ne_of_lt h)

theorem turn (h : Progress config start entries tick) (hflight : tick.flight = none)
    (hbacklog : backlog tick'.now entries' = backlog tick.now entries)
    (hsat : tick.report.saturated = false → backlog tick.now entries = start →
      tick'.report.saturated = false) (hrem : tick'.remainingGlobal = tick.remainingGlobal)
    (hframe : ∀ frame', tick'.phase.frame = some frame' → frame'.attempted = 0 ∨
      ∃ frame, tick.phase.frame = some frame ∧ frame'.attempted = frame.attempted) :
    Progress config start entries' tick' where
  le := hbacklog ▸ h.le
  unflagged heq := by
    rw [hbacklog] at heq
    exact hsat (h.unflagged heq) heq
  unused heq _ := by
    rw [hbacklog] at heq
    obtain ⟨hbudget, hatt⟩ := h.unused heq hflight
    refine ⟨hrem.trans hbudget, fun frame' hframe' => ?_⟩
    rcases hframe frame' hframe' with hzero | ⟨frame, hsome, hsame⟩
    · exact hzero
    · exact hsame.trans (hatt frame hsome)

theorem fly (h : Progress config start entries tick)
    (hbacklog : backlog tick'.now entries' = backlog tick.now entries)
    (hsat : tick'.report.saturated = tick.report.saturated) (hflight : tick'.flight ≠ none) :
    Progress config start entries' tick' where
  le := hbacklog ▸ h.le
  unflagged heq := hsat ▸ h.unflagged (hbacklog ▸ heq)
  unused _ hnone := absurd hnone hflight

end Progress

theorem Turn.progress (hturn : Turn config i entries tick more entries' tick')
    (hobs : tick.observesShutdown = false)
    (hconf : ∀ frame dispatch outcome, tick.phase = .applying frame dispatch outcome →
      outcome = .confirmed ∧ dispatch.occurrence.dueAt ≤ tick.now)
    (h : Progress config start entries tick) : Progress config start entries' tick' := by
  obtain ⟨now, observes, remaining, report, phase⟩ := tick
  cases hturn with
  | list hphase | finish hphase | pass hphase | proceed hphase =>
    cases hphase
    exact h.turn rfl rfl (fun hflag _ => hflag) rfl (by simp [TickPhase.frame])
  | enter hphase =>
    cases hphase
    refine h.turn rfl rfl (fun hflag _ => hflag) rfl ?_
    rintro frame hframe
    cases hframe
    exact .inl rfl
  | @stop frame _ hphase =>
    cases hphase
    refine h.turn rfl rfl (fun hflag _ => (frame.examine_saturated _).trans hflag) rfl ?_
    rintro frame' hframe
    cases hframe
    exact .inr ⟨frame, rfl, rfl⟩
  | shutdown _ _ hstops => cases hobs.symm.trans hstops
  | skip hphase hfind _ hskips =>
    exact .of_lt (Nat.lt_of_lt_of_le (backlog_replace_lt hfind hskips.backlog_lt) h.le)
  | @dispatch frame entry due token guard hphase hfind _ _ _ =>
    exact h.fly (backlog_replace_eq hfind rfl) (frame.examine_saturated _) (by simp [Tick.flight])
  | returned result hphase =>
    refine h.fly rfl ?_ (by simp [Tick.flight])
    cases classify result <;> rfl
  | @settle frame dispatch outcome entry hphase hfind _ hcur _ =>
    obtain ⟨rfl, hdue⟩ := hconf frame dispatch outcome hphase
    refine .of_lt (Nat.lt_of_lt_of_le ?_ h.le)
    exact backlog_replace_lt hfind (Tick.backlog_settlement hcur hdue)
  | @close frame hphase =>
    cases hphase
    refine h.turn rfl rfl (fun hflag hbacklog => ?_) rfl (by simp [TickPhase.frame])
    -- Nothing was attempted, and the per-schedule bound is not zero.
    have hatt : frame.attempted = 0 := (h.unused hbacklog rfl).2 frame rfl
    have hbound : ¬ config.maxCatchUpPerSchedule ≤ frame.attempted := by
      have hpos := config.maxCatchUpPerSchedule_pos
      omega
    simp_all
  | exhaust hphase hrem =>
    cases hphase
    have hpos := config.maxDispatchesPerTick_pos
    refine .of_lt (Nat.lt_of_le_of_ne h.le fun hbacklog => ?_)
    have hbudget := (h.unused hbacklog rfl).1
    omega

/-! ## A tick that runs alone -/

/-- The dispatcher call that the action ends, if it ends one, has an allowed result. -/
def Action.Answers (Allowed : DispatchResult → Prop) : Action T → Prop
  | .dispatchReturns _ result => Allowed result
  | _ => True

/-- A step of tick `i` itself, whose dispatcher gives allowed results only. -/
def Solo (config : SchedulerConfig) (Allowed : DispatchResult → Prop) (i : ℕ) (s : State T)
    (events : List (Event T)) (s' : State T) : Prop :=
  ∃ action, action.drives i = true ∧ action.Answers Allowed ∧
    step config s action = some (s', events)

/-- The state right after `tick(now)` was called. -/
def State.startTick (config : SchedulerConfig) (s : State T) (now : SystemTime) : State T :=
  { s with ticks := s.ticks ++ [Tick.new config now false] }

/-- One `tick(now)`, called in `s` and run alone with a dispatcher that gives allowed
results only, returned `report` and left `t`. -/
structure TickAlone (config : SchedulerConfig) (Allowed : DispatchResult → Prop)
    (now : SystemTime) (s : State T) (events : List (Event T)) (report : SchedulerTickReport)
    (t : State T) : Prop where
  run : Runs (Solo config Allowed s.ticks.length) (s.startTick config now) events t
  returned : .tickFinished s.ticks.length report ∈ events

section alone

variable {Allowed : DispatchResult → Prop} {s s' t : State T} {history : List (Event T)}
  {report : SchedulerTickReport}

theorem Solo.step (h : Solo config Allowed i s events s') :
    (machine T config).Step s events s' := by
  obtain ⟨action, -, -, hstep⟩ := h
  exact ⟨action, hstep⟩

theorem Solo.turns (hinv : Inv config s) (h : Solo config Allowed i s more s') :
    ∃ tick, s.ticks[i]? = some tick ∧ Turns config s i tick (s', more) ∧
      ∀ call occurrence result, .returned call occurrence result ∈ more → Allowed result := by
  obtain ⟨action, hdrives, hanswers, hstep⟩ := h
  obtain ⟨tick, htick, hturns⟩ := step_turns hinv hdrives hstep
  refine ⟨tick, htick, hturns, fun call occurrence result hret => ?_⟩
  cases action with
  | poll j cancelled =>
    obtain rfl : j = i := of_decide_eq_true hdrives
    obtain ⟨tick', hturn, -⟩ := hturns
    obtain ⟨frame, dispatch, hphase⟩ := hturn.dispatching_of_returned hret
    simp [Scheduler.step, htick, State.poll, hphase] at hstep
  | dispatchReturns j result' =>
    obtain rfl : j = i := of_decide_eq_true hdrives
    simp only [Scheduler.step, htick, bind_some, State.dispatchReturns] at hstep
    split at hstep
    · cases hstep
      obtain ⟨-, -, rfl⟩ : call = _ ∧ occurrence = _ ∧ result = result' := by
        simpa using hret
      exact hanswers
    · cases hstep
  | _ => cases hdrives

/-- What holds while tick `i` runs alone: `events` is what happened since it was
called, `history` what happened before. -/
structure Alone (config : SchedulerConfig) (Allowed : DispatchResult → Prop) (i : ℕ)
    (now : SystemTime) (start : ℕ) (history events : List (Event T)) (s : State T)
    (tick : Tick T) : Prop where
  inv : Inv config s
  current : s.ticks[i]? = some tick
  now_eq : tick.now = now
  unobserved : tick.observesShutdown = false
  ledger : TickLedger config i (history ++ events) tick
  stage : Stage config i s.registry.entries events tick
  results : ∀ call occurrence result, .returned call occurrence result ∈ events → Allowed result
  progress : (∀ result, Allowed result → result = .ok) →
    Progress config start s.registry.entries tick

theorem Alone.confirmed (h : Alone config Allowed i now start history events s tick)
    (hok : ∀ result, Allowed result → result = .ok) (frame : Frame) (dispatch : PendingDispatch T)
    (outcome : DispatchOutcome) (hphase : tick.phase = .applying frame dispatch outcome) :
    outcome = .confirmed ∧ dispatch.occurrence.dueAt ≤ tick.now := by
  have hstage := h.stage
  simp only [Stage, hphase] at hstage
  obtain ⟨-, hissued, result, hres, rfl⟩ := hstage
  obtain rfl := hok result (h.results _ _ result hres)
  exact ⟨rfl, hissued.due⟩

theorem Alone.solo (h : Alone config Allowed i now start history events s tick)
    (hsolo : Solo config Allowed i s more s') :
    ∃ tick', Alone config Allowed i now start history (events ++ more) s' tick' ∧
      tick'.phase.turns config < tick.phase.turns config := by
  obtain ⟨tick₁, htick, ⟨tick', hturn, hticks⟩, hress⟩ := hsolo.turns h.inv
  obtain rfl : tick₁ = tick := Option.some.inj (htick.symm.trans h.current)
  obtain ⟨hlt, -⟩ := List.getElem?_eq_some_iff.mp htick
  have hinv : Inv config s' := (step_updates hsolo.step).invariant (fun h hupdate => hupdate.inv h)
    h.inv
  have hledger := hturn.ledger h.inv.ids_nodup h.ledger
  rw [append_assoc] at hledger
  have hfresh := fun frame hframe => (h.ledger.current frame hframe).2
  have hbound : ∀ frame, tick₁.phase.frame = some frame →
      frame.attempted ≤ config.maxCatchUpPerSchedule := by
    intro frame hframe
    rw [← (h.ledger.current frame hframe).1]
    exact h.ledger.work_le frame.id
  refine ⟨tick', ⟨hinv, ?_, ?_, ?_, hledger,
    hturn.stage h.unobserved h.inv.ids_nodup hfresh h.stage, ?_, fun hok =>
    hturn.progress h.unobserved (h.confirmed hok) (h.progress hok)⟩,
    hturn.turns_lt h.inv.capacity hbound⟩
  · rw [hticks, getElem?_set_self hlt]
  · exact hturn.now_eq.trans h.now_eq
  · exact hturn.observesShutdown_eq.trans h.unobserved
  · intro call occurrence result hret
    rcases mem_append.mp hret with hret | hret
    · exact h.results call occurrence result hret
    · exact hress call occurrence result hret

theorem Alone.initial (hreaches : Reaches config history s) (now : SystemTime) :
    Alone config Allowed s.ticks.length now (backlog now s.registry.entries) history []
      (s.startTick config now) (Tick.new config now false) := by
  have hinv : Inv config (s.startTick config now) :=
    (Update.start now false).inv hreaches.inv.1
  obtain ⟨builder, hreg, hrun⟩ := hreaches
  obtain ⟨actions, hactions⟩ := Machine.run_of_runs hrun
  obtain ⟨-, hrec⟩ := recorded_of_run hreg hactions s.ticks.length
  rw [getElem?_eq_none (Nat.le_refl _)] at hrec
  obtain ⟨hworker, -⟩ := hrec
  refine ⟨hinv, ?_, rfl, rfl, ?_, ⟨Nat.ne_of_gt config.maxDispatchesPerTick_pos, rfl⟩, ?_,
    fun _ => ⟨Nat.le_refl _, fun _ => rfl, fun _ _ => ⟨rfl, by simp [Tick.new, TickPhase.frame]⟩⟩⟩
  · simp [State.startTick]
  · rw [append_nil]
    exact .new now false hworker
  · simp

theorem Alone.runs (h : Alone config Allowed i now start history events s tick)
    (hrun : Runs (Solo config Allowed i) s more s') :
    ∃ tick', Alone config Allowed i now start history (events ++ more) s' tick' := by
  refine hrun.history (I := fun s events =>
    ∃ tick, Alone config Allowed i now start history events s tick) ?_ events ⟨tick, h⟩
  rintro s past events s' ⟨tick, halone⟩ hsolo
  obtain ⟨tick', halone', -⟩ := halone.solo hsolo
  exact ⟨tick', halone'⟩

theorem Alone.returns (h : Alone config Allowed i now start history events s tick)
    (result : DispatchResult) (hallowed : Allowed result) :
    Inevitable (Solo config Allowed i)
      (fun t => ∃ tick, t.ticks[i]? = some tick ∧ tick.phase = .done) s := by
  refine Inevitable.of_measure
    (I := fun s => ∃ events tick, Alone config Allowed i now start history events s tick)
    (fun s => (s.ticks[i]?).elim 0 fun tick => tick.phase.turns config) ?_ ?_ ⟨events, tick, h⟩
  · rintro s ⟨events, tick, halone⟩
    by_cases hphase : tick.phase = .done
    · exact .inl ⟨tick, halone.current, hphase⟩
    · refine .inr ?_
      rcases isSome_step halone.current hphase result with hpoll | hret
      · obtain ⟨⟨s', more⟩, hstep⟩ := isSome_iff_exists.mp hpoll
        exact ⟨more, s', .poll i false, decide_eq_true rfl, trivial, hstep⟩
      · obtain ⟨⟨s', more⟩, hstep⟩ := isSome_iff_exists.mp hret
        exact ⟨more, s', .dispatchReturns i result, decide_eq_true rfl, hallowed, hstep⟩
  · rintro s more s' ⟨events, tick, halone⟩ hsolo
    obtain ⟨tick', halone', hless⟩ := halone.solo hsolo
    refine ⟨⟨_, tick', halone'⟩, ?_⟩
    simpa [halone.current, halone'.current] using hless

theorem mem_entries_of_dueIn (h : DueIn entries now id) :
    ∃ entry ∈ entries, entry.isDue now = true := by
  obtain ⟨entry, hfind, hdue⟩ := h
  exact ⟨entry, mem_of_lookup hfind, hdue⟩

section whole

variable (hreaches : Reaches config history s) (h : TickAlone config Allowed now s events report t)

include hreaches h

theorem TickAlone.alone :
    ∃ tick, Alone config Allowed s.ticks.length now (backlog now s.registry.entries) history
      events t tick ∧ tick.phase = .done ∧ tick.report = report := by
  obtain ⟨tick, halone⟩ := (Alone.initial hreaches now).runs h.run
  obtain ⟨hphase, hrep, -⟩ :=
    halone.ledger.finished report (mem_append_right _ h.returned)
  exact ⟨tick, halone, hphase, hrep⟩

theorem TickAlone.reaches :
    Reaches config (history ++ .tickStarted s.ticks.length now :: events) t := by
  obtain ⟨builder, hreg, hrun⟩ := hreaches
  have htick : Runs (machine T config).Step (s.startTick config now) events t :=
    h.run.refine fun hsolo => .single hsolo.step
  exact ⟨builder, hreg, hrun.trans (.cons ⟨.tick now false, rfl⟩ htick)⟩

theorem TickAlone.saturated :
    (report.saturated = true → ∃ entry ∈ t.registry.entries, entry.isDue now = true) ∧
      (report.saturated = false → ∀ entry ∈ t.registry.entries, entry.isDue now = true →
        Refused s.ticks.length events entry.id) := by
  obtain ⟨tick, halone, hphase, rfl⟩ := h.alone hreaches
  have hstage := halone.stage
  simp only [Stage, hphase, halone.now_eq] at hstage
  obtain ⟨-, hset, hclear⟩ := hstage
  refine ⟨fun hflag => ?_, fun hflag entry hentry hdue => ?_⟩
  · obtain ⟨id, hdue⟩ := hset hflag
    exact mem_entries_of_dueIn hdue
  · refine hclear hflag entry.id ⟨entry, ?_, hdue⟩
    exact lookup_of_mem halone.inv.ids_nodup hentry

end whole

/-- A tick whose dispatcher always confirms and which still sets the flag has reduced
the backlog. -/
theorem TickAlone.backlog_lt (hreaches : Reaches config history s)
    (h : TickAlone config (· = .ok) now s events report t) (hflag : report.saturated = true) :
    backlog now t.registry.entries < backlog now s.registry.entries := by
  obtain ⟨tick, halone, -, rfl⟩ := h.alone hreaches
  have hprog := halone.progress fun _ hok => hok
  have hle := hprog.le
  rw [halone.now_eq] at hle
  refine Nat.lt_of_le_of_ne hle fun heq => ?_
  have hclear := hprog.unflagged (by rw [halone.now_eq]; exact heq)
  exact absurd hflag (by simp [hclear])

/-- A dispatcher that always confirms refuses nothing. -/
theorem TickAlone.not_refused (hreaches : Reaches config history s)
    (h : TickAlone config (· = .ok) now s events report t) (id : ScheduleId) :
    ¬ Refused s.ticks.length events id := by
  rintro ⟨call, now', occurrence, -, -, hret⟩
  obtain ⟨tick, halone, -⟩ := h.alone hreaches
  have hok := halone.results call occurrence.id _ hret
  cases hok

/-- A tick that runs alone can be completed. -/
theorem exists_tickAlone (hreaches : Reaches config history s) (now : SystemTime)
    (result : DispatchResult) (hallowed : Allowed result) :
    ∃ events report t, TickAlone config Allowed now s events report t := by
  have halone : Alone config Allowed s.ticks.length now _ history [] _ _ :=
    Alone.initial hreaches now
  obtain ⟨events, t, hrun, tick, htick, hphase⟩ := (halone.returns result hallowed).exists_run
  obtain ⟨tick', halone'⟩ := halone.runs hrun
  obtain rfl : tick' = tick := Option.some.inj (halone'.current.symm.trans htick)
  have hstage := halone'.stage
  simp only [Stage, hphase] at hstage
  exact ⟨events, tick'.report, t, hrun, hstage.1⟩

/-! ## Repeating the tick -/

/-- One round of a loop that calls `tick(now)` again as long as it returned
`saturated = true`: the second component says whether there is another round. -/
def Repeats (config : SchedulerConfig) (now : SystemTime) (loop : State T × Bool)
    (reports : List SchedulerTickReport) (loop' : State T × Bool) : Prop :=
  loop.2 = true ∧ ∃ events report, TickAlone config (· = .ok) now loop.1 events report loop'.1 ∧
    loop'.2 = report.saturated ∧ reports = [report]

theorem repeats_ends (hreaches : Reaches config history s) (now : SystemTime) :
    Inevitable (Repeats config now)
      (fun loop => loop.2 = false ∧
        ∀ entry ∈ loop.1.registry.entries, entry.isDue now = false) (s, true) := by
  induction hmeasure : backlog now s.registry.entries using Nat.strongRecOn generalizing s history
    with
  | _ n ih =>
    refine .later ?_ ?_
    · obtain ⟨events, report, t, htick⟩ : ∃ events report t,
          TickAlone config (· = .ok) now s events report t :=
        exists_tickAlone hreaches now .ok rfl
      exact ⟨[report], (t, report.saturated), rfl, events, report, htick, rfl, rfl⟩
    · rintro reports ⟨t, again⟩ ⟨-, events, report, htick, hagain, -⟩
      cases hflag : report.saturated with
      | true =>
        obtain rfl : again = true := hagain.trans hflag
        have hless := htick.backlog_lt hreaches hflag
        exact ih _ (hmeasure ▸ hless) (htick.reaches hreaches) rfl
      | false =>
        refine .now ⟨hagain.trans hflag, fun entry hentry => ?_⟩
        rw [Bool.eq_false_iff]
        intro hdue
        exact htick.not_refused hreaches entry.id
          ((htick.saturated hreaches).2 hflag entry hentry hdue)

/-- In every reachable state `tick(now)`, run alone, returns. It returns
`saturated = true` only if an active schedule is still due, and `saturated = false`
only if the tick got a `NotStarted` answer for every active schedule that is still due.
A loop that repeats `tick(now)` while the flag is set, with a dispatcher that always
confirms, ends with no active schedule due. -/
theorem tick_saturation (hreaches : Reaches config history s) (now : SystemTime) :
    Inevitable (Solo config (fun _ => True) s.ticks.length)
        (fun t => ∃ tick, t.ticks[s.ticks.length]? = some tick ∧ tick.phase = .done)
        (s.startTick config now) ∧
      (∀ events report t, TickAlone config (fun _ => True) now s events report t →
        (report.saturated = true → ∃ entry ∈ t.registry.entries, entry.isDue now = true) ∧
        (report.saturated = false → ∀ entry ∈ t.registry.entries, entry.isDue now = true →
          Refused s.ticks.length events entry.id)) ∧
      Inevitable (Repeats config now)
        (fun loop => loop.2 = false ∧
          ∀ entry ∈ loop.1.registry.entries, entry.isDue now = false) (s, true) :=
  ⟨(Alone.initial hreaches now).returns .ok trivial,
    fun _ _ _ htick => htick.saturated hreaches, repeats_ends hreaches now⟩

/-- The sample schedule has three occurrences due at twenty, more than one tick works
through. -/
theorem tick_saturation_sample :
    (∃ entry ∈ Sample.start.registry.entries, entry.isDue 20 = true) ∧
      Inevitable (Repeats Sample.config 20)
        (fun loop => loop.2 = false ∧
          ∀ entry ∈ loop.1.registry.entries, entry.isDue 20 = false) (Sample.start, true) := by
  refine ⟨⟨_, List.mem_singleton.mpr rfl, by decide⟩, ?_⟩
  have hreaches : Reaches Sample.config [] Sample.start := Sample.reaches [] rfl
  exact (tick_saturation hreaches 20).2.2

end alone

end PlenoraRuntime.Scheduler
