import Mathlib.Data.Int.Basic
import Mathlib.Logic.Function.Iterate
import PlenoraRuntime.Scheduler.Model

/-!
# What a tick does to one entry under the lock

`advance_once`, `is_overdue`, `skip_through_now`, `decide` and `apply_outcome`:
the pure part of the scheduler. Each comes with the lemma the rest of the
development uses in its place.

* `Skips` says when one occurrence may be passed over, and `Sweeps` chains such
  moves;
* `decide_spec` lists the things a decision can be;
* `applyOutcome_spec` splits an outcome into its settlement and the sweep of the
  abandoned backlog after it.
-/

namespace PlenoraRuntime.Scheduler

open Option

variable {T : Type*} {reference dueAt : ℤ} {grace : ℕ} {result : DispatchResult} {now : SystemTime}

/-! ## Advancing the cursor -/

/-- The cursor after `cursor`: the plan's next instant if it is a later one. -/
def SchedulePlan.advance (plan : SchedulePlan) (cursor : Option SystemTime) :
    Option SystemTime :=
  cursor.bind fun previous => (plan.nextAfter previous).filter fun next => previous < next

theorem SchedulePlan.lt_of_advance {plan : SchedulePlan} {previous next : SystemTime}
    (h : plan.advance (some previous) = some next) : previous < next := by
  simp only [SchedulePlan.advance, bind_some, filter_eq_some_iff,
    decide_eq_true_eq] at h
  exact h.2

@[simp] theorem SchedulePlan.advance_none (plan : SchedulePlan) : plan.advance none = none :=
  rfl

namespace ScheduleEntry

/-- `advance_once`: the status follows the new cursor, and a boundary never
outlives it. -/
def advanceOnce (entry : ScheduleEntry T) : ScheduleEntry T :=
  let nextDueAt := entry.plan.advance entry.nextDueAt
  { entry with
    nextDueAt := nextDueAt
    status := if nextDueAt.isSome then .active else .completed
    skipBacklogThrough := if nextDueAt.isNone then none else entry.skipBacklogThrough }

section advanceOnce

variable (entry : ScheduleEntry T)

@[simp] theorem advanceOnce_id : entry.advanceOnce.id = entry.id := rfl

@[simp] theorem advanceOnce_payload : entry.advanceOnce.payload = entry.payload := rfl

@[simp] theorem advanceOnce_plan : entry.advanceOnce.plan = entry.plan := rfl

@[simp] theorem advanceOnce_misfirePolicy :
    entry.advanceOnce.misfirePolicy = entry.misfirePolicy := rfl

@[simp] theorem advanceOnce_dispatchToken :
    entry.advanceOnce.dispatchToken = entry.dispatchToken := rfl

@[simp] theorem advanceOnce_nextDueAt :
    entry.advanceOnce.nextDueAt = entry.plan.advance entry.nextDueAt := rfl

end advanceOnce

variable {entry : ScheduleEntry T}

theorem advanceOnce_status_ne : entry.advanceOnce.status ≠ .reconciliationRequired := by
  simp only [advanceOnce]
  split <;> simp

theorem advanceOnce_status_of_isSome (h : entry.advanceOnce.nextDueAt.isSome) :
    entry.advanceOnce.status = .active := by
  simp only [advanceOnce_nextDueAt] at h
  simp [advanceOnce, h]

theorem advanceOnce_boundary_of_isSome (h : entry.advanceOnce.nextDueAt.isSome) :
    entry.advanceOnce.skipBacklogThrough = entry.skipBacklogThrough := by
  simp only [advanceOnce_nextDueAt] at h
  simp [advanceOnce, isSome_iff_ne_none.mp h]

end ScheduleEntry

/-! ## The misfire grace -/

def isOverdue (reference dueAt : ℤ) (grace : ℕ) : Bool :=
  match durationSince reference dueAt with
  | some late => grace < late
  | none => false

theorem isOverdue_iff : isOverdue reference dueAt grace = true ↔ grace < reference - dueAt := by
  unfold isOverdue durationSince
  by_cases h : dueAt ≤ reference
  · simp only [h, ↓reduceIte, decide_eq_true_eq]
    omega
  · simp only [h, ↓reduceIte, Bool.false_eq_true, false_iff]
    omega

theorem le_of_isOverdue (h : isOverdue reference dueAt grace = true) : dueAt ≤ reference := by
  have := isOverdue_iff.mp h
  omega

/-- An occurrence that is not overdue stays so when the cursor moves forward. -/
theorem isOverdue_anti {earlier later : ℤ} (hle : earlier ≤ later)
    (h : isOverdue reference later grace = true) : isOverdue reference earlier grace = true := by
  rw [isOverdue_iff] at h ⊢
  omega

def SchedulerTickReport.skip (report : SchedulerTickReport) : SchedulerTickReport :=
  { report with skippedMisfires := saturatingAdd report.skippedMisfires 1 }

/-! ## Sweeping an abandoned backlog -/

/-- `skip_through_now`. The source returns how many occurrences it skipped; the
sweep here returns the occurrences themselves, so that they can be reported. -/
def skipThroughNow (now : SystemTime) (grace : Duration) :
    ℕ → ScheduleEntry T → SchedulerTickReport →
      ScheduleEntry T × SchedulerTickReport × List SystemTime
  | 0, entry, report => (entry, report, [])
  | limit + 1, entry, report =>
    match entry.nextDueAt with
    | none => (entry, report, [])
    | some due =>
      if due ≤ now && isOverdue now due grace then
        let (swept, report, skipped) :=
          skipThroughNow now grace limit entry.advanceOnce report.skip
        (swept, report, due :: skipped)
      else (entry, report, [])

/-! ## Deciding the next action -/

/-- One dispatch issued for an entry while the registry lock is released.
`guard` is the liveness flag that `DispatchGuard` clears when it is dropped. -/
structure PendingDispatch (T : Type*) where
  occurrence : ScheduledOccurrence T
  token : ℕ
  misfired : Bool
  guard : ℕ

inductive DispatchOutcome
  | confirmed
  | notStarted
  | unknown
  deriving DecidableEq, Repr

def classify : DispatchResult → DispatchOutcome
  | .ok => .confirmed
  | .failed .notStarted => .notStarted
  | .failed .outcomeUnknown => .unknown
  | .elapsed => .unknown

theorem classify_eq_notStarted : classify result = .notStarted ↔ result = .failed .notStarted := by
  cases result with
  | ok | elapsed => simp [classify]
  | failed effect => cases effect <;> simp [classify]

theorem classify_eq_confirmed : classify result = .confirmed ↔ result = .ok := by
  cases result with
  | ok | elapsed => simp [classify]
  | failed effect => cases effect <;> simp [classify]

structure DispatchBudget where
  remainingGlobal : ℕ
  attempted : ℕ
  hasCapacity : Bool

inductive Decision (T : Type*)
  | stop
  | saturated
  | skipped
  | dispatch (dispatch : PendingDispatch T)

namespace ScheduleEntry

/-- The abandonment boundary of a `FireOnce` entry covers `due`. -/
def suppresses (config : SchedulerConfig) (entry : ScheduleEntry T) (due : SystemTime) : Bool :=
  entry.misfirePolicy = .fireOnce &&
    entry.skipBacklogThrough.any fun through =>
      due ≤ through && isOverdue through due config.misfireGrace

def pendingDispatch (config : SchedulerConfig) (entry : ScheduleEntry T) (now due : SystemTime)
    (token guard : ℕ) : PendingDispatch T where
  occurrence :=
    { id := { scheduleId := entry.id, dueAt := due }, dueAt := due, payload := entry.payload }
  token := token
  misfired := isOverdue now due config.misfireGrace
  guard := guard

/-- The entry while the occurrence at `due` is being dispatched. -/
def issue (config : SchedulerConfig) (entry : ScheduleEntry T) (now due : SystemTime)
    (token : ℕ) : ScheduleEntry T :=
  { entry with
    status := .reconciliationRequired
    skipBacklogThrough :=
      if isOverdue now due config.misfireGrace && entry.misfirePolicy = .fireOnce then some now
      else none
    dispatchToken := some token }

/-- `decide`, with the token and the liveness flag that a dispatch would take.
`cancelled` is whether the shutdown signal handed to the tick is set. -/
def decide (config : SchedulerConfig) (entry : ScheduleEntry T) (now : SystemTime)
    (cancelled : Bool) (budget : DispatchBudget) (report : SchedulerTickReport)
    (token guard : ℕ) : Decision T × ScheduleEntry T × SchedulerTickReport :=
  if entry.status ≠ .active ∨ budget.remainingGlobal = 0 ∨
      config.maxCatchUpPerSchedule ≤ budget.attempted then
    (.stop, entry, report)
  else
    match entry.nextDueAt.filter (· ≤ now) with
    | none => (.stop, entry, report)
    | some due =>
      if entry.suppresses config due then (.skipped, entry.advanceOnce, report.skip)
      else
        let entry := { entry with skipBacklogThrough := none }
        if isOverdue now due config.misfireGrace ∧ entry.misfirePolicy = .skip then
          (.skipped, entry.advanceOnce, report.skip)
        else if cancelled then (.stop, entry, report)
        else if budget.hasCapacity = false then (.saturated, entry, report)
        else
          (.dispatch (entry.pendingDispatch config now due token guard),
            entry.issue config now due token, report)

/-- The occurrence at `due` is the entry's, may be worked on at `now`, and is not
covered by the abandonment boundary. -/
structure Ready (config : SchedulerConfig) (entry : ScheduleEntry T) (now due : SystemTime) :
    Prop where
  active : entry.status = .active
  cursor : entry.nextDueAt = some due
  due_le : due ≤ now
  unsuppressed : entry.suppresses config due = false

/-- The occurrence at `due` is passed over without a dispatch: either the boundary
of an earlier `FireOnce` dispatch abandons it, or the `Skip` policy drops it as
overdue. -/
inductive Skips (config : SchedulerConfig) (entry : ScheduleEntry T) (now due : SystemTime) :
    ScheduleEntry T → Prop
  | abandoned (active : entry.status = .active) (cursor : entry.nextDueAt = some due)
      (due_le : due ≤ now) (suppressed : entry.suppresses config due = true) :
      Skips config entry now due entry.advanceOnce
  | misfired (ready : entry.Ready config now due)
      (overdue : isOverdue now due config.misfireGrace = true)
      (policy : entry.misfirePolicy = .skip) :
      Skips config entry now due (advanceOnce { entry with skipBacklogThrough := none })

section

variable (config : SchedulerConfig) (entry : ScheduleEntry T) (now : SystemTime) (cancelled : Bool)
  (budget : DispatchBudget) (report : SchedulerTickReport) (token guard : ℕ)

/-- The possible decisions, with the entry and the report each leaves behind. -/
inductive Decides : Decision T → ScheduleEntry T → SchedulerTickReport → Prop
  | idle (h : entry.status ≠ .active ∨ budget.remainingGlobal = 0 ∨
        config.maxCatchUpPerSchedule ≤ budget.attempted ∨
        entry.nextDueAt.filter (· ≤ now) = none) :
      Decides .stop entry report
  | skip (due : SystemTime) (skipped : ScheduleEntry T)
      (skips : entry.Skips config now due skipped) :
      Decides .skipped skipped report.skip
  | shutdown (due : SystemTime) (ready : entry.Ready config now due) (h : cancelled = true) :
      Decides .stop
        { entry with skipBacklogThrough := none } report
  | noSlot (due : SystemTime) (ready : entry.Ready config now due)
      (h : budget.hasCapacity = false) :
      Decides .saturated
        { entry with skipBacklogThrough := none } report
  | dispatch (due : SystemTime) (ready : entry.Ready config now due)
      (remaining : budget.remainingGlobal ≠ 0) :
      Decides
        (.dispatch (entry.pendingDispatch config now due token guard))
        (entry.issue config now due token) report

end

theorem decide_spec (config : SchedulerConfig) (entry : ScheduleEntry T) (now : SystemTime)
    (cancelled : Bool) (budget : DispatchBudget) (report : SchedulerTickReport) (token guard : ℕ) :
    Decides config entry now cancelled budget report token guard
      (entry.decide config now cancelled budget report token guard).1
      (entry.decide config now cancelled budget report token guard).2.1
      (entry.decide config now cancelled budget report token guard).2.2 := by
  unfold ScheduleEntry.decide
  split
  case isTrue hstop =>
    apply Decides.idle
    rcases hstop with h | h | h
    · exact .inl h
    · exact .inr (.inl h)
    · exact .inr (.inr (.inl h))
  case isFalse hgo =>
    simp only [not_or, ne_eq, not_not] at hgo
    split
    case h_1 hdue => exact .idle (.inr (.inr (.inr hdue)))
    case h_2 due hdue =>
      simp only [filter_eq_some_iff, decide_eq_true_eq] at hdue
      split
      case isTrue hsupp => exact .skip due _ (.abandoned hgo.1 hdue.1 hdue.2 hsupp)
      case isFalse hunsuppressed =>
        have ready : entry.Ready config now due :=
          ⟨hgo.1, hdue.1, hdue.2, by simpa using hunsuppressed⟩
        simp only
        split
        case isTrue hskip => exact .skip due _ (.misfired ready hskip.1 hskip.2)
        case isFalse =>
          split
          case isTrue hcanc => exact .shutdown due ready hcanc
          case isFalse =>
            split
            case isTrue hfull => exact .noSlot due ready hfull
            case isFalse => exact .dispatch due ready hgo.2.1

variable {config : SchedulerConfig} {entry skipped : ScheduleEntry T} {now due : SystemTime}

theorem Skips.active (h : entry.Skips config now due skipped) : entry.status = .active := by
  cases h with
  | abandoned active _ _ _ => exact active
  | misfired ready _ _ => exact ready.active

theorem Skips.cursor (h : entry.Skips config now due skipped) : entry.nextDueAt = some due := by
  cases h with
  | abandoned _ cursor _ _ => exact cursor
  | misfired ready _ _ => exact ready.cursor

@[simp] theorem Skips.id_eq (h : entry.Skips config now due skipped) : skipped.id = entry.id := by
  cases h <;> rfl

/-- A sequence of skips, with the instants passed over. -/
inductive Sweeps (config : SchedulerConfig) (now : SystemTime) :
    ScheduleEntry T → List SystemTime → ScheduleEntry T → Prop
  | done (entry : ScheduleEntry T) : Sweeps config now entry [] entry
  | skip {entry : ScheduleEntry T} {skipped last due rest} :
      entry.Skips config now due skipped → Sweeps config now skipped rest last →
      Sweeps config now entry (due :: rest) last

end ScheduleEntry

theorem ScheduleEntry.Sweeps.id_eq {config : SchedulerConfig} {entry last : ScheduleEntry T}
    {dues : List SystemTime} (h : entry.Sweeps config now dues last) : last.id = entry.id := by
  induction h with
  | done => rfl
  | skip hskips _ ih => rw [ih, hskips.id_eq]

/-! ## Applying an outcome -/

/-- What `apply_outcome` leaves behind: the entry, the tick's counters, whether
the tick may keep working on the schedule, and the occurrences it swept. -/
structure Settlement (T : Type*) where
  entry : ScheduleEntry T
  attempted : ℕ
  report : SchedulerTickReport
  keepGoing : Bool
  swept : List SystemTime

def ScheduleEntry.applyOutcome (config : SchedulerConfig) (entry : ScheduleEntry T)
    (outcome : DispatchOutcome) (misfired : Bool) (now : SystemTime) (attempted : ℕ)
    (report : SchedulerTickReport) : Settlement T :=
  match outcome with
  | .confirmed =>
    let entry := entry.advanceOnce
    if misfired && entry.misfirePolicy = .fireOnce then
      let entry :=
        if entry.nextDueAt.isSome then { entry with skipBacklogThrough := some now } else entry
      let remaining := config.maxCatchUpPerSchedule - attempted
      let (entry, report, swept) :=
        skipThroughNow now config.misfireGrace remaining entry report
      { entry, attempted := saturatingAdd attempted swept.length, report, keepGoing := true
        swept }
    else { entry, attempted, report, keepGoing := true, swept := [] }
  | .notStarted =>
    { entry := { entry with status := .active, skipBacklogThrough := none }
      attempted, report, keepGoing := false, swept := [] }
  | .unknown => { entry, attempted, report, keepGoing := false, swept := [] }

/-- The boundary that a sweep at `now` relies on. -/
structure ScheduleEntry.Abandons (entry : ScheduleEntry T) (now : SystemTime) : Prop where
  policy : entry.misfirePolicy = .fireOnce
  active : entry.nextDueAt.isSome → entry.status = .active
  boundary : entry.nextDueAt.isSome → entry.skipBacklogThrough = some now

theorem ScheduleEntry.Abandons.advanceOnce {entry : ScheduleEntry T} (h : entry.Abandons now) :
    entry.advanceOnce.Abandons now where
  policy := h.policy
  active := advanceOnce_status_of_isSome
  boundary := by
    intro hnext
    rw [advanceOnce_boundary_of_isSome hnext]
    refine h.boundary ?_
    cases hcur : entry.nextDueAt with
    | none => simp [hcur] at hnext
    | some due => rfl

/-- The sweep of an entry that abandons its backlog skips one occurrence at a time,
and counts each. -/
theorem skipThroughNow_spec (config : SchedulerConfig) (now : SystemTime) (limit : ℕ)
    (entry : ScheduleEntry T) (report : SchedulerTickReport) (h : entry.Abandons now) :
    let sweep := skipThroughNow now config.misfireGrace limit entry report
    entry.Sweeps config now sweep.2.2 sweep.1 ∧
      sweep.2.1 = SchedulerTickReport.skip^[sweep.2.2.length] report := by
  induction limit generalizing entry report with
  | zero => exact ⟨.done entry, rfl⟩
  | succ limit ih =>
    unfold skipThroughNow
    cases hcur : entry.nextDueAt with
    | none => exact ⟨.done entry, rfl⟩
    | some due =>
      simp only
      split
      case isFalse => exact ⟨.done entry, rfl⟩
      case isTrue hdue =>
        simp only [Bool.and_eq_true, decide_eq_true_eq] at hdue
        have hsome : entry.nextDueAt.isSome := by simp [hcur]
        have hsupp : entry.suppresses config due = true := by
          simp [ScheduleEntry.suppresses, h.policy, h.boundary hsome, hdue.1, hdue.2]
        obtain ⟨hsweeps, hrep⟩ := ih entry.advanceOnce report.skip h.advanceOnce
        exact ⟨.skip (.abandoned (h.active hsome) hcur hdue.1 hsupp) hsweeps,
          by simpa using hrep⟩

/-- The entry right after its outcome, before the abandoned backlog is swept. -/
def ScheduleEntry.settle (entry : ScheduleEntry T) (outcome : DispatchOutcome) (misfired : Bool)
    (now : SystemTime) : ScheduleEntry T :=
  match outcome with
  | .confirmed =>
    if misfired && entry.advanceOnce.misfirePolicy = .fireOnce &&
        entry.advanceOnce.nextDueAt.isSome then
      { entry.advanceOnce with skipBacklogThrough := some now }
    else entry.advanceOnce
  | .notStarted => { entry with status := .active, skipBacklogThrough := none }
  | .unknown => entry

@[simp] theorem ScheduleEntry.settle_id (entry : ScheduleEntry T) (outcome : DispatchOutcome)
    (misfired : Bool) (now : SystemTime) : (entry.settle outcome misfired now).id = entry.id := by
  cases outcome with
  | confirmed =>
    simp only [ScheduleEntry.settle]
    split <;> rfl
  | notStarted => rfl
  | unknown => rfl

section settle

variable (entry : ScheduleEntry T) (outcome : DispatchOutcome) (misfired : Bool)
  (now : SystemTime)

@[simp] theorem ScheduleEntry.settle_plan :
    (entry.settle outcome misfired now).plan = entry.plan := by
  cases outcome with
  | confirmed =>
    simp only [ScheduleEntry.settle]
    split <;> rfl
  | notStarted => rfl
  | unknown => rfl

@[simp] theorem ScheduleEntry.settle_misfirePolicy :
    (entry.settle outcome misfired now).misfirePolicy = entry.misfirePolicy := by
  cases outcome with
  | confirmed =>
    simp only [ScheduleEntry.settle]
    split <;> rfl
  | notStarted => rfl
  | unknown => rfl

theorem ScheduleEntry.settle_confirmed_nextDueAt :
    (entry.settle .confirmed misfired now).nextDueAt = entry.plan.advance entry.nextDueAt := by
  simp only [ScheduleEntry.settle]
  split <;> rfl

theorem ScheduleEntry.settle_confirmed_status_ne :
    (entry.settle .confirmed misfired now).status ≠ .reconciliationRequired := by
  simp only [ScheduleEntry.settle]
  split
  · exact ScheduleEntry.advanceOnce_status_ne
  · exact ScheduleEntry.advanceOnce_status_ne

end settle

theorem applyOutcome_spec (config : SchedulerConfig) (entry : ScheduleEntry T)
    (outcome : DispatchOutcome) (misfired : Bool) (now : SystemTime) (attempted : ℕ)
    (report : SchedulerTickReport) :
    let settlement := entry.applyOutcome config outcome misfired now attempted report
    (entry.settle outcome misfired now).Sweeps config now settlement.swept settlement.entry ∧
      settlement.report = SchedulerTickReport.skip^[settlement.swept.length] report := by
  cases outcome with
  | notStarted | unknown => exact ⟨.done _, rfl⟩
  | confirmed =>
    simp only [ScheduleEntry.applyOutcome, ScheduleEntry.settle]
    by_cases hfires : misfired && entry.advanceOnce.misfirePolicy = .fireOnce
    · simp only [hfires]
      simp only [Bool.and_eq_true, decide_eq_true_eq] at hfires
      refine skipThroughNow_spec config now _ _ report ?_
      split
      case isTrue hsome =>
        exact ⟨hfires.2, fun _ => ScheduleEntry.advanceOnce_status_of_isSome hsome, fun _ => rfl⟩
      case isFalse hnone =>
        exact ⟨hfires.2, fun hsome => absurd hsome hnone, fun hsome => absurd hsome hnone⟩
    · simp only [hfires]
      exact ⟨.done _, rfl⟩

def entriesHaveDue (entries : List (ScheduleEntry T)) (now : SystemTime) : Bool :=
  entries.any fun entry => entry.status = .active && entry.nextDueAt.any fun due => due ≤ now

end PlenoraRuntime.Scheduler
