import PlenoraRuntime.Core.Time
import PlenoraRuntime.Foundation.Keyed

/-!
# The data of the scheduler

Configuration, identities, plans, schedules, registry entries, snapshots and
reports of `plenora-runtime-scheduler`. A `Schedule` can only be made by `new`,
`withMisfirePolicy`, `withNextDueAt` and `restoreFrom`; its last two fields are
the facts about status, cursor and abandonment boundary that these four
establish.
-/

namespace PlenoraRuntime.Scheduler

/-! ## Configuration -/

inductive SchedulerConfigError
  | zeroTickInterval
  | zeroDispatchTimeout
  | zeroScheduleCapacity
  | zeroDispatchCapacity
  | zeroCatchUpCapacity
  deriving DecidableEq, Repr

structure SchedulerConfig where
  tickInterval : Duration
  dispatchTimeout : Duration
  misfireGrace : Duration
  maxSchedules : ℕ
  maxDispatchesPerTick : ℕ
  maxCatchUpPerSchedule : ℕ
  tickInterval_pos : 0 < tickInterval
  dispatchTimeout_pos : 0 < dispatchTimeout
  maxSchedules_pos : 0 < maxSchedules
  maxDispatchesPerTick_pos : 0 < maxDispatchesPerTick
  maxCatchUpPerSchedule_pos : 0 < maxCatchUpPerSchedule
  maxSchedules_le : maxSchedules ≤ usizeMax
  maxDispatchesPerTick_le : maxDispatchesPerTick ≤ usizeMax
  maxCatchUpPerSchedule_le : maxCatchUpPerSchedule ≤ usizeMax

/-- `SchedulerConfig::new`: rejects every zero bound except the misfire grace. -/
def SchedulerConfig.new (tickInterval dispatchTimeout misfireGrace : Duration)
    (maxSchedules maxDispatchesPerTick maxCatchUpPerSchedule : Usize) :
    Except SchedulerConfigError SchedulerConfig :=
  if htick : tickInterval = 0 then .error .zeroTickInterval
  else if htimeout : dispatchTimeout = 0 then .error .zeroDispatchTimeout
  else if hscheds : maxSchedules.val = 0 then .error .zeroScheduleCapacity
  else if hdisp : maxDispatchesPerTick.val = 0 then .error .zeroDispatchCapacity
  else if hcatchUp : maxCatchUpPerSchedule.val = 0 then .error .zeroCatchUpCapacity
  else .ok
    { tickInterval, dispatchTimeout, misfireGrace
      maxSchedules := maxSchedules.val
      maxDispatchesPerTick := maxDispatchesPerTick.val
      maxCatchUpPerSchedule := maxCatchUpPerSchedule.val
      tickInterval_pos := Nat.pos_of_ne_zero htick
      dispatchTimeout_pos := Nat.pos_of_ne_zero htimeout
      maxSchedules_pos := Usize.pos_of_ne_zero hscheds
      maxDispatchesPerTick_pos := Usize.pos_of_ne_zero hdisp
      maxCatchUpPerSchedule_pos := Usize.pos_of_ne_zero hcatchUp
      maxSchedules_le := Usize.le_usizeMax maxSchedules
      maxDispatchesPerTick_le := Usize.le_usizeMax maxDispatchesPerTick
      maxCatchUpPerSchedule_le := Usize.le_usizeMax maxCatchUpPerSchedule }

/-! ## Identities and occurrences -/

def maxScheduleIdBytes : ℕ := 128

inductive ScheduleIdError
  | empty
  | tooLong
  | invalidCharacter
  deriving DecidableEq, Repr

def isScheduleIdByte (byte : UInt8) : Bool :=
  (97 ≤ byte && byte ≤ 122) || (48 ≤ byte && byte ≤ 57) || byte == 46 || byte == 95 || byte == 45

/-- A validated stable schedule identifier, as its UTF-8 bytes. -/
structure ScheduleId where
  value : List UInt8
  value_ne_nil : value ≠ []
  length_le : value.length ≤ maxScheduleIdBytes
  portable : value.all isScheduleIdByte = true
  deriving DecidableEq

def ScheduleId.new (value : List UInt8) : Except ScheduleIdError ScheduleId :=
  if hempty : value = [] then .error .empty
  else if hlen : maxScheduleIdBytes < value.length then .error .tooLong
  else if hport : value.all isScheduleIdByte = true then
    .ok ⟨value, hempty, Nat.le_of_not_lt hlen, hport⟩
  else .error .invalidCharacter

structure ScheduleOccurrenceId where
  scheduleId : ScheduleId
  dueAt : SystemTime
  deriving DecidableEq

structure ScheduledOccurrence (T : Type*) where
  id : ScheduleOccurrenceId
  dueAt : SystemTime
  payload : T

inductive ScheduleDispatchEffect
  | notStarted
  | outcomeUnknown
  deriving DecidableEq, Repr

/-- What awaiting one dispatcher call under its timeout can produce:
`Result<Result<(), ScheduleDispatchError>, Elapsed>`. -/
inductive DispatchResult
  | ok
  | failed (effect : ScheduleDispatchEffect)
  | elapsed
  deriving DecidableEq, Repr

/-- The application-supplied plan. `nextAfter` may return any instant, also an
earlier one. -/
structure SchedulePlan where
  firstDueAt : SystemTime
  nextAfter : SystemTime → Option SystemTime

/-! ## Schedules and snapshots -/

inductive MisfirePolicy
  | skip
  | fireOnce
  | catchUp
  deriving DecidableEq, Repr

inductive ScheduleStatus
  | active
  | paused
  | completed
  | reconciliationRequired
  deriving DecidableEq, Repr

inductive ReconciliationResolution
  | confirmed
  | retry
  deriving DecidableEq, Repr

/-- `cursor_is_valid` of `restore_from`: a schedule has a cursor unless it is
completed. -/
def cursorIsValid (status : ScheduleStatus) (nextDueAt : Option SystemTime) : Bool :=
  match status with
  | .active | .paused | .reconciliationRequired => nextDueAt.isSome
  | .completed => nextDueAt.isNone

structure Schedule (T : Type*) where
  id : ScheduleId
  payload : T
  plan : SchedulePlan
  misfirePolicy : MisfirePolicy
  nextDueAt : Option SystemTime
  status : ScheduleStatus
  skipBacklogThrough : Option SystemTime
  cursor_valid : cursorIsValid status nextDueAt = true
  boundary_valid : nextDueAt = none → skipBacklogThrough = none

structure ScheduleSnapshot where
  id : ScheduleId
  status : ScheduleStatus
  nextDueAt : Option SystemTime
  skipBacklogThrough : Option SystemTime
  deriving DecidableEq

inductive ScheduleRestoreError
  | identityMismatch
  | inconsistentCursor
  deriving DecidableEq, Repr

variable {T : Type*}

/-- `Schedule::new`: an active `FireOnce` schedule at its plan's first instant. -/
def Schedule.new (id : ScheduleId) (payload : T) (plan : SchedulePlan) : Schedule T where
  id := id
  payload := payload
  plan := plan
  misfirePolicy := .fireOnce
  nextDueAt := some plan.firstDueAt
  status := .active
  skipBacklogThrough := none
  cursor_valid := rfl
  boundary_valid := fun _ => rfl

def Schedule.withMisfirePolicy (schedule : Schedule T) (policy : MisfirePolicy) : Schedule T :=
  { schedule with misfirePolicy := policy }

/-- `Schedule::with_next_due_at`: replacing the cursor discards the boundary. -/
def Schedule.withNextDueAt (schedule : Schedule T) (nextDueAt : Option SystemTime) :
    Schedule T :=
  { schedule with
    nextDueAt := nextDueAt
    skipBacklogThrough := none
    status := if nextDueAt.isSome then .active else .completed
    cursor_valid := by cases nextDueAt <;> rfl
    boundary_valid := fun _ => rfl }

def Schedule.restoreFrom (schedule : Schedule T) (snapshot : ScheduleSnapshot) :
    Except ScheduleRestoreError (Schedule T) :=
  if schedule.id ≠ snapshot.id then .error .identityMismatch
  else if hcur : cursorIsValid snapshot.status snapshot.nextDueAt = true then
    if hbound : snapshot.nextDueAt.isNone ∧ snapshot.skipBacklogThrough.isSome then
      .error .inconsistentCursor
    else
      .ok
        { schedule with
          status := snapshot.status
          nextDueAt := snapshot.nextDueAt
          skipBacklogThrough := snapshot.skipBacklogThrough
          cursor_valid := hcur
          boundary_valid := fun hnone => by simpa [hnone] using hbound }
  else .error .inconsistentCursor

/-! ## Registry entries -/

/-- The registered form of a schedule, with the token of the dispatch currently
issued for it. -/
structure ScheduleEntry (T : Type*) where
  id : ScheduleId
  payload : T
  plan : SchedulePlan
  misfirePolicy : MisfirePolicy
  nextDueAt : Option SystemTime
  status : ScheduleStatus
  skipBacklogThrough : Option SystemTime
  dispatchToken : Option ℕ

def scheduleEntry (schedule : Schedule T) : ScheduleEntry T where
  id := schedule.id
  payload := schedule.payload
  plan := schedule.plan
  misfirePolicy := schedule.misfirePolicy
  nextDueAt := schedule.nextDueAt
  status := schedule.status
  skipBacklogThrough := schedule.skipBacklogThrough
  dispatchToken := none

/-- The persisted view of an entry, as `snapshots` and `remove_schedule` build it. -/
def ScheduleEntry.snapshot (entry : ScheduleEntry T) : ScheduleSnapshot where
  id := entry.id
  status := entry.status
  nextDueAt := entry.nextDueAt
  skipBacklogThrough := entry.skipBacklogThrough

/-- One dispatch recorded as unsettled. `active` names the shared liveness flag:
a position in the list of all flags allocated so far. -/
structure RunningDispatch where
  id : ScheduleId
  active : ℕ
  deriving DecidableEq

structure Registry (T : Type*) where
  entries : List (ScheduleEntry T)
  running : List RunningDispatch

def isActive (flags : List Bool) (cell : ℕ) : Bool :=
  flags.getD cell false

namespace Registry

variable (registry : Registry T)

/-- `Registry::find_mut`, and the lookups that inline it. -/
def find (id : ScheduleId) : Option (ScheduleEntry T) :=
  Keyed.lookup ScheduleEntry.id id registry.entries

/-- Writes an entry back to the place `find` took it from. -/
def put (entry : ScheduleEntry T) : Registry T :=
  { registry with entries := Keyed.replace ScheduleEntry.id entry.id entry registry.entries }

def isRunning (flags : List Bool) (id : ScheduleId) : Bool :=
  registry.running.any fun dispatch => dispatch.id = id && isActive flags dispatch.active

def prune (flags : List Bool) : Registry T :=
  { registry with
    running := registry.running.filter fun dispatch => isActive flags dispatch.active }

def begin (flags : List Bool) (id : ScheduleId) (active : ℕ) : Registry T :=
  { registry.prune flags with
    running := (registry.prune flags).running ++ [{ id := id, active := active }] }

def hasDispatchCapacity (limit : ℕ) : Bool :=
  registry.running.length < limit

end Registry

/-! ## Reports, errors and answers -/

structure SchedulerTickReport where
  schedulesExamined : ℕ := 0
  dispatched : ℕ := 0
  notStartedFailures : ℕ := 0
  reconciliationRequired : ℕ := 0
  skippedMisfires : ℕ := 0
  saturated : Bool := false
  deriving DecidableEq, Repr

inductive ManualTriggerOutcome
  | confirmed
  | notStarted
  | outcomeUnknown
  | timedOut
  | saturated
  | reconciliationRequired
  deriving DecidableEq, Repr

inductive ScheduleRegistrationError
  | capacityExceeded (limit : ℕ)
  | duplicateId (id : ScheduleId)
  deriving DecidableEq

inductive ScheduleBuildError
  | unknownSchedule (id : ScheduleId)
  | reconciliationNotRequired (id : ScheduleId)
  | transitionNotAllowed (id : ScheduleId)
  deriving DecidableEq

/-! ## Building a scheduler -/

/-- `SchedulerBuilder`, with its configuration kept beside it. -/
structure SchedulerBuilder (T : Type*) where
  ids : List ScheduleId := []
  schedules : List (Schedule T) := []

def SchedulerBuilder.register (config : SchedulerConfig) (builder : SchedulerBuilder T)
    (schedule : Schedule T) : Except ScheduleRegistrationError (SchedulerBuilder T) :=
  if config.maxSchedules ≤ builder.schedules.length then
    .error (.capacityExceeded config.maxSchedules)
  else if schedule.id ∈ builder.ids then .error (.duplicateId schedule.id)
  else .ok { ids := schedule.id :: builder.ids, schedules := builder.schedules ++ [schedule] }

end PlenoraRuntime.Scheduler
