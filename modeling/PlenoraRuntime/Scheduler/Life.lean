import PlenoraRuntime.Scheduler.Invariant

/-!
# The life of one schedule

Seen from one identity the scheduler is a small machine: the schedule is
registered or not, at most one dispatcher call for it is in flight, and a few
instants have been handed to ticks. `Life.Step` lists what can happen to it,
whichever callers and other schedules are around.

`Update.life` shows that the scheduler refines this machine for every identity,
all identities at once. The invariant of the registry is used here and no longer
needed afterwards: what is said about the order of dispatches, the abandonment
boundary and the cursor is said about lives.
-/

namespace PlenoraRuntime.Scheduler

open Transition List Function Keyed

variable {T : Type*} {due : SystemTime} {config : SchedulerConfig} {id : ScheduleId}

/-- What concerns one schedule: its entry while it is registered, the dispatcher
call in flight for it, and the instants of the ticks started so far. -/
structure Life (T : Type*) where
  entry : Option (ScheduleEntry T)
  flight : Option (Flight T)
  nows : List SystemTime

inductive LifeEvent (T : Type*)
  | ticked (now : SystemTime)
  | registered (schedule : Schedule T)
  | removed
  | dispatched (call : ℕ) (now due : SystemTime)
  | returned (call : ℕ) (due : SystemTime) (result : DispatchResult)
  | settled (call : ℕ) (due : SystemTime) (outcome : DispatchOutcome)
  | skipped (tick : ℕ) (due : SystemTime)
  | resolved (cursor : Option SystemTime) (resolution : ReconciliationResolution)

/-- What an event means for the schedule `id`. -/
def Event.about (id : ScheduleId) : Event T → Option (LifeEvent T)
  | .tickStarted _ now => some (.ticked now)
  | .registered schedule => if schedule.id = id then some (.registered schedule) else none
  | .removed id' => if id' = id then some .removed else none
  | .dispatched call _ now occurrence =>
    if occurrence.id.scheduleId = id then some (.dispatched call now occurrence.id.dueAt)
    else none
  | .returned call occurrence result =>
    if occurrence.scheduleId = id then some (.returned call occurrence.dueAt result) else none
  | .settled call occurrence outcome =>
    if occurrence.scheduleId = id then some (.settled call occurrence.dueAt outcome) else none
  | .skipped tick occurrence =>
    if occurrence.scheduleId = id then some (.skipped tick occurrence.dueAt) else none
  | .resolved id' cursor resolution =>
    if id' = id then some (.resolved cursor resolution) else none
  | _ => none

variable {event : Event T}

section about

variable {call : ℕ}

theorem ScheduleOccurrenceId.eq_mk_iff {occurrence : ScheduleOccurrenceId} :
    occurrence = ⟨id, due⟩ ↔ occurrence.scheduleId = id ∧ occurrence.dueAt = due := by
  cases occurrence
  simp

attribute [local simp] Event.about ScheduleOccurrenceId.eq_mk_iff and_assoc

theorem Event.about_eq_removed : event.about id = some .removed ↔ event = .removed id := by
  cases event <;> simp

theorem Event.about_eq_dispatched {now : SystemTime} :
    event.about id = some (.dispatched call now due) ↔
      ∃ tick occurrence, event = .dispatched call tick now occurrence ∧
        occurrence.id = ⟨id, due⟩ := by
  cases event <;> simp
  tauto

theorem Event.about_eq_returned {result : DispatchResult} :
    event.about id = some (.returned call due result) ↔
      event = .returned call ⟨id, due⟩ result := by
  cases event <;> simp
  tauto

theorem Event.about_eq_settled {outcome : DispatchOutcome} :
    event.about id = some (.settled call due outcome) ↔
      event = .settled call ⟨id, due⟩ outcome := by
  cases event <;> simp
  tauto

theorem Event.about_eq_skipped {tick : ℕ} :
    event.about id = some (.skipped tick due) ↔ event = .skipped tick ⟨id, due⟩ := by
  cases event <;> simp
  tauto

theorem Event.about_eq_resolved {cursor resolution} :
    event.about id = some (.resolved cursor resolution) ↔
      event = .resolved id cursor resolution := by
  cases event <;> simp

end about

section

variable (config : SchedulerConfig) (l : Life T)

/-- What can happen to one schedule. -/
inductive Life.Step : List (LifeEvent T) → Life T → Prop
  | ticked (now : SystemTime) :
      Step [.ticked now] { l with nows := l.nows ++ [now] }
  | registered (schedule : Schedule T) (hentry : l.entry = none)
      (hflight : l.flight = none) :
      Step [.registered schedule] { l with entry := some (scheduleEntry schedule) }
  | removed {entry} (hentry : l.entry = some entry) (hflight : l.flight = none)
      (hstatus : entry.status ≠ .reconciliationRequired) :
      Step [.removed] { l with entry := none }
  | setStatus {entry} {status : ScheduleStatus} (hentry : l.entry = some entry)
      (hflight : l.flight = none) (hold : entry.status.switchable) (hnew : status.switchable) :
      Step [] { l with entry := some { entry with status } }
  | cleared {entry now due} (hentry : l.entry = some entry) (hflight : l.flight = none)
      (hready : entry.Ready config now due) :
      Step [] { l with entry := some { entry with skipBacklogThrough := none } }
  | skipped {entry skipped now due} (i : ℕ) (hentry : l.entry = some entry)
      (hflight : l.flight = none) (hnow : now ∈ l.nows)
      (hskips : entry.Skips config now due skipped) :
      Step [.skipped i due] { l with entry := some skipped }
  | dispatched {entry now due} (token call : ℕ) (hentry : l.entry = some entry)
      (hflight : l.flight = none) (hnow : now ∈ l.nows) (hready : entry.Ready config now due) :
      Step [.dispatched call now due]
        { l with
          entry := some (entry.issue config now due token)
          flight := some
            { id := entry.id, now, outcome := none
              dispatch := entry.pendingDispatch config now due token call } }
  | returned {flight} (result : DispatchResult) (hflight : l.flight = some flight)
      (hout : flight.outcome = none) :
      Step [.returned flight.dispatch.guard flight.dispatch.occurrence.dueAt result]
        { l with flight := some { flight with outcome := some (classify result) } }
  | settled {entry flight outcome} (hentry : l.entry = some entry)
      (hflight : l.flight = some flight) (hout : flight.outcome = some outcome)
      (hstatus : entry.status = .reconciliationRequired)
      (hcur : entry.nextDueAt = some flight.dispatch.occurrence.dueAt) :
      Step [.settled flight.dispatch.guard flight.dispatch.occurrence.dueAt outcome]
        { l with
          entry := some ({ entry with dispatchToken := none }.settle outcome
            flight.dispatch.misfired flight.now)
          flight := none }
  | dropped {flight} (hflight : l.flight = some flight) :
      Step [] { l with flight := none }
  | resolved {entry} (resolution : ReconciliationResolution)
      (hentry : l.entry = some entry) (hflight : l.flight = none)
      (hstatus : entry.status = .reconciliationRequired) :
      Step [.resolved entry.nextDueAt resolution]
        { l with entry := some (entry.resolve resolution) }
  | restarted :
      Step [] { l with entry := l.entry.map ScheduleEntry.forget, flight := none }

end

variable {l l' : Life T}

theorem Life.Step.length_le_one {events} (h : Life.Step config l events l') :
    events.length ≤ 1 := by
  cases h <;> simp

/-! ## The cursor -/

/-- Every instant still to come is later than `due`. -/
def ScheduleEntry.Beyond (entry : ScheduleEntry T) (due : SystemTime) : Prop :=
  ∀ next, entry.nextDueAt = some next → due < next

/-- The instant the cursor moves past. -/
def LifeEvent.passed : LifeEvent T → Option SystemTime
  | .settled _ due .confirmed => some due
  | .skipped _ due => some due
  | .resolved cursor .confirmed => cursor
  | _ => none

/-- A later entry of the same registration: the definition is the same and the
cursor moved past the given instants, one at most. -/
structure ScheduleEntry.Follows (entry' entry : ScheduleEntry T) (passed : List SystemTime) :
    Prop where
  plan : entry'.plan = entry.plan
  policy : entry'.misfirePolicy = entry.misfirePolicy
  cursor : (passed = [] ∧ entry'.nextDueAt = entry.nextDueAt) ∨
    ∃ due, passed = [due] ∧ entry.nextDueAt = some due ∧
      entry'.nextDueAt = entry.plan.advance (some due)

section cursor

variable {entry entry' : ScheduleEntry T} {passed : List SystemTime}

theorem ScheduleEntry.beyond_of_advance (hcur : entry.nextDueAt = some due ∨ entry.Beyond due)
    (hadv : entry'.nextDueAt = entry.plan.advance entry.nextDueAt) : entry'.Beyond due := by
  intro next hnext
  rw [hadv] at hnext
  cases hprev : entry.nextDueAt with
  | none => simp [hprev] at hnext
  | some previous =>
    rw [hprev] at hnext
    have hlater := SchedulePlan.lt_of_advance hnext
    rcases hcur with hdue | hbeyond
    · rw [hprev, Option.some.injEq] at hdue
      exact hdue ▸ hlater
    · exact Int.lt_trans (hbeyond previous hprev) hlater

theorem ScheduleEntry.Follows.beyond (h : entry'.Follows entry passed)
    (hbeyond : entry.Beyond due) : entry'.Beyond due := by
  rcases h.cursor with ⟨_, hsame⟩ | ⟨previous, _, hprev, hadv⟩
  · intro next hnext
    exact hbeyond next (hsame ▸ hnext)
  · exact beyond_of_advance (.inr hbeyond) (hprev ▸ hadv)

/-- Until it is removed, a schedule keeps its definition, and its cursor moves along
the plan. -/
theorem Life.Step.follows {events} (h : Life.Step config l events l')
    (hentry : l.entry = some entry) (hgone : .removed ∉ events) :
    ∃ entry', l'.entry = some entry' ∧
      entry'.Follows entry (events.filterMap LifeEvent.passed) := by
  have hsame : entry.Follows entry [] := ⟨rfl, rfl, .inl ⟨rfl, rfl⟩⟩
  cases h with
  | ticked | returned | dropped => exact ⟨entry, hentry, hsame⟩
  | registered _ hnone => simp [hnone] at hentry
  | removed => simp at hgone
  | setStatus hfound | cleared hfound | dispatched _ _ hfound =>
    cases hfound.symm.trans hentry
    exact ⟨_, rfl, rfl, rfl, .inl ⟨rfl, rfl⟩⟩
  | skipped _ hfound _ _ hskips =>
    cases hfound.symm.trans hentry
    have hcur := hskips.cursor
    cases hskips with
    | abandoned | misfired => exact ⟨_, rfl, rfl, rfl, .inr ⟨_, rfl, hcur, by simp [hcur]⟩⟩
  | @settled _ _ outcome hfound _ _ _ hcur =>
    obtain rfl := Option.some.inj (hfound.symm.trans hentry)
    refine ⟨_, rfl, by simp, by simp, ?_⟩
    cases outcome with
    | confirmed =>
      refine .inr ⟨_, rfl, hcur, ?_⟩
      rw [ScheduleEntry.settle_confirmed_nextDueAt, ← hcur]
    | notStarted | unknown => exact .inl ⟨rfl, rfl⟩
  | @resolved found resolution hfound =>
    obtain rfl := Option.some.inj (hfound.symm.trans hentry)
    cases resolution with
    | retry => exact ⟨_, rfl, rfl, rfl, .inl ⟨rfl, rfl⟩⟩
    | confirmed =>
      refine ⟨_, rfl, rfl, rfl, ?_⟩
      cases hcur : found.nextDueAt with
      | none => exact .inl ⟨rfl, by simp [ScheduleEntry.resolve, hcur]⟩
      | some due => exact .inr ⟨due, rfl, rfl, by simp [ScheduleEntry.resolve, hcur]⟩
  | restarted =>
    refine ⟨entry.forget, by rw [hentry]; rfl, rfl, rfl, .inl ⟨rfl, rfl⟩⟩

/-- Until it is removed, a schedule keeps its plan and its policy. -/
theorem Life.definition_of_runs {events} (hrun : Runs (Life.Step config) l events l')
    (hgone : .removed ∉ events) (hentry : l.entry = some entry) :
    ∃ entry', l'.entry = some entry' ∧ entry'.plan = entry.plan ∧
      entry'.misfirePolicy = entry.misfirePolicy := by
  refine hrun.preserved (I := fun l => ∃ entry', l.entry = some entry' ∧
    entry'.plan = entry.plan ∧ entry'.misfirePolicy = entry.misfirePolicy) (· = .removed) ?_ ?_
    ⟨entry, hentry, rfl, rfl⟩
  · rintro l₁ events l₂ ⟨entry₁, hentry₁, hplan, hpol⟩ hstep hnone
    obtain ⟨entry₂, hentry₂, hfollows⟩ :=
      hstep.follows hentry₁ (fun hmem => hnone _ hmem rfl)
    exact ⟨entry₂, hentry₂, hfollows.plan.trans hplan, hfollows.policy.trans hpol⟩
  · rintro event hevent rfl
    exact hgone hevent

end cursor

/-- `l` is the life of schedule `id` in the state `s`. -/
structure Views (id : ScheduleId) (s : State T) (l : Life T) : Prop where
  entry : l.entry = s.registry.find id
  flight : ∀ flight, l.flight = some flight ↔ ∃ i, s.flight i = some flight ∧ flight.id = id
  nows : l.nows = s.ticks.map Tick.now

/-! ## Flights of one identity -/

section flights

variable {flight : ℕ → Option (Flight T)} {i : ℕ} {new : Option (Flight T)}

/-- When only tick `i` can drive a call of `id`, replacing its call replaces the one
call of `id`. -/
theorem exists_update_iff_self
    (honly : ∀ {j other}, flight j = some other → other.id = id → j = i) (f : Flight T) :
    (∃ j, Function.update flight i new j = some f ∧ f.id = id) ↔ new = some f ∧ f.id = id := by
  constructor
  · rintro ⟨j, hj, hid⟩
    rw [update_apply] at hj
    split at hj
    case isTrue => exact ⟨hj, hid⟩
    case isFalse hji => exact absurd (honly hj hid) hji
  · rintro ⟨hnew, hid⟩
    exact ⟨i, by rw [update_self, hnew], hid⟩

/-- Replacing a call of another identity does not concern `id`. -/
theorem exists_update_iff_of_ne (hold : ∀ {f}, flight i = some f → f.id ≠ id)
    (hnew : ∀ {f}, new = some f → f.id ≠ id) (f : Flight T) :
    (∃ j, Function.update flight i new j = some f ∧ f.id = id) ↔
      ∃ j, flight j = some f ∧ f.id = id := by
  refine exists_congr fun j => and_congr_left fun hid => ?_
  rw [update_apply]
  split
  case isTrue hji =>
    subst hji
    exact ⟨fun hj => absurd hid (hnew hj), fun hj => absurd hid (hold hj)⟩
  case isFalse => rfl

end flights

/-! ## Views after an update -/

namespace Views

variable {config : SchedulerConfig} {id : ScheduleId} {s s' : State T} {l : Life T} {i : ℕ}
  {tick tick' : Tick T} {entry entry' : ScheduleEntry T}

theorem flight_none (h : Views id s l)
    (hunheld : ∀ {i hold}, s.held i = some hold → hold.id ≠ id) : l.flight = none := by
  cases hflight : l.flight with
  | none => rfl
  | some flight =>
    obtain ⟨i, hi, hid⟩ := (h.flight flight).mp hflight
    exact absurd hid (hunheld (by rw [State.held, hi]; rfl))

theorem mem_nows (h : Views id s l) (htick : s.ticks[i]? = some tick) : tick.now ∈ l.nows := by
  rw [h.nows]
  exact mem_map_of_mem (mem_of_getElem? htick)

/-- The call that tick `i` drives for `id` is the call in flight. -/
theorem flight_of_tick (h : Views id s l) (htick : s.ticks[i]? = some tick) {flight}
    (hflight : tick.flight = some flight) (hid : flight.id = id) : l.flight = some flight :=
  (h.flight flight).mpr ⟨i, by rw [State.flight_of_tick htick, hflight], hid⟩

/-- A tick is replaced by another of the same instant. -/
theorem setTick (h : Views id s l) (htick : s.ticks[i]? = some tick)
    (hnow : tick'.now = tick.now) (hticks : s'.ticks = (s.setTick i tick').ticks) :
    s'.flight = Function.update s.flight i tick'.flight ∧ l.nows = s'.ticks.map Tick.now := by
  constructor
  · rw [← State.flight_setTick htick]
    unfold State.flight
    rw [hticks]
  · obtain ⟨hlt, rfl⟩ := List.getElem?_eq_some_iff.mp htick
    rw [h.nows, hticks, State.setTick, map_set, hnow, ← getElem_map Tick.now]
    exact (set_getElem_self ..).symm
    simpa using hlt

theorem setTick_self (h : Views id s l) (htick : s.ticks[i]? = some tick)
    (hnow : tick'.now = tick.now) (hflight : tick'.flight = tick.flight) :
    Views id (s.setTick i tick') l := by
  obtain ⟨hset, hnows⟩ := h.setTick htick hnow rfl
  refine ⟨h.entry, fun f => ?_, hnows⟩
  rw [h.flight f, hset, hflight, ← State.flight_of_tick htick, update_eq_self]

/-- An entry that nobody holds is edited: a step of its own life, and of no other. -/
theorem edit (h : Views id s l) (events : List (Event T))
    (hfind : s.registry.find entry.id = some entry) (hentry : entry'.id = entry.id)
    (hunheld : ∀ {i hold}, s.held i = some hold → hold.id ≠ entry.id)
    (hother : entry.id ≠ id → events.filterMap (Event.about id) = [])
    (hstep : entry.id = id → l.entry = some entry → l.flight = none →
      Life.Step config l (events.filterMap (Event.about id)) { l with entry := some entry' }) :
    ∃ l', Runs (Life.Step config) l (events.filterMap (Event.about id)) l' ∧
      Views id { s with registry := s.registry.put entry' } l' := by
  by_cases hid : entry.id = id
  · have hlife : l.entry = some entry := by rw [h.entry, ← hid, hfind]
    have hflight : l.flight = none := h.flight_none (hid ▸ hunheld)
    refine ⟨_, .single (hstep hid hlife hflight), ?_, h.flight, h.nows⟩
    exact hid ▸ (Registry.find_put_self hfind hentry).symm
  · rw [hother hid]
    exact ⟨l, .refl l, h.entry.trans (Registry.find_put_of_ne (hentry ▸ Ne.symm hid)).symm,
      h.flight, h.nows⟩

/-- Tick `i` replaces the call it drives for the schedule `held`: a step of the life of
`held`, and of no other. -/
theorem fly (h : Views id s l) (hinv : Inv config s) (events : List (Event T))
    (htick : s.ticks[i]? = some tick) (hnow : tick'.now = tick.now)
    (hticks : s'.ticks = (s.setTick i tick').ticks) (held : ScheduleId)
    (hold : ∀ {f}, tick.flight = some f → f.id = held)
    (hnew : ∀ {f}, tick'.flight = some f → f.id = held)
    (honly : tick.flight = none → ∀ {j hold}, s.held j = some hold → hold.id ≠ held)
    (hother : held ≠ id → events.filterMap (Event.about id) = [] ∧
      s'.registry.find id = s.registry.find id)
    (hstep : held = id → ∃ events' l', Life.Step config l events' l' ∧
      events.filterMap (Event.about id) = events' ∧ l'.entry = s'.registry.find id ∧
      l'.flight = tick'.flight ∧ l'.nows = l.nows) :
    ∃ l', Runs (Life.Step config) l (events.filterMap (Event.about id)) l' ∧ Views id s' l' := by
  obtain ⟨hset, hnows⟩ := h.setTick htick hnow hticks
  by_cases hid : held = id
  · obtain ⟨_, l', hlife, rfl, hentry, hflight, hsame⟩ := hstep hid
    refine ⟨l', .single hlife, hentry, fun f => ?_, hsame.trans hnows⟩
    rw [hset, hflight, exists_update_iff_self]
    · exact ⟨fun hf => ⟨hf, (hnew hf).trans hid⟩, fun hf => hf.1⟩
    · intro j other hj hother
      cases hflight : tick.flight with
      | none => exact absurd (hother.trans hid.symm) (honly hflight (congrArg _ hj))
      | some f =>
        have hi : s.flight i = some f := by rw [State.flight_of_tick htick, hflight]
        exact hinv.flight_unique hj hi (hother.trans (hid.symm.trans (hold hflight).symm))
  · obtain ⟨hnothing, hfind⟩ := hother hid
    refine ⟨l, hnothing ▸ .refl l, h.entry.trans hfind.symm, fun f => ?_, hnows⟩
    rw [hset, h.flight f, exists_update_iff_of_ne]
    · intro f hf
      rw [State.flight_of_tick htick] at hf
      exact hold hf ▸ hid
    · exact fun hf => hnew hf ▸ hid

end Views

/-! ## The scheduler refines every life -/

section refinement

variable {s s' : State T} {events : List (Event T)}

theorem Event.Remark.about (h : event.Remark) : event.about id = none := by
  cases h <;> rfl

theorem State.restart_find (hrestart : s.restart config = some s') (id : ScheduleId) :
    s'.registry.find id = (s.registry.find id).map ScheduleEntry.forget := by
  unfold Registry.find
  rw [State.restart_entries hrestart, lookup_map ScheduleEntry.forget_id]

theorem State.restart_nows (hrestart : s.restart config = some s') :
    s'.ticks.map Tick.now = s.ticks.map Tick.now := by
  simp only [State.restart, Option.map_eq_some_iff] at hrestart
  obtain ⟨builder, _, rfl⟩ := hrestart
  simp

theorem State.restart_flight (hrestart : s.restart config = some s') (i : ℕ) :
    s'.flight i = none := by
  simp only [State.restart, Option.map_eq_some_iff] at hrestart
  obtain ⟨builder, _, rfl⟩ := hrestart
  simp only [State.flight, getElem?_map]
  cases s.ticks[i]? <;> rfl

/-- Every update is a sequence of steps of the life of each schedule. -/
theorem Update.life (hupdate : Update config s events s') (hinv : Inv config s) (h : Views id s l) :
    ∃ l', Runs (Life.Step config) l (events.filterMap (Event.about id)) l' ∧ Views id s' l' := by
  cases hupdate with
  | remark hremark =>
    simp only [filterMap_cons, hremark.about]
    exact ⟨l, .refl l, h⟩
  | prune | trigger | endTrigger => exact ⟨l, .refl l, h.entry, h.flight, h.nows⟩
  | start now observesShutdown =>
    refine ⟨_, .single (.ticked now), h.entry, ?_, ?_⟩
    · rw [State.flight_append rfl]
      exact h.flight
    · simp [h.nows, Tick.new]
  | move htick hflight hcont | finish htick hflight hcont =>
    have hsame := hcont.flight_eq.trans hflight.symm
    exact ⟨l, .refl l, h.setTick_self htick hcont.now_eq hsame⟩
  | register schedule hcap hnew hidle =>
    by_cases hid : schedule.id = id
    · subst hid
      -- Nothing is in flight for an identity that was free.
      have hentry : l.entry = none := h.entry.trans hnew
      have hflight : l.flight = none := h.flight_none (hinv.unheld_of_idle hidle)
      refine ⟨{ l with entry := some (scheduleEntry schedule) }, ?_, ?_, h.flight, h.nows⟩
      · simpa [Event.about] using Runs.single (.registered schedule hentry hflight)
      · have hlookup : Keyed.lookup ScheduleEntry.id schedule.id s.registry.entries = none := hnew
        simp [Registry.find, lookup_append_singleton, hlookup, scheduleEntry]
    · refine ⟨l, by simpa [Event.about, hid] using Runs.refl l, ?_, h.flight, h.nows⟩
      simp [h.entry, Registry.find, lookup_append_singleton, scheduleEntry, hid]
  | @remove entry hfind hstatus =>
    by_cases hid : entry.id = id
    · subst hid
      have hentry : l.entry = some entry := h.entry.trans hfind
      have hflight : l.flight = none :=
        h.flight_none (hinv.unheld_of_status hfind hstatus)
      refine ⟨{ l with entry := none }, ?_, ?_, h.flight, h.nows⟩
      · simpa [Event.about] using Runs.single (.removed hentry hflight hstatus)
      · exact (lookup_erase_self hinv.ids_nodup).symm
    · refine ⟨l, by simpa [Event.about, hid] using Runs.refl l, ?_, h.flight, h.nows⟩
      exact h.entry.trans (lookup_erase_of_ne (Ne.symm hid)).symm
  | @setStatus entry status hfind hold hnew =>
    have hstatus : entry.status ≠ .reconciliationRequired := by
      rcases hold with hold | hold <;> simp [hold]
    exact h.edit [] hfind rfl (hinv.unheld_of_status hfind hstatus) (fun _ => rfl)
      fun _ hentry hflight => .setStatus hentry hflight hold hnew
  | @clear entry now due hfind hready =>
    have hstatus : entry.status ≠ .reconciliationRequired := by simp [hready.active]
    exact h.edit [] hfind rfl (hinv.unheld_of_status hfind hstatus) (fun _ => rfl)
      fun _ hentry hflight => .cleared hentry hflight hready
  | @skip i tick entry skipped due htick hflight hfind hskips =>
    have hstatus : entry.status ≠ .reconciliationRequired := by simp [hskips.active]
    have hstep : entry.id = id → l.entry = some entry → l.flight = none →
        Life.Step config l ([.skipped i ⟨entry.id, due⟩].filterMap (Event.about id))
          { l with entry := some skipped } := by
      intro hid hentry hlife
      simpa [Event.about, hid] using .skipped i hentry hlife (h.mem_nows htick) hskips
    obtain ⟨l', hrun, hviews⟩ := h.edit _ hfind hskips.id_eq
      (hinv.unheld_of_status hfind hstatus) (fun hid => by simp [Event.about, hid]) hstep
    exact ⟨l', hrun, hviews.setTick_self htick rfl rfl⟩
  | noSlot | missing | mismatch => exact ⟨l, .refl l, h⟩
  | @dispatch i tick tick' entry due htick hflight hfind hready hcont =>
    have hstatus : entry.status ≠ .reconciliationRequired := by simp [hready.active]
    -- No tick holds an active entry, so its life has no call in flight yet.
    have hunheld : ∀ {j hold}, s.held j = some hold → hold.id ≠ entry.id :=
      hinv.unheld_of_status hfind hstatus
    have hput : (s.registry.put (entry.issue config tick.now due s.dispatchTokens)).find entry.id =
      some (entry.issue config tick.now due s.dispatchTokens) := Registry.find_put_self hfind rfl
    refine h.fly hinv _ htick hcont.now_eq rfl entry.id (by simp [hflight])
      (by simp [hcont.flight_eq]) (fun _ => hunheld) (fun hid => ⟨?_, ?_⟩) fun hid => ?_
    · simp [Event.about, hid, ScheduleEntry.pendingDispatch]
    · exact Registry.find_put_of_ne (Ne.symm hid)
    · subst hid
      refine ⟨_, _, .dispatched s.dispatchTokens s.flags.length (h.entry.trans hfind)
        (h.flight_none hunheld) (h.mem_nows htick) hready, ?_, ?_, hcont.flight_eq.symm, rfl⟩
      · simp [Event.about, ScheduleEntry.pendingDispatch]
      · rw [State.launch, hcont.now_eq]
        exact hput.symm
  | @returned i tick tick' flight result htick hflight hout hcont =>
    have hocc := (hinv.pins_of_tick htick hflight).occurrence
    refine h.fly hinv _ htick hcont.now_eq rfl flight.id (by simp [hflight])
      (by simp [hcont.flight_eq]) (by simp [hflight])
      (fun hid => ⟨by simp [Event.about, hocc, hid], rfl⟩) fun hid => ?_
    exact ⟨_, _, .returned result (h.flight_of_tick htick hflight hid) hout,
      by simp [Event.about, hocc, hid], h.entry, hcont.flight_eq.symm, rfl⟩
  | @settle i tick tick' flight outcome entry htick hflight hout hentry hfind htoken
      hcont =>
      -- The pins of the held dispatch tell that this is the entry it was issued for.
      have hpins := hinv.pins_of_tick htick hflight
      have hocc := hpins.occurrence
      obtain ⟨pinned, hpinned, hstatus, _, hcur⟩ := hpins.entry
      obtain rfl : pinned = entry := by
        rw [← hentry, hfind, Option.some.injEq] at hpinned
        exact hpinned.symm
      let settled := { pinned with dispatchToken := none }.settle outcome flight.dispatch.misfired
        flight.now
      have hsettled : settled.id = pinned.id := ScheduleEntry.settle_id ..
      have hput : (s.registry.put settled).find pinned.id = some settled :=
        Registry.find_put_self hfind hsettled
      refine h.fly hinv _ htick hcont.now_eq rfl flight.id (by simp [hflight])
        (by simp [hcont.flight_eq]) (by simp [hflight]) (fun hid => ⟨?_, ?_⟩) fun hid => ?_
      · simp [Event.about, hocc, hid]
      · exact Registry.find_put_of_ne (by rw [hsettled, hentry]; exact Ne.symm hid)
      · subst hid
        exact ⟨_, _, .settled (h.entry.trans hpinned) (h.flight_of_tick htick hflight rfl) hout
          hstatus hcur, by simp [Event.about, hocc], (hentry ▸ hput).symm,
          hcont.flight_eq.symm, rfl⟩
  | @drop i tick tick' flight htick hflight hcont =>
    refine h.fly hinv _ htick hcont.now_eq rfl flight.id (by simp [hflight])
      (by simp [hcont.flight_eq]) (by simp [hflight]) (fun hid => ⟨rfl, rfl⟩) fun hid => ?_
    exact ⟨_, _, .dropped (h.flight_of_tick htick hflight hid), rfl, h.entry,
      hcont.flight_eq.symm, rfl⟩
  | @resolve entry resolution hidle hfind hstatus =>
    have hid : (entry.resolve resolution).id = entry.id := by cases resolution <;> rfl
    exact h.edit _ hfind hid
      (hinv.unheld_of_idle hidle)
      (fun hid => by simp [Event.about, hid])
      (fun hid hentry hlife => by
        simpa [Event.about, hid] using .resolved resolution hentry hlife hstatus)
  | restart hrestart =>
    -- Entries survive a restart in their snapshots, calls in flight do not.
    refine ⟨_, .single .restarted, ?_, ?_, ?_⟩
    · rw [State.restart_find hrestart, h.entry]
    · simp [State.restart_flight hrestart]
    · rw [State.restart_nows hrestart, h.nows]

/-- Every run of the scheduler is a run of the life of each schedule. -/
theorem life_of_runs (hrun : Runs (machine T config).Step s events s') (hinv : Inv config s)
    (h : Views id s l) :
    ∃ l', Runs (Life.Step config) l (events.filterMap (Event.about id)) l' ∧
      Inv config s' ∧ Views id s' l' := by
  refine (hrun.refine step_updates).simulate
    (R := fun s l => Inv config s ∧ Views id s l) ?_ ⟨hinv, h⟩
  rintro s l events s' ⟨hinv, h⟩ hupdate
  obtain ⟨l', hlife, hviews⟩ := hupdate.life hinv h
  exact ⟨l', hlife, hupdate.inv hinv, hviews⟩

theorem Inv.exists_views (hinv : Inv config s) (id : ScheduleId) : ∃ l, Views id s l := by
  by_cases hheld : ∃ i flight, s.flight i = some flight ∧ flight.id = id
  · obtain ⟨i, flight, hi, hid⟩ := hheld
    refine ⟨⟨s.registry.find id, some flight, s.ticks.map Tick.now⟩, rfl, ?_, rfl⟩
    intro f
    rw [Option.some.injEq]
    constructor
    · rintro rfl
      exact ⟨i, hi, hid⟩
    · rintro ⟨j, hj, hidf⟩
      obtain rfl := hinv.flight_unique hi hj (hid.trans hidf.symm)
      rw [hi, Option.some.injEq] at hj
      exact hj
  · push Not at hheld
    refine ⟨⟨s.registry.find id, none, s.ticks.map Tick.now⟩, rfl, ?_, rfl⟩
    intro f
    simp only [reduceCtorEq, false_iff, not_exists, not_and]
    exact fun i hi => hheld i f hi

end refinement

end PlenoraRuntime.Scheduler
