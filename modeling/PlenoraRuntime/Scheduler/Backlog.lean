import PlenoraRuntime.Scheduler.History
import PlenoraRuntime.Scheduler.Life

/-!
# An overdue `FireOnce` dispatch abandons the backlog

A tick at `now` that dispatches an overdue occurrence of a `FireOnce` schedule
records `now` as the abandonment boundary before the call. Once the effect is
confirmed the schedule is `Abandoned` at `now`, and stays so: either the cursor
is on an occurrence that was still inside the grace at `now` (`Calm`, and since
the cursor only moves forward this is for good), or the boundary is still `now`
and the schedule is not blocked (`Sweeping`). While it sweeps, an occurrence
overdue at `now` is covered by the boundary, so a tick can only skip it; the
boundary is cleared only in front of an occurrence it does not cover, which makes
the schedule calm.

The instants of later ticks play no role in the argument, and neither do the
bounds of a sweep: one occurrence is skipped at a time.

An `Ok` of the dispatcher confirms an effect only when its tick applies it. A tick that
is dropped in between leaves the occurrence blocked, and an owner who then asks for a
retry undoes the confirmation: at the earlier instant of a clock that went back, the
retried occurrence is punctual and its dispatch forgets the boundary.
-/

namespace PlenoraRuntime.Scheduler

open Transition List

variable {T : Type*} {config : SchedulerConfig}

/-! ## Calm and sweeping entries -/

namespace ScheduleEntry

variable {entry entry' : ScheduleEntry T} {now due : SystemTime}

/-- The cursor is beyond `due` and inside the grace at `now`. -/
def Calm (config : SchedulerConfig) (now due : SystemTime) (entry : ScheduleEntry T) : Prop :=
  ∀ next, entry.nextDueAt = some next →
    due < next ∧ isOverdue now next config.misfireGrace = false

/-- The backlog at `now` is being swept. -/
structure Sweeping (now due : SystemTime) (entry : ScheduleEntry T) : Prop where
  boundary : entry.skipBacklogThrough = some now
  unblocked : entry.status.switchable
  beyond : entry.Beyond due

/-- No occurrence beyond `due` that was overdue at `now` will be dispatched. -/
structure Abandoned (config : SchedulerConfig) (now due : SystemTime)
    (entry : ScheduleEntry T) : Prop where
  policy : entry.misfirePolicy = .fireOnce
  settled : entry.Calm config now due ∨ entry.Sweeping now due

theorem Calm.follows {passed} (h : entry.Calm config now due)
    (hfollows : entry'.Follows entry passed) : entry'.Calm config now due := by
  intro next hnext
  rcases hfollows.cursor with ⟨_, hsame⟩ | ⟨previous, _, hprev, hadv⟩
  · exact h next (hsame ▸ hnext)
  · rw [hadv] at hnext
    have hlater : previous < next := SchedulePlan.lt_of_advance hnext
    obtain ⟨hdue, hgrace⟩ := h previous hprev
    refine ⟨Int.lt_trans hdue hlater, ?_⟩
    -- A later occurrence cannot be overdue where an earlier one is not.
    by_contra hoverdue
    rw [Bool.not_eq_false] at hoverdue
    rw [isOverdue_anti (Int.le_of_lt hlater) hoverdue] at hgrace
    cases hgrace

/-- A `FireOnce` entry with the boundary `now` covers what is overdue at `now`. -/
theorem suppresses_of_isOverdue (hpol : entry.misfirePolicy = .fireOnce)
    (hbound : entry.skipBacklogThrough = some now)
    (hoverdue : isOverdue now due config.misfireGrace = true) :
    entry.suppresses config due = true := by
  have hle : due ≤ now := le_of_isOverdue hoverdue
  simp [suppresses, hpol, hbound, hoverdue, hle]

/-- Work on an occurrence that the boundary does not cover leaves nothing to sweep. -/
theorem Sweeping.calm_of_ready {now' next : SystemTime} (h : entry.Sweeping now due)
    (hpol : entry.misfirePolicy = .fireOnce) (hready : entry.Ready config now' next) :
    entry.Calm config now due := by
  intro cursor hcur
  obtain rfl : next = cursor := Option.some.inj (hready.cursor.symm.trans hcur)
  refine ⟨h.beyond next hcur, ?_⟩
  by_contra hoverdue
  rw [Bool.not_eq_false] at hoverdue
  have hsupp := suppresses_of_isOverdue hpol h.boundary hoverdue
  rw [hready.unsuppressed] at hsupp
  cases hsupp

/-- Advancing past an occurrence with the boundary at `now` keeps the backlog
abandoned. -/
theorem abandoned_advanceOnce (hpol : entry.misfirePolicy = .fireOnce)
    (hbound : entry.skipBacklogThrough = some now)
    (hcur : entry.nextDueAt = some due ∨ entry.Beyond due) :
    entry.advanceOnce.Abandoned config now due := by
  refine ⟨hpol, ?_⟩
  by_cases hnext : entry.advanceOnce.nextDueAt.isSome
  · refine .inr ⟨?_, .inl (advanceOnce_status_of_isSome hnext), beyond_of_advance hcur rfl⟩
    rw [advanceOnce_boundary_of_isSome hnext, hbound]
  · left
    intro next hsome
    rw [hsome] at hnext
    exact absurd rfl hnext

/-- So does settling the overdue dispatch that recorded it. -/
theorem abandoned_settle (hpol : entry.misfirePolicy = .fireOnce)
    (hcur : entry.nextDueAt = some due) :
    (settle { entry with dispatchToken := none } .confirmed true now).Abandoned config now due := by
  refine ⟨(settle_misfirePolicy ..).trans hpol, ?_⟩
  simp only [settle, advanceOnce_misfirePolicy, hpol]
  split
  case isTrue hnext =>
    exact .inr ⟨rfl, .inl (advanceOnce_status_of_isSome hnext),
      beyond_of_advance (.inl hcur) rfl⟩
  case isFalse hnext =>
    left
    intro next hsome
    rw [hsome] at hnext
    exact absurd rfl hnext

end ScheduleEntry

/-! ## Lives that abandon their backlog -/

/-- The event confirms an open effect. -/
def LifeEvent.confirms : LifeEvent T → Bool
  | .settled _ _ .confirmed | .resolved _ .confirmed => true
  | _ => false

namespace Life

variable {l l' : Life T} {events : List (LifeEvent T)} {call call' : ℕ}
  {now due now' next due' : SystemTime} {answered : Bool}

/-- The schedule is registered, and its backlog at `now` is abandoned. -/
def Abandoned (config : SchedulerConfig) (now due : SystemTime) (l : Life T) : Prop :=
  ∃ entry, l.entry = some entry ∧ entry.Abandoned config now due

/-- Until the schedule is removed, an abandoned backlog stays abandoned. -/
theorem Step.abandoned (hstep : Step config l events l') (hgone : .removed ∉ events)
    (h : l.Abandoned config now due) : l'.Abandoned config now due := by
  obtain ⟨entry, hentry, hpol, hcalm | hsweep⟩ := h
  · obtain ⟨entry', hentry', hfollows⟩ := hstep.follows hentry hgone
    exact ⟨entry', hentry', hfollows.policy.trans hpol, .inl (hcalm.follows hfollows)⟩
  -- What remains is a sweep in progress: the schedule is not blocked.
  have hunblocked : entry.status ≠ .reconciliationRequired := by
    rcases hsweep.unblocked with h | h <;> simp [h]
  cases hstep with
  | ticked | returned | dropped => exact ⟨entry, hentry, hpol, .inr hsweep⟩
  | registered _ hnone => simp [hnone] at hentry
  | removed => simp at hgone
  | setStatus hfound _ _ hnew =>
    cases hfound.symm.trans hentry
    exact ⟨_, rfl, hpol, .inr ⟨hsweep.boundary, hnew, hsweep.beyond⟩⟩
  | cleared hfound _ hready | dispatched _ _ hfound _ _ hready =>
    cases hfound.symm.trans hentry
    exact ⟨_, rfl, hpol, .inl (hsweep.calm_of_ready hpol hready)⟩
  | skipped _ hfound _ _ hskips =>
    cases hfound.symm.trans hentry
    cases hskips with
    | abandoned =>
      exact ⟨_, rfl, ScheduleEntry.abandoned_advanceOnce hpol hsweep.boundary
        (.inr hsweep.beyond)⟩
    | misfired _ _ hskip =>
      rw [hpol] at hskip
      cases hskip
  | settled hfound _ _ hstatus | resolved _ hfound _ hstatus =>
    cases hfound.symm.trans hentry
    exact absurd hstatus hunblocked
  | restarted =>
    refine ⟨entry.forget, by simp [hentry], hpol, .inr ?_⟩
    exact ⟨hsweep.boundary, hsweep.unblocked, hsweep.beyond⟩

/-- An abandoned occurrence is not dispatched. -/
theorem Abandoned.not_dispatched (h : l.Abandoned config now due) (hstep : Step config l events l')
    (hmem : .dispatched call' now' next ∈ events) :
    isOverdue now next config.misfireGrace = false := by
  obtain ⟨entry, hentry, hpol, hsettled⟩ := h
  cases hstep with
  | dispatched _ _ hfound _ _ hready =>
    cases hfound.symm.trans hentry
    obtain ⟨-, -, rfl⟩ := LifeEvent.dispatched.inj (mem_singleton.mp hmem)
    rcases hsettled with hcalm | hsweep
    · exact (hcalm next hready.cursor).2
    · exact (hsweep.calm_of_ready hpol hready next hready.cursor).2
  | _ => simp at hmem

/-! ## From the dispatch to its confirmation -/

/-- The effect of the overdue `FireOnce` dispatch `call` of `due` at `now` is open. If
`answered`, the dispatcher returned `Ok`. -/
structure Opened (call : ℕ) (now due : SystemTime) (answered : Bool) (entry : ScheduleEntry T)
    (flight : Option (Flight T)) : Prop where
  policy : entry.misfirePolicy = .fireOnce
  cursor : entry.nextDueAt = some due
  blocked : entry.status = .reconciliationRequired
  boundary : entry.skipBacklogThrough = some now
  flight : ∀ f, flight = some f → f.dispatch.guard = call ∧ f.now = now ∧
    f.dispatch.misfired = true ∧ (answered = true → f.outcome = some .confirmed)

def Open (call : ℕ) (now due : SystemTime) (answered : Bool) (l : Life T) : Prop :=
  ∃ entry, l.entry = some entry ∧ Opened call now due answered entry l.flight

/-- The open effect has been settled, resolved or given up. -/
def Reopened (l : Life T) : Prop :=
  l.flight = none ∧ ∃ entry, l.entry = some entry ∧ entry.status ≠ .reconciliationRequired

theorem Step.opens (hstep : Step config l [.dispatched call now due] l')
    (hpol : ∀ entry, l.entry = some entry → entry.misfirePolicy = .fireOnce)
    (hoverdue : isOverdue now due config.misfireGrace = true) : l'.Open call now due false := by
  cases hstep with
  | @dispatched entry _ _ token _ hentry _ _ hready =>
    have hfire : entry.misfirePolicy = .fireOnce := hpol entry hentry
    refine ⟨_, rfl, hfire, hready.cursor, rfl, ?_, ?_⟩
    · simp [ScheduleEntry.issue, hoverdue, hfire]
    · intro f hf
      cases hf
      exact ⟨rfl, rfl, hoverdue, by simp⟩

/-- While an effect is open nothing is dispatched. It stays open until it is settled or
resolved, and its confirmation abandons the backlog. After an `Ok` there is no other way
than to retry the very occurrence. -/
theorem Step.opened (hstep : Step config l events l') (h : l.Open call now due answered) :
    (∀ call' now' due', .dispatched call' now' due' ∉ events) ∧
      (l'.Open call now due answered ∧ events.any LifeEvent.confirms = false ∨
        l'.Reopened ∧ (l'.Abandoned config now due ∨ events.any LifeEvent.confirms = false ∧
          (answered = true → .resolved (some due) .retry ∈ events))) := by
  obtain ⟨entry, hentry, hopened⟩ := h
  have hblocked := hopened.blocked
  cases hstep with
  | ticked => exact ⟨by simp, .inl ⟨⟨entry, hentry, hopened⟩, rfl⟩⟩
  | registered _ hnone => cases hnone.symm.trans hentry
  -- A blocked entry is neither removed, paused, skipped nor dispatched.
  | removed hfound _ hstatus =>
    cases hfound.symm.trans hentry
    exact absurd hblocked hstatus
  | setStatus hfound _ hold =>
    cases hfound.symm.trans hentry
    rcases hold with hold | hold <;> cases hold.symm.trans hblocked
  | cleared hfound _ hready | dispatched _ _ hfound _ _ hready =>
    cases hfound.symm.trans hentry
    cases hready.active.symm.trans hblocked
  | skipped _ hfound _ _ hskips =>
    cases hfound.symm.trans hentry
    cases hskips.active.symm.trans hblocked
  | returned result hflight hnone =>
    obtain ⟨hcall, hnow, hmisfired, hout⟩ := hopened.flight _ hflight
    refine ⟨by simp, .inl ⟨⟨entry, hentry, { hopened with flight := ?_ }⟩, rfl⟩⟩
    intro f hf
    cases hf
    exact ⟨hcall, hnow, hmisfired, fun hansw => absurd (hout hansw) (by simp [hnone])⟩
  | @settled _ flight outcome hfound hflight hsome =>
    cases hfound.symm.trans hentry
    obtain ⟨-, hnow, hmisfired, hout⟩ := hopened.flight flight hflight
    refine ⟨by simp, ?_⟩
    -- Confirmed, the boundary abandons the backlog; unknown, the effect stays open.
    cases outcome with
    | confirmed =>
      refine .inr ⟨⟨rfl, _, rfl, ScheduleEntry.settle_confirmed_status_ne _ _ _⟩,
        .inl ⟨_, rfl, ?_⟩⟩
      rw [hmisfired, hnow]
      exact ScheduleEntry.abandoned_settle hopened.policy hopened.cursor
    | notStarted =>
      refine .inr ⟨⟨rfl, _, rfl, by simp [ScheduleEntry.settle]⟩, .inr ⟨rfl, fun hansw => ?_⟩⟩
      cases (hout hansw).symm.trans hsome
    | unknown => exact .inl ⟨⟨_, rfl, { hopened with flight := by simp }⟩, rfl⟩
  | dropped => exact ⟨by simp, .inl ⟨⟨entry, hentry, { hopened with flight := by simp }⟩, rfl⟩⟩
  | resolved resolution hfound hflight =>
    cases hfound.symm.trans hentry
    refine ⟨by simp, .inr ?_⟩
    cases resolution with
    | confirmed =>
      exact ⟨⟨hflight, _, rfl, ScheduleEntry.advanceOnce_status_ne⟩, .inl ⟨_, rfl,
        ScheduleEntry.abandoned_advanceOnce hopened.policy hopened.boundary (.inl hopened.cursor)⟩⟩
    | retry =>
      exact ⟨⟨hflight, _, rfl, by simp [ScheduleEntry.resolve]⟩,
        .inr ⟨rfl, by simp [hopened.cursor]⟩⟩
  | restarted =>
    exact ⟨by simp, .inl ⟨⟨entry.forget, by simp [hentry], { hopened with flight := by simp }⟩,
      rfl⟩⟩

/-- The confirmation of an open effect, by the dispatcher or by the owner. -/
theorem Open.confirm {event : LifeEvent T} (h : l.Open call now due answered)
    (hstep : Step config l [event] l') (hconfirms : event.confirms = true) :
    l'.Abandoned config now due := by
  rcases (hstep.opened h).2 with ⟨-, hnone⟩ | ⟨-, habandoned | ⟨hnone, -⟩⟩
  · simp [hconfirms] at hnone
  · exact habandoned
  · simp [hconfirms] at hnone

theorem Open.answer (h : l.Open call now due answered)
    (hstep : Step config l [.returned call due' .ok] l') : l'.Open call now due true := by
  obtain ⟨entry, hentry, hopened⟩ := h
  cases hstep with
  | returned _ hflight =>
    refine ⟨entry, hentry, { hopened with flight := ?_ }⟩
    intro f hf
    cases hf
    obtain ⟨hcall, hnow, hmisfired, -⟩ := hopened.flight _ hflight
    exact ⟨hcall, hnow, hmisfired, fun _ => rfl⟩

/-- The tick of a call was there when the call returned or was settled. -/
theorem Step.driven (hstep : Step config l events l')
    (hevents : (∃ result, events = [.returned call due' result]) ∨
      ∃ outcome, events = [.settled call due' outcome]) :
    ∃ f, l.flight = some f ∧ f.dispatch.guard = call := by
  cases hstep with
  | returned _ hflight | settled _ hflight => exact ⟨_, hflight, by simp_all⟩
  | _ => simp at hevents

/-! ## Runs from an open effect -/

/-- The event is a dispatch with the number of an earlier call. -/
inductive Reissues (call : ℕ) : LifeEvent T → Prop
  | dispatched (now due : SystemTime) : Reissues call (.dispatched call now due)

/-- The events that may block the schedule with another effect. -/
inductive Reblocks : LifeEvent T → Prop
  | removed : Reblocks .removed
  | dispatched (call : ℕ) (now due : SystemTime) : Reblocks (.dispatched call now due)

/-- No live tick drives the call any more. -/
def Lost (call : ℕ) (l : Life T) : Prop :=
  ∀ f, l.flight = some f → f.dispatch.guard ≠ call

theorem Step.lost (hstep : Step config l events l')
    (hevents : ∀ event ∈ events, ¬ Reissues call event) (h : l.Lost call) : l'.Lost call := by
  cases hstep with
  | dispatched _ call' =>
    intro f hf hguard
    cases hf
    obtain rfl : call' = call := hguard
    exact hevents _ mem_cons_self (.dispatched _ _)
  | @returned flight _ hflight =>
    intro f hf
    cases hf
    exact h flight hflight
  | settled | dropped | restarted => simp [Lost]
  | _ => exact h

/-- As long as a call is driven, its effect is open and nothing is dispatched. -/
theorem Open.runs (h : l.Open call now due answered) (hrun : Runs (Step config) l events l')
    (hevents : ∀ event ∈ events, ¬ Reissues call event) :
    l'.Open call now due answered ∧ (∀ call' now' due', .dispatched call' now' due' ∉ events) ∨
      l'.Lost call := by
  induction hrun with
  | refl => exact .inl ⟨h, by simp⟩
  | head hfirst htail ih =>
    obtain ⟨-, hlater⟩ := forall_mem_append.mp hevents
    obtain ⟨hquiet, hcases⟩ := hfirst.opened h
    rcases hcases with ⟨hopen, -⟩ | ⟨⟨hflight, -⟩, -⟩
    · refine (ih hopen hlater).imp_left fun ⟨hlast, hrest⟩ => ⟨hlast, ?_⟩
      simp [hquiet, hrest]
    · exact .inr (htail.preserved _ (fun h hstep hnone => hstep.lost hnone h) hlater
        (by simp [Lost, hflight]))

theorem Step.reopened (hstep : Step config l events l')
    (hevents : ∀ event ∈ events, ¬ Reblocks event) (h : l.Reopened) : l'.Reopened := by
  obtain ⟨hflight, entry, hentry, hunblocked⟩ := h
  cases hstep with
  | ticked => exact ⟨hflight, entry, hentry, hunblocked⟩
  | registered _ hnone => simp [hnone] at hentry
  | removed => exact absurd .removed (hevents _ mem_cons_self)
  | setStatus _ _ _ hnew =>
    refine ⟨hflight, _, rfl, ?_⟩
    rcases hnew with hnew | hnew <;> simp [hnew]
  | cleared _ _ hready => exact ⟨hflight, _, rfl, by simp [hready.active]⟩
  | skipped _ _ _ _ hskips =>
    refine ⟨hflight, _, rfl, ?_⟩
    cases hskips <;> exact ScheduleEntry.advanceOnce_status_ne
  | dispatched => exact absurd (.dispatched _ _ _) (hevents _ mem_cons_self)
  | returned _ hsome | settled _ hsome | dropped hsome => simp [hflight] at hsome
  | resolved _ hfound _ hreq =>
    cases hfound.symm.trans hentry
    exact absurd hreq hunblocked
  | restarted => exact ⟨rfl, entry.forget, by simp [hentry], hunblocked⟩

/-- Without a dispatch on the way, what is resolved in the end is the same open effect. -/
theorem Open.still_blocked (h : l.Open call now due answered)
    (hrun : Runs (Step config) l events l') (hevents : ∀ event ∈ events, ¬ Reblocks event)
    {cursor resolution last} (hstep : Step config l' [.resolved cursor resolution] last) :
    l'.Open call now due answered := by
  have hphase : l'.Open call now due answered ∨ l'.Reopened := by
    refine hrun.preserved (I := fun l => l.Open call now due answered ∨ l.Reopened) _ ?_ hevents
      (.inl h)
    rintro l₁ events l₂ (hopen | hreopened) hstep hnone
    · exact (hstep.opened hopen).2.imp And.left And.left
    · exact .inr (hstep.reopened hnone hreopened)
  refine hphase.resolve_right ?_
  rintro ⟨_, entry, hentry, hunblocked⟩
  cases hstep with
  | resolved _ hfound _ hstatus =>
    cases hfound.symm.trans hentry
    exact hunblocked hstatus

/-- The ways in which the effect of `call`, a dispatch of `due`, gets confirmed: its
tick applies the dispatcher's `Ok`; the dispatcher answers `Ok` and, should the tick
be dropped before it applies that, the owner does not ask for a retry; or the owner
resolves the blocked occurrence as confirmed. -/
inductive Confirmed (call : ℕ) (due : SystemTime) : List (LifeEvent T) → Prop
  | applied (before after : List (LifeEvent T)) :
      Confirmed call due (before ++ .settled call due .confirmed :: after)
  | answered (before after : List (LifeEvent T)) (hretry : .resolved (some due) .retry ∉ after) :
      Confirmed call due (before ++ .returned call due .ok :: after)
  | resolved (before after : List (LifeEvent T)) (cursor : Option SystemTime)
      (hpre : ∀ call' now' due', .dispatched call' now' due' ∉ before) :
      Confirmed call due (before ++ .resolved cursor .confirmed :: after)

/-- From an abandoned backlog, or an answered call that is not retried, nothing that was
overdue at `now` is dispatched. -/
theorem not_dispatched_of_runs (call : ℕ)
    (h : l.Abandoned config now due ∨ l.Open call now due true ∧
      .resolved (some due) .retry ∉ events) (hrun : Runs (Step config) l events l')
    (hgone : .removed ∉ events) (hmem : .dispatched call' now' next ∈ events) :
    isOverdue now next config.misfireGrace = false := by
  induction hrun with
  | refl => cases hmem
  | head hfirst _ ih =>
    rw [mem_append, not_or] at hgone
    rcases h with habandoned | ⟨hopen, hretry⟩
    · rcases mem_append.mp hmem with hnow | hlater
      · exact habandoned.not_dispatched hfirst hnow
      · exact ih (.inl (hfirst.abandoned hgone.1 habandoned)) hgone.2 hlater
    · rw [mem_append, not_or] at hretry
      obtain ⟨hquiet, hcases⟩ := hfirst.opened hopen
      refine ih ?_ hgone.2 ((mem_append.mp hmem).resolve_left (hquiet _ _ _))
      rcases hcases with ⟨hopen, -⟩ | ⟨-, habandoned | ⟨-, hagain⟩⟩
      · exact .inr ⟨hopen, hretry.2⟩
      · exact .inl habandoned
      · exact absurd (hagain rfl) hretry.1

/-- Once the effect of an open dispatch at `now` is confirmed, no later dispatch is of
an occurrence that was overdue at `now`. -/
theorem Open.abandons (h : l.Open call now due false) (hrun : Runs (Step config) l events l')
    (hgone : .removed ∉ events) (hevents : ∀ event ∈ events, ¬ Reissues call event)
    (hconf : Confirmed call due events) (hmem : .dispatched call' now' next ∈ events) :
    isOverdue now next config.misfireGrace = false := by
  have hdriven : ∀ {before l₁}, Runs (Step config) l before l₁ →
      (∀ event ∈ before, event ∈ events) →
      (∃ f, l₁.flight = some f ∧ f.dispatch.guard = call) →
      l₁.Open call now due false ∧ ∀ call' now' due', .dispatched call' now' due' ∉ before := by
    rintro before l₁ hpre hsub ⟨f, hflight, hguard⟩
    refine (h.runs hpre fun event hevent => hevents event (hsub event hevent)).resolve_right ?_
    exact fun hlost => hlost f hflight hguard
  cases hconf with
  | applied before after =>
    obtain ⟨l₁, l₂, hpre, hstep, hafter⟩ := hrun.split Step.length_le_one rfl
    obtain ⟨hopen, hquiet⟩ := hdriven hpre (by simp +contextual)
      (hstep.driven (.inr ⟨_, rfl⟩))
    exact not_dispatched_of_runs call (.inl (hopen.confirm hstep rfl)) hafter (by simp_all)
      (by simpa [hquiet] using hmem)
  | answered before after hretry =>
    obtain ⟨l₁, l₂, hpre, hstep, hafter⟩ := hrun.split Step.length_le_one rfl
    obtain ⟨hopen, hquiet⟩ := hdriven hpre (by simp +contextual)
      (hstep.driven (.inl ⟨_, rfl⟩))
    exact not_dispatched_of_runs call (.inr ⟨hopen.answer hstep, hretry⟩) hafter (by simp_all)
      (by simpa [hquiet] using hmem)
  | resolved before after cursor hquiet =>
    obtain ⟨l₁, l₂, hpre, hstep, hafter⟩ := hrun.split Step.length_le_one rfl
    rw [mem_append, mem_cons, not_or, not_or] at hgone
    have hbefores : ∀ event ∈ before, ¬ Reblocks event := by
      rintro event hevent (_ | ⟨c, n, d⟩)
      · exact hgone.1 hevent
      · exact hquiet c n d hevent
    have hopen := h.still_blocked hpre hbefores hstep
    exact not_dispatched_of_runs call (.inl (hopen.confirm hstep rfl)) hafter hgone.2.2
      (by simpa [hquiet] using hmem)

end Life

/-! ## The scheduler -/

/-- The ways in which a history confirms the effect of `call`, a dispatch of
`occurrence`; see `Life.Confirmed`. -/
inductive Confirmation (call : ℕ) (occurrence : ScheduleOccurrenceId) : List (Event T) → Prop
  | applied (before after : List (Event T)) :
      Confirmation call occurrence (before ++ .settled call occurrence .confirmed :: after)
  | answered (before after : List (Event T))
      (hretry : .resolved occurrence.scheduleId (some occurrence.dueAt) .retry ∉ after) :
      Confirmation call occurrence (before ++ .returned call occurrence .ok :: after)
  | resolved (before after : List (Event T)) (cursor : Option SystemTime)
      (hpre : ∀ call' tick' now' occurrence',
        .dispatched call' tick' now' occurrence' ∈ before →
        occurrence'.id.scheduleId ≠ occurrence.scheduleId) :
      Confirmation call occurrence
        (before ++ .resolved occurrence.scheduleId cursor .confirmed :: after)

theorem Confirmation.life {call : ℕ} {occurrence : ScheduleOccurrenceId}
    {events : List (Event T)} (h : Confirmation call occurrence events) :
    Life.Confirmed call occurrence.dueAt
      (events.filterMap (Event.about occurrence.scheduleId)) := by
  cases h with
  | applied before after =>
    simp only [filterMap_append, filterMap_cons, Event.about]
    exact .applied ..
  | answered before after hretry =>
    simp only [filterMap_append, filterMap_cons, Event.about]
    refine .answered _ _ ?_
    intro hmem
    obtain ⟨event, hevent, habout⟩ := mem_filterMap.mp hmem
    rw [Event.about_eq_resolved] at habout
    exact hretry (habout ▸ hevent)
  | resolved before after cursor hpre =>
    simp only [filterMap_append, filterMap_cons, Event.about]
    refine .resolved _ _ cursor ?_
    intro call' now' due' hmem
    obtain ⟨event, hevent, habout⟩ := mem_filterMap.mp hmem
    obtain ⟨tick', occurrence', rfl, hid⟩ := Event.about_eq_dispatched.mp habout
    exact hpre _ _ _ _ hevent (by rw [hid])

/-- Once an overdue dispatch of a `FireOnce` schedule by a tick at `now` is confirmed
and not retried, no later tick, whatever its instant, and no process restored from the schedule's
snapshots dispatches another occurrence that was overdue at `now`. -/
theorem fireOnce_abandons_backlog {before after : List (Event T)} {s : State T}
    {entry : ScheduleEntry T} {call tick : ℕ} {now : SystemTime}
    {occurrence : ScheduledOccurrence T}
    (hreaches : Reaches config (before ++ .dispatched call tick now occurrence :: after) s)
    (hentry : s.registry.find occurrence.id.scheduleId = some entry)
    (hpolicy : entry.misfirePolicy = .fireOnce)
    (hoverdue : config.misfireGrace < now - occurrence.id.dueAt)
    (hregistration : .removed occurrence.id.scheduleId ∉ after)
    (hconfirmed : Confirmation call occurrence.id after) {call' tick' : ℕ} {now' : SystemTime}
    {occurrence' : ScheduledOccurrence T}
    (hlater : .dispatched call' tick' now' occurrence' ∈ after)
    (hsame : occurrence'.id.scheduleId = occurrence.id.scheduleId) :
    ¬ (occurrence.id.dueAt < occurrence'.id.dueAt ∧
      config.misfireGrace < now - occurrence'.id.dueAt) := by
  rintro ⟨_, hoverdue'⟩
  have hcalls : ∀ {c i n o}, .dispatched c i n o ∈ after → call < c := hreaches.call_ne
  obtain ⟨builder, hregisters, hrun⟩ := hreaches
  have hstart : Inv config (builder.build config) := hregisters.valid.inv
  obtain ⟨l, hviews⟩ := hstart.exists_views occurrence.id.scheduleId
  obtain ⟨last, hlife, _, hlast⟩ := life_of_runs hrun hstart hviews
  simp only [List.filterMap_append, List.filterMap_cons, Event.about, ↓reduceIte] at hlife
  obtain ⟨l₁, l₂, _, hdispatch, hafter⟩ := hlife.split Life.Step.length_le_one rfl
  have hremoved : .removed ∉ after.filterMap (Event.about occurrence.id.scheduleId) := by
    intro hmem
    obtain ⟨event, hevent, habout⟩ := List.mem_filterMap.mp hmem
    exact hregistration (Event.about_eq_removed.mp habout ▸ hevent)
  have hreissues : ∀ event ∈ after.filterMap (Event.about occurrence.id.scheduleId),
      ¬ Life.Reissues call event := by
    rintro event hmem ⟨n, d⟩
    obtain ⟨origin, horigin, habout⟩ := List.mem_filterMap.mp hmem
    obtain ⟨i, o, rfl, _⟩ := Event.about_eq_dispatched.mp habout
    exact Nat.lt_irrefl call (hcalls horigin)
  -- The policy at the time of the dispatch is the one the schedule still has.
  have hfires : ∀ first, l₁.entry = some first → first.misfirePolicy = .fireOnce := by
    intro first hfirst
    have hwhole : Runs (Life.Step config) l₁ _ last := .head hdispatch hafter
    obtain ⟨kept, hkept, _, hsamePolicy⟩ :=
      Life.definition_of_runs hwhole (by simpa using hremoved) hfirst
    rw [hlast.entry, hentry, Option.some.injEq] at hkept
    rw [← hsamePolicy, ← hkept, hpolicy]
  have hopen : l₂.Open call now occurrence.id.dueAt false :=
    hdispatch.opens hfires (isOverdue_iff.mpr hoverdue)
  have hmem : .dispatched call' now' occurrence'.id.dueAt ∈
      after.filterMap (Event.about occurrence.id.scheduleId) :=
    List.mem_filterMap.mpr ⟨_, hlater, Event.about_eq_dispatched.mpr
      ⟨tick', occurrence', rfl, by rw [← hsame]⟩⟩
  have hgrace := hopen.abandons hafter hremoved hreissues hconfirmed.life hmem
  rw [isOverdue_iff.mpr hoverdue'] at hgrace
  cases hgrace

/-- The sample schedule is dispatched at thirty for the instant zero. Two ticks sweep
the instants ten and twenty; the instant thirty is on time and is dispatched. -/
theorem fireOnce_abandons_backlog_sample :
    let actions : List (Action Unit) := Sample.dispatching 30 ++
      [.dispatchReturns 0 .ok, .poll 0 false, .abort 0, .tick 30 false, .poll 1 false,
        .poll 1 false, .poll 1 false, .poll 1 false]
    let first : ScheduledOccurrence Unit := ⟨⟨Sample.id, 0⟩, 0, ()⟩
    let last : ScheduledOccurrence Unit := ⟨⟨Sample.id, 30⟩, 30, ()⟩
    (Sample.after actions).2 = [.tickStarted 0 30] ++ .dispatched 0 0 30 first ::
        [.returned 0 first.id .ok, .settled 0 first.id .confirmed, .skipped 0 ⟨Sample.id, 10⟩,
          .tickAborted 0, .tickStarted 1 30, .skipped 1 ⟨Sample.id, 20⟩,
          .dispatched 1 1 30 last] ∧
      ¬ (first.id.dueAt < last.id.dueAt ∧
        Sample.config.misfireGrace < (30 : SystemTime) - last.id.dueAt) := by
  intro actions first last
  let swept : List (Event Unit) :=
    [.skipped 0 ⟨Sample.id, 10⟩, .tickAborted 0, .tickStarted 1 30, .skipped 1 ⟨Sample.id, 20⟩,
      .dispatched 1 1 30 last]
  let after : List (Event Unit) :=
    [.returned 0 first.id .ok] ++ .settled 0 first.id .confirmed :: swept
  have hhistory : (Sample.after actions).2 =
      [.tickStarted 0 30] ++ .dispatched 0 0 30 first :: after := rfl
  have hreaches := Sample.reaches actions rfl
  rw [hhistory] at hreaches
  have hlater : .dispatched 1 1 30 last ∈ after := by simp [after, swept]
  have hregistration : .removed Sample.id ∉ after := by simp [after, swept]
  have hoverdue : (5 : ℤ) < 30 - 0 := by decide
  exact ⟨hhistory, fireOnce_abandons_backlog hreaches rfl rfl hoverdue hregistration
    (.applied _ _) hlater rfl⟩

/-- The dispatcher confirms the instant zero at thirty, but the tick is dropped before it
applies the answer, and the owner asks for a retry. A clock that went back makes the same
instant punctual, which forgets the backlog: the instant ten is dispatched, though it was
overdue at thirty. -/
theorem retried_occurrence_keeps_backlog :
    let retried : List (Action Unit) := Sample.dispatching 30 ++
      [.dispatchReturns 0 .ok, .abort 0, .resolveReconciliation Sample.id .retry]
    let actions : List (Action Unit) := retried ++
      [.tick 3 false, .poll 1 false, .poll 1 false, .poll 1 false, .dispatchReturns 1 .ok,
        .poll 1 false, .poll 1 false, .poll 1 false, .tick 12 false, .poll 2 false,
        .poll 2 false, .poll 2 false]
    let first : ScheduledOccurrence Unit := ⟨⟨Sample.id, 0⟩, 0, ()⟩
    let second : ScheduledOccurrence Unit := ⟨⟨Sample.id, 10⟩, 10, ()⟩
    Sample.schedule.misfirePolicy = .fireOnce ∧
      Reaches Sample.config (Sample.after actions).2 (Sample.after actions).1 ∧
      (Sample.after actions).2 = [.tickStarted 0 30, .dispatched 0 0 30 first,
        .returned 0 first.id .ok, .tickAborted 0,
        .resolved Sample.id (some 0) .retry, .answered (.resolved (.ok ())),
        .tickStarted 1 3, .dispatched 1 1 3 first, .returned 1 first.id .ok,
        .settled 1 first.id .confirmed, .tickStarted 2 12, .dispatched 2 2 12 second] ∧
      Sample.config.misfireGrace < (30 : SystemTime) - first.id.dueAt ∧
      first.id.dueAt < second.id.dueAt ∧
      Sample.config.misfireGrace < (30 : SystemTime) - second.id.dueAt := by
  refine ⟨rfl, Sample.reaches _ rfl, rfl, ?_⟩
  decide

end PlenoraRuntime.Scheduler
