import PlenoraRuntime.Scheduler.Life

/-!
# Automatic dispatch at most once

Once a tick has called the dispatcher for an occurrence, that occurrence is
spent: the cursor stays on it and the schedule requires reconciliation while its
effect is open, and afterwards the cursor is beyond it for good. Only a
`NotStarted` answer to that very call, or the owner's `Retry`, makes it
dispatchable again.
-/

namespace PlenoraRuntime.Scheduler

open Transition List

variable {T : Type*} {config : SchedulerConfig} {l l' : Life T} {events : List (LifeEvent T)}
  {call call' : ℕ} {due now : SystemTime}

/-- The events after which the occurrence at `due`, dispatched by `call`, may be
dispatched once more, or no longer belongs to the same registration. -/
inductive LifeEvent.Reopens (call : ℕ) (due : SystemTime) : LifeEvent T → Prop
  | removed : Reopens call due .removed
  | notStarted : Reopens call due (.returned call due (.failed .notStarted))
  | retry (cursor : Option SystemTime) : Reopens call due (.resolved cursor .retry)

/-- The dispatcher was called for the occurrence at `due`, by `call` last. -/
def Life.Spent (call : ℕ) (due : SystemTime) (l : Life T) : Prop :=
  ∃ entry, l.entry = some entry ∧
    ((entry.nextDueAt = some due ∧ entry.status = .reconciliationRequired ∧
        ∀ flight, l.flight = some flight →
          flight.dispatch.guard = call ∧ flight.dispatch.occurrence.dueAt = due ∧
            flight.outcome ≠ some .notStarted) ∨
      entry.Beyond due)

/-- An occurrence beyond which the cursor has moved stays spent. -/
private theorem spent_of_beyond (hstep : Life.Step config l events l')
    (hevents : ∀ event ∈ events, ¬ event.Reopens call due) {entry : ScheduleEntry T}
    (hentry : l.entry = some entry) (hbeyond : entry.Beyond due) : l'.Spent call due := by
  have hgone : .removed ∉ events := fun hmem => hevents _ hmem .removed
  obtain ⟨entry', hentry', hfollows⟩ := hstep.follows hentry hgone
  exact ⟨entry', hentry', .inr (hfollows.beyond hbeyond)⟩

theorem Life.Step.spent (hstep : Life.Step config l events l')
    (hevents : ∀ event ∈ events, ¬ event.Reopens call due) (h : l.Spent call due) :
    l'.Spent call due := by
  obtain ⟨entry, hentry, ⟨hcur, hstatus, hflight⟩ | hbeyond⟩ := h
  case inr => exact spent_of_beyond hstep hevents hentry hbeyond
  -- The effect is still open: the steps that need another status do not apply.
  cases hstep with
  | ticked => exact ⟨entry, hentry, .inl ⟨hcur, hstatus, hflight⟩⟩
  | registered _ hnone => simp [hnone] at hentry
  | removed => exact absurd .removed (hevents _ mem_cons_self)
  | setStatus hfound _ hold =>
    cases hfound.symm.trans hentry
    rcases hold with hold | hold <;> simp [hstatus] at hold
  | cleared hfound _ hready | dispatched _ _ hfound _ _ hready =>
    cases hfound.symm.trans hentry
    simp [hready.active] at hstatus
  | skipped _ hfound _ _ hskips =>
    cases hfound.symm.trans hentry
    simp [hskips.active] at hstatus
  | @returned flight result hfound _ =>
    refine ⟨entry, hentry, .inl ⟨hcur, hstatus, ?_⟩⟩
    intro flight' hflight'
    cases hflight'
    obtain ⟨hguard, hdue, _⟩ := hflight flight hfound
    refine ⟨hguard, hdue, fun hout => ?_⟩
    obtain rfl := classify_eq_notStarted.mp (Option.some.inj hout)
    refine hevents _ mem_cons_self ?_
    rw [hguard, hdue]
    exact .notStarted
  | @settled _ flight outcome hfound hfly hout =>
    cases hfound.symm.trans hentry
    refine ⟨_, rfl, ?_⟩
    cases outcome with
    | confirmed =>
      refine .inr (ScheduleEntry.beyond_of_advance (.inl hcur) ?_)
      exact ScheduleEntry.settle_confirmed_nextDueAt ..
    | notStarted => exact absurd hout (hflight flight hfly).2.2
    | unknown => exact .inl ⟨hcur, hstatus, by simp⟩
  | dropped => exact ⟨entry, hentry, .inl ⟨hcur, hstatus, by simp⟩⟩
  | resolved resolution hfound =>
    cases hfound.symm.trans hentry
    refine ⟨_, rfl, ?_⟩
    cases resolution with
    | confirmed => exact .inr (ScheduleEntry.beyond_of_advance (.inl hcur) rfl)
    | retry => exact absurd (.retry _) (hevents _ mem_cons_self)
  | restarted => exact ⟨entry.forget, by simp [hentry], .inl ⟨hcur, hstatus, by simp⟩⟩

/-- A dispatch spends its occurrence. -/
theorem Life.Step.spent_of_dispatched (hstep : Life.Step config l [.dispatched call now due] l') :
    l'.Spent call due := by
  cases hstep with
  | @dispatched entry _ _ token _ hentry _ _ hready =>
    refine ⟨_, rfl, .inl ⟨hready.cursor, rfl, ?_⟩⟩
    intro flight hflight
    cases hflight
    exact ⟨rfl, rfl, by simp⟩

/-- A spent occurrence is not dispatched. -/
theorem Life.Spent.not_dispatched (h : l.Spent call due) :
    ¬ Life.Step config l [.dispatched call' now due] l' := by
  intro hstep
  obtain ⟨entry, hentry, hspent⟩ := h
  cases hstep with
  | dispatched _ _ hfound _ _ hready =>
    cases hfound.symm.trans hentry
    rcases hspent with ⟨_, hstatus, _⟩ | hbeyond
    · simp [hready.active] at hstatus
    · exact absurd (hbeyond due hready.cursor) (Int.lt_irrefl due)

/-- Between two dispatches of one occurrence the first call was reopened. -/
theorem Life.reopened_between {last : Life T} {before between after : List (LifeEvent T)}
    {now' : SystemTime}
    (hrun : Runs (Life.Step config) l (before ++
      .dispatched call now due :: (between ++ .dispatched call' now' due :: after)) last) :
    ∃ event ∈ between, event.Reopens call due := by
  obtain ⟨l₁, l₂, _, hfirst, hrest⟩ := hrun.split Life.Step.length_le_one rfl
  obtain ⟨l₃, l₄, hbetween, hsecond, _⟩ := hrest.split Life.Step.length_le_one rfl
  by_contra hclosed
  push Not at hclosed
  have hspent : l₃.Spent call due :=
    hbetween.preserved _ (fun h hstep hevents => hstep.spent hevents h) hclosed
      hfirst.spent_of_dispatched
  exact hspent.not_dispatched hsecond

/-- Within one registration, a tick dispatches an occurrence a second time only after
the first call answered `NotStarted` or the owner resolved the schedule with `Retry`;
and two live ticks never drive dispatcher calls of one schedule. -/
theorem automatic_dispatch_at_most_once {history : List (Event T)} {s : State T}
    (hreaches : Reaches config history s) :
    (∀ before between after call call' tick tick' now now' occurrence occurrence',
      history = before ++ .dispatched call tick now occurrence ::
        (between ++ .dispatched call' tick' now' occurrence' :: after) →
      occurrence.id = occurrence'.id →
      .removed occurrence.id.scheduleId ∉ between →
      .returned call occurrence.id (.failed .notStarted) ∈ between ∨
        ∃ cursor, .resolved occurrence.id.scheduleId cursor .retry ∈ between) ∧
    ∀ i j flight flight', s.flight i = some flight → s.flight j = some flight' →
      flight.dispatch.occurrence.id.scheduleId = flight'.dispatch.occurrence.id.scheduleId →
      i = j := by
  have hinv := hreaches.inv.1
  refine ⟨?_, ?_⟩
  · intro before between after call call' tick tick' now now' occurrence occurrence' hhistory
      hsame hregistration
    obtain ⟨builder, hregisters, hrun⟩ := hreaches
    have hstart : Inv config (builder.build config) := hregisters.valid.inv
    obtain ⟨l, hviews⟩ := hstart.exists_views occurrence.id.scheduleId
    obtain ⟨l', hlife, _⟩ := life_of_runs hrun hstart hviews
    simp only [hhistory, List.filterMap_append, List.filterMap_cons, Event.about, ← hsame,
      ↓reduceIte] at hlife
    -- Between two dispatches of one occurrence its life was reopened.
    obtain ⟨event, hevent, hreopens⟩ := Life.reopened_between hlife
    obtain ⟨origin, horigin, habout⟩ := List.mem_filterMap.mp hevent
    cases hreopens with
    | removed =>
      rw [Event.about_eq_removed] at habout
      exact absurd (habout ▸ horigin) hregistration
    | notStarted =>
      rw [Event.about_eq_returned] at habout
      exact .inl (habout ▸ horigin)
    | retry cursor =>
      rw [Event.about_eq_resolved] at habout
      exact .inr ⟨cursor, habout ▸ horigin⟩
  · -- Each flight holds its schedule, and a schedule is held once.
    intro i j flight flight' hi hj hid
    have hpins := hinv.pins_of_flight hi
    have hpins' := hinv.pins_of_flight hj
    rw [hpins.occurrence, hpins'.occurrence] at hid
    exact hinv.flight_unique hi hj hid

/-- The sample occurrence is dispatched, answered `NotStarted`, and dispatched again. -/
theorem automatic_dispatch_at_most_once_retried :
    let actions : List (Action Unit) := Sample.dispatching 2 ++
      [.dispatchReturns 0 (.failed .notStarted), .poll 0 false, .abort 0, .tick 2 false,
        .poll 1 false, .poll 1 false, .poll 1 false]
    let occurrence : ScheduleOccurrenceId := ⟨Sample.id, 0⟩
    (Sample.after actions).2.length = 7 ∧
      (.returned 0 occurrence (.failed .notStarted) ∈
          [.returned 0 occurrence (.failed .notStarted), .settled 0 occurrence .notStarted,
            .tickAborted 0, Event.tickStarted (T := Unit) 1 2] ∨
        ∃ cursor, .resolved Sample.id cursor .retry ∈
          [.returned 0 occurrence (.failed .notStarted), .settled 0 occurrence .notStarted,
            .tickAborted 0, Event.tickStarted (T := Unit) 1 2]) := by
  intro actions occurrence
  refine ⟨rfl, ?_⟩
  refine (automatic_dispatch_at_most_once (Sample.reaches actions rfl)).1
    [.tickStarted 0 2] _ [] 0 1 0 1 2 2 ⟨occurrence, 0, ()⟩ ⟨occurrence, 0, ()⟩ rfl rfl ?_
  simp

end PlenoraRuntime.Scheduler
