import PlenoraRuntime.Scheduler.History
import PlenoraRuntime.Scheduler.Life

/-!
# No occurrence is silently lost

From its registration on, the cursor of a schedule walks the chain of its plan:
after `n` occurrences were passed it is the `n`-th iterate, and the occurrences
passed are the iterates before it. Each of them is accounted for by something
that happened earlier: the dispatcher answered `Ok`, the owner confirmed it, or a
tick counted it as skipped, and then it was overdue at an instant at which a tick
had already been run.

Two history invariants carry this. `Account` follows the cursor and where each
abandonment boundary came from; `CatchUpAccount` follows, for a `CatchUp` schedule
that its owner leaves alone, the calls the dispatcher confirmed.
-/

namespace PlenoraRuntime.Scheduler

open Transition List Option

variable {T : Type*} {config : SchedulerConfig}

/-! ## The chain of a plan -/

namespace SchedulePlan

variable {plan : SchedulePlan} {start : Option SystemTime} {passed : List SystemTime}
  {due : SystemTime}

/-- The `k`-th instant from `start` on, while the plan has one. -/
def chain (plan : SchedulePlan) (start : Option SystemTime) (k : ℕ) : Option SystemTime :=
  plan.advance^[k] start

theorem chain_succ (k : ℕ) : plan.chain start (k + 1) = plan.advance (plan.chain start k) :=
  Function.iterate_succ_apply' ..

@[simp] theorem chain_zero : plan.chain start 0 = start := rfl

/-- `passed` is an initial piece of the chain: in order, without a gap. -/
def Walks (plan : SchedulePlan) (start : Option SystemTime) (passed : List SystemTime) : Prop :=
  passed.map some = (List.range passed.length).map (plan.chain start)

theorem Walks.nil : plan.Walks start [] := rfl

theorem Walks.concat (h : plan.Walks start passed)
    (hdue : plan.chain start passed.length = some due) : plan.Walks start (passed ++ [due]) := by
  unfold Walks at h ⊢
  rw [map_append, h, length_append, length_singleton, range_succ,
    map_append, map_singleton, map_singleton, hdue]

theorem chain_lt {i j : ℕ} {a b : SystemTime} (hij : i < j) (hi : plan.chain start i = some a)
    (hj : plan.chain start j = some b) : a < b := by
  induction j generalizing b with
  | zero => omega
  | succ j ih =>
    rw [chain_succ] at hj
    cases hprev : plan.chain start j with
    | none => simp [hprev] at hj
    | some previous =>
      rw [hprev] at hj
      have hlater : previous < b := lt_of_advance hj
      rcases Nat.lt_succ_iff_lt_or_eq.mp hij with hlt | rfl
      · exact Int.lt_trans (ih hlt hprev) hlater
      · rw [hprev, Option.some.injEq] at hi
        exact hi ▸ hlater

/-- Walking the chain is walking forward. -/
theorem Walks.increases (h : plan.Walks start passed) : passed.Pairwise (· < ·) := by
  have hget : ∀ (k : ℕ) (hk : k < passed.length), plan.chain start k = some passed[k] := by
    intro k hk
    have hat := congrArg (·[k]?) h
    simpa [hk] using hat.symm
  rw [pairwise_iff_getElem]
  intro i j hi hj hij
  exact chain_lt hij (hget i hi) (hget j hj)

end SchedulePlan

/-! ## Where a boundary comes from -/

namespace ScheduleEntry

variable {entry : ScheduleEntry T} {through now : SystemTime}

theorem boundary_of_advanceOnce (h : entry.advanceOnce.skipBacklogThrough = some through) :
    entry.skipBacklogThrough = some through := by
  unfold advanceOnce at h
  dsimp only at h
  split at h
  · cases h
  · exact h

theorem boundary_of_settle {outcome} {misfired : Bool}
    (h : (entry.settle outcome misfired now).skipBacklogThrough = some through) :
    entry.skipBacklogThrough = some through ∨ through = now := by
  cases outcome with
  | confirmed =>
    simp only [settle] at h
    split at h
    · exact .inr (Option.some.inj h).symm
    · exact .inl (boundary_of_advanceOnce h)
  | notStarted => cases h
  | unknown => exact .inl h

theorem boundary_of_skips {skipped} {due : SystemTime}
    (hskips : entry.Skips config now due skipped) (h : skipped.skipBacklogThrough = some through) :
    entry.skipBacklogThrough = some through := by
  cases hskips with
  | abandoned => exact boundary_of_advanceOnce h
  | misfired =>
    have hcleared := boundary_of_advanceOnce h
    cases hcleared

end ScheduleEntry

namespace Life

variable {l l' : Life T} {events past : List (LifeEvent T)} {entry entry' : ScheduleEntry T}

/-- A boundary is an instant at which a tick was run, or it was there before. -/
theorem Step.boundary (hstep : Step config l events l') (hentry : l.entry = some entry)
    (hflight : ∀ flight, l.flight = some flight → flight.now ∈ l.nows)
    (hentry' : l'.entry = some entry') {through : SystemTime}
    (h : entry'.skipBacklogThrough = some through) :
    entry.skipBacklogThrough = some through ∨ through ∈ l.nows := by
  cases hstep with
  | ticked | returned | dropped =>
    cases hentry.symm.trans hentry'
    exact .inl h
  | registered _ hnone => simp [hnone] at hentry
  | removed => cases hentry'
  | setStatus hfound =>
    cases hfound.symm.trans hentry
    cases hentry'
    exact .inl h
  | cleared =>
    cases hentry'
    cases h
  | skipped _ hfound _ _ hskips =>
    cases hfound.symm.trans hentry
    cases hentry'
    exact .inl (ScheduleEntry.boundary_of_skips hskips h)
  | dispatched _ _ _ _ hnow =>
    cases hentry'
    unfold ScheduleEntry.issue at h
    split at h
    · -- Under `fireOnce` an overdue dispatch sets the boundary to the instant of its tick.
      exact .inr (Option.some.inj h ▸ hnow)
    · cases h
  | settled hfound hfly =>
    cases hfound.symm.trans hentry
    cases hentry'
    rcases ScheduleEntry.boundary_of_settle h with hold | rfl
    · exact .inl hold
    · exact .inr (hflight _ hfly)
  | resolved resolution hfound =>
    cases hfound.symm.trans hentry
    cases hentry'
    cases resolution with
    | confirmed => exact .inl (ScheduleEntry.boundary_of_advanceOnce h)
    | retry => cases h
  | restarted =>
    rw [hentry, map_some, Option.some.injEq] at hentry'
    subst hentry'
    exact .inl h

/-! ## The account of the cursor -/

/-- At `now` a tick was run: before the registration, since then, or by the process
whose snapshot the schedule was registered from. -/
def Ran (schedule : Schedule T) (nows : List SystemTime) (past : List (LifeEvent T))
    (now : SystemTime) : Prop :=
  now ∈ nows ∨ .ticked now ∈ past ∨ schedule.skipBacklogThrough = some now

/-- Why the cursor may move past an occurrence, given what happened before. -/
inductive Accounted (config : SchedulerConfig) (schedule : Schedule T) (nows : List SystemTime)
    (past : List (LifeEvent T)) : LifeEvent T → Prop
  | confirmed {call due} (answered : .returned call due .ok ∈ past) :
      Accounted config schedule nows past (.settled call due .confirmed)
  | resolved (cursor : Option SystemTime) :
      Accounted config schedule nows past (.resolved cursor .confirmed)
  | skipped {i now due}
      (policy : schedule.misfirePolicy = .skip ∨ schedule.misfirePolicy = .fireOnce)
      (ran : Ran schedule nows past now) (overdue : isOverdue now due config.misfireGrace = true) :
      Accounted config schedule nows past (.skipped i due)

/-- What a schedule's registration and the ticks before it explain of its life. -/
structure Account (config : SchedulerConfig) (schedule : Schedule T) (nows : List SystemTime)
    (l : Life T) (past : List (LifeEvent T)) : Prop where
  entry : ∃ entry, l.entry = some entry ∧ entry.plan = schedule.plan ∧
    entry.misfirePolicy = schedule.misfirePolicy ∧
    entry.nextDueAt = schedule.plan.chain schedule.nextDueAt
      (past.filterMap LifeEvent.passed).length ∧
    ∀ through, entry.skipBacklogThrough = some through → Ran schedule nows past through
  walks : schedule.plan.Walks schedule.nextDueAt (past.filterMap LifeEvent.passed)
  ran : ∀ now ∈ l.nows, Ran schedule nows past now
  flown : ∀ flight, l.flight = some flight → flight.now ∈ l.nows
  answered : ∀ flight, l.flight = some flight → flight.outcome = some .confirmed →
    .returned flight.dispatch.guard flight.dispatch.occurrence.dueAt .ok ∈ past
  accounted : ∀ {earlier event}, earlier ++ [event] <+: past → event.passed.isSome →
    Accounted config schedule nows earlier event

variable {schedule : Schedule T} {nows : List SystemTime} {now : SystemTime}

theorem Ran.append (h : Ran schedule nows past now) : Ran schedule nows (past ++ events) now := by
  rcases h with hpre | hsince | hrest
  · exact .inl hpre
  · exact .inr (.inl (mem_append_left _ hsince))
  · exact .inr (.inr hrest)

/-- Every move of the cursor is accounted for. -/
theorem Account.accounts {event : LifeEvent T} (h : Account config schedule nows l past)
    (hstep : Step config l [event] l') (hpassed : event.passed.isSome) :
    Accounted config schedule nows past event := by
  obtain ⟨entry, hentry, _, hpol, _, hbound⟩ := h.entry
  cases hstep with
  | ticked | registered | removed | dispatched | returned => simp [LifeEvent.passed] at hpassed
  | @skipped _ skipped now due i hfound _ hnow hskips =>
    cases hfound.symm.trans hentry
    cases hskips with
    | abandoned _ _ _ hsupp =>
      simp only [ScheduleEntry.suppresses, Bool.and_eq_true, decide_eq_true_eq,
        Option.any_eq_true] at hsupp
      obtain ⟨hfires, through, hthrough, _, hoverdue⟩ := hsupp
      exact .skipped (.inr (hpol ▸ hfires)) (hbound through hthrough) hoverdue
    | misfired _ hoverdue hskip => exact .skipped (.inl (hpol ▸ hskip)) (h.ran now hnow) hoverdue
  | @settled _ flight outcome _ hflight hout =>
    cases outcome with
    | confirmed => exact .confirmed (h.answered flight hflight hout)
    | notStarted | unknown => simp [LifeEvent.passed] at hpassed
  | resolved resolution =>
    cases resolution with
    | confirmed => exact .resolved _
    | retry => simp [LifeEvent.passed] at hpassed

theorem Step.mem_nows (hstep : Step config l events l') (h : now ∈ l'.nows) :
    now ∈ l.nows ∨ .ticked now ∈ events := by
  cases hstep with
  | ticked now' =>
    rcases mem_append.mp h with hold | hnew
    · exact .inl hold
    · rw [mem_singleton.mp hnew]
      exact .inr mem_cons_self
  | _ => exact .inl h

theorem Step.nows_subset (hstep : Step config l events l') (h : now ∈ l.nows) : now ∈ l'.nows := by
  cases hstep with
  | ticked => exact mem_append_left _ h
  | _ => exact h

/-- A call is made at the instant of a tick, and its outcome is confirmed by an answer
that is on record. -/
theorem Account.flight (h : Account config schedule nows l past) (hstep : Step config l events l')
    {flight} (hflight : l'.flight = some flight) :
    flight.now ∈ l.nows ∧ (flight.outcome = some .confirmed →
      .returned flight.dispatch.guard flight.dispatch.occurrence.dueAt .ok ∈ past ++ events) := by
  have hkept : l.flight = some flight → flight.now ∈ l.nows ∧
      (flight.outcome = some .confirmed → .returned flight.dispatch.guard
        flight.dispatch.occurrence.dueAt .ok ∈ past ++ events) := by
    intro hold
    exact ⟨h.flown flight hold, fun hok => mem_append_left _ (h.answered flight hold hok)⟩
  cases hstep with
  | dispatched _ _ _ _ hnow =>
    cases hflight
    exact ⟨hnow, by simp⟩
  | @returned before result hpre =>
    cases hflight
    refine ⟨h.flown before hpre, ?_⟩
    intro hok
    obtain rfl := classify_eq_confirmed.mp (Option.some.inj hok)
    exact mem_append_right _ mem_cons_self
  | settled | dropped | restarted => cases hflight
  | _ => exact hkept hflight

theorem Account.step (h : Account config schedule nows l past) (hstep : Step config l events l')
    (hgone : .removed ∉ events) : Account config schedule nows l' (past ++ events) := by
  obtain ⟨entry, hentry, hplan, hpol, hcursor, hbound⟩ := h.entry
  obtain ⟨entry', hentry', hfollows⟩ := hstep.follows hentry hgone
  have hran : ∀ now ∈ l'.nows, Ran schedule nows (past ++ events) now := by
    intro now hnow
    rcases hstep.mem_nows hnow with hold | hnew
    · exact (h.ran now hold).append
    · exact .inr (.inl (mem_append_right _ hnew))
  have hthrough : ∀ through, entry'.skipBacklogThrough = some through →
      Ran schedule nows (past ++ events) through := by
    intro through hsome
    rcases hstep.boundary hentry h.flown hentry' hsome with hold | hnow
    · exact (hbound through hold).append
    · exact (h.ran through hnow).append
  have hwalk : entry'.nextDueAt = schedule.plan.chain schedule.nextDueAt
        ((past ++ events).filterMap LifeEvent.passed).length ∧
      schedule.plan.Walks schedule.nextDueAt ((past ++ events).filterMap LifeEvent.passed) := by
    rw [filterMap_append]
    rcases hfollows.cursor with ⟨hnone, hsame⟩ | ⟨due, hdue, hcur, hadv⟩
    · rw [hnone, append_nil]
      exact ⟨hsame.trans hcursor, h.walks⟩
    · rw [hdue, length_append, length_singleton, SchedulePlan.chain_succ, ← hcursor,
        hcur, ← hplan]
      exact ⟨hadv, hplan ▸ h.walks.concat (hcursor.symm.trans hcur)⟩
  refine ⟨?_, hwalk.2, hran, ?_, ?_, ?_⟩
  · exact ⟨entry', hentry', hfollows.plan.trans hplan, hfollows.policy.trans hpol, hwalk.1,
      hthrough⟩
  · intro flight hflight
    exact hstep.nows_subset (h.flight hstep hflight).1
  · intro flight hflight
    exact (h.flight hstep hflight).2
  · intro earlier event hprefix hpassed
    -- A step reports one event at most, so the last one is the step's or it is an old one.
    have hsingle := hstep.length_le_one
    rcases events with _ | ⟨last, _ | ⟨next, later⟩⟩
    · exact h.accounted (by simpa using hprefix) hpassed
    · rcases prefix_concat_iff.mp hprefix with hwhole | hpast
      · obtain ⟨rfl, hlast⟩ := append_inj' hwhole rfl
        obtain rfl : event = last := by simpa using hlast
        exact h.accounts hstep hpassed
      · exact h.accounted hpast hpassed
    · simp at hsingle

/-- From a registration on, the cursor is accounted for until the schedule is removed. -/
theorem account_of_runs (hentry : l.entry = some (scheduleEntry schedule))
    (hflight : l.flight = none) (hrun : Runs (Step config) l events l')
    (hgone : .removed ∉ events) : Account config schedule l.nows l' events := by
  have hstart : Account config schedule l.nows l [] := by
    refine ⟨⟨_, hentry, rfl, rfl, ?_, ?_⟩, ?_, ?_, ?_, ?_, ?_⟩
    · simp [scheduleEntry]
    · intro through h
      exact .inr (.inr h)
    · exact .nil
    · intro now h
      exact .inl h
    · simp [hflight]
    · simp [hflight]
    · intro earlier event hprefix
      simp at hprefix
  refine hrun.history (I := fun l' past => .removed ∉ past → Account config schedule l.nows l' past)
    ?_ [] (fun _ => hstart) hgone
  intro l₁ past events l₂ h hstep hgone
  rw [mem_append, not_or] at hgone
  exact (h hgone.1).step hstep hgone.2

/-! ## Schedules that catch up -/

end Life

def LifeEvent.answered : LifeEvent T → Option SystemTime
  | .returned _ due .ok => some due
  | _ => none

namespace Life

variable {l l' : Life T} {events past : List (LifeEvent T)} {schedule : Schedule T}

/-- After `count` confirmed calls of a `CatchUp` schedule the cursor is right behind the
last of them, or still on it while its tick has not applied the answer, or never will. -/
structure Caught (schedule : Schedule T) (count : ℕ) (entry : ScheduleEntry T)
    (flight : Option (Flight T)) : Prop where
  plan : entry.plan = schedule.plan
  policy : entry.misfirePolicy = .catchUp
  pinned : ∀ f, flight = some f → entry.status = .reconciliationRequired ∧
    entry.nextDueAt = some f.dispatch.occurrence.dueAt
  cursor : (entry.nextDueAt = schedule.plan.chain schedule.nextDueAt count ∧
      ∀ f, flight = some f → f.outcome ≠ some .confirmed) ∨
    (entry.status = .reconciliationRequired ∧
      schedule.plan.advance entry.nextDueAt = schedule.plan.chain schedule.nextDueAt count ∧
      ∀ f, flight = some f → f.outcome = some .confirmed)

/-- The confirmed calls of a `CatchUp` schedule are the first instants of its chain. -/
structure CatchUpAccount (schedule : Schedule T) (l : Life T) (past : List (LifeEvent T)) :
    Prop where
  entry : ∃ entry, l.entry = some entry ∧
    Caught schedule (past.filterMap LifeEvent.answered).length entry l.flight
  walks : schedule.plan.Walks schedule.nextDueAt (past.filterMap LifeEvent.answered)

variable {entry entry' : ScheduleEntry T} {count : ℕ} {flight : Option (Flight T)} {f : Flight T}

/-- While the schedule is not blocked, the cursor is right behind the confirmed calls. -/
theorem Caught.unblocked (h : Caught schedule count entry flight)
    (hstatus : entry.status ≠ .reconciliationRequired) :
    entry.nextDueAt = schedule.plan.chain schedule.nextDueAt count := by
  rcases h.cursor with hcur | hcur
  · exact hcur.1
  · exact absurd hcur.1 hstatus

/-- Without a call in flight, an entry that was blocked stays blocked. -/
theorem Caught.drop (h : Caught schedule count entry flight) (hplan : entry'.plan = entry.plan)
    (hpol : entry'.misfirePolicy = entry.misfirePolicy)
    (hcur : entry'.nextDueAt = entry.nextDueAt)
    (hstatus : entry.status = .reconciliationRequired → entry'.status = .reconciliationRequired) :
    Caught schedule count entry' none where
  plan := hplan.trans h.plan
  policy := hpol.trans h.policy
  pinned := by simp
  cursor := by
    rw [hcur]
    rcases h.cursor with hbehind | hon
    · exact .inl ⟨hbehind.1, by simp⟩
    · exact .inr ⟨hstatus hon.1, hon.2.1, by simp⟩

/-- Applying the answer of a call brings the cursor right behind the confirmed ones. -/
theorem Caught.settle {f outcome} (h : Caught schedule count entry (some f))
    (hout : f.outcome = some outcome) (misfired : Bool) (now : SystemTime) :
    Caught schedule count ({ entry with dispatchToken := none }.settle outcome misfired now)
      none := by
  refine ⟨(ScheduleEntry.settle_plan ..).trans h.plan,
    (ScheduleEntry.settle_misfirePolicy ..).trans h.policy, by simp, .inl ⟨?_, by simp⟩⟩
  rcases h.cursor with ⟨hcur, hunconfirmed⟩ | ⟨_, hcur, hconf⟩
  · cases outcome with
    | confirmed => exact absurd hout (hunconfirmed f rfl)
    | notStarted | unknown => exact hcur
  · obtain rfl : outcome = .confirmed :=
      Option.some.inj (hout.symm.trans (hconf f rfl))
    rw [ScheduleEntry.settle_confirmed_nextDueAt, h.plan]
    exact hcur

/-- Until the call of a tick returns, the cursor is right behind the confirmed calls. -/
theorem Caught.waiting (h : Caught schedule count entry (some f)) (hout : f.outcome = none) :
    schedule.plan.chain schedule.nextDueAt count = some f.dispatch.occurrence.dueAt := by
  rcases h.cursor with ⟨hcur, _⟩ | ⟨_, _, hconf⟩
  · rw [← hcur]
    exact (h.pinned f rfl).2
  · simp [hconf f rfl] at hout

/-- The answer to the call counts if it is a confirmation. -/
theorem Caught.answer {outcome} {count' : ℕ} (h : Caught schedule count entry (some f))
    (hout : f.outcome = none)
    (hcount : outcome = .confirmed ∧ count' = count + 1 ∨ outcome ≠ .confirmed ∧ count' = count) :
    Caught schedule count' entry (some { f with outcome := some outcome }) := by
  have hpinned := h.pinned f rfl
  refine ⟨h.plan, h.policy, ?_, ?_⟩
  · intro g hg
    cases hg
    exact hpinned
  · rcases hcount with ⟨rfl, rfl⟩ | ⟨hfailed, rfl⟩
    · refine .inr ⟨hpinned.1, ?_, by simp⟩
      rw [SchedulePlan.chain_succ, h.waiting hout, hpinned.2]
    · exact .inl ⟨by rw [h.waiting hout, hpinned.2], by simpa using hfailed⟩

/-- Without the owner's resolutions, every step keeps the account. -/
theorem CatchUpAccount.step (h : CatchUpAccount schedule l past)
    (hstep : Step config l events l') (hgone : .removed ∉ events)
    (hres : ∀ cursor resolution, .resolved cursor resolution ∉ events) :
    CatchUpAccount schedule l' (past ++ events) := by
  obtain ⟨⟨entry, hentry, hcaught⟩, hwalks⟩ := h
  -- Every step but the dispatcher's answer leaves the confirmed calls as they are.
  have hquiet : ∀ entry', events.filterMap LifeEvent.answered = [] →
      l'.entry = some entry' →
      Caught schedule (past.filterMap LifeEvent.answered).length entry' l'.flight →
      CatchUpAccount schedule l' (past ++ events) := by
    intro entry' hnone hentry' hcaught'
    have hsame : (past ++ events).filterMap LifeEvent.answered =
        past.filterMap LifeEvent.answered := by
      rw [filterMap_append, hnone, append_nil]
    exact ⟨⟨entry', hentry', hsame ▸ hcaught'⟩, hsame ▸ hwalks⟩
  cases hstep with
  | ticked => exact hquiet _ rfl hentry hcaught
  | registered _ hnone => simp [hnone] at hentry
  | removed => simp at hgone
  | setStatus hfound hflight hold =>
    cases hfound.symm.trans hentry
    refine hquiet _ rfl rfl (hflight ▸ hcaught.drop rfl rfl rfl ?_)
    rcases hold with hold | hold <;> simp [hold]
  | cleared hfound hflight hready =>
    cases hfound.symm.trans hentry
    exact hquiet _ rfl rfl (hflight ▸ hcaught.drop rfl rfl rfl id)
  | skipped _ hfound _ _ hskips =>
    cases hfound.symm.trans hentry
    have hpol := hcaught.policy
    cases hskips with
    | abandoned _ _ _ hsupp => simp [ScheduleEntry.suppresses, hpol] at hsupp
    | misfired _ _ hskip => simp [hpol] at hskip
  | @dispatched _ now due token call hfound hflight _ hready =>
    cases hfound.symm.trans hentry
    refine hquiet _ rfl rfl ⟨hcaught.plan, hcaught.policy, ?_, .inl ⟨?_, ?_⟩⟩
    · intro f hf
      cases hf
      exact ⟨rfl, hready.cursor⟩
    · exact hcaught.unblocked (by simp [hready.active])
    · intro f hf
      cases hf
      simp
  | @returned f result hflight hout =>
    rw [hflight] at hcaught
    by_cases hok : result = .ok
    · subst hok
      have hconcat : (past ++ [LifeEvent.returned f.dispatch.guard
            f.dispatch.occurrence.dueAt .ok]).filterMap LifeEvent.answered =
          past.filterMap LifeEvent.answered ++ [f.dispatch.occurrence.dueAt] := by
        simp [LifeEvent.answered]
      refine ⟨⟨entry, hentry, ?_⟩, ?_⟩ <;> rw [hconcat]
      · exact hcaught.answer hout (.inl ⟨rfl, by simp⟩)
      · exact hwalks.concat (hcaught.waiting hout)
    · refine hquiet entry ?_ hentry
        (hcaught.answer hout (.inr ⟨mt classify_eq_confirmed.mp hok, rfl⟩))
      cases result with
      | ok => exact absurd rfl hok
      | failed | elapsed => rfl
  | settled hfound hflight hout =>
    cases hfound.symm.trans hentry
    exact hquiet _ rfl rfl ((hflight ▸ hcaught).settle hout _ _)
  | dropped => exact hquiet _ rfl hentry (hcaught.drop rfl rfl rfl id)
  | resolved => exact absurd mem_cons_self (hres _ _)
  | restarted =>
    exact hquiet entry.forget rfl (by rw [hentry]; rfl) (hcaught.drop rfl rfl rfl id)

theorem catchUpAccount_of_runs (hentry : l.entry = some (scheduleEntry schedule))
    (hflight : l.flight = none) (hpol : schedule.misfirePolicy = .catchUp)
    (hrun : Runs (Step config) l events l') (hgone : .removed ∉ events)
    (hres : ∀ cursor resolution, .resolved cursor resolution ∉ events) :
    CatchUpAccount schedule l' events := by
  have hstart : CatchUpAccount schedule l [] := by
    refine ⟨⟨_, hentry, rfl, hpol, ?_, .inl ⟨rfl, ?_⟩⟩, .nil⟩
    · simp [hflight]
    · simp [hflight]
  refine hrun.history (I := fun l' past => .removed ∉ past →
    (∀ cursor resolution, .resolved cursor resolution ∉ past) → CatchUpAccount schedule l' past)
    ?_ [] (fun _ _ => hstart) hgone hres
  intro l₁ past events l₂ h hstep hgone hres
  simp only [mem_append, not_or] at hgone hres
  exact (h hgone.1 fun cursor resolution => (hres cursor resolution).1).step hstep
    hgone.2 fun cursor resolution => (hres cursor resolution).2

end Life

/-! ## The scheduler -/

/-- The occurrence of `id` that the cursor moves past with an event. -/
def Event.passed (id : ScheduleId) : Event T → Option SystemTime
  | .settled _ occurrence .confirmed =>
    if occurrence.scheduleId = id then some occurrence.dueAt else none
  | .skipped _ occurrence => if occurrence.scheduleId = id then some occurrence.dueAt else none
  | .resolved id' cursor .confirmed => if id' = id then cursor else none
  | _ => none

/-- The occurrence of `id` whose dispatch by a tick the dispatcher confirmed. -/
def Event.confirmed (id : ScheduleId) : Event T → Option SystemTime
  | .returned _ occurrence .ok =>
    if occurrence.scheduleId = id then some occurrence.dueAt else none
  | _ => none

/-- Why the cursor of `schedule`, registered after `before`, may move past an
occurrence when `earlier` has happened since. -/
inductive Event.Explained (config : SchedulerConfig) (schedule : Schedule T)
    (before earlier : List (Event T)) : Event T → Prop
  | confirmed {call : ℕ} {due : SystemTime}
      (answered : .returned call ⟨schedule.id, due⟩ .ok ∈ earlier) :
      Explained config schedule before earlier (.settled call ⟨schedule.id, due⟩ .confirmed)
  | resolved (cursor : Option SystemTime) :
      Explained config schedule before earlier (.resolved schedule.id cursor .confirmed)
  | skipped {i : ℕ} {now due : SystemTime}
      (policy : schedule.misfirePolicy = .skip ∨ schedule.misfirePolicy = .fireOnce)
      (ran : (∃ j, .tickStarted j now ∈ before ++ earlier) ∨
        schedule.skipBacklogThrough = some now)
      (overdue : config.misfireGrace < now - due) :
      Explained config schedule before earlier (.skipped i ⟨schedule.id, due⟩)

/-- `pause_schedule`, `resume_schedule` and the steps of `trigger_schedule`. -/
inductive Action.Administers : Action T → Prop
  | pause (id : ScheduleId) : Administers (.pauseSchedule id)
  | resume (id : ScheduleId) : Administers (.resumeSchedule id)
  | trigger (id : ScheduleId) (triggeredAt : SystemTime) :
      Administers (.triggerSchedule id triggeredAt)
  | triggerReturns (n : ℕ) (result : DispatchResult) : Administers (.triggerReturns n result)
  | triggerAborts (n : ℕ) : Administers (.triggerAborts n)

/-- No occurrence is lost between the registration of `schedule`, after `before`, and the
state `s` that `after` leads to. -/
structure Ledger (config : SchedulerConfig) (schedule : Schedule T)
    (before after : List (Event T)) (s : State T) : Prop where
  /-- The cursor is on the chain, one instant further for each occurrence passed. -/
  cursor : ∃ entry, s.registry.find schedule.id = some entry ∧
    entry.nextDueAt = schedule.plan.chain schedule.nextDueAt
      (after.filterMap (Event.passed schedule.id)).length
  /-- The occurrences passed are the chain up to there, each once. -/
  walks : schedule.plan.Walks schedule.nextDueAt (after.filterMap (Event.passed schedule.id))
  forward : (after.filterMap (Event.passed schedule.id)).Pairwise (· < ·)
  explained : ∀ {earlier event later due}, after = earlier ++ event :: later →
    event.passed schedule.id = some due → event.Explained config schedule before earlier
  /-- The counter of a tick is the number of its skips, up to `usize::MAX`, where the counter
  of the source saturates. -/
  counted : ∀ {i tick}, s.ticks[i]? = some tick →
    tick.report.skippedMisfires = min (skipsBy i (before ++ after)) usizeMax
  reported : ∀ {past i report}, past ++ [.tickFinished i report] <+: before ++ after →
    report.skippedMisfires = min (skipsBy i past) usizeMax
  /-- Pausing, resuming and triggering move no cursor. -/
  administered : ∀ {action s' events}, action.Administers →
    step config s action = some (s', events) → ∀ id,
      (s'.registry.find id).map ScheduleEntry.nextDueAt =
        (s.registry.find id).map ScheduleEntry.nextDueAt
  /-- What a `CatchUp` schedule had confirmed is the chain without a gap. -/
  caughtUp : schedule.misfirePolicy = .catchUp →
    (∀ cursor resolution, .resolved schedule.id cursor resolution ∉ after) →
    schedule.plan.Walks schedule.nextDueAt (after.filterMap (Event.confirmed schedule.id))

section ledger

variable {id : ScheduleId} {event : Event T} {s s' : State T} {schedule : Schedule T}
  {before after events : List (Event T)}

theorem Event.about_eq_ticked {now : SystemTime} :
    event.about id = some (.ticked now) ↔ ∃ i, event = .tickStarted i now := by
  cases event <;> simp [Event.about]

theorem Event.passed_eq (event : Event T) :
    event.passed id = (event.about id).bind LifeEvent.passed := by
  unfold Event.passed
  split
  case h_4 hsettled hskip hres =>
    cases event <;> simp only [Event.about] <;> try split
    all_goals simp_all [LifeEvent.passed]
  all_goals
    simp only [Event.about]
    split <;> rfl

theorem Event.confirmed_eq (event : Event T) :
    event.confirmed id = (event.about id).bind LifeEvent.answered := by
  cases event with
  | returned call occurrence result =>
    simp only [Event.about]
    cases result <;> split <;> simp_all [Event.confirmed, LifeEvent.answered]
  | _ =>
    simp only [Event.about]
    try split
    all_goals rfl

theorem filterMap_passed :
    (events.filterMap (Event.about id)).filterMap LifeEvent.passed =
      events.filterMap (Event.passed id) := by
  simp only [filterMap_filterMap, ← Event.passed_eq]

theorem filterMap_confirmed :
    (events.filterMap (Event.about id)).filterMap LifeEvent.answered =
      events.filterMap (Event.confirmed id) := by
  simp only [filterMap_filterMap, ← Event.confirmed_eq]

theorem Registry.cursor_put {registry : Registry T} {entry entry' : ScheduleEntry T}
    (hfind : registry.find entry.id = some entry) (hid : entry'.id = entry.id)
    (hcur : entry'.nextDueAt = entry.nextDueAt) :
    ((registry.put entry').find id).map ScheduleEntry.nextDueAt =
      (registry.find id).map ScheduleEntry.nextDueAt := by
  by_cases hsame : id = entry.id
  · subst hsame
    rw [Registry.find_put_self hfind hid, hfind, map_some, map_some, hcur]
  · rw [Registry.find_put_of_ne (hid ▸ hsame)]

/-- Pausing and resuming keep every cursor. -/
theorem State.setStatus_cursor (status : ScheduleStatus) (target : ScheduleId)
    (answer : Except ScheduleBuildError Unit → Answer) :
    ((s.setStatus target status answer).1.registry.find id).map ScheduleEntry.nextDueAt =
      (s.registry.find id).map ScheduleEntry.nextDueAt := by
  unfold State.setStatus
  cases hfind : (s.registry.prune s.flags).find target with
  | none => simp only [hfind]; rfl
  | some entry =>
    have hid : entry.id = target := Registry.id_of_find hfind
    subst hid
    simp only [hfind]
    split
    · exact Registry.cursor_put hfind rfl rfl
    · exact Registry.cursor_put hfind rfl rfl
    all_goals rfl

theorem State.endTrigger_registry (n : ℕ) : (s.endTrigger n).registry = s.registry := rfl

theorem Action.Administers.cursor {action : Action T} (h : action.Administers)
    (hstep : step config s action = some (s', events)) (id : ScheduleId) :
    (s'.registry.find id).map ScheduleEntry.nextDueAt =
      (s.registry.find id).map ScheduleEntry.nextDueAt := by
  cases h with
  | pause | resume =>
    obtain rfl := congrArg Prod.fst (Option.some.inj hstep)
    exact State.setStatus_cursor ..
  | trigger target triggeredAt =>
    obtain rfl := congrArg Prod.fst (Option.some.inj hstep)
    simp only [State.triggerSchedule]
    cases s.registry.find target with
    | none => rfl
    | some entry =>
      repeat' split
      all_goals rfl
  | triggerReturns | triggerAborts =>
    simp only [step, ite_none_right_eq_some, Option.some.injEq, Prod.mk.injEq] at hstep
    rw [← hstep.2.1, State.endTrigger_registry]

/-- What explains a move of the cursor in the life of a schedule is in the history. -/
theorem Event.Explained.of_accounted {l : Life T} {earlier : List (Event T)} {lifeEvent}
    (hnows : ∀ now ∈ l.nows, ∃ j, .tickStarted j now ∈ before)
    (habout : event.about schedule.id = some lifeEvent)
    (h : Life.Accounted config schedule l.nows (earlier.filterMap (Event.about schedule.id))
      lifeEvent) : event.Explained config schedule before earlier := by
  cases h with
  | confirmed hansw =>
    obtain rfl := Event.about_eq_settled.mp habout
    obtain ⟨origin, horigin, hret⟩ := mem_filterMap.mp hansw
    obtain rfl := Event.about_eq_returned.mp hret
    exact .confirmed horigin
  | resolved cursor =>
    obtain rfl := Event.about_eq_resolved.mp habout
    exact .resolved cursor
  | skipped policy ran overdue =>
    obtain rfl := Event.about_eq_skipped.mp habout
    refine .skipped policy ?_ (isOverdue_iff.mp overdue)
    rcases ran with hpre | hsince | hrest
    · obtain ⟨j, hj⟩ := hnows _ hpre
      exact .inl ⟨j, mem_append_left _ hj⟩
    · obtain ⟨origin, horigin, hticked⟩ := mem_filterMap.mp hsince
      obtain ⟨j, rfl⟩ := Event.about_eq_ticked.mp hticked
      exact .inl ⟨j, mem_append_right _ horigin⟩
    · exact .inr hrest

end ledger

/-- From its registration on and until it is removed, no occurrence of a schedule is
silently lost, whatever ticks, aborts, restarts and owner calls happen in between. -/
theorem no_occurrence_silently_lost {before after : List (Event T)} {s₀ s : State T}
    {schedule : Schedule T} (hreaches : Reaches config before s₀)
    (hregistered : s₀.registry.find schedule.id = some (scheduleEntry schedule))
    (hrun : Runs (machine T config).Step s₀ after s)
    (hregistration : .removed schedule.id ∉ after) :
    Ledger config schedule before after s := by
  have hinv : Inv config s₀ := hreaches.inv.1
  have hnows : ∀ l, Views schedule.id s₀ l →
      ∀ now ∈ l.nows, ∃ j, .tickStarted j now ∈ before := by
    intro l hviews now hnow
    rw [hviews.nows] at hnow
    obtain ⟨tick, htick, rfl⟩ := List.mem_map.mp hnow
    obtain ⟨j, hj⟩ := List.mem_iff_getElem?.mp htick
    exact ⟨j, hreaches.chronicle.started hj⟩
  have hchronicle : Chronicle s (before ++ after) := by
    obtain ⟨builder, hbuilder, hbefore⟩ := hreaches
    exact Reaches.chronicle ⟨builder, hbuilder, hbefore.trans hrun⟩
  obtain ⟨l, hviews⟩ := hinv.exists_views schedule.id
  have hentry : l.entry = some (scheduleEntry schedule) := hviews.entry.trans hregistered
  -- The new entry carries no token, so no call of an earlier registration is in flight.
  have hflight : l.flight = none := by
    cases hflight : l.flight with
    | none => rfl
    | some flight =>
      obtain ⟨i, hi, hid⟩ := (hviews.flight flight).mp hflight
      obtain ⟨entry, hfind, _, htoken, _⟩ := (hinv.pins_of_flight hi).entry
      rw [hid, hregistered, Option.some.injEq] at hfind
      simp [← hfind, scheduleEntry] at htoken
  obtain ⟨l', hlife, _, hviews'⟩ := life_of_runs hrun hinv hviews
  have hremoved : .removed ∉ after.filterMap (Event.about schedule.id) := by
    intro hmem
    obtain ⟨event, hevent, habout⟩ := List.mem_filterMap.mp hmem
    exact hregistration (Event.about_eq_removed.mp habout ▸ hevent)
  have haccount := Life.account_of_runs hentry hflight hlife hremoved
  have hwalks := haccount.walks
  rw [filterMap_passed] at hwalks
  refine ⟨?_, hwalks, hwalks.increases, ?_, hchronicle.counted, hchronicle.finished, ?_, ?_⟩
  · obtain ⟨entry, hentry', _, _, hcursor, _⟩ := haccount.entry
    rw [filterMap_passed] at hcursor
    exact ⟨entry, hviews'.entry ▸ hentry', hcursor⟩
  · intro earlier event later due hafter hpassed
    rw [Event.passed_eq, Option.bind_eq_some_iff] at hpassed
    obtain ⟨lifeEvent, habout, hdue⟩ := hpassed
    refine .of_accounted (hnows l hviews) habout (haccount.accounted ?_ (by simp [hdue]))
    refine ⟨later.filterMap (Event.about schedule.id), ?_⟩
    rw [hafter, List.filterMap_append, List.filterMap_cons, habout, List.append_assoc]
    rfl
  · intro action s' events hadministers hstep
    exact hadministers.cursor hstep
  · intro hpolicy hunresolved
    rw [← filterMap_confirmed]
    refine (Life.catchUpAccount_of_runs hentry hflight hpolicy hlife hremoved ?_).walks
    intro cursor resolution hmem
    obtain ⟨event, hevent, habout⟩ := List.mem_filterMap.mp hmem
    exact hunresolved cursor resolution (Event.about_eq_resolved.mp habout ▸ hevent)

/-- The sample schedule, dispatched late: two ticks confirm the instant zero and sweep
the next two. -/
theorem no_occurrence_silently_lost_swept :
    let actions : List (Action Unit) := Sample.dispatching 30 ++
      [.dispatchReturns 0 .ok, .poll 0 false, .abort 0, .tick 30 false, .poll 1 false,
        .poll 1 false, .poll 1 false]
    (Sample.after actions).2.filterMap (Event.passed Sample.id) = [0, 10, 20] ∧
      Ledger Sample.config Sample.schedule [] (Sample.after actions).2
        (Sample.after actions).1 := by
  intro actions
  have hrun : (machine Unit Sample.config).run Sample.start actions =
      some (Sample.after actions) := rfl
  have hregistration : .removed Sample.id ∉ (Sample.after actions).2 := by
    have hhistory : (Sample.after actions).2 =
        [.tickStarted 0 30, .dispatched 0 0 30 ⟨⟨Sample.id, 0⟩, 0, ()⟩,
          .returned 0 ⟨Sample.id, 0⟩ .ok, .settled 0 ⟨Sample.id, 0⟩ .confirmed,
          .skipped 0 ⟨Sample.id, 10⟩, .tickAborted 0, .tickStarted 1 30,
          .skipped 1 ⟨Sample.id, 20⟩] := rfl
    simp [hhistory]
  exact ⟨rfl, no_occurrence_silently_lost (Sample.reaches [] rfl) rfl
    (Machine.runs_of_run hrun) hregistration⟩

end PlenoraRuntime.Scheduler
