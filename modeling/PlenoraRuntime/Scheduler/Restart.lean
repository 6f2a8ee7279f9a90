import PlenoraRuntime.Scheduler.Alike

/-!
# Restart transparency

Two more invariants of the scheduler: every entry is persistable, so its snapshot
is accepted by `restore_from`, and every manual permit is either free or held by a
manual dispatch in progress. With them, a scheduler rebuilt from all snapshots while
no dispatch is in flight is `Alike` to the one it replaces, and nobody can tell the
two apart.
-/

namespace PlenoraRuntime.Scheduler

open Transition List

variable {T : Type*} {config : SchedulerConfig} {entry : ScheduleEntry T} {events : List (Event T)}
  {id : ScheduleId} {n : ℕ}

/-! ## Every snapshot can be restored -/

namespace ScheduleEntry

variable {entry : ScheduleEntry T} {status : ScheduleStatus}

theorem Persistable.cursor (h : entry.Persistable) (hstatus : entry.status ≠ .completed) :
    entry.nextDueAt.isSome := by
  have hvalid := h.cursor_valid
  cases hcur : entry.status with
  | completed => exact absurd hcur hstatus
  | _ =>
    rw [hcur] at hvalid
    exact hvalid

theorem persistable_of_cursor (hcursor : entry.nextDueAt.isSome)
    (hstatus : entry.status ≠ .completed) : entry.Persistable where
  cursor_valid := by
    cases hcur : entry.status with
    | completed => exact absurd hcur hstatus
    | _ => exact hcursor
  boundary_valid := by
    intro hnone
    simp [hnone] at hcursor

theorem persistable_advanceOnce : entry.advanceOnce.Persistable := by
  unfold advanceOnce
  cases hnext : entry.plan.advance entry.nextDueAt with
  | none => exact ⟨rfl, fun _ => rfl⟩
  | some next => exact persistable_of_cursor rfl (by simp)

theorem Persistable.forget (h : entry.Persistable) : entry.forget.Persistable :=
  ⟨h.cursor_valid, h.boundary_valid⟩

theorem Skips.persistable {skipped : ScheduleEntry T} {now due : SystemTime}
    (h : entry.Skips config now due skipped) : skipped.Persistable := by
  cases h with
  | abandoned | misfired => exact persistable_advanceOnce

theorem persistable_settle (entry : ScheduleEntry T) (hcur : entry.nextDueAt.isSome)
    (hstatus : entry.status = .reconciliationRequired) (outcome : DispatchOutcome)
    (misfired : Bool) (now : SystemTime) : (entry.settle outcome misfired now).Persistable := by
  cases outcome with
  | confirmed =>
    simp only [settle]
    split
    case isTrue hfires =>
      simp only [Bool.and_eq_true] at hfires
      refine persistable_of_cursor hfires.2 ?_
      rw [advanceOnce_status_of_isSome hfires.2]
      simp
    case isFalse => exact persistable_advanceOnce
  | notStarted => exact persistable_of_cursor hcur (by simp [settle])
  | unknown => exact persistable_of_cursor hcur (by simp [settle, hstatus])

theorem Persistable.resolve (h : entry.Persistable)
    (hstatus : entry.status = .reconciliationRequired) (resolution : ReconciliationResolution) :
    (entry.resolve resolution).Persistable := by
  cases resolution with
  | confirmed => exact persistable_advanceOnce
  | retry =>
    exact persistable_of_cursor (h.cursor (by simp [hstatus])) (by simp [ScheduleEntry.resolve])

end ScheduleEntry

def State.Persistable (s : State T) : Prop :=
  ∀ entry ∈ s.registry.entries, entry.Persistable

variable {s s' : State T}

section persistable

theorem State.Persistable.put (h : s.Persistable) (hentry : entry.Persistable) :
    ∀ other ∈ (s.registry.put entry).entries, other.Persistable := by
  intro other hother
  rcases Keyed.mem_replace hother with rfl | hold
  · exact hentry
  · exact h other hold

theorem State.Persistable.of_find (h : s.Persistable) (hfind : s.registry.find id = some entry) :
    entry.Persistable :=
  h entry (Keyed.mem_of_lookup hfind)

theorem Update.persistable (hupdate : Update config s events s') (hinv : Inv config s)
    (h : s.Persistable) : s'.Persistable := by
  cases hupdate with
  | register schedule =>
    exact forall_mem_concat h ⟨schedule.cursor_valid, schedule.boundary_valid⟩
  | remove =>
    intro entry hentry
    exact h entry (mem_of_mem_eraseP hentry)
  | @setStatus entry status hfind hold hnew =>
    refine h.put (ScheduleEntry.persistable_of_cursor ?_ ?_)
    · refine (h.of_find hfind).cursor ?_
      rcases hold with hold | hold <;> simp [hold]
    · rcases hnew with hnew | hnew <;> simp [hnew]
  | clear hfind hready =>
    refine h.put (ScheduleEntry.persistable_of_cursor ?_ ?_)
    · simp [hready.cursor]
    · simp [hready.active]
  | skip _ _ _ hskips => exact h.put hskips.persistable
  | dispatch _ _ _ hready =>
    refine h.put (ScheduleEntry.persistable_of_cursor ?_ ?_)
    · simp [ScheduleEntry.issue, hready.cursor]
    · simp [ScheduleEntry.issue]
  | @settle i tick tick' flight outcome entry htick hflight _ hid hfind =>
    obtain ⟨pinned, hpinned, hstatus, _, hcur⟩ := (hinv.pins_of_tick htick hflight).entry
    rw [← hid, hfind, Option.some.injEq] at hpinned
    subst hpinned
    have hsome : entry.nextDueAt.isSome := by simp [hcur]
    exact h.put (ScheduleEntry.persistable_settle { entry with dispatchToken := none } hsome
      hstatus ..)
  | resolve resolution _ hfind hstatus => exact h.put ((h.of_find hfind).resolve hstatus resolution)
  | restart hrestart =>
    intro entry hentry
    rw [State.restart_entries hrestart] at hentry
    obtain ⟨old, hold, rfl⟩ := mem_map.mp hentry
    exact (h old hold).forget
  | _ => exact h

end persistable

/-! ## Manual permits -/

/-- Every permit for a manual dispatch is free or held by one in progress. -/
def State.PermitsKept (config : SchedulerConfig) (s : State T) : Prop :=
  s.manualPermits + s.triggers.count .dispatching = config.maxDispatchesPerTick

section permits

theorem State.PermitsKept.endTrigger (h : s.PermitsKept config)
    (htrigger : s.triggers[n]? = some .dispatching) : (s.endTrigger n).PermitsKept config := by
  obtain ⟨hlt, hat⟩ := List.getElem?_eq_some_iff.mp htrigger
  have hcount : 0 < s.triggers.count .dispatching :=
    count_pos_iff.mpr (hat ▸ getElem_mem hlt)
  unfold State.PermitsKept at h ⊢
  simp only [State.endTrigger, count_set hlt, hat]
  simp only [↓reduceIte, reduceCtorEq, beq_iff_eq]
  omega

theorem State.restart_permits (hrestart : s.restart config = some s') : s'.PermitsKept config := by
  simp only [State.restart, Option.map_eq_some_iff] at hrestart
  obtain ⟨builder, _, rfl⟩ := hrestart
  have hdone : (s.triggers.map fun _ => TriggerPhase.done).count .dispatching = 0 := by
    rw [count_eq_zero]
    simp
  exact congrArg (config.maxDispatchesPerTick + ·) hdone

theorem Update.permitsKept (hupdate : Update config s events s') (h : s.PermitsKept config) :
    s'.PermitsKept config := by
  cases hupdate with
  | trigger occurrence hpermits =>
    unfold State.PermitsKept at h ⊢
    simp only [count_append, count_singleton_self]
    omega
  | endTrigger htrigger => exact h.endTrigger htrigger
  | restart hrestart => exact State.restart_permits hrestart
  | _ => exact h

end permits

/-! ## The rebuilt scheduler -/

/-- No tick and no manual trigger is waiting for the dispatcher, or holds an answer that
is yet to be applied. -/
structure State.Idle (s : State T) : Prop where
  flight : ∀ i, s.flight i = none
  trigger : .dispatching ∉ s.triggers

section rebuilt

variable {r : State T} {history : List (Event T)} {snapshot : ScheduleSnapshot} {action : Action T}

theorem Reaches.persistable (hreach : Reaches config history s) : s.Persistable := by
  obtain ⟨builder, hreg, hrun⟩ := hreach
  have hstart : (builder.build config).Persistable := by
    intro entry hentry
    obtain ⟨schedule, _, rfl⟩ := mem_map.mp hentry
    exact ⟨schedule.cursor_valid, schedule.boundary_valid⟩
  refine ((hrun.refine step_updates).invariant (I := fun s => Inv config s ∧ s.Persistable) ?_
    ⟨hreg.valid.inv, hstart⟩).2
  rintro s events s' ⟨hinv, h⟩ hupdate
  exact ⟨hupdate.inv hinv, hupdate.persistable hinv h⟩

theorem Reaches.permitsKept (hreach : Reaches config history s) : s.PermitsKept config := by
  obtain ⟨builder, _, hrun⟩ := hreach
  refine (hrun.refine step_updates).invariant (fun h hupdate => hupdate.permitsKept h) ?_
  simp [State.PermitsKept, SchedulerBuilder.build]

theorem Reaches.restart_isSome (hreach : Reaches config history s) :
    ∃ rebuilt, s.restart config = some rebuilt := by
  have hinv := hreach.inv.1
  obtain ⟨builder, hbuilder⟩ := rebuild_isSome SchedulerBuilder.Valid.empty
    hreach.persistable
    (by simpa using hinv.ids_nodup) (by simpa using hinv.capacity)
  exact ⟨_, by simp only [State.restart, hbuilder]; rfl⟩

/-- Without a dispatch in flight no flag is set. -/
theorem Inv.isActive_of_idle (hinv : Inv config s) (hidle : s.Idle) (cell : ℕ) :
    isActive s.flags cell = false := by
  by_contra hactive
  rw [Bool.not_eq_false] at hactive
  obtain ⟨i, hold, hheld, _⟩ := hinv.live cell hactive
  simp [State.held, hidle.flight i] at hheld

theorem Inv.flags_of_idle (hinv : Inv config s) (hidle : s.Idle) :
    s.flags.map (fun _ => false) = s.flags := by
  have hfalse : ∀ flag ∈ s.flags, false = flag := by
    intro flag hflag
    obtain ⟨cell, hcell⟩ := mem_iff_getElem?.mp hflag
    have hinact := hinv.isActive_of_idle hidle cell
    rw [isActive, getD_eq_getElem?_getD, hcell] at hinact
    exact hinact.symm
  calc s.flags.map (fun _ => false)
      = s.flags.map id := map_congr_left hfalse
    _ = s.flags := map_id _

/-- A scheduler rebuilt while no dispatch is in flight is like the one it replaces. -/
theorem Reaches.alike_restart (hreach : Reaches config history s) (hidle : s.Idle)
    (hrestart : s.restart config = some r) : Alike s.ticks.length s.triggers.length s r := by
  have hinv := hreach.inv.1
  have hents := State.restart_entries hrestart
  simp only [State.restart, Option.map_eq_some_iff] at hrestart
  obtain ⟨builder, _, rfl⟩ := hrestart
  refine ⟨⟨?_, ?_⟩, ?_, ?_, ?_, ?_, ?_, ?_⟩
  · rw [hents, map_map]
    rfl
  · -- No record of the old scheduler has a live dispatch.
    have hpruned : (s.registry.prune s.flags).running = [] := by
      simp [Registry.prune, hinv.isActive_of_idle hidle]
    rw [hpruned]
    rfl
  · exact (hinv.flags_of_idle hidle).symm
  · have hkept := hreach.permitsKept
    unfold State.PermitsKept at hkept
    rw [count_eq_zero.mpr hidle.trigger] at hkept
    exact hkept
  · simp
  · intro i hi
    rw [getElem?_eq_none hi, getElem?_eq_none (by simpa using hi)]
    exact .none
  · simp
  · intro k hk
    rw [getElem?_eq_none hk, getElem?_eq_none (by simpa using hk)]

theorem restoreFrom_of_snapshot (h : entry.Persistable) (hsnap : entry.snapshot = snapshot)
    {schedule : Schedule T} (hid : schedule.id = snapshot.id) :
    ∃ restored, schedule.restoreFrom snapshot = .ok restored := by
  subst hsnap
  exact h.restoreFrom hid

/-- The snapshot that `remove_schedule` returns is that of the removed entry. -/
theorem State.removed_snapshot (h : .answered (.removed (.ok snapshot)) ∈ (s.removeSchedule id).2) :
    ∃ entry, s.registry.find id = some entry ∧ entry.snapshot = snapshot := by
  simp only [State.removeSchedule] at h
  split at h
  case h_1 => simp at h
  case h_2 entry hfind =>
    split at h
    case isTrue => simp at h
    case isFalse =>
      simp only [mem_cons, reduceCtorEq, not_mem_nil, or_false, false_or,
        Event.answered.injEq, Answer.removed.injEq, Except.ok.injEq] at h
      exact ⟨entry, hfind, h.symm⟩

theorem Inv.step {next : State T × List (Event T)} (h : Inv config s)
    (hstep : step config s action = some next) : Inv config next.1 :=
  (step_updates ⟨action, hstep⟩).invariant (fun h hupdate => hupdate.inv h) h

/-- States that are alike stay so, and keep their invariants. -/
theorem Alike.step_inv {m : ℕ} (h : Alike n m s r) (hs : Inv config s) (hr : Inv config r)
    (hact : action.From n m) :
    Option.Rel (fun next next' => next.2 = next'.2 ∧
        Alike n m next.1 next'.1 ∧ Inv config next.1 ∧ Inv config next'.1)
      (Scheduler.step config s action) (Scheduler.step config r action) := by
  have hmatches := h.step hs hr hact
  cases hnext : Scheduler.step config s action <;>
    cases hnext' : Scheduler.step config r action <;> rw [hnext, hnext'] at hmatches
  · exact .none
  · cases hmatches
  · cases hmatches
  · cases hmatches with
    | some hsame => exact .some ⟨hsame.1, hsame.2, hs.step hnext, hr.step hnext'⟩

/-- Every snapshot that `snapshots` or `remove_schedule` returns can be restored, and a
scheduler rebuilt from all snapshots while no dispatch is in flight cannot be told apart
from the one it replaces: whatever is called later and however the dispatcher answers,
both report the same events. -/
theorem restart_transparency (hreaches : Reaches config history s) :
    (∀ s' snapshots, step config s .snapshots = some (s', [.answered (.snapshots snapshots)]) →
      ∀ snapshot ∈ snapshots, ∀ schedule : Schedule T, schedule.id = snapshot.id →
        ∃ restored, schedule.restoreFrom snapshot = .ok restored) ∧
    (∀ id s' events snapshot, step config s (.removeSchedule id) = some (s', events) →
      .answered (.removed (.ok snapshot)) ∈ events →
      ∀ schedule : Schedule T, schedule.id = snapshot.id →
        ∃ restored, schedule.restoreFrom snapshot = .ok restored) ∧
    ∃ rebuilt, s.restart config = some rebuilt ∧
      (s.Idle → ∀ actions : List (Action T),
        (∀ action ∈ actions, action.From s.ticks.length s.triggers.length) →
        ((machine T config).run s actions).map Prod.snd =
          ((machine T config).run rebuilt actions).map Prod.snd) := by
  have hpersistable := hreaches.persistable
  refine ⟨?_, ?_, ?_⟩
  · intro s' snapshots hstep snapshot hsnapshot schedule hid
    obtain rfl : s.registry.entries.map ScheduleEntry.snapshot = snapshots := by
      simp only [step, Option.some.injEq, Prod.mk.injEq, List.cons.injEq, and_true,
        Event.answered.injEq, Answer.snapshots.injEq] at hstep
      exact hstep.2
    obtain ⟨entry, hentry, heq⟩ := List.mem_map.mp hsnapshot
    exact restoreFrom_of_snapshot (hpersistable entry hentry) heq hid
  · intro id s' events snapshot hstep hmem schedule hid
    obtain rfl : (s.removeSchedule id).2 = events := congrArg Prod.snd (Option.some.inj hstep)
    obtain ⟨entry, hfind, heq⟩ := State.removed_snapshot hmem
    exact restoreFrom_of_snapshot (hpersistable.of_find hfind) heq hid
  · obtain ⟨rebuilt, hrestart⟩ := hreaches.restart_isSome
    refine ⟨rebuilt, hrestart, ?_⟩
    intro hidle actions hactions
    refine Machine.run_events_eq (R := fun s r =>
      Alike _ _ s r ∧ Inv config s ∧ Inv config r) ?_ hactions
      ⟨hreaches.alike_restart hidle hrestart, hreaches.inv.1, .restart hrestart⟩
    rintro s₁ r₁ action ⟨halike, hs, hr⟩ haction
    exact halike.step_inv hs hr haction

/-- After a dropped tick the sample schedule requires reconciliation. The scheduler
rebuilt from its snapshot lets the owner retry and dispatches again, like the old one. -/
theorem restart_transparency_aborted :
    let s := (Sample.after (Sample.dispatching 2 ++ [.abort 0])).1
    let actions : List (Action Unit) :=
      [.snapshots, .resolveReconciliation Sample.id .retry, .tick 2 false, .poll 1 false,
        .poll 1 false, .poll 1 false]
    s.Idle ∧ ∃ rebuilt, s.restart Sample.config = some rebuilt ∧
      ((machine Unit Sample.config).run s actions).map Prod.snd =
        ((machine Unit Sample.config).run rebuilt actions).map Prod.snd ∧
      (((machine Unit Sample.config).run s actions).map fun last => last.2.length) = some 5 := by
  intro s actions
  have hidle : s.Idle := by
    refine ⟨?_, ?_⟩
    · intro i
      cases i with
      | zero => rfl
      | succ i => rfl
    · have hnone : s.triggers = [] := rfl
      simp [hnone]
  have hactions : ∀ action ∈ actions, action.From s.ticks.length s.triggers.length := by
    have hticks : s.ticks.length = 1 := rfl
    simp [actions, Action.From, hticks]
  obtain ⟨rebuilt, hrestart, hsame⟩ :=
    (restart_transparency (Sample.reaches (Sample.dispatching 2 ++ [.abort 0]) rfl)).2.2
  exact ⟨hidle, rebuilt, hrestart, hsame hidle actions hactions, rfl⟩

end rebuilt

end PlenoraRuntime.Scheduler
