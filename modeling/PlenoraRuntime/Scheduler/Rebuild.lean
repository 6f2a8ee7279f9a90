import PlenoraRuntime.Scheduler.System

/-!
# Snapshots, restoration and rebuilding

`restore_from` accepts a snapshot when its cursor agrees with its status and no
boundary outlives the cursor. `Persistable` is that condition for a registered
entry. A scheduler rebuilt from the snapshots of persistable entries with
distinct identities has the same entries, without the tokens of the dispatches
that were issued for them.
-/

namespace PlenoraRuntime.Scheduler

open List

variable {T : Type*} {config : SchedulerConfig}

/-! ## Restoring one entry -/

namespace ScheduleEntry

/-- The entry as another process sees it: dispatch tokens are not persisted. -/
def forget (entry : ScheduleEntry T) : ScheduleEntry T :=
  { entry with dispatchToken := none }

@[simp] theorem forget_id (entry : ScheduleEntry T) : entry.forget.id = entry.id := rfl

/-- The entry's snapshot passes the checks of `restore_from`. -/
structure Persistable (entry : ScheduleEntry T) : Prop where
  cursor_valid : cursorIsValid entry.status entry.nextDueAt = true
  boundary_valid : entry.nextDueAt = none → entry.skipBacklogThrough = none

variable {entry : ScheduleEntry T} {schedule : Schedule T}

theorem Persistable.restoreFrom (h : entry.Persistable) (hid : schedule.id = entry.id) :
    ∃ restored, schedule.restoreFrom entry.snapshot = .ok restored := by
  have hbound : ¬ (entry.nextDueAt.isNone ∧ entry.skipBacklogThrough.isSome) := by
    rintro ⟨hnone, hsome⟩
    rw [h.boundary_valid (Option.isNone_iff_eq_none.mp hnone)] at hsome
    simp at hsome
  unfold Schedule.restoreFrom
  simp only [ScheduleEntry.snapshot, hid, ne_eq, not_true_eq_false, h.cursor_valid, hbound]
  exact ⟨_, rfl⟩

theorem scheduleEntry_of_restore (h : entry.restore = .ok schedule) :
    scheduleEntry schedule = entry.forget := by
  unfold ScheduleEntry.restore Schedule.restoreFrom at h
  split at h
  case isTrue => cases h
  case isFalse =>
    split at h
    case isFalse => cases h
    case isTrue =>
      split at h
      case isTrue => cases h
      case isFalse =>
        cases h
        rfl

end ScheduleEntry

/-! ## Builders -/

/-- What every sequence of `register` calls maintains. -/
structure SchedulerBuilder.Valid (config : SchedulerConfig) (builder : SchedulerBuilder T) :
    Prop where
  ids_nodup : (builder.schedules.map Schedule.id).Nodup
  capacity : builder.schedules.length ≤ config.maxSchedules
  mem_ids : ∀ id, id ∈ builder.ids ↔ id ∈ builder.schedules.map Schedule.id

section builder

variable {builder next : SchedulerBuilder T} {schedule : Schedule T}

theorem SchedulerBuilder.Valid.empty : SchedulerBuilder.Valid (T := T) config {} where
  ids_nodup := nodup_nil
  capacity := Nat.zero_le _
  mem_ids := by simp

theorem SchedulerBuilder.schedules_of_register (h : builder.register config schedule = .ok next) :
    next.schedules = builder.schedules ++ [schedule] := by
  unfold SchedulerBuilder.register at h
  split at h
  case isTrue => cases h
  case isFalse =>
    split at h
    case isTrue => cases h
    case isFalse =>
      cases h
      rfl

theorem SchedulerBuilder.Valid.register (hvalid : builder.Valid config)
    (h : builder.register config schedule = .ok next) : next.Valid config := by
  unfold SchedulerBuilder.register at h
  split at h
  case isTrue => cases h
  case isFalse hcap =>
    split at h
    case isTrue => cases h
    case isFalse hnew =>
      cases h
      rw [hvalid.mem_ids] at hnew
      refine ⟨?_, ?_, ?_⟩
      · rw [map_append, nodup_append_comm]
        exact nodup_cons.mpr ⟨hnew, hvalid.ids_nodup⟩
      · rw [length_append, length_singleton]
        omega
      · intro id
        simp only [mem_cons, hvalid.mem_ids, map_append, map_singleton,
          mem_append, not_mem_nil, or_false]
        exact or_comm

theorem Registers.valid (h : Registers config builder) : builder.Valid config := by
  induction h with
  | new => exact .empty
  | register schedule _ hreg ih => exact ih.register hreg

theorem SchedulerBuilder.Valid.register_ok (hvalid : builder.Valid config)
    (hcap : builder.schedules.length < config.maxSchedules)
    (hnew : schedule.id ∉ builder.schedules.map Schedule.id) :
    ∃ next, builder.register config schedule = .ok next := by
  rw [← hvalid.mem_ids] at hnew
  simp only [SchedulerBuilder.register, Nat.not_le.mpr hcap, hnew]
  exact ⟨_, rfl⟩

end builder

/-! ## Rebuilding -/

section rebuild

variable {builder last : SchedulerBuilder T} {entries : List (ScheduleEntry T)}

private theorem rebuild_cons {entry : ScheduleEntry T} {rest : List (ScheduleEntry T)}
    (h : rebuild config (entry :: rest) builder = some last) :
    ∃ schedule next, entry.restore = .ok schedule ∧ builder.register config schedule = .ok next ∧
      rebuild config rest next = some last := by
  unfold rebuild at h
  split at h
  case h_1 => cases h
  case h_2 schedule hrestore =>
    split at h
    case h_1 => cases h
    case h_2 next hreg => exact ⟨schedule, next, hrestore, hreg, h⟩

theorem rebuild_valid (hvalid : builder.Valid config)
    (h : rebuild config entries builder = some last) : last.Valid config := by
  induction entries generalizing builder with
  | nil =>
    cases h
    exact hvalid
  | cons entry rest ih =>
    obtain ⟨schedule, next, _, hreg, hrest⟩ := rebuild_cons h
    exact ih (hvalid.register hreg) hrest

theorem rebuild_entries (h : rebuild config entries builder = some last) :
    last.schedules.map scheduleEntry =
      builder.schedules.map scheduleEntry ++ entries.map ScheduleEntry.forget := by
  induction entries generalizing builder with
  | nil =>
    cases h
    simp
  | cons entry rest ih =>
    obtain ⟨schedule, next, hrestore, hreg, hrest⟩ := rebuild_cons h
    rw [ih hrest, SchedulerBuilder.schedules_of_register hreg]
    simp [ScheduleEntry.scheduleEntry_of_restore hrestore]

/-- Persistable entries with distinct identities, within the capacity, can be
rebuilt. -/
theorem rebuild_isSome (hvalid : builder.Valid config)
    (hpersistable : ∀ entry ∈ entries, entry.Persistable)
    (hnodup : (builder.schedules.map Schedule.id ++ entries.map ScheduleEntry.id).Nodup)
    (hcap : builder.schedules.length + entries.length ≤ config.maxSchedules) :
    ∃ last, rebuild config entries builder = some last := by
  induction entries generalizing builder with
  | nil => exact ⟨builder, rfl⟩
  | cons entry rest ih =>
    have hdefinition : ((Schedule.new entry.id entry.payload entry.plan).withMisfirePolicy
        entry.misfirePolicy).id = entry.id := rfl
    obtain ⟨schedule, hrestore⟩ :=
      (hpersistable entry mem_cons_self).restoreFrom hdefinition
    have hid : schedule.id = entry.id :=
      congrArg ScheduleEntry.id (ScheduleEntry.scheduleEntry_of_restore hrestore)
    rw [nodup_append] at hnodup
    have hnew : schedule.id ∉ builder.schedules.map Schedule.id := by
      intro hmem
      exact hnodup.2.2 _ hmem entry.id mem_cons_self hid
    rw [length_cons] at hcap
    obtain ⟨next, hreg⟩ := hvalid.register_ok (by omega) hnew
    have hscheds := SchedulerBuilder.schedules_of_register hreg
    obtain ⟨last, hlast⟩ := ih (hvalid.register hreg)
      (fun entry hentry => hpersistable entry (mem_cons_of_mem _ hentry))
      (by
        rw [hscheds, map_append, map_singleton, hid, append_assoc]
        exact nodup_append.mpr hnodup)
      (by
        rw [hscheds, length_append, length_singleton]
        omega)
    have hrest : entry.restore = .ok schedule := hrestore
    exact ⟨last, by simp only [rebuild, hrest, hreg, hlast]⟩

theorem State.restart_entries {s s' : State T} (hrestart : s.restart config = some s') :
    s'.registry.entries = s.registry.entries.map ScheduleEntry.forget := by
  simp only [State.restart, Option.map_eq_some_iff] at hrestart
  obtain ⟨builder, hbuilder, rfl⟩ := hrestart
  simpa [SchedulerBuilder.build] using rebuild_entries hbuilder

end rebuild

end PlenoraRuntime.Scheduler
