import Mathlib.Data.List.Perm.Subperm
import PlenoraRuntime.Scheduler.Rebuild
import PlenoraRuntime.Scheduler.Update

/-!
# The registry invariant

A dispatch that a live tick holds pins its schedule: the entry stays registered,
requires reconciliation and carries the token of that very dispatch, and the
registry keeps the dispatch among its running records with the liveness flag set.
`Consistent` says so for a registry, the liveness flags and the dispatches held
by the ticks, together with the converse: a set flag belongs to a held dispatch.

Updates keep it because an entry is only edited while nobody holds it: editing
needs a status other than reconciliation-required, or, for a resolution, that no
record of the identity is active. With it the two guards after a dispatch are
never taken, and there is always a free slot for a due occurrence: the active
records name distinct registered entries, all different from the one that is
about to be dispatched.
-/

namespace PlenoraRuntime.Scheduler

open Transition List Function Keyed

variable {T : Type*} {tick tick' : Tick T} {config : SchedulerConfig} {flags : List Bool}

/-- The dispatcher call that tick `i` is driving. -/
def State.flight (s : State T) (i : ℕ) : Option (Flight T) :=
  s.ticks[i]?.bind Tick.flight

/-- The dispatch that tick `i` holds. -/
def State.held (s : State T) (i : ℕ) : Option (Hold T) :=
  (s.flight i).map Flight.toHold

/-- What the registry knows of a held dispatch. -/
structure Pins (registry : Registry T) (flags : List Bool) (hold : Hold T) : Prop where
  active : isActive flags hold.dispatch.guard = true
  recorded : ⟨hold.id, hold.dispatch.guard⟩ ∈ registry.running
  entry : ∃ entry, registry.find hold.id = some entry ∧
    entry.status = .reconciliationRequired ∧
    entry.dispatchToken = some hold.dispatch.token ∧
    entry.nextDueAt = some hold.dispatch.occurrence.dueAt
  occurrence : hold.dispatch.occurrence.id = ⟨hold.id, hold.dispatch.occurrence.dueAt⟩

/-- The registry, the liveness flags and the dispatches held by the ticks agree. -/
structure Consistent (config : SchedulerConfig) (registry : Registry T) (flags : List Bool)
    (held : ℕ → Option (Hold T)) : Prop where
  ids_nodup : (registry.entries.map ScheduleEntry.id).Nodup
  capacity : registry.entries.length ≤ config.maxSchedules
  records_nodup : (registry.running.map RunningDispatch.active).Nodup
  record_lt : ∀ record ∈ registry.running, record.active < flags.length
  pinned : ∀ {i hold}, held i = some hold → Pins registry flags hold
  live : ∀ cell, isActive flags cell = true →
    ∃ i hold, held i = some hold ∧ hold.dispatch.guard = cell
  id_unique : ∀ {i j hold hold'}, held i = some hold → held j = some hold' →
    hold.id = hold'.id → i = j
  guard_unique : ∀ {i j hold hold'}, held i = some hold → held j = some hold' →
    hold.dispatch.guard = hold'.dispatch.guard → i = j

def Inv (config : SchedulerConfig) (s : State T) : Prop :=
  Consistent config s.registry s.flags s.held

/-! ## Flags and holds -/

section flags

variable {cell cell' : ℕ} {held : ℕ → Option (Hold T)}

theorem isActive_set_of_ne (hne : cell ≠ cell') (value : Bool) :
    isActive (flags.set cell value) cell' = isActive flags cell' := by
  simp [isActive, getElem?_set_ne hne]

theorem isActive_set_false : isActive (flags.set cell false) cell = false := by
  by_cases hlt : cell < flags.length <;>
    simp [isActive, hlt]

theorem isActive_append_true :
    isActive (flags ++ [true]) cell = true ↔ isActive flags cell = true ∨ cell = flags.length := by
  simp only [isActive, getD_eq_getElem?_getD, getElem?_append]
  split
  case isTrue hlt => simp [Nat.ne_of_lt hlt]
  case isFalse hge =>
    rw [getElem?_eq_none (Nat.le_of_not_lt hge)]
    rcases hcell : cell - flags.length with _ | n
    · simp; omega
    · simp; omega

theorem lt_of_isActive (h : isActive flags cell = true) : cell < flags.length := by
  by_contra hle
  simp [isActive, getElem?_eq_none (Nat.le_of_not_lt hle)] at h

theorem held_of_update {i j : ℕ} {hold} (h : Function.update held i none j = some hold) :
    j ≠ i ∧ held j = some hold := by
  simpa [update_apply] using h

theorem held_of_update_some {i j : ℕ} {hold hold'}
    (h : Function.update held i (some hold) j = some hold') :
    (j = i ∧ hold = hold') ∨ (j ≠ i ∧ held j = some hold') := by
  rw [update_apply] at h
  split at h
  case isTrue hj => exact .inl ⟨hj, Option.some.inj h⟩
  case isFalse hj => exact .inr ⟨hj, h⟩

end flags

/-! ## Records and entries -/

namespace Consistent

variable {config : SchedulerConfig} {registry : Registry T} {flags : List Bool}
  {held : ℕ → Option (Hold T)} (h : Consistent config registry flags held)
include h

/-- An active record is the record of a held dispatch. -/
theorem owned {record} (hrec : record ∈ registry.running)
    (hactive : isActive flags record.active = true) :
    ∃ i hold, held i = some hold ∧ record = ⟨hold.id, hold.dispatch.guard⟩ := by
  obtain ⟨i, hold, hheld, hguard⟩ := h.live record.active hactive
  refine ⟨i, hold, hheld, ?_⟩
  exact inj_on_of_nodup_map h.records_nodup hrec (h.pinned hheld).recorded hguard.symm

/-- A held dispatch keeps its identity running. -/
theorem isRunning_of_held {i : ℕ} {hold} (hheld : held i = some hold) :
    registry.isRunning flags hold.id = true := by
  simp only [Registry.isRunning, any_eq_true, Bool.and_eq_true, decide_eq_true_eq]
  exact ⟨_, (h.pinned hheld).recorded, rfl, (h.pinned hheld).active⟩

/-- Nobody holds an identity that is not running. -/
theorem unheld_of_idle {id} (hidle : registry.isRunning flags id = false) {i : ℕ} {hold}
    (hheld : held i = some hold) : hold.id ≠ id := by
  rintro rfl
  rw [h.isRunning_of_held hheld] at hidle
  cases hidle

variable {entry : ScheduleEntry T}

/-- Nobody holds an entry that does not require reconciliation. -/
theorem unheld_of_status (hfind : registry.find entry.id = some entry)
    (hstatus : entry.status ≠ .reconciliationRequired) {i : ℕ} {hold} (hheld : held i = some hold) :
    hold.id ≠ entry.id := by
  intro hid
  obtain ⟨pinned, hpinned, hreq, _⟩ := (h.pinned hheld).entry
  rw [hid, hfind] at hpinned
  cases hpinned
  exact hstatus hreq

/-- The records that survive pruning name distinct schedules. -/
theorem active_ids_nodup : ((registry.prune flags).running.map RunningDispatch.id).Nodup := by
  have hrun : registry.running.Nodup := h.records_nodup.of_map
  refine (hrun.filter _).map_on ?_
  intro record hrec record' hrecord' hid
  rw [mem_filter] at hrec hrecord'
  obtain ⟨i, hold, hheld, rfl⟩ := h.owned hrec.1 hrec.2
  obtain ⟨j, hold', hheld', rfl⟩ := h.owned hrecord'.1 hrecord'.2
  obtain rfl := h.id_unique hheld hheld' hid
  rw [hheld, Option.some.injEq] at hheld'
  rw [hheld']

/-- A due occurrence of an entry that nobody holds finds a free slot. -/
theorem hasDispatchCapacity (hfind : registry.find entry.id = some entry)
    (hstatus : entry.status ≠ .reconciliationRequired) :
    (registry.prune flags).hasDispatchCapacity config.maxSchedules = true := by
  let active := (registry.prune flags).running.map RunningDispatch.id
  have hmem : ∀ id ∈ active, id ≠ entry.id ∧ id ∈ registry.entries.map ScheduleEntry.id := by
    intro id hid
    obtain ⟨record, hrec, rfl⟩ := mem_map.mp hid
    rw [Registry.prune, mem_filter] at hrec
    obtain ⟨i, hold, hheld, rfl⟩ := h.owned hrec.1 hrec.2
    obtain ⟨pinned, hpinned, _⟩ := (h.pinned hheld).entry
    refine ⟨h.unheld_of_status hfind hstatus hheld, ?_⟩
    exact mem_map.mpr ⟨pinned, mem_of_lookup hpinned, key_of_lookup hpinned⟩
  -- The entry itself is one more identity besides the active ones.
  have hnodup : (entry.id :: active).Nodup :=
    nodup_cons.mpr ⟨fun hid => (hmem _ hid).1 rfl, h.active_ids_nodup⟩
  have hsubset : entry.id :: active ⊆ registry.entries.map ScheduleEntry.id := by
    refine cons_subset.mpr ⟨?_, fun id hid => (hmem id hid).2⟩
    exact mem_map_of_mem (mem_of_lookup hfind)
  have hlen := (subperm_of_subset hnodup hsubset).length_le
  simp only [active, length_cons, length_map] at hlen
  simp only [Registry.hasDispatchCapacity, decide_eq_true_eq]
  exact Nat.lt_of_lt_of_le hlen h.capacity

/-! ## Updates keep the registry consistent -/

theorem prune : Consistent config (registry.prune flags) flags held :=
  { h with
    records_nodup := h.records_nodup.sublist (filter_sublist.map _)
    record_lt := fun record hrec => h.record_lt record (mem_filter.mp hrec).1
    pinned := by
      intro i hold hheld
      have hpins := h.pinned hheld
      exact ⟨hpins.active, mem_filter.mpr ⟨hpins.recorded, hpins.active⟩, hpins.entry,
        hpins.occurrence⟩ }

/-- Editing the entries that nobody holds. -/
theorem edit {entries : List (ScheduleEntry T)} (hids : (entries.map ScheduleEntry.id).Nodup)
    (hcap : entries.length ≤ config.maxSchedules)
    (hfind : ∀ {i hold}, held i = some hold →
      ({ registry with entries } : Registry T).find hold.id = registry.find hold.id) :
    Consistent config { registry with entries } flags held :=
  { h with
    ids_nodup := hids
    capacity := hcap
    pinned := by
      intro i hold hheld
      obtain ⟨hactive, hrec, hentry, hocc⟩ := h.pinned hheld
      exact ⟨hactive, hrec, (hfind hheld).symm ▸ hentry, hocc⟩ }

theorem put (hunheld : ∀ {i hold}, held i = some hold → hold.id ≠ entry.id) :
    Consistent config (registry.put entry) flags held := by
  refine h.edit ?_ ?_ fun hheld => Registry.find_put_of_ne (hunheld hheld)
  · rw [map_key_replace rfl]
    exact h.ids_nodup
  · rw [Keyed.length_replace]
    exact h.capacity

theorem register (entry : ScheduleEntry T)
    (hcap : registry.entries.length < config.maxSchedules)
    (hnew : registry.find entry.id = none) :
    Consistent config { registry with entries := registry.entries ++ [entry] } flags held := by
  refine h.edit ?_ ?_ fun hheld => ?_
  · rw [map_append, nodup_append_comm]
    exact nodup_cons.mpr ⟨Keyed.lookup_eq_none_iff.mp hnew, h.ids_nodup⟩
  · rw [length_append]
    exact hcap
  · obtain ⟨pinned, hpinned, -⟩ := (h.pinned hheld).entry
    rw [Registry.find, lookup_append_singleton]
    exact (congrArg (Option.or · _) hpinned).trans hpinned.symm

theorem remove {id} (hunheld : ∀ {i hold}, held i = some hold → hold.id ≠ id) :
    Consistent config
      { registry with entries := Keyed.erase ScheduleEntry.id id registry.entries } flags held :=
  h.edit (h.ids_nodup.sublist map_key_erase_sublist)
    (Nat.le_trans eraseP_sublist.length_le h.capacity)
    fun hheld => lookup_erase_of_ne (hunheld hheld)

theorem release {i : ℕ} {hold} (hheld : held i = some hold) :
    Consistent config registry (flags.set hold.dispatch.guard false)
      (Function.update held i none) where
  ids_nodup := h.ids_nodup
  capacity := h.capacity
  records_nodup := h.records_nodup
  record_lt := by simpa using h.record_lt
  pinned := by
    intro j hold' hheld'
    obtain ⟨hne, hheld'⟩ := held_of_update hheld'
    have hpins := h.pinned hheld'
    refine ⟨?_, hpins.recorded, hpins.entry, hpins.occurrence⟩
    have hguard : hold.dispatch.guard ≠ hold'.dispatch.guard :=
      fun heq => hne (h.guard_unique hheld hheld' heq).symm
    simpa only [isActive_set_of_ne hguard] using hpins.active
  live := by
    intro cell hactive
    have hne : hold.dispatch.guard ≠ cell := by
      rintro rfl
      simp [isActive_set_false] at hactive
    rw [isActive_set_of_ne hne] at hactive
    obtain ⟨j, hold', hheld', hguard⟩ := h.live cell hactive
    refine ⟨j, hold', ?_, hguard⟩
    have hj : j ≠ i := by
      rintro rfl
      rw [hheld, Option.some.injEq] at hheld'
      exact hne (hheld' ▸ hguard)
    rwa [update_of_ne hj]
  id_unique := fun hj hk => h.id_unique (held_of_update hj).2 (held_of_update hk).2
  guard_unique := fun hj hk => h.guard_unique (held_of_update hj).2 (held_of_update hk).2

/-- Tick `i`, which holds nothing, takes hold of a schedule that nobody holds. -/
theorem acquire {i : ℕ} {hold : Hold T} (hheld : held i = none)
    (hunheld : ∀ {j hold'}, held j = some hold' → hold'.id ≠ hold.id)
    (hguard : hold.dispatch.guard = flags.length)
    (hentry : ∃ entry, registry.find hold.id = some entry ∧ entry.status = .reconciliationRequired ∧
      entry.dispatchToken = some hold.dispatch.token ∧
      entry.nextDueAt = some hold.dispatch.occurrence.dueAt)
    (hocc : hold.dispatch.occurrence.id = ⟨hold.id, hold.dispatch.occurrence.dueAt⟩) :
    Consistent config (registry.begin (flags ++ [true]) hold.id flags.length) (flags ++ [true])
      (Function.update held i (some hold)) where
  ids_nodup := h.ids_nodup
  capacity := h.capacity
  records_nodup := by
    rw [Registry.begin, map_append, nodup_append_comm]
    refine nodup_cons.mpr ⟨?_, h.records_nodup.sublist (filter_sublist.map _)⟩
    intro hmem
    obtain ⟨record, hrec, hactive⟩ := mem_map.mp hmem
    have hlt := h.record_lt record (mem_filter.mp hrec).1
    simp only at hactive
    omega
  record_lt := by
    rw [length_append]
    exact forall_mem_concat
      (fun record hold => Nat.lt_succ_of_lt (h.record_lt record (mem_filter.mp hold).1))
      (Nat.lt_succ_self _)
  pinned := by
    intro j hold' hheld'
    rcases held_of_update_some hheld' with ⟨rfl, rfl⟩ | ⟨hj, hheld'⟩
    · refine ⟨isActive_append_true.mpr (.inr hguard), ?_, hentry, hocc⟩
      rw [hguard]
      exact mem_append_right _ mem_cons_self
    · have hpins := h.pinned hheld'
      have hactive := isActive_append_true.mpr (.inl hpins.active)
      exact ⟨hactive, mem_append_left _ (mem_filter.mpr ⟨hpins.recorded, hactive⟩),
        hpins.entry, hpins.occurrence⟩
  live := by
    intro cell hactive
    rcases isActive_append_true.mp hactive with hold' | rfl
    · obtain ⟨j, hold', hheld', hcell⟩ := h.live cell hold'
      refine ⟨j, hold', ?_, hcell⟩
      have hj : j ≠ i := by
        rintro rfl
        rw [hheld] at hheld'
        cases hheld'
      rwa [update_of_ne hj]
    · exact ⟨i, hold, update_self .., hguard⟩
  id_unique := by
    intro j k hold₁ hold₂ hj hk hid
    rcases held_of_update_some hj with ⟨hji, rfl⟩ | ⟨_, hj'⟩ <;>
      rcases held_of_update_some hk with ⟨hki, rfl⟩ | ⟨_, hk'⟩
    · rw [hji, hki]
    · exact absurd hid.symm (hunheld hk')
    · exact absurd hid (hunheld hj')
    · exact h.id_unique hj' hk' hid
  guard_unique := by
    -- Older guards point below the flag that was just allocated.
    have hfresh : ∀ {j hold'}, held j = some hold' → hold'.dispatch.guard ≠ flags.length :=
      fun hj => Nat.ne_of_lt (lt_of_isActive (h.pinned hj).active)
    intro j k hold₁ hold₂ hj hk heq
    rcases held_of_update_some hj with ⟨hji, rfl⟩ | ⟨_, hj'⟩ <;>
      rcases held_of_update_some hk with ⟨hki, rfl⟩ | ⟨_, hk'⟩
    · rw [hji, hki]
    · exact absurd (heq.symm.trans hguard) (hfresh hk')
    · exact absurd (heq.trans hguard) (hfresh hj')
    · exact h.guard_unique hj' hk' heq

/-- Tick `i`, which holds nothing, issues an occurrence of `entry`. -/
theorem issue {i : ℕ} (token : ℕ) {now due : SystemTime} (hheld : held i = none)
    (hfind : registry.find entry.id = some entry) (hready : entry.Ready config now due) :
    Consistent config
      ((registry.put (entry.issue config now due token)).begin (flags ++ [true]) entry.id
        flags.length)
      (flags ++ [true])
      (Function.update held i
        (some ⟨entry.id, entry.pendingDispatch config now due token flags.length⟩)) := by
  have hstatus : entry.status ≠ .reconciliationRequired := by simp [hready.active]
  have hunheld : ∀ {j hold}, held j = some hold → hold.id ≠ entry.id :=
    h.unheld_of_status hfind hstatus
  have hput : Consistent config (registry.put (entry.issue config now due token)) flags held :=
    h.put hunheld
  have hissued : (registry.put (entry.issue config now due token)).find entry.id =
      some (entry.issue config now due token) := Registry.find_put_self hfind rfl
  let hold : Hold T := ⟨entry.id, entry.pendingDispatch config now due token flags.length⟩
  have hocc : hold.dispatch.occurrence.id = ⟨hold.id, hold.dispatch.occurrence.dueAt⟩ := rfl
  exact hput.acquire hheld hunheld rfl ⟨_, hissued, rfl, rfl, hready.cursor⟩ hocc

end Consistent

/-! ## The invariant along runs -/

section held

variable {s : State T} {i : ℕ}

section tick

variable (htick : s.ticks[i]? = some tick)

include htick

theorem State.flight_of_tick : s.flight i = tick.flight := by
  simp [State.flight, htick]

theorem State.held_of_tick :
    s.held i = tick.flight.map Flight.toHold := by
  rw [State.held, State.flight_of_tick htick]

theorem State.flight_setTick :
    (s.setTick i tick').flight = Function.update s.flight i tick'.flight := by
  obtain ⟨hlt, -⟩ := List.getElem?_eq_some_iff.mp htick
  funext j
  simp only [State.flight, State.setTick, getElem?_set, update_apply, eq_comm]
  split <;> rfl

theorem State.held_setTick :
    (s.setTick i tick').held =
      Function.update s.held i (tick'.flight.map Flight.toHold) := by
  have hheld : (s.setTick i tick').held =
      Option.map Flight.toHold ∘ (s.setTick i tick').flight := rfl
  rw [hheld, State.flight_setTick htick, comp_update]
  rfl

theorem State.held_launch {entry} {due : SystemTime} :
    (s.launch config i tick' entry due).held =
      Function.update s.held i (tick'.flight.map Flight.toHold) :=
  State.held_setTick htick

theorem State.held_land {guard : ℕ} {settled} :
    (s.land i tick' guard settled).held =
      Function.update s.held i (tick'.flight.map Flight.toHold) :=
  State.held_setTick htick

/-- A tick that holds the same as before. -/
theorem State.held_setTick_self
    (hsame : tick'.flight.map Flight.toHold = tick.flight.map Flight.toHold) :
    (s.setTick i tick').held = s.held := by
  rw [State.held_setTick htick, hsame, ← State.held_of_tick htick, update_eq_self]

end tick

theorem State.flight_append (htick : tick.flight = none) :
    ({ s with ticks := s.ticks ++ [tick] } : State T).flight = s.flight := by
  funext j
  simp only [State.flight, getElem?_append]
  split
  case isTrue => rfl
  case isFalse hge =>
    rw [getElem?_eq_none (Nat.le_of_not_lt hge)]
    cases j - s.ticks.length <;> simp [htick]

theorem State.held_append (htick : tick.flight = none) :
    ({ s with ticks := s.ticks ++ [tick] } : State T).held = s.held := by
  funext j
  rw [State.held, State.flight_append htick, State.held]

end held

section run

variable {s s' : State T} {events : List (Event T)} {builder : SchedulerBuilder T} {f : Flight T}

/-- A registry without running dispatches, with no flag set and no dispatch held. -/
theorem Consistent.quiet {held : ℕ → Option (Hold T)} (hvalid : builder.Valid config)
    (hflags : ∀ cell, isActive flags cell = false) (hheld : ∀ i, held i = none) :
    Consistent config { entries := builder.schedules.map scheduleEntry, running := [] } flags
      held where
  ids_nodup := by simpa [comp_def, scheduleEntry] using hvalid.ids_nodup
  capacity := by simpa using hvalid.capacity
  records_nodup := nodup_nil
  record_lt := by simp
  pinned := by simp [hheld]
  live := by simp [hflags]
  id_unique := by simp [hheld]
  guard_unique := by simp [hheld]

theorem SchedulerBuilder.Valid.inv (hvalid : builder.Valid config) :
    Inv config (builder.build config) := by
  refine Consistent.quiet hvalid ?_ ?_
  · simp [isActive, SchedulerBuilder.build]
  · simp [State.held, State.flight, SchedulerBuilder.build]

theorem Inv.restart (hrestart : s.restart config = some s') : Inv config s' := by
  simp only [State.restart, Option.map_eq_some_iff] at hrestart
  obtain ⟨builder, hbuilder, rfl⟩ := hrestart
  refine Consistent.quiet (rebuild_valid .empty hbuilder) ?_ ?_
  · intro cell
    simp only [isActive, getD_eq_getElem?_getD, getElem?_map]
    cases s.flags[cell]? <;> rfl
  · intro i
    simp only [State.held, State.flight, getElem?_map]
    cases s.ticks[i]? <;> rfl

theorem Inv.flight_unique (h : Inv config s) {i j : ℕ} {g} (hi : s.flight i = some f)
    (hj : s.flight j = some g) (hid : f.id = g.id) : i = j := by
  have hheld : s.held i = some f.toHold := congrArg _ hi
  have hheld' : s.held j = some g.toHold := congrArg _ hj
  exact h.id_unique hheld hheld' hid

theorem Inv.pins_of_flight (h : Inv config s) {i : ℕ} (hi : s.flight i = some f) :
    Pins s.registry s.flags f.toHold :=
  h.pinned (congrArg (Option.map Flight.toHold) hi)

theorem Inv.pins_of_tick (h : Inv config s) {i : ℕ} (htick : s.ticks[i]? = some tick)
    (hflight : tick.flight = some f) : Pins s.registry s.flags f.toHold :=
  h.pins_of_flight ((State.flight_of_tick htick).trans hflight)

theorem Inv.setTick (h : Inv config s) {i : ℕ} (htick : s.ticks[i]? = some tick)
    (hsame : tick'.flight.map Flight.toHold = tick.flight.map Flight.toHold) :
    Inv config (s.setTick i tick') := by
  unfold Inv
  rw [State.held_setTick_self htick hsame]
  exact h

theorem Update.inv (hupdate : Update config s events s') (h : Inv config s) : Inv config s' := by
  cases hupdate with
  | remark | trigger | endTrigger => exact h
  | prune => exact Consistent.prune h
  | start now observesShutdown =>
    unfold Inv
    rw [State.held_append rfl]
    exact h
  | move htick hflight hcont | finish htick hflight hcont =>
    exact h.setTick htick (by rw [hflight, hcont.flight_eq])
  | register schedule hcap hnew _ =>
    exact Consistent.register h (scheduleEntry schedule) hcap hnew
  | remove hfind hstatus => exact Consistent.remove h (h.unheld_of_status hfind hstatus)
  | @setStatus entry status hfind hold _ =>
    have hstatus : entry.status ≠ .reconciliationRequired := by
      rcases hold with hold | hold <;> simp [hold]
    exact Consistent.put h (h.unheld_of_status hfind hstatus)
  | @clear entry _ _ hfind hready =>
    have hstatus : entry.status ≠ .reconciliationRequired := by simp [hready.active]
    exact Consistent.put h (h.unheld_of_status hfind hstatus)
  | @skip i tick entry skipped due htick hflight hfind hskips =>
    have hstatus : entry.status ≠ .reconciliationRequired := by simp [hskips.active]
    have hput : Inv config { s with registry := s.registry.put skipped } := by
      refine Consistent.put h ?_
      rw [hskips.id_eq]
      exact h.unheld_of_status hfind hstatus
    exact hput.setTick htick rfl
  | noSlot | missing | mismatch => exact h
  | @dispatch i tick tick' entry due htick hflight hfind hready hcont =>
    have hheld : s.held i = none := by rw [State.held_of_tick htick, hflight]; rfl
    have hissue := Consistent.issue h s.dispatchTokens hheld hfind hready
    unfold Inv
    rw [State.held_launch htick, hcont.flight_eq]
    simpa [State.launch, hcont.now_eq] using hissue
  | returned result htick hflight _ hcont =>
    exact h.setTick htick (by rw [hflight, hcont.flight_eq]; rfl)

  | @settle i tick tick' flight outcome entry htick hflight _ hid hfind htoken hcont =>
    have hheld : s.held i = some flight.toHold := by rw [State.held_of_tick htick, hflight]; rfl
    unfold Inv
    rw [State.held_land htick, hcont.flight_eq]
    refine (Consistent.release h hheld).put ?_
    -- The tick has just let go of the entry, and nobody else holds it.
    intro j hold hj
    obtain ⟨hne, hj⟩ := held_of_update hj
    rw [ScheduleEntry.settle_id]
    intro heq
    exact hne (h.id_unique hj hheld (heq.trans hid))
  | @drop i tick tick' flight htick hflight hcont =>
    have hheld : s.held i = some flight.toHold := by rw [State.held_of_tick htick, hflight]; rfl
    unfold Inv
    rw [State.held_setTick (s := s.dropGuard flight.dispatch.guard) htick, hcont.flight_eq]
    exact Consistent.release h hheld
  | @resolve entry resolution hidle hfind hstatus =>
    have hid : (entry.resolve resolution).id = entry.id := by cases resolution <;> rfl
    refine Consistent.put h ?_
    rw [hid]
    exact h.unheld_of_idle hidle
  | restart hrestart => exact Inv.restart hrestart

/-- The branches that the source keeps only as guards. -/
inductive Event.Defensive : Event T → Prop
  | entryMissing (i : ℕ) (id : ScheduleId) : Defensive (.entryMissing i id)
  | tokenMismatch (i : ℕ) (id : ScheduleId) : Defensive (.tokenMismatch i id)
  | noSlot (i : ℕ) (id : ScheduleId) : Defensive (.noSlot i id)

theorem Update.not_defensive (hupdate : Update config s events s') (h : Inv config s) :
    ∀ event ∈ events, ¬ event.Defensive := by
  intro event hevent hdefensive
  cases hupdate with
  | noSlot hfind hready hfull =>
    rw [h.hasDispatchCapacity hfind (by simp [hready.active])] at hfull
    cases hfull
  | missing htick hflight hfind =>
    obtain ⟨entry, hentry, _⟩ := (h.pins_of_tick htick hflight).entry
    rw [hfind] at hentry
    cases hentry
  | mismatch htick hflight hfind htoken =>
    obtain ⟨entry, hentry, _, hpinned, _⟩ := (h.pins_of_tick htick hflight).entry
    rw [hfind, Option.some.injEq] at hentry
    exact htoken (hentry ▸ hpinned)
  | remark hremark =>
    obtain rfl := mem_singleton.mp hevent
    cases hremark <;> cases hdefensive
  | _ => cases hdefensive <;> simp at hevent

/-- Every state a scheduler reaches keeps the invariant, on a way that takes none of
the guards. -/
theorem Reaches.inv {history} (hreach : Reaches config history s) :
    Inv config s ∧ ∀ event ∈ history, ¬ event.Defensive := by
  obtain ⟨builder, hreg, hrun⟩ := hreach
  have hstart : Inv config (builder.build config) := hreg.valid.inv
  refine (hrun.refine step_updates).history
    (I := fun s past => Inv config s ∧ ∀ event ∈ past, ¬ event.Defensive) ?_ [] ⟨hstart, by simp⟩
  rintro s past events s' ⟨hinv, hpast⟩ hupdate
  exact ⟨hupdate.inv hinv, forall_mem_append.mpr ⟨hpast, hupdate.not_defensive hinv⟩⟩

/-- In every reachable state the identities are distinct and within the capacity,
the active running records have distinct identities, and each is the record of a
dispatch held by a live tick whose entry requires reconciliation under the token
of that dispatch. No tick ever found its entry missing or taken over after a
dispatch, and none ever found all slots taken. -/
theorem registry_invariant {history : List (Event T)} (hreaches : Reaches config history s) :
    (s.registry.entries.map ScheduleEntry.id).Nodup ∧
      s.registry.entries.length ≤ config.maxSchedules ∧
      ((s.registry.running.filter fun record => isActive s.flags record.active).map
        RunningDispatch.id).Nodup ∧
      (∀ record ∈ s.registry.running, isActive s.flags record.active = true →
        ∃ i hold entry, s.held i = some hold ∧ hold.id = record.id ∧
          hold.dispatch.guard = record.active ∧ s.registry.find record.id = some entry ∧
          entry.status = .reconciliationRequired ∧
          entry.dispatchToken = some hold.dispatch.token) ∧
      ∀ event ∈ history, ¬ event.Defensive := by
  obtain ⟨hinv, hhistory⟩ := hreaches.inv
  refine ⟨hinv.ids_nodup, hinv.capacity, hinv.active_ids_nodup, ?_, hhistory⟩
  intro record hrecord hactive
  obtain ⟨i, hold, hheld, rfl⟩ := hinv.owned hrecord hactive
  obtain ⟨entry, hfind, hstatus, htoken, _⟩ := (hinv.pinned hheld).entry
  exact ⟨i, hold, entry, hheld, rfl, rfl, hfind, hstatus, htoken⟩

/-- While the sample schedule is being dispatched, its record is active. -/
theorem registry_invariant_dispatching :
    let s := (Sample.after (Sample.dispatching 20)).1
    isActive s.flags 0 = true ∧
      ∃ i hold entry, s.held i = some hold ∧ hold.id = Sample.id ∧
        hold.dispatch.guard = 0 ∧ s.registry.find Sample.id = some entry ∧
        entry.status = .reconciliationRequired ∧
        entry.dispatchToken = some hold.dispatch.token := by
  have hreaches := Sample.reaches (Sample.dispatching 20) rfl
  exact ⟨rfl, (registry_invariant hreaches).2.2.2.1 ⟨Sample.id, 0⟩ (List.mem_singleton.mpr rfl) rfl⟩

end run

end PlenoraRuntime.Scheduler
