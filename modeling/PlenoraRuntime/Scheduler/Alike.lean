import PlenoraRuntime.Scheduler.Invariant

/-!
# States that nobody can tell apart

A dispatch token is only ever compared with the token of the dispatch that issued
it, and by the invariant that comparison succeeds. So two states that differ in
their tokens, in running records whose dispatch is over, and in ticks and manual
triggers that nobody drives any more answer every call in the same way and stay
that close: `Alike` is a bisimulation.

The pure functions are compared first, then the registry, then the sections of the
scheduler one after the other.
-/

namespace PlenoraRuntime.Scheduler

open Transition List

variable {T : Type*} {config : SchedulerConfig}

/-! ## Entries and decisions -/

/-- Two decisions that differ in the token of the dispatch at most. -/
inductive Decision.Alike : Decision T → Decision T → Prop
  | same (decision : Decision T) : Alike decision decision
  | dispatch (dispatch : PendingDispatch T) (token : ℕ) :
      Alike (.dispatch dispatch) (.dispatch { dispatch with token })

namespace ScheduleEntry

variable {entry entry' : ScheduleEntry T}

theorem exists_token_of_forget (h : entry.forget = entry'.forget) :
    ∃ token, entry' = { entry with dispatchToken := token } := by
  obtain ⟨id', payload', plan', policy', cursor', status', boundary', token'⟩ := entry'
  obtain ⟨rfl, rfl, rfl, rfl, rfl, rfl, rfl⟩ := h
  exact ⟨token', rfl⟩

/-- A decision does not look at tokens. -/
theorem decide_alike (config : SchedulerConfig) (entry : ScheduleEntry T) (other : Option ℕ)
    (now : SystemTime) (cancelled : Bool) (budget : DispatchBudget)
    (report : SchedulerTickReport) (token token' guard : ℕ) :
    let decision := entry.decide config now cancelled budget report token guard
    let decision' := { entry with dispatchToken := other }.decide config now cancelled budget report
      token' guard
    decision.1.Alike decision'.1 ∧ decision.2.1.forget = decision'.2.1.forget ∧
      decision.2.2 = decision'.2.2 := by
  have hsuppresses : ∀ due, suppresses config { entry with dispatchToken := other } due =
      suppresses config entry due := fun _ => rfl
  simp only [decide, hsuppresses]
  repeat' split
  all_goals first | exact ⟨.same _, rfl, rfl⟩ | exact ⟨.dispatch _ token', rfl, rfl⟩

end ScheduleEntry

/-! ## Registries -/

/-- Two registries that differ in tokens and in records without a live dispatch. -/
structure Registry.Alike (flags : List Bool) (registry registry' : Registry T) : Prop where
  entries : registry.entries.map ScheduleEntry.forget = registry'.entries.map ScheduleEntry.forget
  running : (registry.prune flags).running = (registry'.prune flags).running

namespace Registry.Alike

variable {flags : List Bool} {registry registry' : Registry T} {entry entry' : ScheduleEntry T}
  (h : Registry.Alike flags registry registry')
include h

theorem find_map (id : ScheduleId) :
    (registry.find id).map ScheduleEntry.forget = (registry'.find id).map ScheduleEntry.forget := by
  unfold Registry.find
  rw [← Keyed.lookup_map ScheduleEntry.forget_id, ← Keyed.lookup_map ScheduleEntry.forget_id,
    h.entries]

/-- An identity is registered in both or in neither. -/
theorem find (id : ScheduleId) :
    registry.find id = none ∧ registry'.find id = none ∨
      ∃ entry token, registry.find id = some entry ∧
        registry'.find id = some { entry with dispatchToken := token } := by
  have hmap := h.find_map id
  cases hfind : registry.find id <;> cases hfind' : registry'.find id <;>
    rw [hfind, hfind'] at hmap
  · exact .inl ⟨rfl, rfl⟩
  · cases hmap
  · cases hmap
  · obtain ⟨token, rfl⟩ := ScheduleEntry.exists_token_of_forget (Option.some.inj hmap)
    exact .inr ⟨_, token, rfl, rfl⟩

theorem ids : registry.entries.map ScheduleEntry.id = registry'.entries.map ScheduleEntry.id := by
  have hids := congrArg (List.map ScheduleEntry.id) h.entries
  simpa only [map_map, Function.comp_def, ScheduleEntry.forget_id] using hids

theorem length : registry.entries.length = registry'.entries.length := by
  simpa using congrArg List.length h.ids

theorem prune : Registry.Alike flags (registry.prune flags) (registry'.prune flags) where
  entries := h.entries
  running := by
    rw [Registry.prune_prune, Registry.prune_prune]
    exact h.running

theorem put (hentry : entry.forget = entry'.forget) :
    Registry.Alike flags (registry.put entry) (registry'.put entry') where
  entries := by
    obtain ⟨token, rfl⟩ := ScheduleEntry.exists_token_of_forget hentry
    simp only [Registry.put, Keyed.map_replace ScheduleEntry.forget_id, h.entries]
    rfl
  running := h.running

theorem register (entry : ScheduleEntry T) :
    Registry.Alike flags { registry with entries := registry.entries ++ [entry] }
      { registry' with entries := registry'.entries ++ [entry] } where
  entries := by simp only [map_append, h.entries]
  running := h.running

theorem remove (id : ScheduleId) :
    Registry.Alike flags
      { registry with entries := Keyed.erase ScheduleEntry.id id registry.entries }
      { registry' with entries := Keyed.erase ScheduleEntry.id id registry'.entries } where
  entries := by
    simp only [Keyed.map_erase ScheduleEntry.forget_id, h.entries]
  running := h.running

/-- Pruning leaves the records with a live dispatch, so both answer the same. -/
theorem isRunning (id : ScheduleId) :
    (registry.prune flags).isRunning flags id = (registry'.prune flags).isRunning flags id := by
  unfold Registry.isRunning
  rw [h.running]

theorem release (guard : ℕ) : Registry.Alike (flags.set guard false) registry registry' where
  entries := h.entries
  running := by
    -- What is live without the guard was live with it.
    have hlive : ∀ record : RunningDispatch,
        (isActive (flags.set guard false) record.active && isActive flags record.active) =
          isActive (flags.set guard false) record.active := by
      intro record
      by_cases hguard : guard = record.active
      · subst hguard
        simp [isActive_set_false]
      · simp [isActive_set_of_ne hguard]
    have hfilter := congrArg
      (List.filter fun record => isActive (flags.set guard false) record.active) h.running
    simpa only [Registry.prune, filter_filter, hlive] using hfilter

end Registry.Alike

/-! ## States -/

/-- Two ticks that differ in the token of the dispatch they hold at most. -/
inductive Tick.Alike (tick : Tick T) : Tick T → Prop
  | same : Alike tick tick
  | dispatching {frame dispatch} (token : ℕ) (hphase : tick.phase = .dispatching frame dispatch) :
      Alike tick { tick with phase := .dispatching frame { dispatch with token } }
  | applying {frame dispatch outcome} (token : ℕ)
      (hphase : tick.phase = .applying frame dispatch outcome) :
      Alike tick { tick with phase := .applying frame { dispatch with token } outcome }

/-- Two states that later calls cannot tell apart: the ticks from the `n`-th and the
manual triggers from the `m`-th on are alike, and earlier ones are not driven. -/
structure Alike (n m : ℕ) (s r : State T) : Prop where
  registry : Registry.Alike s.flags s.registry r.registry
  flags : s.flags = r.flags
  permits : s.manualPermits = r.manualPermits
  ticks_length : s.ticks.length = r.ticks.length
  ticks : ∀ i, n ≤ i → Option.Rel Tick.Alike s.ticks[i]? r.ticks[i]?
  triggers_length : s.triggers.length = r.triggers.length
  triggers : ∀ k, m ≤ k → s.triggers[k]? = r.triggers[k]?

/-- The same events, and states that are alike. -/
def Matches (n m : ℕ) (next next' : State T × List (Event T)) : Prop :=
  next.2 = next'.2 ∧ Alike n m next.1 next'.1

namespace Alike

variable {n m i : ℕ} {s r : State T} {tick tick' : Tick T} {entry' entry : ScheduleEntry T}

/-- Tokens are not restored. -/
theorem rebuild_forget (entries : List (ScheduleEntry T)) (builder : SchedulerBuilder T) :
    rebuild config (entries.map ScheduleEntry.forget) builder = rebuild config entries builder := by
  induction entries generalizing builder with
  | nil => rfl
  | cons entry rest ih =>
    have hrestore : entry.forget.restore = entry.restore := rfl
    simp only [map_cons, rebuild, hrestore, ih]

variable (h : Alike n m s r)
include h

theorem setTick (i : ℕ) (htick : tick.Alike tick') :
    Alike n m (s.setTick i tick) (r.setTick i tick') :=
  { h with
    ticks_length := by simpa [State.setTick] using h.ticks_length
    ticks := by
      intro j hj
      have hrelated := h.ticks j hj
      simp only [State.setTick, getElem?_set, h.ticks_length]
      split_ifs
      · exact .some htick
      · exact .none
      · exact hrelated }

theorem withRegistry {registry registry'} (hregistry : Registry.Alike s.flags registry registry') :
    Alike n m { s with registry } { r with registry := registry' } :=
  { h with registry := hregistry }

theorem prune :
    Alike n m { s with registry := s.registry.prune s.flags }
      { r with registry := r.registry.prune r.flags } :=
  h.withRegistry (h.flags ▸ h.registry.prune)

theorem put (hentry : entry.forget = entry'.forget) :
    Alike n m { s with registry := s.registry.put entry }
      { r with registry := r.registry.put entry' } :=
  h.withRegistry (h.registry.put hentry)

theorem dropGuard (guard : ℕ) : Alike n m (s.dropGuard guard) (r.dropGuard guard) :=
  { h with
    registry := h.registry.release guard
    flags := congrArg (List.set · guard false) h.flags }

/-! ## The sections of a tick -/

/-- What `process_entry` does with two decisions that are alike. -/
theorem act (hrun : s.registry.running = r.registry.running) (tick : Tick T) (frame : Frame)
    {decided decided' : ScheduleEntry T} (hcur : entry.nextDueAt = entry'.nextDueAt)
    {decision decision' : Decision T} (hdecision : decision.Alike decision')
    (hdec : decided.forget = decided'.forget) (report : SchedulerTickReport) :
    Matches n m (s.act i tick frame entry decision decided report)
      (r.act i tick frame entry' decision' decided' report) := by
  have hput := h.put hdec
  have hissue : ∀ dispatch token, Matches n m
      (s.act i tick frame entry (.dispatch dispatch) decided report)
      (r.act i tick frame entry' (.dispatch { dispatch with token }) decided' report) := by
    intro dispatch token
    refine ⟨rfl, ?_⟩
    have hflags := h.flags
    simp only [State.act]
    let issuing : Tick T :=
      { tick with
        report
        remainingGlobal := tick.remainingGlobal - 1
        phase := .dispatching { frame with attempted := saturatingAdd frame.attempted 1 }
          dispatch }
    have hissuing : issuing.Alike _ := .dispatching token rfl
    have hticks := hput.setTick i hissuing
    refine ⟨⟨?_, ?_⟩, ?_, h.permits, hticks.ticks_length, hticks.ticks, h.triggers_length,
      h.triggers⟩
    · exact hput.registry.entries
    · simp only [Registry.begin, Registry.prune, Registry.put, hrun, hflags]
    · simp only [hflags]
  cases hdecision with
  | dispatch dispatch token => exact hissue dispatch token
  | same =>
    cases decision with
    | stop | saturated => exact ⟨rfl, hput.setTick i .same⟩
    | skipped => exact ⟨by simp only [State.act, hcur], hput.setTick i .same⟩
    | dispatch dispatch => exact hissue dispatch dispatch.token

theorem decideSection (tick : Tick T) (frame : Frame) (cancelled : Bool) :
    Matches n m (s.decideSection config i tick frame cancelled)
      (r.decideSection config i tick frame cancelled) := by
  have hpruned := h.prune
  have hrun : (s.registry.prune s.flags).running = (r.registry.prune r.flags).running :=
    h.flags ▸ h.registry.running
  rcases hpruned.registry.find frame.id with ⟨hs, hr⟩ | ⟨entry, token, hs, hr⟩ <;>
    simp only [State.decideSection, hs, hr]
  · exact ⟨rfl, hpruned.setTick i .same⟩
  · split
    · exact ⟨rfl, hpruned.setTick i .same⟩
    · have hcap : (s.registry.prune s.flags).hasDispatchCapacity config.maxSchedules =
          (r.registry.prune r.flags).hasDispatchCapacity config.maxSchedules := by
        simp only [Registry.hasDispatchCapacity, hrun]
      have hdecide := fun budget report => entry.decide_alike config token tick.now
        (tick.observesShutdown && cancelled) budget report s.dispatchTokens r.dispatchTokens
        r.flags.length
      rw [hcap, congrArg List.length h.flags, (hdecide _ _).2.2]
      exact hpruned.act hrun tick _ rfl (hdecide _ _).1 (hdecide _ _).2.1 _

/-- By the invariant each state finds the entry it dispatched for, under its own token. -/
theorem applySection (hs : Inv config s) (hr : Inv config r) {frame dispatch} (token : ℕ)
    {outcome} (htick : s.ticks[i]? = some tick) (htick' : r.ticks[i]? = some tick')
    (hphase : tick.phase = .applying frame dispatch outcome)
    (hphase' : tick' = { tick with phase := .applying frame { dispatch with token } outcome }) :
    Matches n m (s.applySection config i tick frame dispatch outcome)
      (r.applySection config i tick' frame { dispatch with token } outcome) := by
  subst hphase'
  have hpins := hs.pins_of_tick htick (by simp only [Tick.flight, hphase]; rfl)
  have hpins' := hr.pins_of_tick htick' rfl
  obtain ⟨entry, hfind, _, htoken, _⟩ := hpins.entry
  obtain ⟨entry', hfind', _, htoken', _⟩ := hpins'.entry
  have hentry : entry.forget = entry'.forget := by
    have hmap := h.registry.find_map frame.id
    rw [hfind, hfind'] at hmap
    exact Option.some.inj hmap
  have hrel : { entry with dispatchToken := none } = { entry' with dispatchToken := none } :=
    hentry
  simp only [State.applySection, hfind, hfind', htoken, htoken', ne_eq, not_true_eq_false,
    hrel]
  exact ⟨rfl, ((h.put rfl).dropGuard _).setTick i .same⟩

theorem finishSection (tick : Tick T) (frame : Frame) :
    Matches n m (s.finishSection config i tick frame) (r.finishSection config i tick frame) := by
  refine ⟨rfl, ?_⟩
  rcases h.registry.find frame.id with ⟨hs, hr⟩ | ⟨entry, token, hs, hr⟩ <;>
    simp only [State.finishSection, hs, hr] <;> exact h.setTick i .same

theorem entriesHaveDue (now : SystemTime) :
    entriesHaveDue s.registry.entries now = entriesHaveDue r.registry.entries now := by
  have hforget : ∀ entries : List (ScheduleEntry T),
      Scheduler.entriesHaveDue (entries.map ScheduleEntry.forget) now =
        Scheduler.entriesHaveDue entries now := by
    intro entries
    simp only [Scheduler.entriesHaveDue, any_map]
    rfl
  rw [← hforget, h.registry.entries, hforget]

theorem poll_same (tick : Tick T) (cancelled : Bool)
    (hphase : ∀ frame dispatch outcome, tick.phase ≠ .applying frame dispatch outcome) :
    Option.Rel (Matches n m) (s.poll config i tick cancelled) (r.poll config i tick cancelled) := by
  have hsame {events} {tick : Tick T} :
      Option.Rel (Matches n m) (some (s.setTick i tick, events))
        (some (r.setTick i tick, events)) :=
    .some ⟨rfl, h.setTick i .same⟩
  unfold State.poll
  split
  case h_1 =>
    rw [h.registry.ids]
    exact hsame
  case h_2 => exact hsame
  case h_3 => split <;> exact hsame
  case h_4 frame _ => exact .some (h.decideSection tick frame cancelled)
  case h_5 | h_9 => exact .none
  case h_6 frame dispatch outcome happlying => exact absurd happlying (hphase _ _ _)
  case h_7 frame _ => exact .some (h.finishSection tick frame)
  case h_8 =>
    rw [h.entriesHaveDue]
    split <;> exact hsame

theorem poll (hs : Inv config s) (hr : Inv config r) (htick : s.ticks[i]? = some tick)
    (htick' : r.ticks[i]? = some tick') (hticks : tick.Alike tick') (cancelled : Bool) :
    Option.Rel (Matches n m) (s.poll config i tick cancelled)
      (r.poll config i tick' cancelled) := by
  cases hticks with
  | same =>
    by_cases happlying : ∃ frame dispatch outcome, tick.phase = .applying frame dispatch outcome
    · obtain ⟨frame, dispatch, outcome, hphase⟩ := happlying
      have happly := h.applySection hs hr dispatch.token htick htick' hphase
        (by rw [← hphase])
      simp only [State.poll, hphase]
      exact .some happly
    · push Not at happlying
      exact h.poll_same tick cancelled happlying
  | dispatching token hphase =>
    simp only [State.poll, hphase]
    exact .none
  | applying token hphase =>
    simp only [State.poll, hphase]
    exact .some (h.applySection hs hr token htick htick' hphase rfl)

theorem dispatchReturns (hticks : tick.Alike tick') (result : DispatchResult) :
    Option.Rel (Matches n m) (s.dispatchReturns i tick result)
      (r.dispatchReturns i tick' result) := by
  cases hticks with
  | same =>
    unfold State.dispatchReturns
    split
    · exact .some ⟨rfl, h.setTick i .same⟩
    · exact .none
  | dispatching token hphase =>
    simp only [State.dispatchReturns, hphase]
    exact .some ⟨rfl, h.setTick i (.applying token rfl)⟩
  | applying token hphase =>
    simp only [State.dispatchReturns, hphase]
    exact .none

theorem abort (hticks : tick.Alike tick') :
    Option.Rel (Matches n m) (s.abort i tick) (r.abort i tick') := by
  cases hticks with
  | same =>
    unfold State.abort
    split
    · exact .none
    · exact .some ⟨rfl, (h.dropGuard _).setTick i .same⟩
    · exact .some ⟨rfl, (h.dropGuard _).setTick i .same⟩
    · exact .some ⟨rfl, h.setTick i .same⟩
  | dispatching token hphase | applying token hphase =>
    simp only [State.abort, hphase]
    exact .some ⟨rfl, (h.dropGuard _).setTick i .same⟩

/-! ## The public operations -/

theorem addSchedule (schedule : Schedule T) :
    Matches n m (s.addSchedule config schedule) (r.addSchedule config schedule) := by
  have hpruned := h.prune
  have hlen : (s.registry.prune s.flags).entries.length =
      (r.registry.prune r.flags).entries.length := h.registry.length
  have hany : ((s.registry.prune s.flags).entries.any fun entry => entry.id = schedule.id) =
      (r.registry.prune r.flags).entries.any fun entry => entry.id = schedule.id := by
    have hids := congrArg (List.any · fun id => decide (id = schedule.id)) h.registry.ids
    simp only [any_map] at hids
    exact hids
  have hrun : (s.registry.prune s.flags).isRunning s.flags schedule.id =
      (r.registry.prune r.flags).isRunning r.flags schedule.id := by
    rw [← h.flags]
    exact h.registry.isRunning schedule.id
  simp only [State.addSchedule, hlen, hany, hrun]
  split
  · exact ⟨rfl, hpruned⟩
  · split
    · exact ⟨rfl, hpruned⟩
    · exact ⟨rfl, hpruned.withRegistry (hpruned.registry.register _)⟩

theorem removeSchedule (id : ScheduleId) :
    Matches n m (s.removeSchedule id) (r.removeSchedule id) := by
  have hpruned := h.prune
  rcases hpruned.registry.find id with ⟨hs, hr⟩ | ⟨entry, token, hs, hr⟩ <;>
    simp only [State.removeSchedule, hs, hr]
  · exact ⟨rfl, hpruned⟩
  · split
    · exact ⟨rfl, hpruned⟩
    · exact ⟨rfl, hpruned.withRegistry (hpruned.registry.remove id)⟩

theorem setStatus (id : ScheduleId) (status : ScheduleStatus)
    (answer : Except ScheduleBuildError Unit → Answer) :
    Matches n m (s.setStatus id status answer) (r.setStatus id status answer) := by
  have hpruned := h.prune
  rcases hpruned.registry.find id with ⟨hs, hr⟩ | ⟨entry, token, hs, hr⟩ <;>
    simp only [State.setStatus, hs, hr]
  · exact ⟨rfl, hpruned⟩
  · split <;> first | exact ⟨rfl, hpruned.put rfl⟩ | exact ⟨rfl, hpruned⟩

theorem triggerSchedule (id : ScheduleId) (triggeredAt : SystemTime) :
    Matches n m (s.triggerSchedule id triggeredAt) (r.triggerSchedule id triggeredAt) := by
  rcases h.registry.find id with ⟨hs, hr⟩ | ⟨entry, token, hs, hr⟩ <;>
    simp only [State.triggerSchedule, h.permits, h.triggers_length, hs, hr]
  · exact ⟨rfl, h⟩
  · split_ifs
    · exact ⟨rfl, h⟩
    · exact ⟨rfl, h⟩
    · refine ⟨rfl, { h with permits := rfl, triggers_length := ?_, triggers := fun k hk => ?_ }⟩
      · simp [h.triggers_length]
      · simp only [getElem?_append, h.triggers_length, h.triggers k hk]

theorem endTrigger (k : ℕ) : Alike n m (s.endTrigger k) (r.endTrigger k) :=
  { h with
    permits := congrArg (· + 1) h.permits
    triggers_length := by simpa [State.endTrigger] using h.triggers_length
    triggers := fun j hj => by
      simp only [State.endTrigger, getElem?_set, h.triggers_length, h.triggers j hj] }

theorem resolveReconciliation (id : ScheduleId) (resolution : ReconciliationResolution) :
    Matches n m (s.resolveReconciliation id resolution)
      (r.resolveReconciliation id resolution) := by
  have hpruned := h.prune
  have hrun : (s.registry.prune s.flags).isRunning s.flags id =
      (r.registry.prune r.flags).isRunning r.flags id := by
    rw [← h.flags]
    exact h.registry.isRunning id
  rcases hpruned.registry.find id with ⟨hs, hr⟩ | ⟨entry, token, hs, hr⟩ <;>
    simp only [State.resolveReconciliation, hrun, hs, hr]
  · split <;> exact ⟨rfl, hpruned⟩
  · split_ifs
    · exact ⟨rfl, hpruned⟩
    · exact ⟨rfl, hpruned⟩
    · exact ⟨rfl, hpruned.put rfl⟩

theorem snapshots :
    s.registry.entries.map ScheduleEntry.snapshot =
      r.registry.entries.map ScheduleEntry.snapshot := by
  have hsnapshots := congrArg (List.map ScheduleEntry.snapshot) h.registry.entries
  rw [map_map, map_map] at hsnapshots
  exact hsnapshots

theorem restart (config : SchedulerConfig) :
    Option.Rel (Alike n m) (s.restart config) (r.restart config) := by
  have hrebuild : rebuild config s.registry.entries {} = rebuild config r.registry.entries {} := by
    rw [← rebuild_forget, h.registry.entries, rebuild_forget]
  simp only [State.restart, hrebuild]
  cases rebuild config r.registry.entries {} with
  | none => exact .none
  | some builder =>
    refine .some ⟨⟨rfl, rfl⟩, ?_, rfl, ?_, ?_, ?_, ?_⟩
    · simp only [h.flags]
    · simpa using h.ticks_length
    · intro i hi
      have hrelated := h.ticks i hi
      simp only [getElem?_map]
      generalize s.ticks[i]? = tick at hrelated ⊢
      generalize r.ticks[i]? = tick' at hrelated ⊢
      cases hrelated with
      | none => exact .none
      | some hticks => cases hticks <;> exact .some .same
    · simpa using h.triggers_length
    · intro k hk
      simp only [getElem?_map, h.triggers k hk]

theorem startTick (tick : Tick T) :
    Alike n m { s with ticks := s.ticks ++ [tick] } { r with ticks := r.ticks ++ [tick] } :=
  { h with
    ticks_length := by simp [h.ticks_length]
    ticks := by
      intro i hi
      simp only [getElem?_append, h.ticks_length]
      split
      · exact h.ticks i hi
      · cases [tick][i - r.ticks.length]? with
        | none => exact .none
        | some => exact .some .same }

end Alike

/-! ## Every later call -/

/-- The action drives no tick below `n` and no manual trigger below `m`. -/
def Action.From (n m : ℕ) : Action T → Prop
  | .poll i _ | .dispatchReturns i _ | .abort i => n ≤ i
  | .triggerReturns k _ | .triggerAborts k => m ≤ k
  | _ => True

theorem Alike.step {n m : ℕ} {s r} {action : Action T} (h : Alike n m s r) (hs : Inv config s)
    (hr : Inv config r) (hact : action.From n m) :
    Option.Rel (Matches n m) (step config s action) (step config r action) := by
  have htrigger : ∀ {k event}, m ≤ k → Option.Rel (Matches n m)
      (if s.triggers[k]? = some .dispatching then some (s.endTrigger k, event) else none)
      (if r.triggers[k]? = some .dispatching then some (r.endTrigger k, event) else none) := by
    intro k event hk
    rw [h.triggers k hk]
    split
    · exact .some ⟨rfl, h.endTrigger k⟩
    · exact .none
  -- A tick that is driven later is there in both states, or in neither.
  have htick : ∀ {i : ℕ} {f g : Tick T → Option (State T × List (Event T))}, n ≤ i →
      (∀ {tick tick'}, s.ticks[i]? = some tick → r.ticks[i]? = some tick' → tick.Alike tick' →
        Option.Rel (Matches n m) (f tick) (g tick')) →
      Option.Rel (Matches n m) (s.ticks[i]?.bind f) (r.ticks[i]?.bind g) := by
    intro i f g hi hstep
    have hrelated := h.ticks i hi
    cases hticks : s.ticks[i]? <;> cases hticks' : r.ticks[i]? <;>
      rw [hticks, hticks'] at hrelated
    · exact .none
    · cases hrelated
    · cases hrelated
    · cases hrelated with
      | some halike => exact hstep hticks hticks' halike
  cases action with
  | tick now observesShutdown =>
    refine .some ⟨?_, h.startTick _⟩
    simp only [h.ticks_length]
  | poll i cancelled => exact htick hact fun hi hi' halike => h.poll hs hr hi hi' halike cancelled
  | dispatchReturns i result => exact htick hact fun _ _ halike => h.dispatchReturns halike result
  | abort i => exact htick hact fun _ _ halike => h.abort halike
  | addSchedule schedule => exact .some (h.addSchedule schedule)
  | removeSchedule id => exact .some (h.removeSchedule id)
  | pauseSchedule id | resumeSchedule id => exact .some (h.setStatus id _ _)
  | triggerSchedule id triggeredAt => exact .some (h.triggerSchedule id triggeredAt)
  | triggerReturns k result | triggerAborts k => exact htrigger hact
  | resolveReconciliation id resolution => exact .some (h.resolveReconciliation id resolution)
  | snapshots => exact .some ⟨by rw [h.snapshots], h⟩
  | restart =>
    have hrestart := h.restart config
    simp only [Scheduler.step]
    generalize s.restart config = rebuilt at hrestart ⊢
    generalize r.restart config = rebuilt' at hrestart ⊢
    cases hrestart with
    | none => exact .none
    | some halike => exact .some ⟨rfl, halike⟩

end PlenoraRuntime.Scheduler
