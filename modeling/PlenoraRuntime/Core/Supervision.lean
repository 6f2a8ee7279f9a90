import PlenoraRuntime.Core.Books

/-!
# Task supervision

Every interleaving keeps the books (`Sound`). Shutdown needs two more facts: a call that
has begun has ended the running phase, and a call that saw no active task is right for
good, because tasks are registered in the running phase only.

`Steps` is what a step can do, seen from outside: futures end by the action that ends them
and by no other, and the phase only moves on.
-/

namespace PlenoraRuntime.Core

open Transition List Option

variable {config : RuntimeConfig} {inner inner' : RuntimeInner} {task : Task}
  {stage : TaskStage} {events : List Event}

/-! ## The phase -/

/-- The phases a step may lead to. -/
inductive RuntimePhase.Next : RuntimePhase → RuntimePhase → Prop
  | same {phase} : Next phase phase
  | drains : Next .running .draining
  | stops : Next .draining .stopped

theorem RuntimePhase.Next.not_running {phase phase' : RuntimePhase} (h : phase.Next phase')
    (hleft : phase ≠ .running) : phase' ≠ .running := by
  cases h with
  | same => exact hleft
  | drains => exact absurd rfl hleft
  | stops => simp

theorem next_beginShutdown (inner : RuntimeInner) :
    inner.phase.Next inner.beginShutdown.1.phase := by
  unfold RuntimeInner.beginShutdown
  split_ifs with hrun
  · rw [hrun]
    exact .drains
  · exact .same

theorem beginShutdown_not_running (inner : RuntimeInner) :
    inner.beginShutdown.1.phase ≠ .running := by
  unfold RuntimeInner.beginShutdown
  split_ifs with hrun
  · simp
  · exact hrun

theorem Task.next_of_advance (h : task.advance config inner = some (inner', stage, events)) :
    inner.phase.Next inner'.phase ∧ .drained .completed ∉ events ∧
      ∀ id outcome, .ended id outcome ∉ events := by
  obtain ⟨id, spec, before⟩ := task
  cases before with
  | applying outcome effects =>
    cases effects with
    | nil =>
      obtain ⟨rfl, rfl, rfl⟩ := by simpa using h
      exact ⟨.same, by simp, by simp⟩
    | cons effect rest =>
      obtain ⟨rfl, rfl, rfl⟩ := by simpa using h
      refine ⟨?_, by simp, by simp⟩
      cases effect with
      | beginShutdown => exact next_beginShutdown inner
      | _ => exact .same
  | recording outcome =>
    obtain ⟨rfl, rfl, rfl⟩ := by simpa using h
    unfold RuntimeInner.recordReport
    split_ifs <;> exact ⟨.same, by simp, by simp⟩
  | supervised | finished outcome => simp [Task.advance] at h
  | _ =>
    obtain ⟨rfl, rfl, rfl⟩ := by simpa using h
    exact ⟨.same, by simp, by simp⟩

/-- What a step of `request_shutdown` can do. -/
theorem RequestStage.of_advance {call call' : RequestStage}
    (h : call.advance inner = some (inner', call', events)) :
    SameBooks inner inner' ∧ inner.phase.Next inner'.phase ∧ Quiet events ∧
      .drained .completed ∉ events := by
  cases call with
  | starting =>
    have hinner : inner.beginShutdown.1 = inner' ∧
        (events = [] ∨ events = [.requested false]) := by
      simp only [RequestStage.advance] at h
      split_ifs at h <;> obtain ⟨rfl, -, rfl⟩ := by simpa using h
      · exact ⟨rfl, .inl rfl⟩
      · exact ⟨rfl, .inr rfl⟩
    obtain ⟨rfl, hevents⟩ := hinner
    refine ⟨sameBooks_beginShutdown inner, next_beginShutdown inner, ?_⟩
    rcases hevents with rfl | rfl
    · exact ⟨.nil, by simp⟩
    · exact ⟨by simp [Quiet, Event.task?], by simp⟩
  | cancelling =>
    obtain ⟨rfl, -, rfl⟩ := by simpa using h
    exact ⟨⟨rfl, rfl, rfl, rfl⟩, .same, by simp [Quiet, Event.task?], by simp⟩
  | returned changed => simp [RequestStage.advance] at h

/-- The call has seen that no task is active. -/
def ShutdownStage.isIdle : ShutdownStage → Bool
  | .stopping .completed | .returned .completed => true
  | _ => false

/-- What a step of `shutdown` can do, when the call has left the running phase behind. -/
structure ShutdownStage.Advances (inner : RuntimeInner) (call : ShutdownStage)
    (inner' : RuntimeInner) (call' : ShutdownStage) (events : List Event) : Prop where
  sameBooks : SameBooks inner inner'
  quiet : Quiet events
  next : inner.phase.Next inner'.phase
  left : inner'.phase ≠ .running
  idle : call'.isIdle = true → call.isIdle = true ∨ inner.activeTasks = 0
  drained : .drained .completed ∈ events → call.isIdle = true

variable {call call' : ShutdownStage}

theorem ShutdownStage.of_advance (h : call.advance inner = some (inner', call', events))
    (hbegan : call ≠ .starting → inner.phase ≠ .running) :
    Advances inner call inner' call' events := by
  -- The calls that only look at the count.
  have hlooks : ∀ other : ShutdownStage, call ≠ .starting → other.isIdle = false →
      inner = inner' → (if inner.activeTasks = 0 then .stopping .completed else other) = call' →
      events = [] → Advances inner call inner' call' events := by
    rintro other hstart hother rfl rfl rfl
    refine ⟨.refl inner, .nil, .same, hbegan hstart, fun hidle => .inr ?_, by simp⟩
    by_contra hactive
    rw [if_neg hactive, hother] at hidle
    exact Bool.false_ne_true hidle
  cases call with
  | starting =>
    have hcall : inner.beginShutdown.1 = inner' ∧ call'.isIdle = false ∧ events = [] := by
      obtain ⟨rfl, rfl, rfl⟩ := by simpa using h
      refine ⟨rfl, ?_, rfl⟩
      split_ifs <;> rfl
    obtain ⟨rfl, hidle, rfl⟩ := hcall
    exact ⟨sameBooks_beginShutdown inner, .nil, next_beginShutdown inner,
      beginShutdown_not_running inner, by simp [hidle], by simp⟩
  | cancelling =>
    obtain ⟨rfl, rfl, rfl⟩ := by simpa using h
    exact ⟨⟨rfl, rfl, rfl, rfl⟩, .nil, .same, hbegan (by simp), by simp [isIdle], by simp⟩
  | probing | checking seen | expired =>
    obtain ⟨rfl, hcall, rfl⟩ := by simpa [ShutdownStage.advance] using h
    exact hlooks _ (by simp) (by rfl) rfl hcall rfl
  | listening =>
    obtain ⟨rfl, rfl, rfl⟩ := by simpa using h
    exact ⟨.refl inner, .nil, .same, hbegan (by simp), by simp [isIdle], by simp⟩
  | parked seen =>
    obtain ⟨-, rfl, rfl, rfl⟩ := by simpa [ShutdownStage.advance] using h
    exact ⟨.refl inner, .nil, .same, hbegan (by simp), by simp [isIdle], by simp⟩
  | aborting remaining =>
    obtain ⟨rfl, rfl, rfl⟩ := by simpa using h
    exact ⟨.refl inner, forall_mem_map.mpr fun _ _ => rfl, .same, hbegan (by simp),
      by simp [isIdle], by simp⟩
  | stopping outcome =>
    obtain ⟨rfl, rfl, rfl⟩ := by simpa using h
    refine ⟨⟨rfl, rfl, rfl, rfl⟩, by simp [Quiet, Event.task?], ?_, by simp, ?_, ?_⟩
    · have hleft := hbegan (by simp)
      cases hphase : inner.phase with
      | running => exact absurd hphase hleft
      | draining => exact .stops
      | stopped => exact .same
    · intro hidle
      cases outcome with
      | completed => exact .inl rfl
      | timedOut remaining => simp [isIdle] at hidle
    · intro hdrain
      obtain rfl : DrainOutcome.completed = outcome := by simpa using hdrain
      rfl
  | returned outcome | abandoned => simp [ShutdownStage.advance] at h

/-! ## Runs -/

/-- The books are kept, a shutdown that has begun has left the running phase, and one
that saw no active task was right for good. -/
structure Sound (config : RuntimeConfig) (s : State) (past : List Event) : Prop where
  accounted : Accounted config s.inner s.tasks past
  began : ∀ call ∈ s.shutdowns, call ≠ .starting → s.inner.phase ≠ .running
  idle : ∀ call ∈ s.shutdowns, call.isIdle = true → s.inner.activeTasks = 0
  drained : .drained .completed ∈ past → s.inner.activeTasks = 0 ∧ s.inner.phase ≠ .running

/-- The action is the end of the future of the task `id`. -/
def Ends (s : State) (id : ℕ) (outcome : TaskOutcome) (action : Action) : Prop :=
  ∃ i result task, action = .ends i result ∧ s.tasks[i]? = some task ∧ task.id = id ∧
    result.outcome = outcome

structure Steps (s : State) (action : Action) (s' : State) (events : List Event) : Prop where
  next : s.inner.phase.Next s'.inner.phase
  unregistered : s.inner.phase ≠ .running → registrations events = []
  counted : ∀ id ∈ releases events, s'.inner.activeTasks + 1 = s.inner.activeTasks
  ended : ∀ id outcome, .ended id outcome ∈ events → Ends s id outcome action

section runs

variable {s s' : State} {past : List Event} {action : Action} {i : ℕ}

theorem ne_starting_of_isIdle (h : call.isIdle = true) : call ≠ .starting := by
  rintro rfl
  exact Bool.false_ne_true h

theorem Sound.init : Sound config init [] where
  accounted := .new
  began := by simp [Core.init]
  idle := by simp [Core.init]
  drained := by simp

/-- A step after which every shutdown is where it was, or has not begun. -/
theorem Sound.undisturbed (h : Sound config s past)
    (hacct : Accounted config s'.inner s'.tasks (past ++ events))
    (hnext : s.inner.phase.Next s'.inner.phase)
    (hactive : s.inner.phase ≠ .running → s'.inner.activeTasks ≤ s.inner.activeTasks)
    (hdrain : .drained .completed ∉ events)
    (hcalls : ∀ call ∈ s'.shutdowns, call ≠ .starting → ∃ old ∈ s.shutdowns, old ≠ .starting ∧
      (call.isIdle = true → old.isIdle = true)) : Sound config s' (past ++ events) where
  accounted := hacct
  began call hcall hstart := by
    obtain ⟨old, hold, holdStarted, -⟩ := hcalls call hcall hstart
    exact hnext.not_running (h.began old hold holdStarted)
  idle call hcall hidle := by
    obtain ⟨old, hold, holdStarted, holdIdle⟩ := hcalls call hcall (ne_starting_of_isIdle hidle)
    have hzero := h.idle old hold (holdIdle hidle)
    have hle := hactive (h.began old hold holdStarted)
    omega
  drained hmem := by
    rcases mem_append.mp hmem with hmem | hmem
    · obtain ⟨hzero, hleft⟩ := h.drained hmem
      have hle := hactive hleft
      exact ⟨by omega, hnext.not_running hleft⟩
    · exact absurd hmem hdrain

theorem Sound.advances (h : Sound config s past) (hi : s.shutdowns[i]? = some call)
    (hadv : ShutdownStage.Advances s.inner call inner' call' events) :
    Sound config { s with inner := inner', shutdowns := s.shutdowns.set i call' }
      (past ++ events) := by
  have hmem := mem_of_getElem? hi
  have hactive := hadv.sameBooks.activeTasks
  exact {
    accounted := h.accounted.quiet hadv.sameBooks hadv.quiet
    began := fun _ _ _ => hadv.left
    idle := fun other hother hidle => by
      refine hactive.trans ?_
      rcases mem_or_eq_of_mem_set hother with hother | rfl
      · exact h.idle other hother hidle
      · rcases hadv.idle hidle with hold | hzero
        · exact h.idle call hmem hold
        · exact hzero
    drained := fun hdrain => by
      refine ⟨hactive.trans ?_, hadv.left⟩
      rcases mem_append.mp hdrain with hdrain | hdrain
      · exact (h.drained hdrain).1
      · exact h.idle call hmem (hadv.drained hdrain) }

theorem Steps.of_quiet (hquiet : Quiet events)
    (hnext : s.inner.phase.Next s'.inner.phase) : Steps s action s' events where
  next := hnext
  unregistered _ := hquiet.registrations
  counted id hid := by simp [hquiet.releases] at hid
  ended _ _ hmem := absurd (hquiet _ hmem) (by simp [Event.task?])

theorem unchanged_calls (calls : List ShutdownStage) :
    ∀ call ∈ calls, call ≠ .starting →
      ∃ old ∈ calls, old ≠ .starting ∧ (call.isIdle = true → old.isIdle = true) :=
  fun call hcall hstart => ⟨call, hcall, hstart, fun hidle => hidle⟩

theorem Sound.quiet (h : Sound config s past) (hsame : SameBooks s.inner s'.inner)
    (htasks : s'.tasks = s.tasks) (hnext : s.inner.phase.Next s'.inner.phase)
    (hquiet : Quiet events) (hdrain : .drained .completed ∉ events)
    (hcalls : ∀ call ∈ s'.shutdowns, call ≠ .starting →
      ∃ old ∈ s.shutdowns, old ≠ .starting ∧ (call.isIdle = true → old.isIdle = true)) :
    Sound config s' (past ++ events) ∧ Steps s action s' events :=
  ⟨h.undisturbed (htasks ▸ h.accounted.quiet hsame hquiet) hnext (fun _ => hsame.activeTasks.le)
    hdrain hcalls, .of_quiet hquiet hnext⟩

theorem sound_spawn {runtimeActive : Bool} {spec : TaskSpec} (h : Sound config s past)
    (hstep : spawn config s runtimeActive spec = (s', events)) :
    Sound config s' (past ++ events) ∧ Steps s action s' events := by
  have hrejected : ∀ error, (s, [Event.rejected error]) = (s', events) →
      Sound config s' (past ++ events) ∧ Steps s action s' events := by
    intro error heq
    cases heq
    exact h.quiet (.refl _) rfl .same (by simp [Quiet, Event.task?]) (by simp)
      (unchanged_calls _)
  unfold spawn at hstep
  split_ifs at hstep with hactive
  · exact hrejected _ hstep
  · split at hstep
    · exact hrejected _ hstep
    · next inner id hreg =>
        cases hstep
        have hbooks := h.accounted.register spec hreg
        have hphase : s.inner.phase = .running ∧ inner.phase = s.inner.phase := by
          unfold RuntimeInner.registerTask at hreg
          split_ifs at hreg with hphase
          cases hreg
          exact ⟨not_ne_iff.mp hphase, rfl⟩
        have hnext : s.inner.phase.Next inner.phase := by
          rw [hphase.2]
          exact .same
        refine ⟨h.undisturbed hbooks hnext (fun hleft => absurd hphase.1 hleft) (by simp)
          (unchanged_calls _), ⟨hnext, fun hleft => absurd hphase.1 hleft, ?_, by simp⟩⟩
        simp [releases]

theorem sound_move (h : Sound config s past) (hi : s.tasks[i]? = some task)
    (hmoves : Moves config s.inner inner' task stage events)
    (hnext : s.inner.phase.Next inner'.phase) (hdrain : .drained .completed ∉ events)
    (hended : ∀ id outcome, .ended id outcome ∈ events → Ends s id outcome action) :
    let s' := { s with inner := inner', tasks := s.tasks.set i { task with stage } }
    Sound config s' (past ++ events) ∧ Steps s action s' events := by
  refine ⟨h.undisturbed (h.accounted.move hi hmoves) hnext (fun _ => hmoves.counts.le) hdrain
    (unchanged_calls _), ⟨hnext, fun _ => hmoves.registrations, fun id hid => ?_, hended⟩⟩
  exact hmoves.counts.succ_of_mem hid (h.accounted.pos_of_isActive hi)

/-- A waiting shutdown is given up, by its caller or because its time is over. -/
theorem sound_unpark {seen : ℕ} (h : Sound config s past)
    (hi : s.shutdowns[i]? = some (.parked seen)) (hidle : call.isIdle = false) :
    let s' := { s with shutdowns := s.shutdowns.set i call }
    Sound config s' (past ++ []) ∧ Steps s action s' [] := by
  refine h.quiet (.refl _) rfl .same .nil (by simp) fun other hother hstart => ?_
  rcases mem_or_eq_of_mem_set hother with hother | rfl
  · exact ⟨other, hother, hstart, fun hsame => hsame⟩
  · exact ⟨_, mem_of_getElem? hi, by simp, fun htrue => by simp [hidle] at htrue⟩

theorem sound_step (h : Sound config s past)
    (hstep : (machine config).step s action = some (s', events)) :
    Sound config s' (past ++ events) ∧ Steps s action s' events := by
  cases action with
  | spawn runtimeActive spec => exact sound_spawn h (Option.some.inj hstep)
  | advanceTask i =>
    obtain ⟨task, hi, hmapped⟩ := bind_eq_some_iff.mp hstep
    obtain ⟨⟨inner', stage, new⟩, hadv, heq⟩ := map_eq_some_iff.mp hmapped
    cases heq
    obtain ⟨hnext, hdrain, hnone⟩ := Task.next_of_advance hadv
    exact sound_move h hi (Task.moves_of_advance hadv) hnext hdrain
      fun id outcome hmem => absurd hmem (hnone id outcome)
  | ends i result =>
    obtain ⟨task, hi, hmapped⟩ := bind_eq_some_iff.mp hstep
    obtain ⟨stage, hended, heq⟩ := map_eq_some_iff.mp hmapped
    cases heq
    -- Only here a future is reported as ended.
    refine sound_move h hi (Task.moves_of_ended hended) .same (by simp) fun id outcome hmem => ?_
    obtain ⟨rfl, rfl⟩ := Event.ended.inj (mem_singleton.mp hmem)
    exact ⟨i, result, task, rfl, hi, rfl, rfl⟩
  | requestShutdown =>
    cases hstep
    exact h.quiet (.refl _) rfl .same .nil (by simp) (unchanged_calls _)
  | advanceRequest i =>
    obtain ⟨call, -, hmapped⟩ := bind_eq_some_iff.mp hstep
    obtain ⟨⟨inner', stage, new⟩, hadv, heq⟩ := map_eq_some_iff.mp hmapped
    cases heq
    obtain ⟨hsame, hnext, hquiet, hdrain⟩ := RequestStage.of_advance hadv
    exact h.quiet hsame rfl hnext hquiet hdrain (unchanged_calls _)
  | shutdown =>
    cases hstep
    -- A call that was just made has not looked at anything yet.
    refine h.quiet (.refl _) rfl .same .nil (by simp) fun call hcall hstart => ?_
    rcases mem_append.mp hcall with hcall | hcall
    · exact ⟨call, hcall, hstart, fun hidle => hidle⟩
    · exact absurd (mem_singleton.mp hcall) hstart
  | advanceShutdown i =>
    obtain ⟨call, hi, hmapped⟩ := bind_eq_some_iff.mp hstep
    obtain ⟨⟨inner', stage, new⟩, hadv, heq⟩ := map_eq_some_iff.mp hmapped
    cases heq
    have hadvances := ShutdownStage.of_advance hadv (h.began call (mem_of_getElem? hi))
    exact ⟨h.advances hi hadvances,
      .of_quiet hadvances.quiet hadvances.next⟩
  | expires i | abandons i =>
    simp only [machine] at hstep
    split at hstep
    · next seen hi =>
        cases hstep
        exact sound_unpark h hi rfl
    · simp at hstep
  | application write =>
    cases hstep
    exact h.quiet ⟨rfl, rfl, rfl, rfl⟩ rfl .same .nil (by simp) (unchanged_calls _)

theorem sound_run {actions : List Action}
    (hrun : (machine config).run init actions = some (s, events)) : Sound config s events :=
  Runs.history (fun h ⟨_, hstep⟩ => (sound_step h hstep).1) [] (Machine.runs_of_run hrun)
    Sound.init

/-- Once the running phase is over, no task is registered. -/
theorem unregistered_of_run {later : List Action} (h : Sound config s past)
    (hleft : s.inner.phase ≠ .running)
    (hrun : (machine config).run s later = some (s', events)) : registrations events = [] := by
  have hinvariant := Runs.history
    (I := fun s past' => Sound config s (past ++ past') ∧ s.inner.phase ≠ .running ∧
      registrations past' = [])
    (fun {s₁ past₁ new s₂} h₁ hstep => by
      obtain ⟨hsound, hleft, hnone⟩ := h₁
      obtain ⟨action, hstep⟩ := hstep
      obtain ⟨hsound, hsteps⟩ := sound_step hsound hstep
      refine ⟨by rwa [append_assoc] at hsound, hsteps.next.not_running hleft, ?_⟩
      rw [registrations_append, hnone, hsteps.unregistered hleft, append_nil])
    [] (Machine.runs_of_run hrun) ⟨by rwa [append_nil], hleft, rfl⟩
  exact hinvariant.2.2

end runs

/-- In every state that any interleaving reaches: the next step keeps the phase or moves it
one on, each release finds a task to take away, and a future is reported as ended by its
end alone; the tasks that are counted are those registered and not released, never more than
allowed; abort handles are of such tasks only; out of the running phase nothing is
registered; after a completed shutdown no task is active, and every registered future has
ended; the reports are the last completions, in the order in which the supervisors recorded
them; and the supervision of each task has come some way along its course: the future ends
with an outcome, the completion with that outcome is recorded, the task is released and the
report is handed out, each once and in this order. -/
theorem task_supervision_invariant {config : RuntimeConfig} {s : State} {actions : List Action}
    {events : List Event} (hrun : (machine config).run init actions = some (s, events)) :
    (∀ action s' new, (machine config).step s action = some (s', new) →
      s.inner.phase.Next s'.inner.phase ∧
        (∀ id ∈ releases new, s'.inner.activeTasks + 1 = s.inner.activeTasks) ∧
        ∀ id outcome, .ended id outcome ∈ new → Ends s id outcome action) ∧
    s.inner.activeTasks =
      ((registrations events).filter fun id => id ∉ releases events).length ∧
    s.inner.activeTasks ≤ config.maxConcurrentTasks.val ∧
    (∀ id ∈ s.inner.abortHandles.map Prod.fst,
      id ∈ registrations events ∧ id ∉ releases events) ∧
    (s.inner.phase ≠ .running → ∀ later s' new,
      (machine config).run s later = some (s', new) → registrations new = []) ∧
    (.drained .completed ∈ events → s.inner.activeTasks = 0 ∧
      ∀ id ∈ registrations events, ∃ outcome, .ended id outcome ∈ events) ∧
    s.inner.reports = ((completions events).map Prod.snd).rtake config.taskReportCapacity.val ∧
    ∀ id, ∃ spec outcome, milestones id events <+: course id spec outcome := by
  have hsound := sound_run hrun
  have hbooks := hsound.accounted
  have hreleased : ∀ task ∈ s.tasks, task.id ∈ releases events ↔ task.stage.isActive = false := by
    intro task htask
    rw [mem_releases, hbooks.told task htask, Task.released_mem_iff]
  refine ⟨?_, ?_, hbooks.bounded, ?_, fun hleft later s' new hlater =>
    unregistered_of_run hsound hleft hlater, ?_, hbooks.reports, ?_⟩
  · intro action s' new hstep
    obtain ⟨-, hsteps⟩ := sound_step hsound hstep
    exact ⟨hsteps.next, hsteps.counted, hsteps.ended⟩
  · rw [hbooks.registered, ← List.countP_eq_length_filter, List.countP_map, hbooks.active]
    refine List.countP_congr fun task htask => ?_
    simp [hreleased task htask]
  · intro id hid
    obtain ⟨task, htask, rfl, hholds⟩ := hbooks.handles id hid
    refine ⟨hbooks.registered ▸ List.mem_map_of_mem htask, fun hmem => ?_⟩
    rw [hreleased task htask] at hmem
    cases hstage : task.stage <;> simp [hstage, TaskStage.isActive, TaskStage.holdsHandle] at *
  · intro hdrained
    have hidle := (hsound.drained hdrained).1
    refine ⟨hidle, fun id hid => ?_⟩
    rw [hbooks.registered] at hid
    obtain ⟨task, htask, rfl⟩ := List.mem_map.mp hid
    -- No task is counted, so this one is not, and what it has behind it includes its end.
    have hinactive : task.stage.isActive = false := by
      rw [hbooks.active, List.countP_eq_zero] at hidle
      simpa using hidle task htask
    obtain ⟨outcome, hended⟩ := Task.ended_mem hinactive
    rw [← hbooks.told task htask] at hended
    exact ⟨outcome, List.mem_of_mem_filter hended⟩
  · intro id
    by_cases hid : id ∈ s.tasks.map Task.id
    · obtain ⟨task, htask, rfl⟩ := List.mem_map.mp hid
      obtain ⟨outcome, hcourse⟩ := task.milestones_isPrefix
      exact ⟨task.spec, outcome, hbooks.told task htask ▸ hcourse⟩
    · rw [hbooks.untold id hid]
      exact ⟨⟨[], .required⟩, .completed, List.nil_prefix⟩

/-- A task completes while a shutdown waits for it. -/
theorem task_supervision_invariant_drained :
    let config : RuntimeConfig := {}
    let actions : List Action :=
      [.spawn true ⟨utf8 "loop", .required⟩, .advanceTask 0, .shutdown, .advanceShutdown 0,
        .advanceShutdown 0, .advanceShutdown 0, .advanceShutdown 0, .advanceShutdown 0, .ends 0 .ok,
        .advanceTask 0, .advanceTask 0, .advanceTask 0, .advanceTask 0, .advanceShutdown 0,
        .advanceShutdown 0, .advanceShutdown 0, .advanceShutdown 0]
    let last := (machine config).after init actions
    .drained .completed ∈ last.2 ∧ last.1.inner.activeTasks = 0 ∧
      (∃ outcome, .ended 1 outcome ∈ last.2) ∧
      last.1.inner.reports = [⟨⟨utf8 "loop", .required⟩, .completed⟩] := by
  intro config actions last
  have hrun : (machine config).run init actions = some last :=
    Machine.run_eq_after (by decide +kernel)
  have hdrained : .drained .completed ∈ last.2 := by decide +kernel
  have hkept : ((completions last.2).map Prod.snd).rtake config.taskReportCapacity.val =
      [⟨⟨utf8 "loop", .required⟩, .completed⟩] := by decide +kernel
  have hregistered : 1 ∈ registrations last.2 := by decide +kernel
  clear_value last
  obtain ⟨-, -, -, -, -, hidle, hreports, -⟩ := task_supervision_invariant hrun
  obtain ⟨hactive, hended⟩ := hidle hdrained
  exact ⟨hdrained, hactive, hended 1 hregistered, hreports.trans hkept⟩

end PlenoraRuntime.Core
