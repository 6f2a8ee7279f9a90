import PlenoraRuntime.Core.Supervision

/-!
# Critical failures

The failure of a critical task marks its component unhealthy and not ready and ends the
running phase, in three accesses (`Marked` says which of them are still to come). What
has been marked lasts unless something else is written to the same component. Components
are named after tasks, and two tasks may have one name: a milder failure of another task that
is written after that of the critical one replaces its status (`Masks`). Written before, it
does no harm.
-/

namespace PlenoraRuntime.Core

open Transition List Option

namespace TaskStage

/-- What is left of `apply_task_failure`. -/
def effects : TaskStage → List FailureEffect
  | .applying _ effects => effects
  | _ => []

/-- What the supervisor was told about the future. -/
def outcome? : TaskStage → Option TaskOutcome
  | .registered | .supervised => none
  | .applying outcome _ | .recording outcome | .removing outcome | .releasing outcome
  | .notifying outcome | .sending outcome | .finished outcome => some outcome

/-- `apply_task_failure` has returned, if it was called at all. -/
def isApplied : TaskStage → Bool
  | .registered | .supervised | .applying .. => false
  | .recording _ | .removing _ | .releasing _ | .notifying _ | .sending _ | .finished _ => true

def hasFailed (stage : TaskStage) : Prop :=
  ∃ failure, stage.outcome? = some (.failed failure)

end TaskStage

/-- The supervisor of another task writes a milder status over the one that task `i` has
written to the component of both. -/
def Masks (i : ℕ) (s : State) (action : Action) : Prop :=
  ∃ j task critical health rest, action = .advanceTask j ∧ j ≠ i ∧ s.tasks[j]? = some task ∧
    task.stage.effects = .setHealth health :: rest ∧ health.status ≠ .unhealthy ∧
    s.tasks[i]? = some critical ∧ health.component = critical.spec.component ∧
    ∀ message, .setHealth ⟨critical.spec.component, .unhealthy, message⟩ ∉ critical.stage.effects

/-! ## What a failure writes -/

/-- A failure takes readiness away, and that of a critical task health as well. -/
def FailureEffect.Lowers (spec : TaskSpec) : FailureEffect → Prop
  | .setHealth health => spec.criticality = .critical → health.status = .unhealthy
  | .setReadiness readiness => readiness.status = .notReady
  | .beginShutdown | .cancel => True

variable {config : RuntimeConfig} {spec : TaskSpec} {effect : FailureEffect}

theorem lowers_of_mem_applyTaskFailure {failure}
    (h : effect ∈ applyTaskFailure config spec failure) : effect.Lowers spec := by
  unfold applyTaskFailure at h
  cases hcrit : spec.criticality with
  | critical =>
    simp only [hcrit, mem_cons, not_mem_nil, or_false] at h
    rcases h with rfl | rfl | rfl
    · exact fun _ => rfl
    · rfl
    · trivial
  | required =>
    simp only [hcrit, mem_cons, not_mem_nil, or_false] at h
    rcases h with rfl | rfl
    · simp [FailureEffect.Lowers, hcrit]
    · rfl
  | optional =>
    cases hpol : config.optionalTaskFailure with
    | ignore => simp [hcrit, hpol] at h
    | markDegraded =>
      simp only [hcrit, hpol, mem_cons, not_mem_nil, or_false] at h
      subst h
      simp [FailureEffect.Lowers, hcrit]
    | shutdown =>
      simp only [hcrit, hpol, mem_cons, not_mem_nil, or_false] at h
      rcases h with rfl | rfl | rfl
      · exact fun _ => rfl
      · rfl
      · trivial

/-- What is left of the task's failure. -/
def Task.Lowers (task : Task) : Prop :=
  ∀ effect ∈ task.stage.effects, effect.Lowers task.spec

variable {rest : List FailureEffect} {other : FailureEffect}

section steps

variable {inner inner' : RuntimeInner} {task : Task} {stage : TaskStage} {events : List Event}
  {s s' : State} {action : Action}

theorem FailureEffect.mem_of_mem_perform (h : other ∈ (effect.perform inner rest).2) :
    other = .cancel ∨ other ∈ rest := by
  cases effect with
  | beginShutdown =>
    simp only [FailureEffect.perform] at h
    split_ifs at h
    · exact mem_cons.mp h
    · exact .inr h
  | _ => exact .inr h

/-- An access of a task performs the next effect of its failure, or leaves the registry alone.
Its supervisor keeps what it knows. -/
theorem Task.advance_spec (h : task.advance config inner = some (inner', stage, events)) :
    (∀ outcome, task.stage.outcome? = some outcome → stage.outcome? = some outcome) ∧
      (task.stage.effects = [] ∧ stage.effects = [] ∧ inner'.health = inner.health ∨
        ∃ effect rest, task.stage.effects = effect :: rest ∧
          inner' = (effect.perform inner rest).1 ∧
          stage.effects = (effect.perform inner rest).2) := by
  obtain ⟨id, spec, before⟩ := task
  cases before with
  | applying outcome effects =>
    cases effects with
    | nil =>
      obtain ⟨rfl, rfl, -⟩ := by simpa using h
      exact ⟨fun _ h => h, .inl ⟨rfl, rfl, rfl⟩⟩
    | cons effect rest =>
      obtain ⟨rfl, rfl, -⟩ := by simpa using h
      exact ⟨fun _ h => h, .inr ⟨effect, rest, rfl, rfl, rfl⟩⟩
  | recording outcome =>
    obtain ⟨rfl, rfl, -⟩ := by simpa using h
    unfold RuntimeInner.recordReport
    split_ifs <;> exact ⟨fun _ h => h, .inl ⟨rfl, rfl, rfl⟩⟩
  | supervised | finished outcome => simp [Task.advance] at h
  | _ =>
    obtain ⟨rfl, rfl, -⟩ := by simpa using h
    exact ⟨fun _ h => h, .inl ⟨rfl, rfl, rfl⟩⟩

theorem Task.lowers_of_advance (h : task.advance config inner = some (inner', stage, events))
    (hlowers : task.Lowers) : Task.Lowers { task with stage } := by
  obtain ⟨-, ⟨-, hnone, -⟩ | ⟨effect, rest, heffects, -, hrest⟩⟩ := Task.advance_spec h
  · simp [Task.Lowers, hnone]
  · intro other hother
    rcases FailureEffect.mem_of_mem_perform (hrest ▸ hother) with rfl | hother
    · trivial
    · exact hlowers other (heffects ▸ mem_cons_of_mem _ hother)

theorem Task.lowers_of_ended {result} (h : task.ended config result = some stage) :
    Task.Lowers { task with stage } := by
  obtain ⟨-, ⟨-, rfl⟩ | ⟨failure, -, rfl⟩⟩ := Task.ended_spec h
  · simp [Task.Lowers, TaskStage.effects]
  · exact fun effect heff => lowers_of_mem_applyTaskFailure heff

end steps

/-! ## What a step does to the tasks and to the registry -/

/-- A step, by what it means for tasks and health. -/
inductive TaskStep (config : RuntimeConfig) (s : State) : Action → State → Prop
  | spawned {action s'} (task : Task) (htasks : s'.tasks = s.tasks ++ [task])
      (hstage : task.stage = .registered) (hhealth : s'.inner.health = s.inner.health) :
      TaskStep config s action s'
  | other {action s'} (htasks : s'.tasks = s.tasks)
      (hhealth : s'.inner.health = s.inner.health) : TaskStep config s action s'
  | advanced {i task inner' stage events} (hi : s.tasks[i]? = some task)
      (hadv : task.advance config s.inner = some (inner', stage, events)) :
      TaskStep config s (.advanceTask i)
        { s with inner := inner', tasks := s.tasks.set i { task with stage } }
  | ended {action i task result stage} (hi : s.tasks[i]? = some task)
      (hended : task.ended config result = some stage) :
      TaskStep config s action { s with tasks := s.tasks.set i { task with stage } }
  | wrote {write s'} (htasks : s'.tasks = s.tasks)
      (hhealth : s'.inner.health = write.apply s.inner.health) :
      TaskStep config s (.application write) s'

section steps

variable {inner inner' : RuntimeInner} {task : Task} {events : List Event} {s s' : State}
  {action : Action}

theorem health_beginShutdown (inner : RuntimeInner) :
    inner.beginShutdown.1.health = inner.health := by
  unfold RuntimeInner.beginShutdown
  split_ifs <;> rfl

theorem RequestStage.health_of_advance {call call' : RequestStage}
    (h : call.advance inner = some (inner', call', events)) : inner'.health = inner.health := by
  cases call with
  | starting =>
    obtain rfl : inner.beginShutdown.1 = inner' := by
      simp only [RequestStage.advance] at h
      split_ifs at h <;> exact (by simpa using h : _ ∧ _).1
    exact health_beginShutdown inner
  | cancelling =>
    obtain ⟨rfl, -⟩ := by simpa using h
    rfl
  | returned changed => simp [RequestStage.advance] at h

theorem ShutdownStage.health_of_advance {call call' : ShutdownStage}
    (h : call.advance inner = some (inner', call', events)) : inner'.health = inner.health := by
  cases call with
  | starting =>
    obtain ⟨rfl, -⟩ := by simpa using h
    exact health_beginShutdown inner
  | parked seen =>
    obtain ⟨-, rfl, -⟩ := by simpa [ShutdownStage.advance] using h
    rfl
  | returned outcome | abandoned => simp [ShutdownStage.advance] at h
  | _ =>
    obtain ⟨rfl, -⟩ := by simpa using h
    rfl

theorem taskStep_of_step (hstep : (machine config).step s action = some (s', events)) :
    TaskStep config s action s' := by
  cases action with
  | spawn runtimeActive spec =>
    have hspawn := Option.some.inj hstep
    unfold spawn at hspawn
    split_ifs at hspawn with hactive
    · -- A refused registration changes nothing.
      cases hspawn
      exact .other rfl rfl
    · split at hspawn
      · cases hspawn
        exact .other rfl rfl
      · next inner id hreg =>
          cases hspawn
          refine .spawned ⟨id, spec, .registered⟩ rfl rfl ?_
          unfold RuntimeInner.registerTask at hreg
          split_ifs at hreg
          cases hreg
          rfl
  | advanceTask i =>
    obtain ⟨task, hi, hmapped⟩ := bind_eq_some_iff.mp hstep
    obtain ⟨⟨inner', stage, new⟩, hadv, heq⟩ := map_eq_some_iff.mp hmapped
    cases heq
    exact .advanced hi hadv
  | ends i result =>
    obtain ⟨task, hi, hmapped⟩ := bind_eq_some_iff.mp hstep
    obtain ⟨stage, hended, heq⟩ := map_eq_some_iff.mp hmapped
    cases heq
    exact .ended hi hended
  | requestShutdown | shutdown =>
    cases hstep
    exact .other rfl rfl
  | advanceRequest i =>
    obtain ⟨call, -, hmapped⟩ := bind_eq_some_iff.mp hstep
    obtain ⟨⟨inner', stage, new⟩, hadv, heq⟩ := map_eq_some_iff.mp hmapped
    cases heq
    exact .other rfl (RequestStage.health_of_advance hadv)
  | advanceShutdown i =>
    obtain ⟨call, -, hmapped⟩ := bind_eq_some_iff.mp hstep
    obtain ⟨⟨inner', stage, new⟩, hadv, heq⟩ := map_eq_some_iff.mp hmapped
    cases heq
    exact .other rfl (ShutdownStage.health_of_advance hadv)
  | expires i | abandons i =>
    simp only [machine] at hstep
    split at hstep
    · cases hstep
      exact .other rfl rfl
    · simp at hstep
  | application write =>
    cases hstep
    exact .wrote rfl rfl

theorem TaskStep.lowers (h : TaskStep config s action s')
    (hlowers : ∀ task ∈ s.tasks, task.Lowers) :
    ∀ task ∈ s'.tasks, task.Lowers := by
  intro task htask
  cases h with
  | spawned new htasks hstage hhealth =>
    rw [htasks] at htask
    rcases mem_append.mp htask with htask | htask
    · exact hlowers task htask
    · rw [mem_singleton.mp htask, Task.Lowers, hstage]
      simp [TaskStage.effects]
  | other htasks hhealth | wrote htasks hhealth => exact hlowers task (htasks ▸ htask)
  | advanced hi hadv =>
    rcases mem_or_eq_of_mem_set htask with htask | rfl
    · exact hlowers task htask
    · exact Task.lowers_of_advance hadv (hlowers _ (mem_of_getElem? hi))
  | ended hi hended =>
    rcases mem_or_eq_of_mem_set htask with htask | rfl
    · exact hlowers task htask
    · exact Task.lowers_of_ended hended

/-- A task stays in its place, with its name and with what its supervisor knows. -/
theorem TaskStep.persists {i : ℕ} (h : TaskStep config s action s') (hi : s.tasks[i]? = some task) :
    ∃ stage, s'.tasks[i]? = some { task with stage } ∧
      ∀ outcome, task.stage.outcome? = some outcome → stage.outcome? = some outcome := by
  have hlt : i < s.tasks.length := (List.getElem?_eq_some_iff.mp hi).1
  cases h with
  | spawned new htasks hstage hhealth =>
    exact ⟨task.stage, by rw [htasks, getElem?_append_left hlt, hi], fun _ => id⟩
  | other htasks hhealth | wrote htasks hhealth =>
    exact ⟨task.stage, by rw [htasks, hi], fun _ => id⟩
  | @advanced j mover inner' stage new hj hadv =>
    by_cases hij : j = i
    · subst hij
      cases hi.symm.trans hj
      exact ⟨stage, getElem?_set_self hlt, (Task.advance_spec hadv).1⟩
    · exact ⟨task.stage, by rw [getElem?_set_ne hij, hi], fun _ => id⟩
  | @ended _ j mover result stage hj hended =>
    by_cases hij : j = i
    · subst hij
      cases hi.symm.trans hj
      refine ⟨stage, getElem?_set_self hlt, fun outcome hout => ?_⟩
      -- Only a future that had not ended ends.
      simp [(Task.ended_spec hended).1, TaskStage.outcome?] at hout
    · exact ⟨task.stage, by rw [getElem?_set_ne hij, hi], fun _ => id⟩

end steps

/-! ## What lasts -/

/-- What is marked on a component stays marked. Health does from the moment its own task, with
`effects` to come, has written it. -/
structure Lasts (component : Text) (effects : List FailureEffect) (inner inner' : RuntimeInner) :
    Prop where
  health : (∀ message, .setHealth ⟨component, .unhealthy, message⟩ ∉ effects) →
    inner.health.healthOf component = some .unhealthy →
    inner'.health.healthOf component = some .unhealthy
  readiness : inner.health.readinessOf component = some .notReady →
    inner'.health.readinessOf component = some .notReady
  phase : inner.phase ≠ .running → inner'.phase ≠ .running

/-- The component is marked, as far as the marks are not among the effects to come. -/
structure Marked (component : Text) (inner : RuntimeInner) (effects : List FailureEffect) :
    Prop where
  health : inner.health.healthOf component = some .unhealthy ∨
    ∃ message, .setHealth ⟨component, .unhealthy, message⟩ ∈ effects
  readiness : inner.health.readinessOf component = some .notReady ∨
    ∃ message, .setReadiness ⟨component, .notReady, message⟩ ∈ effects
  phase : inner.phase ≠ .running ∨ .beginShutdown ∈ effects

/-- An effect that leaves the marks of a component as they are. -/
def FailureEffect.Spares (component : Text) (effects : List FailureEffect) : FailureEffect → Prop
  | .setHealth health => (∀ message, .setHealth ⟨component, .unhealthy, message⟩ ∉ effects) →
    health.component = component → health.status = .unhealthy
  | .setReadiness readiness => readiness.status = .notReady
  | .beginShutdown | .cancel => True

section marks

variable {inner inner' : RuntimeInner} {component : Text} {effects : List FailureEffect}
  {s s' : State} {action : Action} {task critical : Task} {events : List Event}

theorem Marked.mono (h : Marked component inner effects)
    (hlasts : Lasts component effects inner inner') : Marked component inner' effects where
  health := by
    by_cases hpending : ∃ message, .setHealth ⟨component, .unhealthy, message⟩ ∈ effects
    · exact .inr hpending
    · exact h.health.imp_left (hlasts.health (not_exists.mp hpending))
  readiness := h.readiness.imp_left hlasts.readiness
  phase := h.phase.imp_left hlasts.phase

theorem lasts_of_health (hhealth : inner'.health = inner.health)
    (hphase : inner.phase ≠ .running → inner'.phase ≠ .running) :
    Lasts component effects inner inner' :=
  ⟨fun _ h => hhealth ▸ h, fun h => hhealth ▸ h, hphase⟩

theorem FailureEffect.lasts_perform (h : effect.Spares component effects) :
    Lasts component effects inner (effect.perform inner rest).1 := by
  cases effect with
  | setHealth health =>
    refine ⟨fun hwritten hmarked => ?_, fun hmarked => hmarked, fun hphase => hphase⟩
    simp only [FailureEffect.perform, HealthRegistry.healthOf_setHealth]
    split_ifs with hsame
    · rw [h hwritten hsame.symm]
    · exact hmarked
  | setReadiness readiness =>
    refine ⟨fun _ hmarked => hmarked, fun hmarked => ?_, fun hphase => hphase⟩
    simp only [FailureEffect.perform, HealthRegistry.readinessOf_setReadiness]
    split_ifs with hsame
    · rw [h]
    · exact hmarked
  | beginShutdown =>
    exact lasts_of_health (health_beginShutdown inner) fun _ => beginShutdown_not_running inner
  | cancel => exact lasts_of_health rfl fun hphase => hphase

theorem FailureEffect.mem_perform (h : other ∈ rest) : other ∈ (effect.perform inner rest).2 := by
  cases effect with
  | beginShutdown =>
    simp only [FailureEffect.perform]
    split_ifs
    · exact mem_cons_of_mem _ h
    · exact h
  | _ => exact h

/-- The next effect of the failure makes its mark. -/
theorem Marked.perform (h : Marked component inner (effect :: rest))
    (hlasts : Lasts component (effect :: rest) inner (effect.perform inner rest).1) :
    Marked component (effect.perform inner rest).1 (effect.perform inner rest).2 := by
  constructor
  · rcases (h.mono hlasts).health with hmarked | ⟨message, hmem⟩
    · exact .inl hmarked
    · rcases mem_cons.mp hmem with rfl | hmem
      · exact .inl (by simp [FailureEffect.perform])
      · exact .inr ⟨message, FailureEffect.mem_perform hmem⟩
  · rcases h.readiness with hmarked | ⟨message, hmem⟩
    · exact .inl (hlasts.readiness hmarked)
    · rcases mem_cons.mp hmem with rfl | hmem
      · exact .inl (by simp [FailureEffect.perform])
      · exact .inr ⟨message, FailureEffect.mem_perform hmem⟩
  · rcases h.phase with hphase | hmem
    · exact .inl (hlasts.phase hphase)
    · rcases mem_cons.mp hmem with rfl | hmem
      · exact .inl (beginShutdown_not_running inner)
      · exact .inr (FailureEffect.mem_perform hmem)

theorem RegistryWrite.apply_other {registry} {write : RegistryWrite}
    (h : component ≠ write.component) :
    (write.apply registry).healthOf component = registry.healthOf component ∧
      (write.apply registry).readinessOf component = registry.readinessOf component := by
  cases write with
  | setHealth report => exact ⟨HealthRegistry.healthOf_setHealth.trans (if_neg h), rfl⟩
  | removeHealth other => exact ⟨HealthRegistry.healthOf_removeHealth h, rfl⟩
  | setReadiness report => exact ⟨rfl, HealthRegistry.readinessOf_setReadiness.trans (if_neg h)⟩
  | removeReadiness other => exact ⟨rfl, HealthRegistry.readinessOf_removeReadiness h⟩

/-- A step spares the marks of a critical task, unless the application or the failure of
another task writes over them. -/
theorem TaskStep.lasts {i : ℕ} (h : TaskStep config s action s')
    (hphase : s.inner.phase ≠ .running → s'.inner.phase ≠ .running)
    (hlowers : ∀ task ∈ s.tasks, task.Lowers) (hunmasked : ¬ Masks i s action)
    (hi : s.tasks[i]? = some critical) (hcriticality : critical.spec.criticality = .critical)
    (huntouched : ∀ write, action = .application write →
      critical.spec.component ≠ write.component) :
    Lasts critical.spec.component critical.stage.effects s.inner s'.inner := by
  cases h with
  | spawned new htasks hstage hhealth | other htasks hhealth => exact lasts_of_health hhealth hphase
  | ended hj hended => exact lasts_of_health rfl hphase
  | @wrote write _ htasks hhealth =>
    obtain ⟨hhealthOf, hreadinessOf⟩ := RegistryWrite.apply_other (huntouched write rfl)
    exact ⟨fun _ hmarked => by rw [hhealth, hhealthOf, hmarked],
      fun hmarked => by rw [hhealth, hreadinessOf, hmarked], hphase⟩
  | @advanced j task inner' stage events hj hadv =>
    obtain ⟨-, ⟨-, -, hhealth⟩ | ⟨effect, rest, heffects, rfl, -⟩⟩ := Task.advance_spec hadv
    · exact lasts_of_health hhealth hphase
    · have hlower := hlowers task (mem_of_getElem? hj) effect (heffects ▸ mem_cons_self)
      refine FailureEffect.lasts_perform ?_
      cases effect with
      | setHealth health =>
        intro hwritten hsame
        by_cases hij : j = i
        · -- The critical task's own write.
          subst hij
          cases hi.symm.trans hj
          exact hlower hcriticality
        · by_contra hmilder
          exact hunmasked ⟨j, task, critical, health, rest, rfl, hij, hj, heffects, hmilder, hi,
            hsame, hwritten⟩
      | setReadiness readiness => exact hlower
      | beginShutdown => trivial
      | cancel => trivial

/-- The marks of a critical task follow every step. -/
theorem TaskStep.marked {i id : ℕ} {stage} (h : TaskStep config s action s')
    (hphase : s.inner.phase ≠ .running → s'.inner.phase ≠ .running)
    (hlowers : ∀ task ∈ s.tasks, task.Lowers) (hunmasked : ¬ Masks i s action)
    (hi : s.tasks[i]? = some ⟨id, spec, stage⟩) (hcrit : spec.criticality = .critical)
    (hfailed : stage.hasFailed)
    (huntouched : ∀ write, action = .application write → spec.component ≠ write.component)
    (hmarked : Marked spec.component s.inner stage.effects) :
    ∃ stage', s'.tasks[i]? = some ⟨id, spec, stage'⟩ ∧ stage'.hasFailed ∧
      Marked spec.component s'.inner stage'.effects := by
  have hlasts := h.lasts hphase hlowers hunmasked hi hcrit huntouched
  obtain ⟨stage', hi', hout⟩ := h.persists hi
  obtain ⟨failure, hfail⟩ := hfailed
  refine ⟨stage', hi', ⟨failure, hout _ hfail⟩, ?_⟩
  -- The effects to come are the same unless the task itself performs one.
  have hsame : stage' = stage → Marked spec.component s'.inner stage'.effects := by
    rintro rfl
    exact hmarked.mono hlasts
  have hkept : s'.tasks[i]? = s.tasks[i]? →
      Marked spec.component s'.inner stage'.effects := fun htasks =>
    hsame (congrArg Task.stage (Option.some.inj (hi'.symm.trans (htasks.trans hi))))
  cases h with
  | spawned new htasks hstage hhealth =>
    refine hkept ?_
    rw [htasks, getElem?_append_left (List.getElem?_eq_some_iff.mp hi).1]
  | other htasks hhealth | wrote htasks hhealth => exact hkept (by rw [htasks])
  | @ended _ j mover result ending hj hended =>
    refine hkept (getElem?_set_ne ?_)
    rintro rfl
    cases hi.symm.trans hj
    obtain rfl : stage = .supervised := (Task.ended_spec hended).1
    simp [TaskStage.outcome?] at hfail
  | @advanced j mover inner' next new hj hadv =>
    by_cases hij : j = i
    · subst hij
      cases hi.symm.trans hj
      obtain rfl : next = stage' := by
        rw [getElem?_set_self (List.getElem?_eq_some_iff.mp hi).1] at hi'
        exact congrArg Task.stage (Option.some.inj hi')
      obtain ⟨-, ⟨hnone, hnone', -⟩ | ⟨effect, rest, heffects, rfl, hrest⟩⟩ :=
        Task.advance_spec hadv
      · rw [hnone', ← hnone]
        exact hmarked.mono hlasts
      · rw [hrest]
        exact (heffects ▸ hmarked).perform (heffects ▸ hlasts)
    · exact hkept (getElem?_set_ne hij)

/-- When the future of a critical task fails, every mark is still to come. -/
theorem Task.marked_of_ended {stage result} (inner : RuntimeInner)
    (h : task.ended config result = some stage) (hcrit : task.spec.criticality = .critical)
    (hfails : result ≠ .ok) : stage.hasFailed ∧ Marked task.spec.component inner stage.effects := by
  obtain ⟨-, ⟨hout, -⟩ | ⟨failure, -, rfl⟩⟩ := Task.ended_spec h
  · cases result <;> simp_all [JoinResult.outcome]
  · have heffects : applyTaskFailure config task.spec failure =
        [.setHealth ⟨task.spec.component, .unhealthy, some failure.message⟩,
          .setReadiness ⟨task.spec.component, .notReady, some failure.message⟩,
          .beginShutdown] := by simp [applyTaskFailure, hcrit]
    refine ⟨⟨failure, rfl⟩, ?_⟩
    simp only [TaskStage.effects, heffects]
    exact ⟨.inr ⟨_, mem_cons_self⟩, .inr ⟨_, mem_cons_of_mem _ mem_cons_self⟩,
      .inr (by simp)⟩

theorem lowers_run {actions} (hrun : (machine config).run init actions = some (s, events)) :
    ∀ task ∈ s.tasks, task.Lowers :=
  Runs.invariant (I := fun s => ∀ task ∈ s.tasks, task.Lowers)
    (fun h ⟨_, hstep⟩ => (taskStep_of_step hstep).lowers h) (Machine.runs_of_run hrun)
    (by simp [init])

/-- The marks of a critical task follow every run after its failure. -/
theorem marked_run {past} {i id : ℕ} {stage later} (hsound : Sound config s past)
    (hlowers : ∀ task ∈ s.tasks, task.Lowers) (hi : s.tasks[i]? = some ⟨id, spec, stage⟩)
    (hcrit : spec.criticality = .critical) (hfailed : stage.hasFailed)
    (hmarked : Marked spec.component s.inner stage.effects)
    (hrun : (machine config).run s later = some (s', events))
    (huntouched : ∀ write, .application write ∈ later → spec.component ≠ write.component)
    (hunmasked : ¬ (machine config).Takes s later (Masks i)) :
    ∃ stage', s'.tasks[i]? = some ⟨id, spec, stage'⟩ ∧
      Marked spec.component s'.inner stage'.effects := by
  have hreached := Machine.run_reached
    (I := fun s₁ actions past' => Sound config s₁ (past ++ past') ∧
      (∀ task ∈ s₁.tasks, task.Lowers) ∧
      ((∀ write, .application write ∈ actions → spec.component ≠ write.component) →
        ¬ (machine config).Takes s actions (Masks i) →
        ∃ stage, s₁.tasks[i]? = some ⟨id, spec, stage⟩ ∧ stage.hasFailed ∧
          Marked spec.component s₁.inner stage.effects))
    (fun {s₁ actions past' action s'' events} hpre h hstep => by
      obtain ⟨hsound, hlowers, hprog⟩ := h
      obtain ⟨hsound', hsteps⟩ := sound_step hsound hstep
      have htaskStep := taskStep_of_step hstep
      refine ⟨by rwa [append_assoc] at hsound', htaskStep.lowers hlowers,
        fun huntouched hunmasked => ?_⟩
      rw [Machine.takes_concat hpre, not_or] at hunmasked
      obtain ⟨stage, hi, hfailed, hmarked⟩ := hprog
        (fun write hwrite => huntouched write (mem_append_left _ hwrite)) hunmasked.1
      refine htaskStep.marked hsteps.next.not_running hlowers hunmasked.2 hi hcrit hfailed
        (fun write hwrite => huntouched write ?_) hmarked
      rw [hwrite]
      exact mem_append_right _ (mem_singleton_self _))
    hrun ⟨by rwa [append_nil], hlowers, fun _ _ => ⟨stage, hi, hfailed, hmarked⟩⟩
  obtain ⟨stage', hi', -, hmarked'⟩ := hreached.2.2 huntouched hunmasked
  exact ⟨stage', hi', hmarked'⟩

end marks

/-- A required task that fails under the name of a critical one turns the health of the
runtime from unhealthy to degraded. -/
theorem critical_failure_masked :
    let config : RuntimeConfig := {}
    let actions : List Action :=
      [.spawn true ⟨utf8 "loop", .critical⟩, .advanceTask 0, .spawn true ⟨utf8 "loop", .required⟩,
        .advanceTask 1, .ends 0 .error, .advanceTask 0, .advanceTask 0, .advanceTask 0,
        .advanceTask 0, .advanceTask 0, .ends 1 .cancelled, .advanceTask 1]
    let last := (machine config).after init actions
    (machine config).run init actions = some last ∧
      last.1.tasks[0]? = some ⟨1, ⟨utf8 "loop", .critical⟩, .recording (.failed .fromError)⟩ ∧
      (∀ write, .application write ∉ actions) ∧
      last.1.inner.health.health.status = .degraded := by
  intro config actions last
  have hrun : (machine config).run init actions = some last :=
    Machine.run_eq_after (by decide +kernel)
  have htask : last.1.tasks[0]? =
      some ⟨1, ⟨utf8 "loop", .critical⟩, .recording (.failed .fromError)⟩ := by decide +kernel
  have hstatus : last.1.inner.health.health.status = .degraded := by decide +kernel
  exact ⟨hrun, htask, by simp [actions], hstatus⟩

/-- From the moment the failure of a critical task was applied, the runtime is unhealthy,
not ready and no longer running, in every state of every run in which the application
leaves the component of the task alone and no other task's milder failure is written to it
after that of the critical one. -/
theorem critical_failure_stays_visible {config : RuntimeConfig} {s₀ s₁ s : State} {task : Task}
    {i : ℕ} {result : JoinResult} {before later : List Action} {e₀ e₁ e : List Event}
    (hbefore : (machine config).run init before = some (s₀, e₀))
    (hi : s₀.tasks[i]? = some task) (hcriticality : task.spec.criticality = .critical)
    (hends : (machine config).step s₀ (.ends i result) = some (s₁, e₁)) (hfails : result ≠ .ok)
    (hlater : (machine config).run s₁ later = some (s, e))
    (huntouched : ∀ write, .application write ∈ later → task.spec.component ≠ write.component)
    (happlied : ∃ task', s.tasks[i]? = some task' ∧ task'.stage.isApplied = true)
    (hunmasked : ¬ (machine config).Takes s₁ later (Masks i)) :
    s.inner.health.health.status = .unhealthy ∧ s.inner.health.readiness.status = .notReady ∧
      s.inner.phase ≠ .running := by
  have hsound := sound_run hbefore
  have hlowers := (taskStep_of_step hends).lowers (lowers_run hbefore)
  obtain ⟨hsound₁, -⟩ := sound_step hsound hends
  obtain ⟨mover, hj, hmapped⟩ := Option.bind_eq_some_iff.mp hends
  cases hi.symm.trans hj
  obtain ⟨stage, hended, heq⟩ := Option.map_eq_some_iff.mp hmapped
  cases heq
  obtain ⟨hfailed, hmarked⟩ := Task.marked_of_ended s₀.inner hended hcriticality hfails
  have hlt : i < s₀.tasks.length := (List.getElem?_eq_some_iff.mp hi).1
  obtain ⟨stage', hi', hmarked'⟩ := marked_run hsound₁ hlowers (List.getElem?_set_self hlt)
    hcriticality hfailed hmarked hlater huntouched hunmasked
  obtain ⟨task', htask', happlied⟩ := happlied
  cases htask'.symm.trans hi'
  have hnone : stage'.effects = [] := by
    cases stage' <;> first | rfl | simp [TaskStage.isApplied] at happlied
  rw [hnone] at hmarked'
  have hhealth : s.inner.health.healthOf task.spec.component = some .unhealthy := by
    simpa using hmarked'.health
  have hreadiness : s.inner.health.readinessOf task.spec.component = some .notReady := by
    simpa using hmarked'.readiness
  exact ⟨HealthRegistry.health_status_of_healthOf hhealth,
    HealthRegistry.readiness_status_of_readinessOf hreadiness, by simpa using hmarked'.phase⟩

/-- A required task fails before a critical one of the same name. -/
theorem critical_failure_stays_visible_last :
    let config : RuntimeConfig := {}
    let before : List Action :=
      [.spawn true ⟨utf8 "loop", .critical⟩, .advanceTask 0,
        .spawn true ⟨utf8 "loop", .required⟩, .advanceTask 1, .ends 1 .panicked,
        .advanceTask 1, .advanceTask 1]
    let later : List Action := List.replicate 5 (.advanceTask 0)
    let first := (machine config).after init before
    let failed := (machine config).after first.1 [.ends 0 .error]
    let last := (machine config).after failed.1 later
    (machine config).run failed.1 later = some last ∧
      first.1.inner.health.health.status = .degraded ∧
      last.1.inner.health.health.status = .unhealthy := by
  intro config before later first failed last
  have hbefore : (machine config).run init before = some first :=
    Machine.run_eq_after (by decide +kernel)
  have hends : (machine config).step first.1 (.ends 0 .error) = some failed := rfl
  have hlater : (machine config).run failed.1 later = some last :=
    Machine.run_eq_after (by decide +kernel)
  have hi : first.1.tasks[0]? = some ⟨1, ⟨utf8 "loop", .critical⟩, .supervised⟩ := by
    decide +kernel
  have hlast : last.1.tasks[0]? =
      some ⟨1, ⟨utf8 "loop", .critical⟩, .recording (.failed .fromError)⟩ := by decide +kernel
  have hdegraded : first.1.inner.health.health.status = .degraded := by decide +kernel
  clear_value last failed first
  refine ⟨hlater, hdegraded, (critical_failure_stays_visible hbefore hi rfl hends (by simp) hlater
    (by simp [later]) ⟨_, hlast, rfl⟩ ?_).1⟩
  -- Later on, only the supervisor of the critical task acts.
  rintro ⟨pre, action, rest, s, past, hsplit, -, j, -, -, -, -, rfl, hother, -⟩
  have hmem : Action.advanceTask j ∈ later := hsplit ▸ List.mem_append_right _ List.mem_cons_self
  have hself : j = 0 := by simpa [later] using hmem
  exact hother hself

end PlenoraRuntime.Core
