import PlenoraRuntime.Foundation.Machine
import PlenoraRuntime.Foundation.Slots
import PlenoraRuntime.Worker.Executor

/-!
# The admission gate

What an execution passes on its way in and out, and nothing else: it takes a permit,
is counted in flight, registers its task, and gives all of it back in reverse order.
`Stage` says how far it is.

The counter, the permits and the registry agree with the stages (`Gate.Inv`), so there
is always room to register what is in flight. While the gate is draining nothing
starts, and the count only goes down.
-/

namespace PlenoraRuntime.Worker

open Transition List

/-! ## The abstract machine -/

/-- What an execution holds; each stage holds what the one before it does. -/
inductive Stage
  | outside
  | permitted
  | counted
  | registered (taskId : WorkerTaskId)
  deriving DecidableEq

namespace Stage

def holds : Stage → Bool
  | .outside => false
  | .permitted | .counted | .registered _ => true

def inFlight : Stage → Bool
  | .outside | .permitted => false
  | .counted | .registered _ => true

variable {stage : Stage}

theorem holds_of_inFlight (h : stage.inFlight = true) : stage.holds = true := by
  cases stage <;> first | rfl | cases h

def taskId? : Stage → Option WorkerTaskId
  | .registered taskId => some taskId
  | .outside | .permitted | .counted => none

/-- Only a successful registration changes the stage. -/
def afterRegistration (result : Except ActiveTaskRegistrationError WorkerTaskId) : Stage :=
  match result with
  | .ok taskId => .registered taskId
  | .error _ => .counted

theorem inFlight_of_taskId? (h : stage.taskId?.isSome = true) : stage.inFlight = true := by
  cases stage <;> first | rfl | cases h

end Stage

structure Gate where
  admission : WorkerAdmissionState
  inFlight : ℕ
  available : ℕ
  registry : ActiveTaskRegistryState
  stages : List Stage

inductive GateEvent
  | started (i : ℕ)
  | registered (i : ℕ) (result : Except ActiveTaskRegistrationError WorkerTaskId)
  | invoked (i : ℕ)
  /-- An execution was rejected because its task could not be registered. -/
  | unavailable (i : ℕ)
  | drained

namespace Gate

def setStage (g : Gate) (i : ℕ) (stage : Stage) : Gate :=
  { g with stages := g.stages.set i stage }

section

variable (capacity : ℕ) (g : Gate)

/-- What can happen at a gate of the given capacity. Nobody is ever rejected for lack of
capacity. -/
inductive Step : List GateEvent → Gate → Prop
  | arrive : Step [] { g with stages := g.stages ++ [.outside] }
  | acquire {i : ℕ} (hstage : g.stages[i]? = some .outside)
      (havail : 0 < g.available) :
      Step [] ({ g with available := g.available - 1 }.setStage i .permitted)
  | start {i : ℕ} (hstage : g.stages[i]? = some .permitted)
      (hacc : g.admission = .accepting) :
      Step [.started i]
        ({ g with inFlight := saturatingAdd g.inFlight 1 }.setStage i .counted)
  | register {i : ℕ} {task now token registry result}
      (hstage : g.stages[i]? = some .counted)
      (hreg : g.registry.register capacity task now token = (registry, result)) :
      Step [.registered i result]
        ({ g with registry }.setStage i (.afterRegistration result))
  | invoke {i : ℕ} {taskId} (hstage : g.stages[i]? = some (.registered taskId)) :
      Step [.invoked i] g
  | deregister {i : ℕ} {taskId} (hstage : g.stages[i]? = some (.registered taskId)) :
      Step []
        ({ g with registry := g.registry.remove taskId }.setStage i .counted)
  | finish {i : ℕ} (hstage : g.stages[i]? = some .counted) :
      Step [] ({ g with inFlight := g.inFlight - 1 }.setStage i .permitted)
  | release {i : ℕ} (hstage : g.stages[i]? = some .permitted) :
      Step [] ({ g with available := g.available + 1 }.setStage i .outside)
  | turn {admission} (hopen : g.admission ≠ .draining) :
      Step [] { g with admission }
  | drain (hdrain : g.admission = .draining) (hidle : g.inFlight = 0) :
      Step [.drained] g

end

variable {events : List GateEvent} {capacity : ℕ} {g' g : Gate}

theorem Step.length_le_one (h : Step capacity g events g') : events.length ≤ 1 := by
  cases h <;> simp

/-! ## Counters and stages -/

/-- The counters, the permits and the registry agree with the stages. -/
structure Inv (capacity : ℕ) (g : Gate) : Prop where
  counted : g.inFlight = g.stages.countP Stage.inFlight
  permitted : g.stages.countP Stage.holds + g.available = capacity
  owned : g.registry.taskIds ⊆ g.stages.filterMap Stage.taskId?
  nextTaskId : g.registry.nextTaskId ≠ 0

variable {i available inFlight : ℕ} {stage old : Stage} {registry : ActiveTaskRegistryState}
  {before after : List GateEvent}

section bounds

variable (h : Inv capacity g)
include h

theorem Inv.inFlight_le_holds : g.inFlight ≤ g.stages.countP Stage.holds := by
  rw [h.counted]
  exact countP_mono_left fun _ _ => Stage.holds_of_inFlight

theorem Inv.holds_le : g.stages.countP Stage.holds ≤ capacity :=
  h.permitted ▸ Nat.le_add_right ..

theorem Inv.tasks_le_registered :
    g.registry.tasks.length ≤ g.stages.countP fun stage => stage.taskId?.isSome := by
  have hlen := (g.registry.taskIds_nodup.subperm h.owned).length_le
  rwa [ActiveTaskRegistryState.taskIds, length_map, length_filterMap_eq_countP] at hlen

theorem Inv.tasks_le_inFlight : g.registry.tasks.length ≤ g.inFlight := by
  refine h.tasks_le_registered.trans ?_
  rw [h.counted]
  exact countP_mono_left fun _ _ => Stage.inFlight_of_taskId?

/-- An execution with a permit that is not in flight leaves room in the count. -/
theorem Inv.inFlight_lt (hstage : g.stages[i]? = some .permitted) : g.inFlight < capacity := by
  refine Nat.lt_of_lt_of_le ?_ h.holds_le
  rw [h.counted]
  exact Slots.countP_lt_countP (fun _ _ => Stage.holds_of_inFlight)
    (mem_of_getElem? hstage) rfl rfl

theorem Inv.inFlight_pos (hstage : g.stages[i]? = some stage) (hin : stage.inFlight = true) :
    0 < g.inFlight := by
  rw [h.counted]
  exact countP_pos_iff.mpr ⟨stage, mem_of_getElem? hstage, hin⟩

/-- An execution in flight that is not registered yet leaves room in the registry. -/
theorem Inv.tasks_lt (hstage : g.stages[i]? = some .counted) :
    g.registry.tasks.length < capacity := by
  have hlt : (g.stages.countP fun stage => stage.taskId?.isSome) <
      g.stages.countP Stage.inFlight :=
    Slots.countP_lt_countP (fun _ _ => Stage.inFlight_of_taskId?) (mem_of_getElem? hstage)
      rfl rfl
  calc g.registry.tasks.length
      ≤ g.stages.countP fun stage => stage.taskId?.isSome := h.tasks_le_registered
    _ < g.stages.countP Stage.inFlight := hlt
    _ = g.inFlight := h.counted.symm
    _ ≤ g.stages.countP Stage.holds := h.inFlight_le_holds
    _ ≤ capacity := h.holds_le

theorem Inv.saturatingAdd_eq (hcap : capacity ≤ usizeMax)
    (hstage : g.stages[i]? = some .permitted) : saturatingAdd g.inFlight 1 = g.inFlight + 1 :=
  Nat.min_eq_left (Nat.succ_le_of_lt (Nat.lt_of_lt_of_le (h.inFlight_lt hstage) hcap))

end bounds

theorem Inv.setStage (new : Stage) (h : Inv capacity g) (hstage : g.stages[i]? = some old)
    (hcounted : inFlight + (if old.inFlight then 1 else 0) =
      g.inFlight + if new.inFlight then 1 else 0)
    (hpermitted : available + (if new.holds then 1 else 0) =
      g.available + if old.holds then 1 else 0)
    (howned : registry.taskIds ⊆ (g.stages.set i new).filterMap Stage.taskId?)
    (hnext : registry.nextTaskId ≠ 0) :
    Inv capacity ({ g with inFlight, available, registry }.setStage i new) where
  counted := by
    have hcount := Slots.countP_set_add (p := Stage.inFlight) hstage new
    have hold := h.counted
    dsimp only [Gate.setStage]
    omega
  permitted := by
    have hcount := Slots.countP_set_add (p := Stage.holds) hstage new
    have hold := h.permitted
    dsimp only [Gate.setStage]
    omega
  owned := howned
  nextTaskId := hnext

theorem Step.inv (hcap : capacity ≤ usizeMax) (hstep : Step capacity g events g')
    (h : Inv capacity g) : Inv capacity g' := by
  -- The registry does not change, and the stage that is left is not a registered one.
  have hkept : ∀ {i : ℕ} {old new : Stage}, g.stages[i]? = some old → old.taskId? = none →
      g.registry.taskIds ⊆ (g.stages.set i new).filterMap Stage.taskId? := by
    intro i old new hstage hnone id hid
    exact Slots.mem_filterMap_set hstage new (h.owned hid) (by simp [hnone])
  cases hstep with
  | arrive =>
    refine ⟨?_, ?_, ?_, h.nextTaskId⟩
    · simpa [Stage.inFlight] using h.counted
    · simpa [Stage.holds] using h.permitted
    · intro id hid
      rw [filterMap_append]
      exact mem_append_left _ (h.owned hid)
  | acquire hstage havail =>
    refine h.setStage _ hstage ?_ ?_ (hkept hstage rfl) h.nextTaskId
    · simp [Stage.inFlight]
    · simp only [Stage.holds, if_true, Bool.false_eq_true, if_false]
      omega
  | start hstage =>
    refine h.setStage _ hstage ?_ ?_ (hkept hstage rfl) h.nextTaskId
    · simp [Stage.inFlight, h.saturatingAdd_eq hcap hstage]
    · simp [Stage.holds]
  | @register i task now token registry result hstage hreg =>
    obtain ⟨registry', taskId, record, hok, hnext, -, htasks⟩ :=
      ActiveTaskRegistryState.register_of_lt task now token h.nextTaskId hcap
        (h.tasks_lt hstage)
    cases hreg.symm.trans hok
    refine h.setStage (.registered taskId) hstage rfl rfl ?_ hnext
    intro id hid
    rcases (ActiveTaskRegistryState.mem_taskIds_insert htasks id).mp hid with rfl | hold
    · exact Slots.mem_filterMap_set_self hstage rfl
    · exact hkept hstage rfl hold
  | invoke => exact h
  | @deregister i taskId hstage =>
    refine h.setStage _ hstage (by simp [Stage.inFlight]) (by simp [Stage.holds]) ?_ h.nextTaskId
    intro id hid
    obtain ⟨hne, hold⟩ := ActiveTaskRegistryState.mem_taskIds_remove.mp hid
    refine Slots.mem_filterMap_set hstage _ (h.owned hold) ?_
    simpa [Stage.taskId?] using hne.symm
  | finish hstage =>
    have hpos := h.inFlight_pos hstage rfl
    refine h.setStage _ hstage ?_ ?_ (hkept hstage rfl) h.nextTaskId
    · simp only [Stage.inFlight, if_true, Bool.false_eq_true, if_false]
      omega
    · simp [Stage.holds]
  | release hstage =>
    refine h.setStage _ hstage ?_ ?_ (hkept hstage rfl) h.nextTaskId
    · simp [Stage.inFlight]
    · simp [Stage.holds]
  | turn => exact ⟨h.counted, h.permitted, h.owned, h.nextTaskId⟩
  | drain => exact h

/-- No registration fails. -/
theorem Step.registered_ok (hcap : capacity ≤ usizeMax) (h : Inv capacity g) {result}
    (hstep : Step capacity g [.registered i result] g') : ∃ taskId, result = .ok taskId := by
  cases hstep with
  | @register i task now token registry result hstage hreg =>
    obtain ⟨registry', taskId, record, hok, -⟩ := ActiveTaskRegistryState.register_of_lt
      task now token h.nextTaskId hcap (h.tasks_lt hstage)
    exact ⟨taskId, (Prod.mk.inj (hreg.symm.trans hok)).2⟩

theorem inv_of_runs (hcap : capacity ≤ usizeMax) (hruns : Runs (Step capacity) g events g')
    (h : Inv capacity g) : Inv capacity g' :=
  hruns.invariant (fun h hstep => hstep.inv hcap h) h

theorem registered_ok_of_runs (hcap : capacity ≤ usizeMax)
    (hruns : Runs (Step capacity) g events g') (h : Inv capacity g) {error} :
    .registered i (.error error) ∉ events := by
  intro hmem
  obtain ⟨before, after, hevents⟩ := append_of_mem hmem
  obtain ⟨g₁, g₂, hpre, hreg, -⟩ := hruns.split Step.length_le_one hevents
  obtain ⟨taskId, hok⟩ := hreg.registered_ok hcap (inv_of_runs hcap hpre h)
  cases hok

theorem unavailable_not_mem_of_runs (hruns : Runs (Step capacity) g events g') :
    .unavailable i ∉ events := by
  intro hmem
  obtain ⟨before, after, hevents⟩ := append_of_mem hmem
  obtain ⟨g₁, g₂, -, hstep, -⟩ := hruns.split Step.length_le_one hevents
  cases hstep

/-! ## Draining -/

/-- A draining gate stays so; nothing starts and the count does not grow. -/
theorem Step.draining (hstep : Step capacity g events g') (h : g.admission = .draining) :
    g'.admission = .draining ∧ g'.inFlight ≤ g.inFlight ∧ ∀ i, .started i ∉ events := by
  cases hstep with
  | start _ hacc =>
    rw [h] at hacc
    cases hacc
  | turn hopen => exact absurd h hopen
  | finish => exact ⟨h, Nat.sub_le .., by simp⟩
  | _ => exact ⟨h, Nat.le_refl _, by simp⟩

theorem draining_of_runs (hruns : Runs (Step capacity) g events g') (h : g.admission = .draining) :
    g'.admission = .draining ∧ g'.inFlight ≤ g.inFlight ∧ ∀ i, .started i ∉ events := by
  refine hruns.history (I := fun g' past =>
    g'.admission = .draining ∧ g'.inFlight ≤ g.inFlight ∧ ∀ i, .started i ∉ past) ?_ []
    ⟨h, Nat.le_refl _, fun _ => not_mem_nil⟩
  rintro g₁ past events g₂ ⟨hdrain, hle, hpast⟩ hstep
  obtain ⟨hdraining', hle', hevents⟩ := hstep.draining hdrain
  refine ⟨hdraining', hle'.trans hle, ?_⟩
  intro i hmem
  exact (mem_append.mp hmem).elim (hpast i) (hevents i)

/-- Whoever is in flight has started. -/
def Started (g : Gate) (history : List GateEvent) : Prop :=
  ∀ i stage, g.stages[i]? = some stage → stage.inFlight = true → .started i ∈ history

theorem Started.setStage {history} {new : Stage} (h : Started g history)
    (hstage : g.stages[i]? = some old) (hnew : new.inFlight = true → old.inFlight = true) :
    Started ({ g with inFlight, available, registry }.setStage i new) history := by
  intro j stage hj hin
  rcases Slots.getElem?_set_eq_some.mp hj with ⟨rfl, -, rfl⟩ | ⟨-, hold⟩
  · exact h j old hstage (hnew hin)
  · exact h j stage hold hin

theorem Step.started {history} (hstep : Step capacity g events g') (h : Started g history) :
    Started g' (history ++ events) := by
  have hlater : Started g (history ++ events) :=
    fun j stage hstage hin => mem_append_left _ (h j stage hstage hin)
  cases hstep with
  | arrive =>
    intro j stage hj hin
    rcases Slots.getElem?_concat_eq_some.mp hj with hold | ⟨-, rfl⟩
    · exact hlater j stage hold hin
    · cases hin
  | @start i hstage =>
    intro j stage hj hin
    rcases Slots.getElem?_set_eq_some.mp hj with ⟨rfl, -, -⟩ | ⟨-, hold⟩
    · exact mem_append_right _ mem_cons_self
    · exact hlater j stage hold hin
  | acquire hstage | release hstage => exact hlater.setStage hstage (by simp [Stage.inFlight])
  | register hstage | deregister hstage | finish hstage => exact hlater.setStage hstage fun _ => rfl
  | invoke | turn | drain => exact hlater

theorem Step.registered_of_invoked (hstep : Step capacity g [.invoked i] g') :
    ∃ taskId, g.stages[i]? = some (.registered taskId) := by
  cases hstep with
  | invoke hstage => exact ⟨_, hstage⟩

/-- While the gate is draining, only who has started before is invoked. -/
theorem started_of_invoked {g₀} (hstart : Started g₀ [])
    (hpre : Runs (Step capacity) g₀ before g) (hdrain : g.admission = .draining)
    (hafter : Runs (Step capacity) g after g') (hinv : .invoked i ∈ after) :
    .started i ∈ before := by
  obtain ⟨past, rest, rfl⟩ := append_of_mem hinv
  obtain ⟨g₁, g₂, hpast, hinvoke, -⟩ := hafter.split Step.length_le_one rfl
  obtain ⟨taskId, hstage⟩ := hinvoke.registered_of_invoked
  have hnow : Started g₁ (before ++ past) :=
    (hpre.trans hpast).history (I := Started) (fun h hstep => hstep.started h) [] hstart
  rcases mem_append.mp (hnow i _ hstage rfl) with h | h
  · exact h
  · exact absurd h ((draining_of_runs hpast hdrain).2.2 i)

/-- After a drain completed, nothing is in flight and nobody is invoked. -/
theorem idle_of_drained (hcap : capacity ≤ usizeMax) (h : Inv capacity g)
    (hruns : Runs (Step capacity) g (before ++ .drained :: after) g') :
    g'.inFlight = 0 ∧ ∀ i, .invoked i ∉ after := by
  obtain ⟨g₁, g₂, hpre, hdrain, hafter⟩ := hruns.split Step.length_le_one rfl
  have hinv := hdrain.inv hcap (inv_of_runs hcap hpre h)
  cases hdrain with
  | drain hdraining hidle =>
    refine ⟨Nat.le_zero.mp (hidle ▸ (draining_of_runs hafter hdraining).2.1), ?_⟩
    intro i hinvoked
    obtain ⟨past, rest, rfl⟩ := append_of_mem hinvoked
    obtain ⟨g₃, g₄, hpast, hinvoke, -⟩ := hafter.split Step.length_le_one rfl
    obtain ⟨taskId, hstage⟩ := hinvoke.registered_of_invoked
    have hpos := (inv_of_runs hcap hpast hinv).inFlight_pos hstage rfl
    have hle := (draining_of_runs hpast hdraining).2.1
    omega

end Gate

end PlenoraRuntime.Worker
