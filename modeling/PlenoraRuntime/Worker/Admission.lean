import PlenoraRuntime.Worker.Refinement

/-!
# Capacity and drain of the executor

The two main results about admission. Tasks, count and permits are within each other
and within the configured capacity, in every reachable state; and a drain is
terminal.
-/

namespace PlenoraRuntime.Worker

open Messaging Transition List

variable {E : Type*}

/-! ## Permits -/

/-- The execution holds a permit: it still has one to give back. -/
def Phase.holdsPermit (phase : Phase E) : Bool :=
  Op.release ∈ phase.scope

def State.permitsHeld (s : State E) : ℕ :=
  s.executions.countP fun execution => execution.phase.holdsPermit

theorem release_mem_iff {ops : List Op} (h : Nested ops) :
    Op.release ∈ ops ↔ (stageOf ops).holds = true := by
  induction ops with
  | nil => simp [stageOf, Stage.holds]
  | cons op ops ih =>
    cases op with
    | deregister taskId | finish => simpa [stageOf, h.1, Stage.holds] using ih h.2
    | release => simp [stageOf, Stage.holds]
    | cancel reason | transition state | notify | dropGuard => simpa [stageOf] using ih h

theorem State.permitsHeld_eq {s : State E} (h : s.SoundPhases) :
    s.permitsHeld = s.gate.stages.countP Stage.holds := by
  rw [State.gate, countP_map]
  refine countP_congr ?_
  intro execution hexec
  rw [Phase.holdsPermit, decide_eq_true_iff, release_mem_iff (h execution hexec).nested]
  rfl

/-! ## Sample executions -/

namespace Sample

/-- Two executions compete for one permit; the first one's handler was called. -/
def running : List (Action Unit) :=
  [.execute context, .execute context] ++ polls 0 12 ++ polls 1 6

/-- A drain begins while the first execution runs; its handler completes, and the drain
with it. The second execution, which had waited for the permit, is rejected. -/
def drained : List (Action Unit) :=
  running ++ [.drain, .pollDrain 0 false, .pollDrain 0 false, .pollDrain 0 false,
    .poll 0 { handler := some (.ok ()) }] ++ polls 0 7 ++ [.pollDrain 0 false,
    .pollDrain 0 false] ++ polls 1 7

end Sample

/-! ## Main results -/

/-- In every reachable state the registered tasks are at most the executions in flight,
these at most the permits held, and these at most the capacity. The count saturates
at neither end, no registration fails, and nobody is rejected for want of capacity. -/
theorem capacity_invariant {executor : Executor E} {history : List (Event E)} {s : State E}
    (hreaches : Reaches executor history s) :
    s.registry.tasks.length ≤ s.inFlight ∧ s.inFlight ≤ s.permitsHeld ∧
    s.permitsHeld ≤ executor.maxInFlight ∧
    s.permitsHeld + s.permits.available = executor.maxInFlight ∧
    (∀ execution ∈ s.executions, execution.phase = .starting →
      saturatingAdd s.inFlight 1 = s.inFlight + 1) ∧
    (∀ execution ∈ s.executions, ∀ ops outcome,
      execution.phase = .leaving (.finish :: ops) outcome → 0 < s.inFlight) ∧
    (∀ i error, .registered i (.error error) ∉ history) ∧
    (∀ i, .finished i (some (.error (.admission .controlCapacityUnavailable))) ∉ history) := by
  obtain ⟨hgate, htracks⟩ := (tracks_init executor).runs hreaches
  have hinv := htracks.inv
  have hstage : ∀ execution ∈ s.executions,
      ∃ i : ℕ, s.gate.stages[i]? = some execution.phase.stage := by
    intro execution hexecution
    obtain ⟨i, hi⟩ := List.mem_iff_getElem?.mp hexecution
    exact ⟨i, State.stage_of_execution hi⟩
  rw [State.permitsHeld_eq htracks.phases]
  refine ⟨hinv.tasks_le_inFlight, hinv.inFlight_le_holds, hinv.holds_le, hinv.permitted,
    ?_, ?_, ?_, ?_⟩
  · -- Whoever is about to be counted holds a permit, so the counter does not saturate.
    intro execution hexecution hphase
    obtain ⟨i, hi⟩ := hstage execution hexecution
    rw [hphase] at hi
    exact hinv.saturatingAdd_eq executor.maxInFlight_le hi
  · -- Whoever is about to leave is still counted.
    intro execution hexecution ops outcome hphase
    obtain ⟨i, hi⟩ := hstage execution hexecution
    rw [hphase] at hi
    exact hinv.inFlight_pos hi rfl
  · -- Registrations are steps of the gate, which has room for them.
    intro i error hmem
    have hregistered : .registered i (.error error) ∈ history.filterMap Event.gate :=
      List.mem_filterMap.mpr ⟨_, hmem, rfl⟩
    exact Gate.registered_ok_of_runs executor.maxInFlight_le hgate (tracks_init executor).inv
      hregistered
  · intro i hmem
    have hunavailable : .unavailable i ∈ history.filterMap Event.gate :=
      List.mem_filterMap.mpr ⟨_, hmem, rfl⟩
    exact Gate.unavailable_not_mem_of_runs hgate hunavailable

/-- The one permit is taken: the first execution runs and the second one waits. -/
theorem capacity_invariant_running :
    let s := (Sample.after Sample.running).1
    s.registry.tasks.length = 1 ∧ s.inFlight = 1 ∧ s.permitsHeld = 1 ∧
      s.permitsHeld ≤ Sample.executor.maxInFlight := by
  intro s
  exact ⟨rfl, rfl, rfl, (capacity_invariant (Sample.reaches Sample.running rfl)).2.2.1⟩

/-- Once admission is closed it stays closed, the count does not grow, and only
executions that had passed `try_start` before call their handler. Once a drain returned
`Completed`, nothing is in flight and no handler is called. -/
theorem drain_is_terminal {executor : Executor E} {history : List (Event E)} {s : State E}
    (hreaches : Reaches executor history s) :
    (∀ before after s₀, history = before ++ after → Reaches executor before s₀ →
      Runs (machine executor).Step s₀ after s → s₀.admission = .draining →
      s.admission = .draining ∧ s.inFlight ≤ s₀.inFlight ∧
      ∀ i, .invoked i ∈ after → .started i ∈ before) ∧
    (∀ before after j, history = before ++ .drained j .completed :: after →
      s.inFlight = 0 ∧ ∀ i, .invoked i ∉ after) := by
  have hinit := tracks_init executor
  refine ⟨?_, ?_⟩
  · rintro before after s₀ rfl hbefore hafter hdraining
    obtain ⟨hgate₀, htracks₀⟩ := hinit.runs hbefore
    obtain ⟨hgate, -⟩ := htracks₀.runs hafter
    obtain ⟨hclosed, hle, -⟩ := Gate.draining_of_runs hgate hdraining
    refine ⟨hclosed, hle, ?_⟩
    intro i hinvoked
    have hlater : .invoked i ∈ after.filterMap Event.gate :=
      List.mem_filterMap.mpr ⟨_, hinvoked, rfl⟩
    have hstarted := Gate.started_of_invoked (started_init executor) hgate₀ hdraining hgate hlater
    obtain ⟨event, hevent, heq⟩ := List.mem_filterMap.mp hstarted
    exact Event.eq_started_of_gate heq ▸ hevent
  · rintro before after j rfl
    obtain ⟨hgate, -⟩ := hinit.runs hreaches
    rw [List.filterMap_append] at hgate
    obtain ⟨hidle, hnone⟩ := Gate.idle_of_drained executor.maxInFlight_le hinit.inv hgate
    refine ⟨hidle, ?_⟩
    intro i hinvoked
    have hlater : .invoked i ∈ after.filterMap Event.gate :=
      List.mem_filterMap.mpr ⟨_, hinvoked, rfl⟩
    exact hnone i hlater

/-- The execution that waited for a permit when the drain began never calls its handler. -/
theorem drain_is_terminal_waiting :
    let last := Sample.after Sample.drained
    ∃ before after, last.2 = before ++ .drained 0 .completed :: after ∧ after.length = 2 ∧
      last.1.inFlight = 0 ∧ .invoked 1 ∉ after := by
  intro last
  refine ⟨last.2.take 10, last.2.drop 11, rfl, rfl, ?_⟩
  obtain ⟨hidle, hnone⟩ := (drain_is_terminal (Sample.reaches Sample.drained rfl)).2
    (last.2.take 10) (last.2.drop 11) 0 rfl
  exact ⟨hidle, hnone 1⟩

end PlenoraRuntime.Worker
