import PlenoraRuntime.Worker.Gate

/-!
# The executor refines the gate

Every step of an execution is a step of the gate or leaves the gate as it is
(`State.Advances`). The stage of an execution is read off the guards it has in scope.
An execution that leaves has its guards nested, because each phase's scope is, and
was not rejected for lack of capacity, because no registration fails.

A step of a drain is made of steps of the gate too, and leaves the executions alone
(`State.DrainAdvances`). `Tracks.runs` puts both together: the gate shadows every run of the
executor, so that what is proved of the gate alone holds of the executor.
-/

namespace PlenoraRuntime.Worker

open Messaging Transition List Option

/-! ## Guards and stages -/

/-- The stage of an execution that has the given accesses before it: its outermost
guard decides. -/
def stageOf : List Op → Stage
  | [] => .outside
  | .deregister taskId :: _ => .registered taskId
  | .finish :: _ => .counted
  | .release :: _ => .permitted
  | .cancel _ :: ops | .transition _ :: ops | .notify :: ops | .dropGuard :: ops => stageOf ops

/-- Each guard is dropped into the stage below it. -/
def Nested : List Op → Prop
  | [] => True
  | .deregister _ :: ops => stageOf ops = .counted ∧ Nested ops
  | .finish :: ops => stageOf ops = .permitted ∧ Nested ops
  | .release :: ops => stageOf ops = .outside ∧ Nested ops
  | .cancel _ :: ops | .transition _ :: ops | .notify :: ops | .dropGuard :: ops => Nested ops

section scope

variable {E : Type*} {phase : Phase E}

def Phase.stage (phase : Phase E) : Stage :=
  stageOf phase.scope

/-- No accesses are left over: the phase's scope is its guards. -/
def Phase.Inside (phase : Phase E) : Prop :=
  ∀ ops outcome, phase ≠ .leaving ops outcome

def unavailable : ExecutionResult E :=
  .error (.admission .controlCapacityUnavailable)

/-- An execution that leaves has its guards nested and was not rejected for lack of
capacity. -/
structure Phase.Sound (phase : Phase E) : Prop where
  nested : Nested phase.scope
  available : ∀ ops, phase ≠ .leaving ops (some unavailable)

theorem Phase.Inside.sound (h : phase.Inside) : phase.Sound := by
  refine ⟨?_, fun ops => h ops _⟩
  cases phase <;> first | exact absurd rfl (h _ _) | simp [Phase.scope, Nested, stageOf]

/-- The execution guard is dropped last. -/
theorem Phase.Inside.dropGuard (h : phase.Inside) :
    stageOf (phase.scope ++ [.dropGuard]) = phase.stage ∧
      Nested (phase.scope ++ [.dropGuard]) := by
  cases phase <;>
    first | exact absurd rfl (h _ _) | simp [Phase.stage, Phase.scope, Nested, stageOf]

/-- Accesses that touch no guard. -/
def Op.Free : Op → Prop
  | .cancel _ | .transition _ | .notify | .dropGuard => True
  | .deregister _ | .finish | .release => False

variable {ops : List Op}

theorem stageOf_free (h : ∀ op ∈ ops, op.Free) (rest : List Op) :
    stageOf (ops ++ rest) = stageOf rest ∧ (Nested rest → Nested (ops ++ rest)) := by
  induction ops with
  | nil => exact ⟨rfl, id⟩
  | cons op ops ih =>
    have hop := h op mem_cons_self
    have hrest := ih fun op hop => h op (mem_cons_of_mem _ hop)
    cases op <;> first | exact hop.elim | exact hrest

/-- Nothing was decided that was not before. -/
theorem Phase.Sound.leaving {outcome : Option (ExecutionResult E)} (hnested : Nested ops)
    (hout : outcome ≠ some unavailable) : Phase.Sound (.leaving ops outcome) where
  nested := hnested
  available := by
    rintro ops' hphase
    exact hout (Phase.leaving.inj hphase).2

theorem finishAdmission_free (reason : WorkerAdmissionReason) :
    ∀ op ∈ finishAdmission reason, op.Free := by
  simp [finishAdmission, Op.Free]

end scope

/-! ## The gate of an executor -/

variable {E : Type*} {s : State E} {i : ℕ}

/-- What of an event concerns the gate. -/
def Event.gate : Event E → Option GateEvent
  | .started i => some (.started i)
  | .registered i result => some (.registered i result)
  | .invoked i => some (.invoked i)
  | .finished i (some (.error (.admission .controlCapacityUnavailable))) => some (.unavailable i)
  | .drained _ .completed => some .drained
  | _ => none

theorem Event.eq_started_of_gate {event : Event E} (h : event.gate = some (.started i)) :
    event = .started i := by
  unfold Event.gate at h
  split at h <;> simp_all

/-- The gate does not hear of other outcomes. -/
theorem Event.gate_finished {outcome : Option (ExecutionResult E)}
    (h : outcome ≠ some unavailable) :
    (Event.finished i outcome).gate = none := by
  cases outcome with
  | none => rfl
  | some result =>
    cases result with
    | ok => rfl
    | error error =>
      cases error with
      | admission reason => cases reason <;> first | rfl | exact absurd rfl h
      | _ => rfl

namespace State

def gate (s : State E) : Gate where
  admission := s.admission
  inFlight := s.inFlight
  available := s.permits.available
  registry := s.registry
  stages := s.executions.map fun execution => execution.phase.stage

def SoundPhases (s : State E) : Prop :=
  ∀ execution ∈ s.executions, execution.phase.Sound

/-- Who called `begin_drain` and got past it closed admission or found it closed. -/
def DrainsBegun (s : State E) : Prop :=
  ∀ drain ∈ s.drains, drain.phase ≠ .starting → drain.phase ≠ .done → s.admission = .draining

/-- The gate took the same steps, and the drains are as they were. -/
structure Advances (capacity : ℕ) (s : State E) (next : State E × List (Event E)) : Prop where
  gate : Runs (Gate.Step capacity) s.gate (next.2.filterMap Event.gate) next.1.gate
  sound : s.SoundPhases → next.1.SoundPhases
  drains : next.1.drains = s.drains
  admission : next.1.admission = s.admission

variable {capacity i : ℕ} {s s₁ : State E} {execution : Execution E} {phase : Phase E}
  {reporter : LifecycleState} {events : List (Event E)} {next : State E × List (Event E)}
  {ops : List Op}

theorem stage_of_execution (hexec : s.executions[i]? = some execution) :
    s.gate.stages[i]? = some execution.phase.stage := by
  rw [gate, getElem?_map, hexec, map_some]

theorem SoundPhases.setExecution (h : s.SoundPhases)
    (hsound : execution.phase.Sound) : (s.setExecution i execution).SoundPhases := by
  intro other hother
  rcases mem_or_eq_of_mem_set hother with hmem | rfl
  · exact h other hmem
  · exact hsound

/-- The execution goes on in `phase`, as a step of the gate that may change the shared
state. -/
theorem advances_of_runs (hexecs : s₁.executions = s.executions)
    (hdrains : s₁.drains = s.drains) (hadm : s₁.admission = s.admission)
    (hruns : Runs (Gate.Step capacity) s.gate (events.filterMap Event.gate)
      (s₁.gate.setStage i phase.stage)) (hsound : phase.Sound) :
    s.Advances capacity (s₁.setExecution i { execution with reporter, phase }, events) where
  gate := by
    simpa only [gate, setExecution, Gate.setStage, map_set] using hruns
  sound h := SoundPhases.setExecution (by rwa [SoundPhases, hexecs]) hsound
  drains := hdrains
  admission := hadm

/-- The execution goes on in a phase of the same stage, and the gate does not change. -/
theorem advances_same (hexec : s.executions[i]? = some execution) (hgate : s₁.gate = s.gate)
    (hexecs : s₁.executions = s.executions) (hdrains : s₁.drains = s.drains)
    (hstage : phase.stage = execution.phase.stage) (hsound : phase.Sound)
    (hruns : Runs (Gate.Step capacity) s.gate (events.filterMap Event.gate) s.gate) :
    s.Advances capacity (s₁.setExecution i { execution with reporter, phase }, events) := by
  have hadm : s₁.admission = s.admission := congrArg Gate.admission hgate
  refine advances_of_runs hexecs hdrains hadm ?_ hsound
  have hsame : s.gate.setStage i execution.phase.stage = s.gate := by
    rw [Gate.setStage, Slots.set_self (stage_of_execution hexec)]
  rw [hgate, hstage, hsame]
  exact hruns

/-- The gate takes no step at all. -/
theorem advances_silent (hexec : s.executions[i]? = some execution) (hgate : s₁.gate = s.gate)
    (hexecs : s₁.executions = s.executions) (hdrains : s₁.drains = s.drains)
    (hstage : phase.stage = execution.phase.stage) (hsound : phase.Sound)
    (hevents : events.filterMap Event.gate = []) :
    s.Advances capacity (s₁.setExecution i { execution with reporter, phase }, events) := by
  refine advances_same hexec hgate hexecs hdrains hstage hsound ?_
  rw [hevents]
  exact .refl _

section phases

variable {old : Phase E} (hexec : s.executions[i]? = some execution)
  (hphase : execution.phase = old)
include hexec hphase

theorem advances_enter (hstage : phase.stage = old.stage) (hinside : phase.Inside) :
    s.Advances capacity (s.enter i execution phase, []) :=
  advances_silent hexec rfl rfl rfl (hphase ▸ hstage) hinside.sound rfl

theorem advances_reported (hstage : phase.stage = old.stage) (hinside : phase.Inside)
    (next : LifecycleState × Option TaskLifecycleEvent) :
    s.Advances capacity (s.reported i execution phase next) := by
  refine advances_silent hexec rfl rfl rfl (hphase ▸ hstage) hinside.sound ?_
  simp [Event.gate]

theorem advances_leave (hinside : old.Inside) (hfree : ∀ op ∈ ops, op.Free)
    {result : ExecutionResult E} (hres : result ≠ unavailable) :
    s.Advances capacity (s.leave i execution ops result, []) := by
  subst hphase
  obtain ⟨hstage, hnested⟩ := stageOf_free hfree execution.phase.scope
  have hsound := Phase.Sound.leaving (hnested hinside.sound.nested)
    (fun h => hres (Option.some.inj h))
  exact advances_silent hexec rfl rfl rfl hstage hsound rfl

theorem advances_reject (hinside : old.Inside) {reason}
    (hreason : reason ≠ .controlCapacityUnavailable) :
    s.Advances capacity (s.reject i execution reason, []) := by
  refine advances_leave hexec hphase hinside (finishAdmission_free reason) ?_
  simpa [unavailable] using hreason

theorem advances_leaveCancelled (hinside : old.Inside) (reason : TaskCancellationReason) :
    s.Advances capacity (s.leaveCancelled i execution reason, []) :=
  advances_leave hexec hphase hinside (by simp [Op.Free]) (by simp [unavailable])

theorem advances_checkShutdown (hinside : old.Inside) (hstage : phase.stage = old.stage)
    (hnext : phase.Inside) : s.Advances capacity (s.checkShutdown i execution phase, []) := by
  unfold checkShutdown
  split
  · exact advances_reject hexec hphase hinside nofun
  · exact advances_enter hexec hphase hstage hnext

theorem advances_checkCancellation (hinside : old.Inside) (hstage : phase.stage = old.stage)
    (hnext : phase.Inside) : s.Advances capacity (s.checkCancellation i execution phase, []) := by
  unfold checkCancellation
  split
  · exact advances_leaveCancelled hexec hphase hinside _
  · exact advances_enter hexec hphase hstage hnext

/-- The execution is abandoned: its guards are dropped, the execution guard last. -/
theorem advances_abandon (hinside : old.Inside) :
    s.Advances capacity
      (s.enter i execution (.leaving (execution.phase.scope ++ [.dropGuard]) none), []) := by
  subst hphase
  exact advances_silent hexec rfl rfl rfl hinside.dropGuard.1
    (.leaving hinside.dropGuard.2 nofun) rfl

end phases

/-! ## Steps of an execution -/

theorem perform_advances (hexec : s.executions[i]? = some execution) {op : Op}
    {outcome : Option (ExecutionResult E)} (hphase : execution.phase = .leaving (op :: ops) outcome)
    (hphases : s.SoundPhases) (now : SystemTime) :
    s.Advances capacity (s.perform i execution now op ops outcome) := by
  have hsound := hphases execution (mem_of_getElem? hexec)
  rw [hphase] at hsound
  have hops : Nested (op :: ops) := hsound.nested
  have hout : outcome ≠ some unavailable := by
    rintro rfl
    exact hsound.available _ rfl
  have hstage : s.gate.stages[i]? = some (stageOf (op :: ops)) := by
    have h := stage_of_execution hexec
    rwa [hphase] at h
  unfold perform
  cases op with
  | cancel reason | notify =>
    exact advances_silent hexec rfl rfl rfl (by rw [hphase]; rfl) (.leaving hops hout) rfl
  | transition state =>
    exact advances_silent hexec rfl rfl rfl (by rw [hphase]; rfl) (.leaving hops hout)
      (by simp [Event.gate])
  -- What gives something back is a step of the gate.
  | deregister taskId =>
    refine advances_of_runs rfl rfl rfl ?_ (.leaving hops.2 hout)
    rw [show Phase.stage (.leaving ops outcome) = .counted from hops.1]
    exact .single (.deregister hstage)
  | finish =>
    refine advances_of_runs rfl rfl rfl ?_ (.leaving hops.2 hout)
    rw [show Phase.stage (.leaving ops outcome) = .permitted from hops.1]
    exact .single (.finish hstage)
  | release =>
    refine advances_of_runs rfl rfl rfl ?_ (.leaving hops.2 hout)
    rw [show Phase.stage (.leaving ops outcome) = .outside from hops.1]
    exact .single (.release hstage)
  | dropGuard =>
    dsimp only
    split <;>
      exact advances_silent hexec rfl rfl rfl (by rw [hphase]; rfl) (.leaving hops hout) rfl

theorem rejectionReason_ne (s : State E) : s.rejectionReason ≠ .controlCapacityUnavailable := by
  unfold rejectionReason
  split <;> nofun

theorem poll_advances {executor : Executor E} (hexec : s.executions[i]? = some execution)
    (hphases : s.SoundPhases) (hinv : Gate.Inv executor.maxInFlight s.gate) {input : Poll E}
    (hpoll : s.poll i execution executor input = some next) :
    s.Advances executor.maxInFlight next := by
  have hstage := stage_of_execution hexec
  unfold poll at hpoll
  dsimp only at hpoll
  split at hpoll
  -- Most accesses leave the gate alone.
  case h_1 hphase | h_13 taskId hphase | h_17 taskId hphase | h_19 taskId source hphase =>
    cases hpoll
    exact advances_reported hexec hphase (by rfl) (by nofun) _
  case h_2 hphase | h_4 hphase | h_8 hphase =>
    cases hpoll
    exact advances_checkShutdown hexec hphase nofun rfl nofun
  case h_3 hphase =>
    split at hpoll <;> cases hpoll
    · exact advances_enter hexec hphase rfl nofun
    · exact advances_reject hexec hphase nofun nofun
    · exact advances_reject hexec hphase nofun nofun
  case h_5 hphase | h_9 hphase =>
    cases hpoll
    exact advances_checkCancellation hexec hphase nofun rfl nofun
  case h_6 hphase =>
    split at hpoll
    case isTrue =>
      cases hpoll
      exact advances_enter hexec hphase rfl nofun
    case isFalse =>
      split at hpoll <;> cases hpoll
      case isTrue hgranted =>
        -- Permits, the count in flight and registrations are the gate's own steps.
        rw [hphase] at hstage
        refine advances_of_runs rfl rfl rfl ?_ (Phase.Inside.sound nofun)
        exact .single (.acquire hstage hgranted.2)
      case isFalse => exact advances_enter hexec hphase rfl nofun
  case h_7 hphase | h_11 hphase =>
    cases hpoll
    exact advances_reject hexec hphase nofun s.rejectionReason_ne
  case h_10 hphase =>
    split at hpoll <;> cases hpoll
    case isTrue => exact advances_enter hexec hphase rfl nofun
    case isFalse hacc =>
      rw [hphase] at hstage
      refine advances_of_runs rfl rfl rfl ?_ (Phase.Inside.sound nofun)
      exact .single (.start hstage (not_not.mp hacc))
  case h_12 hphase =>
    generalize hreg : s.registry.register _ _ _ _ = registered at hpoll
    obtain ⟨registry, result⟩ := registered
    rw [hphase] at hstage
    have hstep := Gate.Step.register hstage hreg
    -- Registration cannot fail: there is room for whoever is counted in flight.
    obtain ⟨taskId, rfl⟩ := hstep.registered_ok executor.maxInFlight_le hinv
    cases hpoll
    exact advances_of_runs rfl rfl rfl (.single hstep) (Phase.Inside.sound nofun)
  case h_14 taskId hphase =>
    cases hpoll
    refine advances_same hexec rfl rfl rfl (by rw [hphase]; rfl) (Phase.Inside.sound nofun) ?_
    rw [hphase] at hstage
    exact .single (.invoke hstage)
  case h_15 taskId hphase =>
    split at hpoll <;> cases hpoll
    · exact advances_silent hexec rfl rfl rfl (by rw [hphase]; rfl)
        (Phase.Inside.sound nofun) rfl
    · exact advances_enter hexec hphase rfl nofun
  case h_16 taskId hphase =>
    repeat' split at hpoll
    all_goals
      cases hpoll
      exact advances_enter hexec hphase rfl nofun
  case h_18 taskId result hphase =>
    split at hpoll <;> cases hpoll
    · exact advances_leaveCancelled hexec hphase nofun _
    · exact advances_leave hexec hphase nofun (by simp [Op.Free]) (by simp [unavailable])
    · exact advances_enter hexec hphase rfl nofun
  case h_20 taskId source hphase =>
    cases hpoll
    exact advances_leave hexec hphase nofun (by simp) (by simp [unavailable])
  case h_21 taskId timeout hphase =>
    cases hpoll
    exact advances_silent hexec rfl rfl rfl (by rw [hphase]; rfl)
      (Phase.Inside.sound nofun) rfl
  case h_22 taskId stop hphase =>
    split at hpoll
    case isTrue =>
      split at hpoll
      case h_1 =>
        cases hpoll
        exact advances_leaveCancelled hexec hphase nofun _
      case h_2 =>
        split at hpoll <;> cases hpoll
        · exact advances_leaveCancelled hexec hphase nofun _
        · exact advances_leave hexec hphase nofun (by simp [Op.Free]) (by simp [unavailable])
    case isFalse =>
      cases hpoll
      exact ⟨.refl _, id, rfl, rfl⟩
  case h_23 op ops outcome hphase =>
    cases hpoll
    exact perform_advances hexec hphase hphases input.now
  case h_24 outcome hphase =>
    cases hpoll
    have hsound := hphases execution (mem_of_getElem? hexec)
    rw [hphase] at hsound
    refine advances_silent hexec rfl rfl rfl (by rw [hphase]; rfl)
      (Phase.Inside.sound nofun) ?_
    -- An end for lack of capacity would be a step of the gate.
    have hout : outcome ≠ some unavailable := by
      rintro rfl
      exact hsound.available _ rfl
    exact filterMap_cons_none (Event.gate_finished hout)
  case h_25 => cases hpoll

theorem drop_advances (hexec : s.executions[i]? = some execution)
    (hdrop : s.drop i execution = some next) : s.Advances capacity next := by
  unfold drop at hdrop
  split at hdrop
  case h_1 hphase =>
    cases hdrop
    exact advances_silent hexec rfl rfl rfl (by rw [hphase]; rfl)
      (Phase.Inside.sound nofun) rfl
  case h_5 => cases hdrop
  all_goals
    rename_i hphase
    cases hdrop
    exact advances_abandon hexec hphase nofun

theorem panic_advances (hexec : s.executions[i]? = some execution)
    (hpanic : s.panic i execution = some next) : s.Advances capacity next := by
  unfold panic at hpanic
  split at hpanic
  case h_3 hphase =>
    cases hpanic
    have hinside : execution.phase.Inside := by
      rw [hphase]
      nofun
    exact advances_silent hexec rfl rfl rfl rfl
      (.leaving hinside.sound.nested nofun) rfl
  case h_4 => cases hpanic
  all_goals
    rename_i hphase
    cases hpanic
    exact advances_abandon hexec hphase nofun

theorem reportFrom_advances (hexec : s.executions[i]? = some execution)
    (hphases : s.SoundPhases) {report} (hrep : s.reportFrom i execution report = some next) :
    s.Advances capacity next := by
  unfold reportFrom at hrep
  split at hrep
  case isTrue => cases hrep
  case isFalse =>
    cases hrep
    refine advances_silent hexec rfl rfl rfl rfl
      (hphases execution (mem_of_getElem? hexec)) ?_
    cases report.2 <;> rfl

end State

/-! ## Steps of a drain -/

variable {events : List (Event E)}

section drains

variable {capacity j : ℕ} {drain : Drain}

theorem State.DrainsBegun.setDrain (h : s.DrainsBegun) {phase}
    (hphase : phase ≠ .starting → phase ≠ .done → s.admission = .draining) :
    (s.setDrain j { drain with phase }).DrainsBegun := by
  intro other hother hstart hdone
  rcases mem_or_eq_of_mem_set hother with hmem | rfl
  · exact h other hmem hstart hdone
  · exact hphase hstart hdone

structure State.DrainAdvances (capacity : ℕ) (s : State E) (next : State E × List (Event E)) :
    Prop where
  gate : Runs (Gate.Step capacity) s.gate (next.2.filterMap Event.gate) next.1.gate
  executions : next.1.executions = s.executions
  begun : next.1.DrainsBegun

/-- The drain goes on, or ends without having completed. -/
theorem State.setDrain_advances (h : s.DrainsBegun) (hdrain : s.admission = .draining)
    (phase : DrainPhase) (hevents : events.filterMap Event.gate = []) :
    s.DrainAdvances capacity (s.setDrain j { drain with phase }, events) := by
  refine ⟨?_, rfl, h.setDrain fun _ _ => hdrain⟩
  rw [hevents]
  exact .refl _

theorem State.drainBegun_advances (h : s.DrainsBegun) (hdrain : s.admission = .draining)
    (changed : Bool) : s.DrainAdvances capacity (s.drainBegun j drain changed) := by
  unfold State.drainBegun
  split
  · exact State.setDrain_advances h hdrain _ rfl
  · exact State.setDrain_advances h hdrain _ rfl

theorem State.drained_advances (h : s.DrainsBegun) (hdrain : s.admission = .draining)
    (hidle : s.inFlight = 0) : s.DrainAdvances capacity (s.drained j drain .completed) :=
  ⟨.single (.drain hdrain hidle), rfl, h.setDrain fun _ _ => hdrain⟩

variable {next : State E × List (Event E)}

theorem State.pollDrain_advances (h : s.DrainsBegun) (hdrain : s.drains[j]? = some drain)
    {elapsed : Bool} (hpoll : s.pollDrain j drain elapsed = some next) :
    s.DrainAdvances capacity next := by
  have hdraining : drain.phase ≠ .starting → drain.phase ≠ .done → s.admission = .draining :=
    h drain (mem_of_getElem? hdrain)
  unfold State.pollDrain at hpoll
  split at hpoll
  case h_1 hphase =>
    split at hpoll <;> cases hpoll
    case isTrue hclosed => exact State.drainBegun_advances h hclosed _
    case isFalse hopen =>
      -- This call is the one that starts the drain.
      have hnow : State.DrainsBegun { s with admission := .draining } := fun _ _ _ _ => rfl
      exact ⟨.single (.turn hopen), rfl, hnow.setDrain fun _ _ => rfl⟩
  case h_2 hphase =>
    cases hpoll
    rw [hphase] at hdraining
    have hclosed : State.DrainsBegun { s with permits := { s.permits with closed := true } } := h
    obtain ⟨hgate, hexecs, hbegun⟩ :=
      State.drainBegun_advances hclosed (hdraining nofun nofun) true
    exact ⟨hgate, hexecs, hbegun⟩
  case h_3 hphase | h_5 seen hphase | h_7 hphase =>
    rw [hphase] at hdraining
    split at hpoll <;> cases hpoll
    case isTrue hidle => exact State.drained_advances h (hdraining nofun nofun) hidle
    case isFalse => exact State.setDrain_advances h (hdraining nofun nofun) _ rfl
  case h_4 hphase =>
    rw [hphase] at hdraining
    cases hpoll
    exact State.setDrain_advances h (hdraining nofun nofun) _ rfl
  case h_6 seen hphase =>
    rw [hphase] at hdraining
    split at hpoll
    case isTrue =>
      cases hpoll
      exact State.setDrain_advances h (hdraining nofun nofun) _ rfl
    case isFalse =>
      split at hpoll <;> cases hpoll
      case isTrue => exact State.setDrain_advances h (hdraining nofun nofun) _ rfl
      case isFalse => exact ⟨.refl _, rfl, h⟩
  case h_8 => cases hpoll

theorem State.dropDrain_advances (h : s.DrainsBegun) (hdrop : s.dropDrain j drain = some next) :
    s.DrainAdvances capacity next := by
  unfold State.dropDrain at hdrop
  split at hdrop
  case h_1 =>
    cases hdrop
    exact ⟨.refl _, rfl, h.setDrain fun _ hdone => absurd rfl hdone⟩
  case h_2 => cases hdrop

end drains

/-! ## Runs -/

section runs

variable {executor : Executor E} {s' : State E} {g : Gate}

/-- `g` is the gate of `s`, and both are sound. -/
structure Tracks (executor : Executor E) (s : State E) (g : Gate) : Prop where
  gate : g = s.gate
  inv : Gate.Inv executor.maxInFlight g
  phases : s.SoundPhases
  begun : s.DrainsBegun

/-- The gate shadows the executor to `s'`. -/
def Shadows (executor : Executor E) (g : Gate) (events : List (Event E)) (s' : State E) : Prop :=
  ∃ g', Runs (Gate.Step executor.maxInFlight) g (events.filterMap Event.gate) g' ∧
    Tracks executor s' g'

/-- What follows a run of the gate is sound when the phases and the drains are. -/
theorem Tracks.next (h : Tracks executor s g)
    (hruns : Runs (Gate.Step executor.maxInFlight) s.gate (events.filterMap Event.gate) s'.gate)
    (hphases : s'.SoundPhases) (hbegun : s'.DrainsBegun) : Shadows executor g events s' := by
  obtain ⟨rfl, hinv, -, -⟩ := h
  exact ⟨_, hruns, rfl, Gate.inv_of_runs executor.maxInFlight_le hruns hinv, hphases, hbegun⟩

theorem Tracks.advances (h : Tracks executor s g)
    (hadv : s.Advances executor.maxInFlight (s', events)) : Shadows executor g events s' := by
  obtain ⟨hgate, hsound, hdrains, hadm⟩ := hadv
  refine h.next hgate (hsound h.phases) ?_
  rw [State.DrainsBegun, hdrains, hadm]
  exact h.begun

theorem Tracks.drainAdvances (h : Tracks executor s g)
    (hadv : s.DrainAdvances executor.maxInFlight (s', events)) :
    Shadows executor g events s' := by
  obtain ⟨hgate, hexecs, hbegun⟩ := hadv
  refine h.next hgate ?_ hbegun
  rw [State.SoundPhases, hexecs]
  exact h.phases

theorem Tracks.call (h : Tracks executor s g) (waits : Bool) :
    Tracks executor { s with drains := s.drains ++ [{ waits }] } g := by
  refine ⟨h.gate, h.inv, h.phases, ?_⟩
  intro drain hdrain hstart
  rcases mem_append.mp hdrain with hold | hnew
  · exact h.begun drain hold hstart
  · rw [mem_singleton.mp hnew] at hstart
    exact absurd rfl hstart

/-- Pausing and resuming turn a gate that is not draining. -/
theorem Tracks.turn (h : Tracks executor s g) (hopen : s.admission ≠ .draining)
    (admission : WorkerAdmissionState) (hevents : events.filterMap Event.gate = []) :
    Shadows executor g events { s with admission } := by
  refine h.next ?_ h.phases ?_
  · rw [hevents]
    exact .single (.turn hopen)
  · intro drain hdrain hstart hdone
    exact absurd (h.begun drain hdrain hstart hdone) hopen

theorem Tracks.execute (h : Tracks executor s g) (context : WorkerContext) :
    Shadows executor g [] { s with executions := s.executions ++ [{ context }] } := by
  refine h.next ?_ ?_ h.begun
  · have harrive : Gate.Step executor.maxInFlight s.gate [] _ := .arrive
    simpa [State.gate, Phase.stage, Phase.scope, stageOf] using Runs.single harrive
  · intro execution hexec
    rcases mem_append.mp hexec with hold | hnew
    · exact h.phases execution hold
    · rw [mem_singleton.mp hnew]
      exact Phase.Inside.sound nofun

theorem Tracks.step (h : Tracks executor s g) (hstep : (machine executor).Step s events s') :
    Shadows executor g events s' := by
  have hinv : Gate.Inv executor.maxInFlight s.gate := h.gate ▸ h.inv
  obtain ⟨action, hstep⟩ := hstep
  cases action with
  | execute context =>
    cases hstep
    exact h.execute context
  | poll i input =>
    obtain ⟨execution, hexec, hpoll⟩ := bind_eq_some_iff.mp hstep
    exact h.advances (State.poll_advances hexec h.phases hinv hpoll)
  | drop i =>
    obtain ⟨execution, hexec, hdrop⟩ := bind_eq_some_iff.mp hstep
    exact h.advances (State.drop_advances hexec hdrop)
  | panic i =>
    obtain ⟨execution, hexec, hpanic⟩ := bind_eq_some_iff.mp hstep
    exact h.advances (State.panic_advances hexec hpanic)
  | report i progress now | heartbeat i now =>
    obtain ⟨execution, hexec, hrep⟩ := bind_eq_some_iff.mp hstep
    exact h.advances (State.reportFrom_advances hexec h.phases hrep)
  | pauseAdmission | resumeAdmission =>
    simp only [machine, Worker.step, State.pauseAdmission, State.resumeAdmission] at hstep
    split at hstep <;> obtain ⟨rfl, rfl⟩ := Prod.mk.inj (Option.some.inj hstep)
    case isTrue hturned => exact h.turn (by simp [hturned]) _ rfl
    case isFalse => exact ⟨g, .refl g, h⟩
  | beginDrain | drain =>
    cases hstep
    exact ⟨g, .refl g, h.call _⟩
  | pollDrain j elapsed =>
    obtain ⟨drain, hdrain, hpoll⟩ := bind_eq_some_iff.mp hstep
    exact h.drainAdvances (State.pollDrain_advances h.begun hdrain hpoll)
  | dropDrain j =>
    obtain ⟨drain, hdrain, hdrop⟩ := bind_eq_some_iff.mp hstep
    exact h.drainAdvances (State.dropDrain_advances h.begun hdrop)
  | cancel token reason | requestShutdown signal =>
    cases hstep
    -- Tokens and signals are not part of the gate.
    exact ⟨g, .refl g, h.gate, h.inv, h.phases, h.begun⟩

/-- Every run of the executor is a run of its gate. -/
theorem Tracks.runs (h : Tracks executor s s.gate)
    (hruns : Runs (machine executor).Step s events s') :
    Runs (Gate.Step executor.maxInFlight) s.gate (events.filterMap Event.gate) s'.gate ∧
      Tracks executor s' s'.gate := by
  obtain ⟨g', hgate, h'⟩ := hruns.simulate (R := Tracks executor) (fun h hstep => h.step hstep) h
  obtain rfl := h'.gate
  exact ⟨hgate, h'⟩

theorem tracks_init (executor : Executor E) : Tracks executor executor.init executor.init.gate where
  gate := rfl
  inv :=
    { counted := rfl
      permitted := Nat.zero_add _
      owned := nil_subset _
      nextTaskId := (by decide : (1 : U64) ≠ 0) }
  phases := fun _ h => absurd h not_mem_nil
  begun := fun _ h => absurd h not_mem_nil

theorem started_init (executor : Executor E) : Gate.Started executor.init.gate [] := by
  intro i stage hstage
  cases hstage

end runs

end PlenoraRuntime.Worker
