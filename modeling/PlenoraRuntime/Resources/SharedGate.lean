import PlenoraRuntime.Resources.Hysteresis

/-!
# One gate, two controllers

The worker's admission gate has one bit of reversible state, and both controllers use it:
the monitor closes it under pressure and opens it in the normal state, the operator pauses
and resumes. Neither can see why the gate is closed.

`Separate` says that neither overrides the other; `Respects` says of one command that it
does not open the gate against the other controller. `separate_apply_iff` is the step,
`separate_perform_iff` the run.
-/

namespace PlenoraRuntime.Resources

open PlenoraRuntime.Core (HealthRegistry)
open Worker (WorkerAdmissionState)

/-! ## Commands -/

/-- What is done to the gate: a sample of the monitor, or a command of the operator. -/
inductive Command
  | sample (result : SampleResult)
  | pauseWorker
  | resumeWorker
  deriving DecidableEq, Repr

/-- The monitor, and whether the operator's last command was a pause. -/
structure Shared where
  monitor : Monitor
  operatorPaused : Bool

namespace Shared

variable (config : MemoryPressureConfig)

def apply (s : Shared) : Command → Shared
  | .sample result => { s with monitor := (s.monitor.sampleOnce config result).1 }
  | .pauseWorker =>
    { monitor := { s.monitor with admission := pauseAdmission s.monitor.admission }
      operatorPaused := true }
  | .resumeWorker =>
    { monitor := { s.monitor with admission := resumeAdmission s.monitor.admission }
      operatorPaused := false }

def perform (s : Shared) (commands : List Command) : Shared :=
  commands.foldl (apply config) s

/-- Neither controller's wish to keep the gate closed is overridden. -/
structure Separate (s : Shared) : Prop where
  operator : s.operatorPaused = true → s.monitor.admission ≠ .accepting
  pressure : s.monitor.state.snapshot.state ≠ .normal → s.monitor.admission ≠ .accepting

end Shared

/-! ## What a command may do -/

/-- The sample does not lead to the normal state. -/
def Withholds (config : MemoryPressureConfig) (state : MonitorState) : SampleResult → Prop
  | none => True
  | some bytes =>
    if config.hardLimitBytes ≤ bytes then True
    else if config.softLimitBytes ≤ bytes then
      state.snapshot.state ≠ .normal ∨
        config.pressureConfirmationSamples.val ≤ saturatingAddU32 state.pressureStreak 1
    else
      state.snapshot.state.isTripped = true ∧ (config.resumeBelowBytes < bytes ∨
        saturatingAddU32 state.recoveryStreak 1 < config.recoveryConfirmationSamples.val)

/-- The command does not open the gate against the other controller: the operator resumes
in the normal state only, and while the operator's pause stands no sample leads there. -/
def Respects (config : MemoryPressureConfig) (s : Shared) : Command → Prop
  | .sample result => s.operatorPaused = true → Withholds config s.monitor.state result
  | .pauseWorker => True
  | .resumeWorker => s.monitor.state.snapshot.state = .normal

/-- Every command of a run respects the other controller. -/
def AllRespect (config : MemoryPressureConfig) : Shared → List Command → Prop
  | _, [] => True
  | s, command :: rest =>
    Respects config s command ∧ AllRespect config (s.apply config command) rest

section decidable

variable (config : MemoryPressureConfig)

instance (state : MonitorState) :
    (result : SampleResult) → Decidable (Withholds config state result)
  | none => inferInstanceAs (Decidable True)
  | some _ => by unfold Withholds; infer_instance

instance (s : Shared) : (command : Command) → Decidable (Respects config s command)
  | .sample result => inferInstanceAs (Decidable (_ → Withholds config s.monitor.state result))
  | .pauseWorker => inferInstanceAs (Decidable True)
  | .resumeWorker => inferInstanceAs (Decidable (_ = _))

instance decidableAllRespect : (s : Shared) → (commands : List Command) →
    Decidable (AllRespect config s commands)
  | _, [] => inferInstanceAs (Decidable True)
  | s, command :: rest =>
    have := decidableAllRespect (s.apply config command) rest
    inferInstanceAs (Decidable (Respects config s command ∧ _))

end decidable

/-! ## Steps and runs -/

section shared

variable {config : MemoryPressureConfig} {s : Shared} {command : Command}

theorem observed_ne_normal_iff (state : MonitorState) (result : SampleResult) :
    (state.observe config result).1.snapshot.state ≠ .normal ↔ Withholds config state result := by
  cases result with
  | none => simp [Withholds, observe_none]
  | some bytes =>
    rw [observe_some]
    simp only [Withholds]
    split_ifs with hhard hsoft
    · simp [nextState_hard hhard]
    · rw [nextState_band hsoft (not_le.mp hhard)]
      split_ifs with hconf <;> simp [hconf]
    · rw [nextState_below (not_le.mp hsoft)]
      split_ifs with hresume hwaits htripped
      · exact iff_of_true (MemoryPressureState.ne_normal_of_isTripped hresume.2)
          ⟨hresume.2, .inr hwaits⟩
      · simp [hwaits, hresume.1]
      · exact iff_of_true (MemoryPressureState.ne_normal_of_isTripped htripped)
          ⟨htripped, .inl (not_le.mp fun hlow => hresume ⟨hlow, htripped⟩)⟩
      · simp [htripped]

theorem not_draining_apply (hopen : s.monitor.admission ≠ .draining) :
    (s.apply config command).monitor.admission ≠ .draining := by
  cases command with
  | sample result =>
    have hadm := admission_sampleOnce config hopen result
    simp only [Shared.apply, hadm]
    split_ifs <;> simp
  | pauseWorker =>
    simp only [Shared.apply, pauseAdmission]
    split_ifs <;> simp_all
  | resumeWorker =>
    simp only [Shared.apply, resumeAdmission]
    split_ifs <;> simp_all

theorem separate_apply_iff (config : MemoryPressureConfig) (command : Command)
    (hopen : s.monitor.admission ≠ .draining) :
    (s.apply config command).Separate ↔ Respects config s command := by
  cases command with
  | pauseWorker =>
    refine iff_of_true ⟨fun _ => ?_, fun hstate => ?_⟩ trivial <;>
      simp only [Shared.apply, pauseAdmission] <;> split_ifs with hacc
    all_goals simp_all
  | resumeWorker =>
    have hacc : resumeAdmission s.monitor.admission = .accepting := by
      cases hadm : s.monitor.admission with
      | accepting => rfl
      | paused => rfl
      | draining => exact absurd hadm hopen
    constructor
    · intro hafter
      by_contra hstate
      exact hafter.pressure hstate hacc
    · intro hstate
      exact ⟨fun hpaused => absurd hpaused (by simp [Shared.apply]),
        fun hother => absurd hstate hother⟩
  | sample result =>
    have hadm := admission_sampleOnce config hopen result
    rw [Respects, ← observed_ne_normal_iff]
    constructor
    · intro hafter hpaused hnormal
      rw [if_pos hnormal] at hadm
      exact hafter.operator hpaused hadm
    · intro hresp
      refine ⟨fun hpaused => ?_, fun hstate => ?_⟩
      · rw [Shared.apply, hadm, if_neg (hresp hpaused)]
        simp
      · change (s.monitor.state.observe config result).1.snapshot.state ≠ .normal at hstate
        rw [Shared.apply, hadm, if_neg hstate]
        simp

theorem admission_new {admission : WorkerAdmissionState} (health : HealthRegistry)
    (hopen : admission ≠ .draining) : (Monitor.new admission health).admission = .paused := by
  cases admission with
  | accepting => rfl
  | paused => rfl
  | draining => exact absurd rfl hopen

/-- A run keeps both wishes in all its states when each of its commands respects them, and
only then. -/
theorem separate_perform_iff (config : MemoryPressureConfig)
    (hopen : s.monitor.admission ≠ .draining) (h : s.Separate) (commands : List Command) :
    (∀ before, before <+: commands → (s.perform config before).Separate) ↔
      AllRespect config s commands := by
  induction commands generalizing s with
  | nil =>
    refine iff_of_true (fun before hpre => ?_) trivial
    rw [List.prefix_nil.mp hpre]
    exact h
  | cons command rest ih =>
    have hcommand := separate_apply_iff config command hopen
    constructor
    · intro hall
      have hafter : (s.apply config command).Separate := hall [command] (by simp)
      refine ⟨hcommand.mp hafter, (ih (not_draining_apply hopen) hafter).mp ?_⟩
      intro before hpre
      exact hall (command :: before) (List.cons_prefix_cons.mpr ⟨rfl, hpre⟩)
    · rintro ⟨hresp, hrest⟩ before hpre
      cases before with
      | nil => exact h
      | cons other before =>
        obtain ⟨rfl, hprefix⟩ := List.cons_prefix_cons.mp hpre
        exact (ih (not_draining_apply hopen) (hcommand.mpr hresp)).mpr hrest before hprefix

end shared

/-- Starting with a new monitor, the operator's pause keeps the gate closed until the
operator resumes, and memory pressure keeps it closed while it lasts, exactly when no
command opens the gate against the other controller. -/
theorem separate_iff (config : MemoryPressureConfig) (admission : WorkerAdmissionState)
    (hopen : admission ≠ .draining) (health : HealthRegistry) (operatorPaused : Bool)
    (commands : List Command) :
    let start : Shared := ⟨.new admission health, operatorPaused⟩
    (∀ before, before <+: commands → (start.perform config before).Separate) ↔
      AllRespect config start commands := by
  have hpaused := admission_new health hopen
  refine separate_perform_iff config ?_ ⟨fun _ => ?_, fun _ => ?_⟩ commands <;> simp [hpaused]

/-- A sample that finds little memory in use undoes the operator's pause, and the operator
can resume under pressure. -/
theorem gate_overridden :
    (let start : Shared := ⟨.new .accepting .new, false⟩
     let last := start.perform smallLimits [.sample (some 10), .pauseWorker, .sample (some 10)]
     last.operatorPaused = true ∧ last.monitor.admission = .accepting) ∧
    (let start : Shared := ⟨.new .accepting .new, false⟩
     let last := start.perform smallLimits [.sample (some 90), .resumeWorker]
     last.monitor.state.snapshot.state = .pressured ∧ last.monitor.admission = .accepting) := by
  decide

/-- The operator pauses under pressure, and resumes before the recovery is complete: the
first four commands are kept apart, the fifth is not. -/
theorem separate_iff_under_pressure :
    let commands : List Command :=
      [.sample (some 90), .pauseWorker, .sample (some 85), .sample (some 50)]
    let start : Shared := ⟨.new .accepting .new, false⟩
    (∀ before, before <+: commands → (start.perform smallLimits before).Separate) ∧
      ¬ ∀ before, before <+: commands ++ [.resumeWorker] →
        (start.perform smallLimits before).Separate := by
  have hiff := separate_iff smallLimits .accepting (by decide) .new false
  exact ⟨(hiff _).mpr (by decide), fun h => absurd ((hiff _).mp h) (by decide)⟩

end PlenoraRuntime.Resources
