import PlenoraRuntime.Core.Health
import PlenoraRuntime.Worker.Executor

/-!
# The memory-pressure monitor

A sample of the resident memory is classified under a lock, by thresholds and by two
counters of consecutive samples; what follows from the classification is then applied
without the lock: the worker's admission gate is opened or closed, and the health registry
is told.

`sampleOnce` is a call that nothing else interleaves with. `SampleStage` splits it at its
accesses, so that several calls can run at once; `advance_sampleOnce` says that the steps
of a call on its own are `sampleOnce`.
-/

namespace PlenoraRuntime.Resources

open PlenoraRuntime.Core (ComponentHealth ComponentReadiness HealthRegistry HealthStatus
  ReadinessStatus)
open Worker (WorkerAdmissionState)

/-! ## Configuration -/

inductive MemoryPressureConfigError
  | zeroSampleInterval
  | zeroResumeThreshold
  | resumeNotBelowSoftLimit
  | softNotBelowHardLimit
  | zeroPressureConfirmation
  | zeroRecoveryConfirmation
  deriving DecidableEq, Repr

/-- The fields of `MemoryPressureConfig`. -/
structure MemoryPressureSettings where
  sampleInterval : Duration
  resumeBelowBytes : ℕ
  softLimitBytes : ℕ
  hardLimitBytes : ℕ
  pressureConfirmationSamples : Fin (2 ^ 32) := 1
  recoveryConfirmationSamples : Fin (2 ^ 32) := 2

def MemoryPressureSettings.validate (settings : MemoryPressureSettings) :
    Except MemoryPressureConfigError Unit :=
  if settings.sampleInterval = 0 then .error .zeroSampleInterval
  else if settings.resumeBelowBytes = 0 then .error .zeroResumeThreshold
  else if settings.softLimitBytes ≤ settings.resumeBelowBytes then
    .error .resumeNotBelowSoftLimit
  else if settings.hardLimitBytes ≤ settings.softLimitBytes then .error .softNotBelowHardLimit
  else if settings.pressureConfirmationSamples.val = 0 then .error .zeroPressureConfirmation
  else if settings.recoveryConfirmationSamples.val = 0 then .error .zeroRecoveryConfirmation
  else .ok ()

/-- `MemoryPressureConfig`: settings that were validated. -/
structure MemoryPressureConfig extends MemoryPressureSettings where
  valid : toMemoryPressureSettings.validate = .ok ()

namespace MemoryPressureConfig

variable (config : MemoryPressureConfig)

theorem of_valid :
    config.resumeBelowBytes < config.softLimitBytes ∧
      config.softLimitBytes < config.hardLimitBytes ∧
      0 < config.pressureConfirmationSamples.val ∧
      0 < config.recoveryConfirmationSamples.val := by
  have hvalid := config.valid
  unfold MemoryPressureSettings.validate at hvalid
  split_ifs at hvalid
  exact ⟨by omega, by omega, by omega, by omega⟩

end MemoryPressureConfig

/-! ## Classification -/

inductive MemoryPressureState
  | initializing
  | normal
  | pressured
  | critical
  | unavailable
  deriving DecidableEq, Repr

structure MemoryPressureSnapshot where
  sequence : ℕ
  state : MemoryPressureState
  residentBytes : Option ℕ
  deriving DecidableEq, Repr

structure MemoryPressureObservation where
  snapshot : MemoryPressureSnapshot
  changed : Bool
  sampleSucceeded : Bool
  deriving DecidableEq, Repr

/-- `MonitorState`: what the lock protects. -/
structure MonitorState where
  snapshot : MemoryPressureSnapshot := ⟨0, .initializing, none⟩
  pressureStreak : ℕ := 0
  recoveryStreak : ℕ := 0
  deriving DecidableEq, Repr

/-- What the sampler returned: resident bytes, or nothing when it failed. -/
abbrev SampleResult := Option ℕ

/-- The state is one that admission recovers from by confirmation only. -/
def MemoryPressureState.isTripped : MemoryPressureState → Bool
  | .pressured | .critical | .unavailable => true
  | .initializing | .normal => false

theorem MemoryPressureState.ne_normal_of_isTripped {state : MemoryPressureState}
    (h : state.isTripped = true) : state ≠ .normal := by
  rintro rfl
  cases h

/-- `next_state`: the classification of a sample, and the counters after it. -/
def nextState (config : MemoryPressureConfig) (state : MonitorState) (residentBytes : ℕ) :
    MemoryPressureState × MonitorState :=
  if config.hardLimitBytes ≤ residentBytes then
    (.critical, { state with pressureStreak := 0, recoveryStreak := 0 })
  else if config.softLimitBytes ≤ residentBytes then
    let pressureStreak := saturatingAddU32 state.pressureStreak 1
    (if config.pressureConfirmationSamples.val ≤ pressureStreak then .pressured
      else state.snapshot.state, { state with recoveryStreak := 0, pressureStreak })
  else if residentBytes ≤ config.resumeBelowBytes then
    if state.snapshot.state.isTripped then
      let recoveryStreak := saturatingAddU32 state.recoveryStreak 1
      if recoveryStreak < config.recoveryConfirmationSamples.val then
        (state.snapshot.state, { state with pressureStreak := 0, recoveryStreak })
      else (.normal, { state with pressureStreak := 0, recoveryStreak := 0 })
    else (.normal, { state with pressureStreak := 0, recoveryStreak := 0 })
  else
    (if state.snapshot.state = .initializing then .normal else state.snapshot.state,
      { state with pressureStreak := 0, recoveryStreak := 0 })

/-- The locked part of `apply_sample`. -/
def MonitorState.applySample (config : MemoryPressureConfig) (state : MonitorState)
    (residentBytes : ℕ) : MonitorState × MemoryPressureObservation :=
  let (next, counted) := nextState config state residentBytes
  let snapshot : MemoryPressureSnapshot :=
    { sequence := Word.saturatingAdd 64 state.snapshot.sequence 1
      state := next
      residentBytes := some residentBytes }
  ({ counted with snapshot },
    { snapshot, changed := decide (state.snapshot.state ≠ next), sampleSucceeded := true })

/-- The locked part of `apply_unavailable`. -/
def MonitorState.applyUnavailable (state : MonitorState) :
    MonitorState × MemoryPressureObservation :=
  let snapshot : MemoryPressureSnapshot :=
    { sequence := Word.saturatingAdd 64 state.snapshot.sequence 1
      state := .unavailable
      residentBytes := state.snapshot.residentBytes }
  ({ snapshot, pressureStreak := 0, recoveryStreak := 0 },
    { snapshot
      changed := decide (state.snapshot.state ≠ MemoryPressureState.unavailable)
      sampleSucceeded := false })

/-- The locked part of `sample_once`. -/
def MonitorState.observe (config : MemoryPressureConfig) (state : MonitorState) :
    SampleResult → MonitorState × MemoryPressureObservation
  | some residentBytes => state.applySample config residentBytes
  | none => state.applyUnavailable

section zones

variable {config : MemoryPressureConfig} {state : MonitorState} {bytes : ℕ}

theorem nextState_hard (h : config.hardLimitBytes ≤ bytes) :
    nextState config state bytes =
      (.critical, { state with pressureStreak := 0, recoveryStreak := 0 }) :=
  if_pos h

theorem nextState_band (hsoft : config.softLimitBytes ≤ bytes)
    (hhard : bytes < config.hardLimitBytes) :
    nextState config state bytes =
      (if config.pressureConfirmationSamples.val ≤ saturatingAddU32 state.pressureStreak 1 then
          .pressured else state.snapshot.state,
        { state with
          recoveryStreak := 0, pressureStreak := saturatingAddU32 state.pressureStreak 1 }) := by
  rw [nextState, if_neg (not_le.mpr hhard), if_pos hsoft]

theorem nextState_below (hsoft : bytes < config.softLimitBytes) :
    nextState config state bytes =
      if bytes ≤ config.resumeBelowBytes ∧ state.snapshot.state.isTripped = true then
        if saturatingAddU32 state.recoveryStreak 1 < config.recoveryConfirmationSamples.val then
          (state.snapshot.state,
            { state with
              pressureStreak := 0, recoveryStreak := saturatingAddU32 state.recoveryStreak 1 })
        else (.normal, { state with pressureStreak := 0, recoveryStreak := 0 })
      else
        (if state.snapshot.state.isTripped = true then state.snapshot.state else .normal,
          { state with pressureStreak := 0, recoveryStreak := 0 }) := by
  have hhard : ¬ config.hardLimitBytes ≤ bytes := by
    have hlimits := config.of_valid
    omega
  rw [nextState, if_neg hhard, if_neg (not_le.mpr hsoft)]
  cases hstate : state.snapshot.state <;> simp [MemoryPressureState.isTripped]

theorem observe_some :
    (state.observe config (some bytes)).1 =
      { (nextState config state bytes).2 with
        snapshot := ⟨Word.saturatingAdd 64 state.snapshot.sequence 1,
          (nextState config state bytes).1, some bytes⟩ } := rfl

theorem observe_none :
    (state.observe config none).1 =
      { snapshot := ⟨Word.saturatingAdd 64 state.snapshot.sequence 1, .unavailable,
          state.snapshot.residentBytes⟩ } := rfl

end zones

/-! ## Admission and health -/

def pauseAdmission (admission : WorkerAdmissionState) : WorkerAdmissionState :=
  if admission = .accepting then .paused else admission

def resumeAdmission (admission : WorkerAdmissionState) : WorkerAdmissionState :=
  if admission = .paused then .accepting else admission

/-- The gate is the one of the worker's executor. -/
theorem admission_pauseAdmission {E : Type*} (s : Worker.State E) :
    s.pauseAdmission.1.admission = pauseAdmission s.admission := by
  unfold Worker.State.pauseAdmission pauseAdmission
  split_ifs <;> rfl

theorem admission_resumeAdmission {E : Type*} (s : Worker.State E) :
    s.resumeAdmission.1.admission = resumeAdmission s.admission := by
  unfold Worker.State.resumeAdmission resumeAdmission
  split_ifs <;> rfl

/-- The gate half of `apply_external_state`. -/
def applyAdmission (state : MemoryPressureState) (admission : WorkerAdmissionState) :
    WorkerAdmissionState :=
  if state = .normal then resumeAdmission admission else pauseAdmission admission

def memoryComponent : Text := utf8 "runtime.memory"

/-- What `set_health` reports for a state. -/
def healthReport : MemoryPressureState → HealthStatus × ReadinessStatus × Text
  | .initializing => (.degraded, .notReady, utf8 "memory monitor is initializing")
  | .normal => (.healthy, .ready, utf8 "memory usage is within configured bounds")
  | .pressured => (.degraded, .notReady, utf8 "memory soft limit is active")
  | .critical => (.unhealthy, .notReady, utf8 "memory hard limit is active")
  | .unavailable => (.degraded, .notReady, utf8 "memory sampling is unavailable")

def reportHealth (state : MemoryPressureState) (registry : HealthRegistry) : HealthRegistry :=
  let (status, _, message) := healthReport state
  registry.setHealth ⟨memoryComponent, status, some message⟩

def reportReadiness (state : MemoryPressureState) (registry : HealthRegistry) : HealthRegistry :=
  let (_, status, message) := healthReport state
  registry.setReadiness ⟨memoryComponent, status, some message⟩

/-! ## Calls -/

/-- The monitor, the worker's gate and the registry it reports to. -/
structure Monitor where
  state : MonitorState
  admission : WorkerAdmissionState
  health : HealthRegistry

/-- `MemoryPressureMonitor::with_observer`. -/
def Monitor.new (admission : WorkerAdmissionState) (health : HealthRegistry) : Monitor where
  state := {}
  admission := pauseAdmission admission
  health := reportReadiness .initializing (reportHealth .initializing health)

/-- `sample_once`, when no other call is in progress. -/
def Monitor.sampleOnce (config : MemoryPressureConfig) (monitor : Monitor)
    (sample : SampleResult) : Monitor × MemoryPressureObservation :=
  let (state, observation) := monitor.state.observe config sample
  let next := observation.snapshot.state
  ({ state
     admission := applyAdmission next monitor.admission
     health := reportReadiness next (reportHealth next monitor.health) }, observation)

theorem applyAdmission_eq {admission : WorkerAdmissionState} (hopen : admission ≠ .draining)
    (state : MemoryPressureState) :
    applyAdmission state admission = if state = .normal then .accepting else .paused := by
  unfold applyAdmission resumeAdmission pauseAdmission
  cases admission with
  | accepting => simp
  | paused => simp
  | draining => exact absurd rfl hopen

theorem snapshot_observe (config : MemoryPressureConfig) (state : MonitorState)
    (sample : SampleResult) :
    (state.observe config sample).2.snapshot = (state.observe config sample).1.snapshot := by
  cases sample <;> rfl

/-- A gate that does not drain is open after a call exactly in the normal state. -/
theorem admission_sampleOnce (config : MemoryPressureConfig) {monitor : Monitor}
    (hopen : monitor.admission ≠ .draining) (sample : SampleResult) :
    (monitor.sampleOnce config sample).1.admission =
      if (monitor.state.observe config sample).1.snapshot.state = .normal then .accepting
      else .paused := by
  rw [← snapshot_observe]
  exact applyAdmission_eq hopen _

/-- How far a call of `sample_once` has come: the sample was taken, the state was updated,
the gate was turned, and health was reported. -/
inductive SampleStage
  | sampled (sample : SampleResult)
  | classified (observation : MemoryPressureObservation)
  | turned (observation : MemoryPressureObservation)
  | reported (observation : MemoryPressureObservation)
  | returned (observation : MemoryPressureObservation)
  deriving DecidableEq

/-- The next access of a call. -/
def SampleStage.advance (config : MemoryPressureConfig) (monitor : Monitor) :
    SampleStage → Option (Monitor × SampleStage)
  | .sampled sample =>
    let (state, observation) := monitor.state.observe config sample
    some ({ monitor with state }, .classified observation)
  | .classified observation =>
    let admission := applyAdmission observation.snapshot.state monitor.admission
    some ({ monitor with admission }, .turned observation)
  | .turned observation =>
    let health := reportHealth observation.snapshot.state monitor.health
    some ({ monitor with health }, .reported observation)
  | .reported observation =>
    let health := reportReadiness observation.snapshot.state monitor.health
    some ({ monitor with health }, .returned observation)
  | .returned _ => none

theorem advance_sampleOnce (config : MemoryPressureConfig) (monitor : Monitor)
    (sample : SampleResult) :
    (SampleStage.advance config monitor (.sampled sample)).bind (fun call =>
      (call.2.advance config call.1).bind fun call =>
        (call.2.advance config call.1).bind fun call => call.2.advance config call.1) =
      some ((monitor.sampleOnce config sample).1,
        .returned (monitor.sampleOnce config sample).2) := rfl

end PlenoraRuntime.Resources
