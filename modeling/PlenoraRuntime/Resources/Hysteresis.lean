import PlenoraRuntime.Foundation.Streak
import PlenoraRuntime.Resources.Monitor

/-!
# Hysteresis

What the monitor's state means in terms of all samples so far. A sample trips the monitor
when it failed, reached the hard limit or ended a long enough run between the limits.
Until the first trip, one sample below the soft limit makes the state normal; after a trip
it takes a long enough run at or below the resume limit.

The two counters of the monitor are streaks of the history (`Tracks`): the pressure streak
of all of it, the recovery streak of what came since the last trip, as long as that run
has not been long enough.
-/

namespace PlenoraRuntime.Resources

open Streak List
open PlenoraRuntime.Core (HealthRegistry)
open Worker (WorkerAdmissionState)

/-! ## The rule -/

section rule

variable (config : MemoryPressureConfig)

def isPressure : SampleResult → Bool
  | some bytes => decide (config.softLimitBytes ≤ bytes ∧ bytes < config.hardLimitBytes)
  | none => false

def isRecovery : SampleResult → Bool
  | some bytes => decide (bytes ≤ config.resumeBelowBytes)
  | none => false

/-- The sample after the given ones is a trip. -/
def Trips (before : List SampleResult) (sample : SampleResult) : Prop :=
  sample = none ∨ (∃ bytes, sample = some bytes ∧ config.hardLimitBytes ≤ bytes) ∨
    EndsRun config.pressureConfirmationSamples.val (isPressure config) (before ++ [sample])

/-- None of the samples after the given ones is a trip. -/
def Calm (before after : List SampleResult) : Prop :=
  ∀ earlier sample later, after = earlier ++ sample :: later →
    ¬ Trips config (before ++ earlier) sample

/-- When the history leaves the state normal. -/
def Recovered (history : List SampleResult) : Prop :=
  (Calm config [] history ∧ ∃ bytes, some bytes ∈ history ∧ bytes < config.softLimitBytes) ∨
    ∃ before trip after, history = before ++ trip :: after ∧ Trips config before trip ∧
      Calm config (before ++ [trip]) after ∧
      Ran config.recoveryConfirmationSamples.val (isRecovery config) after

end rule

/-! ## The last trip -/

/-- The samples since the last trip, if there was one. -/
inductive Since (config : MemoryPressureConfig) :
    List SampleResult → Option (List SampleResult) → Prop
  | never {history} (hcalm : Calm config [] history) : Since config history none
  | trip {before trip after} (htrips : Trips config before trip)
      (hcalm : Calm config (before ++ [trip]) after) :
      Since config (before ++ trip :: after) (some after)

variable {config : MemoryPressureConfig} {sample : SampleResult} {history after : List SampleResult}

section lastTrip

variable {before : List SampleResult} {since : Option (List SampleResult)}

theorem calm_nil : Calm config before [] := by
  intro earlier sample later heq
  simp at heq

theorem calm_concat :
    Calm config before (after ++ [sample]) ↔
      Calm config before after ∧ ¬ Trips config (before ++ after) sample := by
  constructor
  · intro h
    refine ⟨fun earlier other later heq => ?_, h after sample [] rfl⟩
    exact h earlier other (later ++ [sample]) (by simp [heq])
  · rintro ⟨hcalm, hlast⟩ earlier other later heq
    rcases eq_nil_or_concat later with rfl | ⟨rest, last, rfl⟩
    · obtain ⟨rfl, hsame⟩ := append_inj' heq rfl
      obtain rfl : sample = other := by simpa using hsame
      exact hlast
    · rw [concat_eq_append, ← cons_append, ← append_assoc] at heq
      exact hcalm earlier other rest (append_inj' heq rfl).1

theorem Since.calm (h : Since config history since) (hcalm : ¬ Trips config history sample) :
    Since config (history ++ [sample]) (since.map (· ++ [sample])) := by
  cases h with
  | never hall => exact .never (calm_concat.mpr ⟨hall, by simpa using hcalm⟩)
  | @trip before trip after htrips hafter =>
    rw [append_assoc]
    refine .trip htrips (calm_concat.mpr ⟨hafter, ?_⟩)
    rwa [append_assoc]

/-- A trip cannot come after the last one. -/
theorem not_trips_of_calm {before' after' trip trip'}
    (heq : before ++ trip :: after = before' ++ trip' :: after')
    (hcalm : Calm config (before ++ [trip]) after) (htrips : Trips config before' trip') :
    before'.length ≤ before.length := by
  by_contra hlonger
  obtain ⟨earlier, rfl⟩ : ∃ earlier, before' = (before ++ [trip]) ++ earlier := by
    have hprefix : before ++ [trip] <+: before' ++ trip' :: after' := by
      rw [← heq]
      exact ⟨after, by simp⟩
    obtain ⟨earlier, hearlier⟩ := prefix_of_prefix_length_le hprefix
      (prefix_append before' _) (by simpa using hlonger)
    exact ⟨earlier, hearlier.symm⟩
  have hafter : after = earlier ++ trip' :: after' := by simpa using heq
  exact hcalm earlier trip' after' hafter htrips

/-- There is one last trip, or none. -/
theorem Since.unique {since'} (h : Since config history since) (h' : Since config history since') :
    since = since' := by
  cases h with
  | never hcalm =>
    cases h' with
    | never => rfl
    | trip htrips' hcalm' => exact absurd htrips' (hcalm _ _ _ rfl)
  | @trip before trip after htrips hcalm =>
    generalize heq : before ++ trip :: after = history at h'
    cases h' with
    | never hcalm' => exact absurd htrips (hcalm' _ _ _ heq.symm)
    | @trip before' trip' after' htrips' hcalm' =>
      have hle := not_trips_of_calm heq hcalm htrips'
      have hge := not_trips_of_calm heq.symm hcalm' htrips
      obtain ⟨-, hafter⟩ := append_inj heq (le_antisymm hge hle)
      rw [(List.cons.inj hafter).2]

theorem recovered_iff (h : Since config history since) :
    Recovered config history ↔
      match since with
      | none => ∃ bytes, some bytes ∈ history ∧ bytes < config.softLimitBytes
      | some after => Ran config.recoveryConfirmationSamples.val (isRecovery config) after := by
  constructor
  · rintro (⟨hcalm, hbelow⟩ | ⟨before, trip, after, rfl, htrips, hcalm, hran⟩)
    · obtain rfl := h.unique (.never hcalm)
      exact hbelow
    · obtain rfl := h.unique (.trip htrips hcalm)
      exact hran
  · intro hwhen
    cases h with
    | never hcalm => exact .inl ⟨hcalm, hwhen⟩
    | trip htrips hcalm => exact .inr ⟨_, _, _, rfl, htrips, hcalm, hwhen⟩

end lastTrip

/-! ## What the counters count -/

/-- The states of the monitor, with what each says about the history. -/
inductive Phase (config : MemoryPressureConfig) (history : List SampleResult)
    (state : MonitorState) : Prop
  | initializing (hsince : Since config history none)
      (hnone : ∀ bytes, some bytes ∈ history → config.softLimitBytes ≤ bytes)
      (hstate : state.snapshot.state = .initializing) (hstreak : state.recoveryStreak = 0)
  | steady (hsince : Since config history none)
      (hbelow : ∃ bytes, some bytes ∈ history ∧ bytes < config.softLimitBytes)
      (hstate : state.snapshot.state = .normal) (hstreak : state.recoveryStreak = 0)
  | recovering (after : List SampleResult) (hsince : Since config history (some after))
      (hran : ¬ Ran config.recoveryConfirmationSamples.val (isRecovery config) after)
      (hstate : state.snapshot.state.isTripped = true)
      (hstreak : state.recoveryStreak = streak (isRecovery config) after)
  | recovered (after : List SampleResult) (hsince : Since config history (some after))
      (hran : Ran config.recoveryConfirmationSamples.val (isRecovery config) after)
      (hstate : state.snapshot.state = .normal) (hstreak : state.recoveryStreak = 0)

/-- The counters are streaks of the history. -/
structure Tracks (config : MemoryPressureConfig) (history : List SampleResult)
    (state : MonitorState) : Prop where
  pressure : state.pressureStreak = min (streak (isPressure config) history) (Word.maxValue 32)
  phase : Phase config history state

section tracks

variable {state state' : MonitorState} {bytes : ℕ}

theorem Phase.normal_iff (h : Phase config history state) :
    state.snapshot.state = .normal ↔ Recovered config history := by
  cases h with
  | initializing hsince hnone hstate hstreak =>
    rw [recovered_iff hsince, hstate]
    simpa using hnone
  | steady hsince hbelow hstate hstreak =>
    rw [recovered_iff hsince]
    exact iff_of_true hstate hbelow
  | recovering after hsince hran hstate hstreak =>
    rw [recovered_iff hsince]
    exact iff_of_false (MemoryPressureState.ne_normal_of_isTripped hstate) hran
  | recovered after hsince hran hstate hstreak =>
    rw [recovered_iff hsince]
    exact iff_of_true hstate hran

/-- After a trip, nothing has recovered. -/
theorem Phase.tripped (htrips : Trips config history sample)
    (hstate : state.snapshot.state.isTripped = true) (hstreak : state.recoveryStreak = 0) :
    Phase config (history ++ [sample]) state :=
  .recovering [] (.trip htrips calm_nil) (ran_nil config.of_valid.2.2.2) hstate hstreak

theorem ran_mono {n : ℕ} (h : Ran n (isRecovery config) after) :
    Ran n (isRecovery config) (after ++ [sample]) :=
  ran_concat.mpr (.inl h)

/-- A sample that neither trips nor recovers. -/
theorem Phase.interrupted (h : Phase config history state)
    (htrips : ¬ Trips config history (some bytes))
    (hrecov : isRecovery config (some bytes) = false)
    (hstate : state'.snapshot.state = state.snapshot.state)
    (hinit : state.snapshot.state = .initializing → config.softLimitBytes ≤ bytes)
    (hstreak : state'.recoveryStreak = 0) : Phase config (history ++ [some bytes]) state' := by
  have hzero : ∀ after, streak (isRecovery config) (after ++ [some bytes]) = 0 := fun after => by
    rw [streak_concat, if_neg (by simp [hrecov])]
  cases h with
  | initializing hsince hnone hstate₀ hstreak₀ =>
    refine .initializing (hsince.calm htrips) (fun other hmem => ?_) (hstate.trans hstate₀)
      hstreak
    rcases mem_append.mp hmem with hmem | hmem
    · exact hnone other hmem
    · obtain rfl : other = bytes := by simpa using hmem
      exact hinit hstate₀
  | steady hsince hbelow hstate₀ hstreak₀ =>
    obtain ⟨other, hmem, hlt⟩ := hbelow
    exact .steady (hsince.calm htrips) ⟨other, mem_append_left _ hmem, hlt⟩
      (hstate.trans hstate₀) hstreak
  | recovering after hsince hran hstate₀ hstreak₀ =>
    refine .recovering _ (hsince.calm htrips) (fun hnow => ?_) (hstate ▸ hstate₀)
      (hstreak.trans (hzero after).symm)
    rcases ran_concat.mp hnow with hnow | hnow
    · exact hran hnow
    · have hpos := config.of_valid.2.2.2
      have hle := le_streak_iff.mpr hnow
      rw [hzero] at hle
      omega
  | recovered after hsince hran hstate₀ hstreak₀ =>
    exact .recovered _ (hsince.calm htrips) (ran_mono hran) (hstate.trans hstate₀) hstreak

/-- A sample below the soft limit, seen by a monitor that nothing has tripped. -/
theorem Phase.settled {state' : MonitorState} (h : Phase config history state)
    (htrips : ¬ Trips config history (some bytes)) (hbytes : bytes < config.softLimitBytes)
    (hpre : state.snapshot.state.isTripped = false) (hstate : state'.snapshot.state = .normal)
    (hstreak : state'.recoveryStreak = 0) : Phase config (history ++ [some bytes]) state' := by
  have hseen : ∃ other, some other ∈ history ++ [some bytes] ∧ other < config.softLimitBytes :=
    ⟨bytes, by simp, hbytes⟩
  cases h with
  | initializing hsince hnone hstate₀ hstreak₀ | steady hsince hbelow hstate₀ hstreak₀ =>
    exact .steady (hsince.calm htrips) hseen hstate hstreak
  | recovering after hsince hran hstate₀ hstreak₀ =>
    rw [hstate₀] at hpre
    cases hpre
  | recovered after hsince hran hstate₀ hstreak₀ =>
    exact .recovered _ (hsince.calm htrips) (ran_mono hran) hstate hstreak

/-- A sample at or below the resume limit, seen by a monitor that was tripped. The streak
cannot have saturated: it is shorter than the run that recovery takes. -/
theorem Phase.counted (h : Phase config history state)
    (htrips : ¬ Trips config history (some bytes))
    (hrecov : isRecovery config (some bytes) = true)
    (hpre : state.snapshot.state.isTripped = true)
    (hwaits : saturatingAddU32 state.recoveryStreak 1 < config.recoveryConfirmationSamples.val →
      state'.snapshot.state = state.snapshot.state ∧
      state'.recoveryStreak = saturatingAddU32 state.recoveryStreak 1)
    (hresumes : config.recoveryConfirmationSamples.val ≤ saturatingAddU32 state.recoveryStreak 1 →
      state'.snapshot.state = .normal ∧ state'.recoveryStreak = 0) :
    Phase config (history ++ [some bytes]) state' := by
  cases h with
  | initializing hsince hnone hstate hstreak | steady hsince hbelow hstate hstreak
  | recovered after hsince hran hstate hstreak =>
    simp [hstate, MemoryPressureState.isTripped] at hpre
  | recovering after hsince hran hstate hstreak =>
    have hnext : streak (isRecovery config) (after ++ [some bytes]) =
        streak (isRecovery config) after + 1 := by
      rw [streak_concat, if_pos hrecov]
    -- The streak is short of what confirms a recovery, so its counter is exact.
    have hshort : streak (isRecovery config) after < config.recoveryConfirmationSamples.val := by
      by_contra hlong
      exact hran (le_streak_iff.mp (not_lt.mp hlong)).ran
    have hexact : saturatingAddU32 state.recoveryStreak 1 =
        streak (isRecovery config) after + 1 := by
      rw [hstreak]
      exact min_eq_left (by unfold Word.maxValue; omega)
    rw [hexact] at hwaits hresumes
    rcases Nat.lt_or_ge (streak (isRecovery config) after + 1)
      config.recoveryConfirmationSamples.val with hless | hmore
    · obtain ⟨hkept, hcount⟩ := hwaits hless
      refine .recovering _ (hsince.calm htrips) (fun hnow => ?_) (hkept ▸ hstate)
        (hcount.trans hnext.symm)
      rcases ran_concat.mp hnow with hnow | hnow
      · exact hran hnow
      · have hle := le_streak_iff.mpr hnow
        omega
    · obtain ⟨hnormal, hzero⟩ := hresumes hmore
      exact .recovered _ (hsince.calm htrips)
        (ran_concat.mpr (.inr (le_streak_iff.mp (hnext ▸ hmore)))) hnormal hzero

/-- In the band between the limits a sample trips when it completes a run. -/
theorem trips_iff_of_pressure (hpress : isPressure config (some bytes) = true) :
    Trips config history (some bytes) ↔
      config.pressureConfirmationSamples.val ≤ streak (isPressure config) history + 1 := by
  have hbelow : ¬ config.hardLimitBytes ≤ bytes := by
    simp only [isPressure, decide_eq_true_eq] at hpress
    omega
  simp [Trips, hbelow, ← le_streak_iff, streak_concat, hpress]

theorem not_trips_of_below (hbytes : bytes < config.softLimitBytes) :
    ¬ Trips config history (some bytes) := by
  have hlimits := config.of_valid
  have hpress : isPressure config (some bytes) = false := by
    simp only [isPressure, decide_eq_false_iff_not]
    omega
  have hbelow : ¬ config.hardLimitBytes ≤ bytes := by omega
  have hpos : config.pressureConfirmationSamples.val ≠ 0 := by omega
  simp only [Trips, ← le_streak_iff, streak_concat, hpress]
  simp [hbelow, hpos]

/-- The pressure count may saturate; no confirmation asks for more. -/
theorem Tracks.pressure_next (h : Tracks config history state)
    (hpress : isPressure config (some bytes) = true) :
    saturatingAddU32 state.pressureStreak 1 =
        min (streak (isPressure config) (history ++ [some bytes])) (Word.maxValue 32) ∧
      (config.pressureConfirmationSamples.val ≤ saturatingAddU32 state.pressureStreak 1 ↔
        Trips config history (some bytes)) := by
  rw [trips_iff_of_pressure hpress, streak_concat, if_pos hpress, h.pressure]
  unfold saturatingAddU32 Word.saturatingAdd Word.maxValue
  constructor <;> omega

/-! ### One sample -/

theorem Tracks.observe_failed :
    Tracks config (history ++ [none]) (state.observe config none).1 := by
  refine ⟨?_, .tripped (.inl rfl) rfl rfl⟩
  rw [streak_concat]
  rfl

theorem Tracks.observe_hard (hhard : config.hardLimitBytes ≤ bytes) :
    Tracks config (history ++ [some bytes]) (state.observe config (some bytes)).1 := by
  have hnot : isPressure config (some bytes) = false := by
    simpa [isPressure] using fun _ => hhard
  rw [observe_some, nextState_hard hhard]
  refine ⟨?_, .tripped (.inr (.inl ⟨bytes, rfl, hhard⟩)) rfl rfl⟩
  rw [streak_concat, if_neg (by simp [hnot])]
  rfl

theorem Tracks.observe_band (h : Tracks config history state)
    (hsoft : config.softLimitBytes ≤ bytes) (hhard : bytes < config.hardLimitBytes) :
    Tracks config (history ++ [some bytes]) (state.observe config (some bytes)).1 := by
  have hlimits := config.of_valid
  have hpress : isPressure config (some bytes) = true := by
    simpa [isPressure] using ⟨hsoft, hhard⟩
  obtain ⟨hcount, htrips⟩ := h.pressure_next hpress
  rw [observe_some, nextState_band hsoft hhard]
  refine ⟨hcount, ?_⟩
  by_cases hconf :
    config.pressureConfirmationSamples.val ≤ saturatingAddU32 state.pressureStreak 1
  · refine .tripped (htrips.mp hconf) ?_ rfl
    simp [hconf, MemoryPressureState.isTripped]
  · have hrecov : isRecovery config (some bytes) = false := by
      simp only [isRecovery, decide_eq_false_iff_not]
      omega
    refine h.phase.interrupted (fun h' => hconf (htrips.mpr h')) hrecov ?_
      (fun _ => hsoft) rfl
    simp [hconf]

theorem Tracks.observe_below (h : Tracks config history state)
    (hsoft : bytes < config.softLimitBytes) :
    Tracks config (history ++ [some bytes]) (state.observe config (some bytes)).1 := by
  have htrips : ¬ Trips config history (some bytes) := not_trips_of_below hsoft
  have hzero : streak (isPressure config) (history ++ [some bytes]) = 0 := by
    have hnot : isPressure config (some bytes) = false := by
      simp only [isPressure, decide_eq_false_iff_not]
      omega
    rw [streak_concat, if_neg (by simp [hnot])]
  rw [observe_some, nextState_below hsoft]
  split_ifs with hresume hwaits htripped
  · -- the recovery count goes on
    exact ⟨by simp [hzero], h.phase.counted htrips (by simpa [isRecovery] using hresume.1)
      hresume.2 (fun _ => ⟨rfl, rfl⟩) (fun hmore => absurd hwaits (not_lt.mpr hmore))⟩
  · -- the recovery count is complete
    exact ⟨by simp [hzero], h.phase.counted htrips (by simpa [isRecovery] using hresume.1)
      hresume.2 (fun hless => absurd hless hwaits) (fun _ => ⟨rfl, rfl⟩)⟩
  · -- above the resume limit the recovery count starts again
    have hrecov : isRecovery config (some bytes) = false := by
      simpa [isRecovery, htripped] using hresume
    refine ⟨by simp [hzero], h.phase.interrupted htrips hrecov rfl (fun hinit => ?_) rfl⟩
    simp [hinit, MemoryPressureState.isTripped] at htripped
  · exact ⟨by simp [hzero], h.phase.settled htrips hsoft (by simpa using htripped) rfl rfl⟩

theorem Tracks.observe (h : Tracks config history state) (sample : SampleResult) :
    Tracks config (history ++ [sample]) (state.observe config sample).1 := by
  cases sample with
  | none => exact Tracks.observe_failed
  | some bytes =>
    rcases Nat.lt_or_ge bytes config.softLimitBytes with hsoft | hsoft
    · exact h.observe_below hsoft
    · rcases Nat.lt_or_ge bytes config.hardLimitBytes with hhard | hhard
      · exact h.observe_band hsoft hhard
      · exact Tracks.observe_hard hhard

theorem Tracks.start : Tracks config [] {} where
  pressure := rfl
  phase := .initializing (.never calm_nil) (by simp) rfl rfl

end tracks

/-! ## Whole runs -/

/-- Samples taken one at a time. -/
def Monitor.samples (config : MemoryPressureConfig) (monitor : Monitor)
    (history : List SampleResult) : Monitor :=
  history.foldl (fun monitor sample => (monitor.sampleOnce config sample).1) monitor

/-- With no other controller, the gate is open in the normal state and paused in any other. -/
def Follows (monitor : Monitor) : Prop :=
  monitor.admission = if monitor.state.snapshot.state = .normal then .accepting else .paused

section runs

variable {monitor : Monitor} {admission : WorkerAdmissionState}

theorem samples_concat (history : List SampleResult) (sample : SampleResult) :
    Monitor.samples config monitor (history ++ [sample]) =
      ((Monitor.samples config monitor history).sampleOnce config sample).1 := by
  simp [Monitor.samples]

theorem Follows.sampleOnce (h : Follows monitor) (sample : SampleResult) :
    Follows (monitor.sampleOnce config sample).1 := by
  have hopen : monitor.admission ≠ .draining := by
    rw [h]
    split_ifs <;> simp
  exact admission_sampleOnce config hopen sample

theorem Follows.new (health : HealthRegistry) (hopen : admission ≠ .draining) :
    Follows (Monitor.new admission health) := by
  cases admission with
  | accepting => rfl
  | paused => rfl
  | draining => exact absurd rfl hopen

/-- What holds of a monitor after every history. -/
theorem tracks_samples (config : MemoryPressureConfig) (health : HealthRegistry)
    (hopen : admission ≠ .draining) (history : List SampleResult) :
    Tracks config history (Monitor.samples config (.new admission health) history).state ∧
      Follows (Monitor.samples config (.new admission health) history) := by
  -- from the back: the last sample is one step of the monitor
  induction history using List.reverseRecOn with
  | nil => exact ⟨.start, .new health hopen⟩
  | append_singleton history sample ih =>
    rw [samples_concat]
    exact ⟨ih.1.observe sample, ih.2.sampleOnce sample⟩

end runs

/-- After every history of samples the state is normal exactly when the rule says so, a
failure leaves it unavailable and the hard limit critical, and the gate is open exactly in
the normal state. -/
theorem pressure_hysteresis (config : MemoryPressureConfig) (admission : WorkerAdmissionState)
    (hopen : admission ≠ .draining) (health : HealthRegistry) (history : List SampleResult) :
    let monitor := Monitor.samples config (.new admission health) history
    (monitor.state.snapshot.state = .normal ↔ Recovered config history) ∧
      (history.getLast? = some none → monitor.state.snapshot.state = .unavailable) ∧
      (∀ bytes, history.getLast? = some (some bytes) → config.hardLimitBytes ≤ bytes →
        monitor.state.snapshot.state = .critical) ∧
      (monitor.admission = .accepting ↔ monitor.state.snapshot.state = .normal) := by
  obtain ⟨htracks, hfollows⟩ := tracks_samples config health hopen history
  refine ⟨htracks.phase.normal_iff, ?_, ?_, ?_⟩
  · intro hlast
    obtain ⟨before, rfl⟩ := List.getLast?_eq_some_iff.mp hlast
    rw [samples_concat]
    rfl
  · intro bytes hlast hhard
    obtain ⟨before, rfl⟩ := List.getLast?_eq_some_iff.mp hlast
    rw [samples_concat]
    exact congrArg Prod.fst (nextState_hard hhard)
  · rw [hfollows]
    split_ifs with hnormal <;> simp [hnormal]

/-- Soft limit 80, hard limit 100, and two samples at or below 60 to recover. -/
def smallLimits : MemoryPressureConfig where
  sampleInterval := 1
  resumeBelowBytes := 60
  softLimitBytes := 80
  hardLimitBytes := 100
  valid := rfl

/-- A failure is forgotten after two low samples, and a sample in between starts the count
again. -/
theorem pressure_hysteresis_recovers :
    Recovered smallLimits [some 40, none, some 50, some 70, some 50, some 60] ∧
      ¬ Recovered smallLimits [some 40, none, some 50, some 70, some 50] := by
  have h := pressure_hysteresis smallLimits .accepting (by decide) .new
  exact ⟨(h [some 40, none, some 50, some 70, some 50, some 60]).1.mp (by decide),
    fun hrecovered =>
      absurd ((h [some 40, none, some 50, some 70, some 50]).1.mpr hrecovered) (by decide)⟩

end PlenoraRuntime.Resources
