import Mathlib.Algebra.Ring.Int.Defs
import PlenoraRuntime.Core.Jitter
import PlenoraRuntime.Scheduler.Model

/-!
# The plans of the scheduler crate

`OneShotPlan`, `FixedIntervalPlan` and `JitteredPlan`. Plans compute with the
checked arithmetic of `SystemTime`, so here its range matters: seconds are an `i64`,
with whole nanoseconds below a second. A `RepresentablePlan` is a plan whose instants
are values of that type.

`occurrence plan n` is the plan's first instant followed by `n` applications of
`next_after`. A jittered plan takes its delay off before it asks the inner plan for
the next instant and adds it again afterwards, so that both plans walk through the
same base instants.
-/

namespace PlenoraRuntime.Scheduler

open Option

/-! ## The range of `SystemTime` -/

def minInstant : SystemTime := -(2 ^ 63) * 10 ^ 9

def maxInstant : SystemTime := 2 ^ 63 * 10 ^ 9 - 1

/-- The instant is a value of `SystemTime`. -/
def Representable (instant : SystemTime) : Prop :=
  minInstant ≤ instant ∧ instant ≤ maxInstant

instance (instant : SystemTime) : Decidable (Representable instant) :=
  inferInstanceAs (Decidable (_ ∧ _))

def checkedAdd (instant : SystemTime) (duration : Duration) : Option SystemTime :=
  if Representable (instant + duration) then some (instant + duration) else none

def checkedSub (instant : SystemTime) (duration : Duration) : Option SystemTime :=
  if Representable (instant - duration) then some (instant - duration) else none

variable {instant : SystemTime} {duration : Duration}

theorem checkedAdd_eq_some {later : SystemTime} :
    checkedAdd instant duration = some later ↔
      Representable (instant + duration) ∧ instant + duration = later := by
  simp [checkedAdd]

theorem checkedAdd_eq_none :
    checkedAdd instant duration = none ↔ ¬ Representable (instant + duration) := by
  simp [checkedAdd]

theorem checkedSub_eq_some {earlier : SystemTime} :
    checkedSub instant duration = some earlier ↔
      Representable (instant - duration) ∧ instant - duration = earlier := by
  simp [checkedSub]

/-- Taking a delay off again. -/
theorem checkedSub_add (h : Representable instant) (duration : Duration) :
    checkedSub (instant + duration) duration = some instant := by
  rw [checkedSub_eq_some, Int.add_sub_cancel]
  exact ⟨h, rfl⟩

/-- A plan whose instants are values of `SystemTime`. -/
structure RepresentablePlan extends SchedulePlan where
  first_representable : Representable firstDueAt
  next_representable : ∀ previous next, nextAfter previous = some next → Representable next

/-! ## One-shot and fixed-interval plans -/

/-- `OneShotPlan`: fires exactly once. -/
def OneShotPlan.new (dueAt : SystemTime) (hdue : Representable dueAt) : RepresentablePlan where
  firstDueAt := dueAt
  nextAfter _ := none
  first_representable := hdue
  next_representable _ _ hnext := by cases hnext

inductive FixedIntervalPlanError
  | zeroInterval
  deriving DecidableEq, Repr

/-- `FixedIntervalPlan::new`, and the instants of the plan it makes. -/
def FixedIntervalPlan.new (firstDueAt : SystemTime) (hfirst : Representable firstDueAt)
    (interval : Duration) : Except FixedIntervalPlanError RepresentablePlan :=
  if interval = 0 then .error .zeroInterval
  else .ok
    { firstDueAt
      nextAfter := fun previous => checkedAdd previous interval
      first_representable := hfirst
      next_representable := fun _ _ hnext =>
        (checkedAdd_eq_some.mp hnext).2 ▸ (checkedAdd_eq_some.mp hnext).1 }

/-! ## Jittered plans -/

structure JitteredPlan where
  inner : RepresentablePlan
  delay : Duration

namespace JitteredPlan

def new (inner : RepresentablePlan) (maximumDelay : Duration) (seed : UInt64) : JitteredPlan :=
  let sampled := (mix seed).toNat % Word.saturatingAdd 128 maximumDelay 1
  let sampledDelay := durationFromNanos sampled
  { inner
    delay := if (checkedAdd inner.firstDueAt sampledDelay).isSome then sampledDelay else 0 }

/-- `first_due_at` and `next_after` of a jittered plan. -/
def plan (jittered : JitteredPlan) : RepresentablePlan where
  firstDueAt :=
    match checkedAdd jittered.inner.firstDueAt jittered.delay with
    | some instant => instant
    | none => jittered.inner.firstDueAt
  nextAfter previous :=
    (checkedSub previous jittered.delay).bind fun base =>
      (jittered.inner.nextAfter base).bind fun next => checkedAdd next jittered.delay
  first_representable := by
    split
    case h_1 instant hadd => exact (checkedAdd_eq_some.mp hadd).2 ▸ (checkedAdd_eq_some.mp hadd).1
    case h_2 => exact jittered.inner.first_representable
  next_representable previous next hnext := by
    obtain ⟨base, -, hnext⟩ := Option.bind_eq_some_iff.mp hnext
    obtain ⟨later, -, hadd⟩ := Option.bind_eq_some_iff.mp hnext
    exact (checkedAdd_eq_some.mp hadd).2 ▸ (checkedAdd_eq_some.mp hadd).1

end JitteredPlan

/-! ## The occurrences of a plan -/

/-- The first instant of the plan followed by `n` applications of `next_after`. -/
def SchedulePlan.occurrence (plan : SchedulePlan) : ℕ → Option SystemTime
  | 0 => some plan.firstDueAt
  | n + 1 => (plan.occurrence n).bind plan.nextAfter

/-- `next_after` returns later instants only. -/
def SchedulePlan.Increasing (plan : SchedulePlan) : Prop :=
  ∀ previous next, plan.nextAfter previous = some next → previous < next

theorem RepresentablePlan.occurrence_representable (plan : RepresentablePlan) {n : ℕ}
    (h : plan.occurrence n = some instant) : Representable instant := by
  cases n with
  | zero =>
    cases h
    exact plan.first_representable
  | succ n =>
    obtain ⟨previous, -, hnext⟩ := bind_eq_some_iff.mp h
    exact plan.next_representable previous instant hnext

/-- The trait's contract for the two basic plans. -/
theorem OneShotPlan.increasing (dueAt : SystemTime) (hdue : Representable dueAt) :
    (OneShotPlan.new dueAt hdue).Increasing :=
  fun _ _ hnext => by cases hnext

theorem FixedIntervalPlan.increasing {firstDueAt : SystemTime} {hfirst : Representable firstDueAt}
    {interval : Duration} {plan : RepresentablePlan}
    (h : FixedIntervalPlan.new firstDueAt hfirst interval = .ok plan) : plan.Increasing := by
  unfold FixedIntervalPlan.new at h
  split at h
  case isTrue => cases h
  case isFalse hpos =>
    cases h
    intro previous next hnext
    obtain ⟨-, rfl⟩ := checkedAdd_eq_some.mp hnext
    exact Int.lt_add_of_pos_right _ (Int.natCast_pos.mpr (Nat.pos_of_ne_zero hpos))

namespace JitteredPlan

variable (inner : RepresentablePlan) (maximumDelay : Duration) (seed : UInt64)
  (jittered : JitteredPlan)

theorem delay_new_le : (new inner maximumDelay seed).delay ≤ maximumDelay := by
  have hmodulus : 0 < Word.saturatingAdd 128 maximumDelay 1 ∧
      Word.saturatingAdd 128 maximumDelay 1 ≤ maximumDelay + 1 := by
    have hmax : 0 < Word.maxValue 128 := by decide
    unfold Word.saturatingAdd
    omega
  have hsampled := Nat.mod_lt (mix seed).toNat hmodulus.1
  have hsmall := Nat.le_trans
    (Nat.mod_le (mix seed).toNat (Word.saturatingAdd 128 maximumDelay 1))
    (toNat_le_durationMax (mix seed))
  simp only [new, durationFromNanos_eq hsmall]
  split
  · exact Nat.le_of_lt_succ (Nat.lt_of_lt_of_le hsampled hmodulus.2)
  · exact Nat.zero_le _

/-- The delay of a new plan never makes its first instant unrepresentable. -/
theorem first_shifted : Representable (inner.firstDueAt + (new inner maximumDelay seed).delay) := by
  simp only [new]
  split
  case isTrue hsome =>
    obtain ⟨later, hadd⟩ := isSome_iff_exists.mp hsome
    exact (checkedAdd_eq_some.mp hadd).1
  case isFalse =>
    simpa using inner.first_representable

/-- The first `n` occurrences of the inner plan can all be delayed. -/
def Shifts (n : ℕ) : Prop :=
  ∀ k ≤ n, ∀ instant, jittered.inner.occurrence k = some instant →
    Representable (instant + jittered.delay)

variable {jittered} {n : ℕ}

theorem Shifts.of_succ (h : jittered.Shifts (n + 1)) : jittered.Shifts n :=
  fun k hk => h k (Nat.le_trans hk (Nat.le_succ n))

theorem Shifts.succ (h : jittered.Shifts n)
    (hlast : ∀ instant, jittered.inner.occurrence (n + 1) = some instant →
      Representable (instant + jittered.delay)) : jittered.Shifts (n + 1) := by
  intro k hk instant hinstant
  rcases Nat.le_succ_iff.mp hk with hk | rfl
  · exact h k hk instant hinstant
  · exact hlast instant hinstant

/-- After a delayed occurrence of the inner plan comes its next occurrence, delayed. -/
theorem nextAfter_add {instant : SystemTime} (h : Representable instant) :
    jittered.plan.nextAfter (instant + jittered.delay) =
      (jittered.inner.nextAfter instant).bind fun next => checkedAdd next jittered.delay := by
  simp only [plan, checkedSub_add h, bind_some]

theorem occurrence_plan (hfirst : jittered.Shifts 0) (n : ℕ) :
    (jittered.Shifts n → jittered.plan.occurrence n =
        (jittered.inner.occurrence n).map (· + (jittered.delay : ℤ))) ∧
      (¬ jittered.Shifts n → jittered.plan.occurrence n = none) := by
  induction n with
  | zero =>
    have hadd : checkedAdd jittered.inner.firstDueAt jittered.delay =
        some (jittered.inner.firstDueAt + jittered.delay) :=
      checkedAdd_eq_some.mpr ⟨hfirst 0 (Nat.le_refl 0) _ rfl, rfl⟩
    refine ⟨fun _ => ?_, fun hshifts => absurd hfirst hshifts⟩
    simp only [SchedulePlan.occurrence, plan, hadd, map_some]
  | succ n ih =>
    by_cases hshifts : jittered.Shifts n
    · have hprev := ih.1 hshifts
      cases hinner : jittered.inner.occurrence n with
      | none =>
        have hlast : jittered.inner.occurrence (n + 1) = none := by
          simp only [SchedulePlan.occurrence, hinner, bind_none]
        have hmore : jittered.Shifts (n + 1) := hshifts.succ (by simp [hlast])
        refine ⟨fun _ => ?_, fun hnot => absurd hmore hnot⟩
        simp only [SchedulePlan.occurrence, hprev, hinner, map_none,
          bind_none]
      | some instant =>
        -- The delay is taken off before the inner plan is asked, so it does not add up.
        have hnext : jittered.plan.occurrence (n + 1) =
            (jittered.inner.occurrence (n + 1)).bind fun next =>
              checkedAdd next jittered.delay := by
          have hbase := jittered.inner.occurrence_representable hinner
          simp only [SchedulePlan.occurrence, hprev, hinner, map_some,
            bind_some, nextAfter_add hbase]
        refine ⟨fun hmore => ?_, fun hnot => ?_⟩
        · rw [hnext]
          cases hlast : jittered.inner.occurrence (n + 1) with
          | none => rfl
          | some next => exact if_pos (hmore (n + 1) (Nat.le_refl _) next hlast)
        · rw [hnext]
          cases hlast : jittered.inner.occurrence (n + 1) with
          | none => rfl
          | some next =>
            refine checkedAdd_eq_none.mpr fun hrepr => hnot (hshifts.succ ?_)
            intro instant' hinstant
            cases hlast.symm.trans hinstant
            exact hrepr
    · -- After an instant that cannot be delayed there is no other.
      refine ⟨fun hmore => absurd hmore.of_succ hshifts, fun _ => ?_⟩
      simp only [SchedulePlan.occurrence, ih.2 hshifts, bind_none]

/-- Every occurrence of the jittered plan is a delayed occurrence of the inner plan. -/
theorem exists_occurrence (hfirst : jittered.Shifts 0) {instant : SystemTime}
    (h : jittered.plan.occurrence n = some instant) :
    ∃ base, jittered.inner.occurrence n = some base ∧ base + (jittered.delay : ℤ) = instant := by
  by_cases hshifts : jittered.Shifts n
  · rw [(occurrence_plan hfirst n).1 hshifts] at h
    exact map_eq_some_iff.mp h
  · rw [(occurrence_plan hfirst n).2 hshifts] at h
    cases h

theorem occurrence_plan_eq_none (hfirst : jittered.Shifts 0) (n : ℕ) :
    jittered.plan.occurrence n = none ↔
      jittered.inner.occurrence n = none ∨
        ∃ k ≤ n, ∃ instant, jittered.inner.occurrence k = some instant ∧
          ¬ Representable (instant + jittered.delay) := by
  by_cases hshifts : jittered.Shifts n
  · rw [(occurrence_plan hfirst n).1 hshifts, map_eq_none_iff]
    refine ⟨.inl, ?_⟩
    rintro (hended | ⟨k, hk, instant, hinstant, hnot⟩)
    · exact hended
    · exact absurd (hshifts k hk instant hinstant) hnot
  · refine iff_of_true ((occurrence_plan hfirst n).2 hshifts) (.inr ?_)
    simp only [Shifts, not_forall] at hshifts
    obtain ⟨k, hk, instant, hinstant, hnot⟩ := hshifts
    exact ⟨k, hk, instant, hinstant, hnot⟩

theorem increasing_plan (h : jittered.inner.Increasing) : jittered.plan.Increasing := by
  intro previous next hnext
  obtain ⟨base, hbase, hnext⟩ := bind_eq_some_iff.mp hnext
  obtain ⟨later, hlater, hadd⟩ := bind_eq_some_iff.mp hnext
  have hless : base < later := h base later hlater
  obtain ⟨-, rfl⟩ := checkedSub_eq_some.mp hbase
  obtain ⟨-, rfl⟩ := checkedAdd_eq_some.mp hadd
  exact Int.lt_add_of_sub_right_lt hless

end JitteredPlan

/-- For every inner plan, maximum delay and seed, the delay of the jittered plan is at
most the maximum. Its `n`th occurrence is the inner plan's `n`th occurrence plus that
delay as long as the delayed instants are representable, it has ended exactly if the
inner plan has or some delayed instant was not representable, and it is strictly
increasing if the inner plan is: as a plan, and occurrence by occurrence. -/
theorem jitter_without_drift (inner : RepresentablePlan) (maximumDelay : Duration)
    (seed : UInt64) :
    let jittered := JitteredPlan.new inner maximumDelay seed
    jittered.delay ≤ maximumDelay ∧
      (∀ n instant, inner.occurrence n = some instant →
        (∀ k ≤ n, ∀ earlier, inner.occurrence k = some earlier →
          Representable (earlier + jittered.delay)) →
        jittered.plan.occurrence n = some (instant + jittered.delay)) ∧
      (∀ n, jittered.plan.occurrence n = none ↔
        inner.occurrence n = none ∨
          ∃ k ≤ n, ∃ instant, inner.occurrence k = some instant ∧
            ¬ Representable (instant + jittered.delay)) ∧
      (inner.Increasing → jittered.plan.Increasing) ∧
      ((∀ n previous next, inner.occurrence n = some previous →
          inner.occurrence (n + 1) = some next → previous < next) →
        ∀ n previous next, jittered.plan.occurrence n = some previous →
          jittered.plan.occurrence (n + 1) = some next → previous < next) := by
  intro jittered
  have hfirst : jittered.Shifts 0 := by
    intro k hk instant hinstant
    obtain rfl := Nat.le_zero.mp hk
    cases hinstant
    exact JitteredPlan.first_shifted inner maximumDelay seed
  refine ⟨JitteredPlan.delay_new_le inner maximumDelay seed, ?_,
    JitteredPlan.occurrence_plan_eq_none hfirst,
    fun hincreasing : jittered.inner.Increasing => JitteredPlan.increasing_plan hincreasing, ?_⟩
  · intro n instant hinstant hshifts
    rw [(JitteredPlan.occurrence_plan hfirst n).1 hshifts,
      show jittered.inner.occurrence n = some instant from hinstant]
    rfl
  · intro hincreasing n previous next hprevious hnext
    obtain ⟨base, hbase, rfl⟩ := JitteredPlan.exists_occurrence hfirst hprevious
    obtain ⟨later, hlater, rfl⟩ := JitteredPlan.exists_occurrence hfirst hnext
    exact Int.add_lt_add_right (hincreasing n base later hbase hlater) _

/-- A plan that fires every ten seconds, delayed by at most five. -/
theorem jitter_without_drift_fixed :
    ∃ inner, FixedIntervalPlan.new 0 (by decide) (10 * 10 ^ 9) = .ok inner ∧
      inner.occurrence 1 = some (10 * 10 ^ 9) ∧
      (JitteredPlan.new inner (5 * 10 ^ 9) 42).delay ≤ 5 * 10 ^ 9 ∧
      (JitteredPlan.new inner (5 * 10 ^ 9) 42).plan.occurrence 1 =
        some ((10 * 10 ^ 9 : SystemTime) + (JitteredPlan.new inner (5 * 10 ^ 9) 42).delay) := by
  refine ⟨_, rfl, rfl, (jitter_without_drift _ _ _).1,
    (jitter_without_drift _ _ _).2.1 1 _ rfl fun k hk earlier hearlier => ?_⟩
  obtain rfl | rfl : k = 0 ∨ k = 1 := by omega
  · cases hearlier
    decide +kernel
  · cases hearlier
    decide +kernel

end PlenoraRuntime.Scheduler
