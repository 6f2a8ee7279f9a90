import Mathlib.Data.Int.Notation
import PlenoraRuntime.Foundation.Word

/-!
# Instants, durations and sizes

The standard-library types every crate of the runtime uses. Instants are
unbounded here: no operation below depends on the range of `SystemTime`, and the
plans that do check it use their own bounds.
-/

namespace PlenoraRuntime

/-- `SystemTime`, in nanoseconds relative to the Unix epoch. -/
abbrev SystemTime := ℤ

/-- `DateTime<Utc>`, in nanoseconds relative to the Unix epoch. -/
abbrev UtcDateTime := ℤ

/-- `Duration`, in nanoseconds. -/
abbrev Duration := ℕ

/-- `SystemTime::duration_since`: fails when `earlier` is the later instant. -/
def durationSince (instant earlier : ℤ) : Option ℕ :=
  if earlier ≤ instant then some (instant - earlier).toNat else none

def durationMax : Duration := Word.maxValue 64 * 10 ^ 9 + 999999999

/-- A duration, unless it is longer than `Duration::MAX`. -/
def checkedDuration (duration : Duration) : Option Duration :=
  if duration ≤ durationMax then some duration else none

def usizeBits : ℕ := 64

abbrev Usize := Fin (2 ^ usizeBits)

-- The literals of the unsigned types, each by one instance in all modules.
instance neZero_u32 : NeZero (2 ^ 32) := ⟨by decide⟩

instance neZero_u64 : NeZero (2 ^ 64) := ⟨by decide⟩

instance neZero_usize : NeZero (2 ^ usizeBits) := ⟨by decide⟩

theorem Usize.pos_of_ne_zero {n : Usize} (h : ¬ n.val = 0) : 0 < n.val :=
  Nat.pos_of_ne_zero h

def usizeMax : ℕ := Word.maxValue usizeBits

theorem two_le_usizeMax : 2 ≤ usizeMax := by decide

theorem Usize.le_usizeMax (n : Usize) : n.val ≤ usizeMax :=
  Nat.le_sub_one_of_lt n.isLt

def saturatingAdd (a b : ℕ) : ℕ :=
  Word.saturatingAdd usizeBits a b

theorem saturatingAdd_eq {a b : ℕ} (h : a + b ≤ usizeMax) : saturatingAdd a b = a + b :=
  Nat.min_eq_left h

def saturatingMul (a b : ℕ) : ℕ :=
  Word.saturatingMul usizeBits a b

def saturatingAddU32 (a b : ℕ) : ℕ :=
  Word.saturatingAdd 32 a b

end PlenoraRuntime
