import PlenoraRuntime.Core.Time

/-!
# Helpers of deterministic jitter

`plenora-runtime-messaging` and `plenora-runtime-scheduler` each define these two
functions for themselves, word for word the same.
-/

namespace PlenoraRuntime

def mix (value : UInt64) : UInt64 :=
  let value := value ^^^ (value >>> 30)
  let value := value * 0xbf58476d1ce4e5b9
  let value := value ^^^ (value >>> 27)
  let value := value * 0x94d049bb133111eb
  value ^^^ (value >>> 31)

def durationFromNanos (nanos : ℕ) : Duration :=
  if nanos / 10 ^ 9 ≤ Word.maxValue 64 then nanos else durationMax

/-- The round trip through seconds and nanoseconds is exact for every duration. -/
theorem durationFromNanos_eq {nanos : ℕ} (h : nanos ≤ durationMax) :
    durationFromNanos nanos = nanos := by
  refine if_pos ?_
  unfold durationMax at h
  omega

/-- A `u64` sample is shorter than the longest duration. -/
theorem toNat_le_durationMax (sample : UInt64) : sample.toNat ≤ durationMax := by
  have hlt := sample.toNat_lt
  unfold durationMax Word.maxValue
  omega

end PlenoraRuntime
