import Mathlib.Algebra.Ring.Nat

/-!
# Fixed-width unsigned arithmetic

Unsigned machine words are natural numbers below `2 ^ width`; the operations say
what happens at the upper end. Saturating subtraction is `ℕ`'s own.
-/

namespace Word

/-- The largest value of an unsigned word of the given width. -/
def maxValue (width : ℕ) : ℕ :=
  2 ^ width - 1

def saturatingAdd (width a b : ℕ) : ℕ :=
  min (a + b) (maxValue width)

theorem saturatingAdd_min (width a b : ℕ) :
    saturatingAdd width (min a (maxValue width)) b = min (a + b) (maxValue width) := by
  unfold saturatingAdd
  omega

def saturatingMul (width a b : ℕ) : ℕ :=
  min (a * b) (maxValue width)

/-- Addition that wraps around at the largest value. -/
def wrappingAdd (width a b : ℕ) : ℕ :=
  (a + b) % 2 ^ width

end Word
