import Mathlib.Data.List.Basic
import Mathlib.Logic.Function.Basic

/-!
# How many keys have a value

`Tally.count f keys v` is the number of keys that `f` maps to `v`, and `Tally.having` the
keys themselves. Changing the value of one key moves it from one tally to another.
-/

namespace Tally

open List

variable {α β : Type*} [DecidableEq α] [DecidableEq β]

/-- The keys that `f` maps to `v`. -/
def having (f : α → β) (keys : List α) (v : β) : List α :=
  keys.filter fun key => f key = v

def count (f : α → β) (keys : List α) (v : β) : ℕ :=
  (having f keys v).length

variable {f : α → β} {keys : List α} {key : α} {v w : β}

/-- A key whose value changes is apart from the others. -/
private theorem having_perm (f : α → β) (hmem : key ∈ keys) (v : β) :
    (having f keys v).Perm
      ((if f key = v then [key] else []) ++ having f (keys.erase key) v) := by
  refine ((perm_cons_erase hmem).filter _).trans ?_
  by_cases hv : f key = v
  · simp [having, hv]
  · simp [having, hv]

omit [DecidableEq α] in
theorem having_congr {g : α → β} (h : ∀ key ∈ keys, f key = g key) (v : β) :
    having f keys v = having g keys v :=
  filter_congr fun key hkey => by rw [h key hkey]

private theorem having_erase_update (hnodup : keys.Nodup) (w v : β) :
    having (Function.update f key w) (keys.erase key) v = having f (keys.erase key) v := by
  refine having_congr (fun other hother => ?_) v
  exact Function.update_of_ne (List.Nodup.mem_erase_iff hnodup |>.1 hother).1 ..

/-- The key leaves the tally of its value. -/
theorem having_update_old (hnodup : keys.Nodup) (hmem : key ∈ keys) (hold : f key = v)
    (hne : w ≠ v) :
    (having f keys v).Perm (key :: having (Function.update f key w) keys v) := by
  have hpre := having_perm f hmem v
  have hafter := having_perm (Function.update f key w) hmem v
  rw [having_erase_update hnodup, Function.update_self, if_neg hne] at hafter
  rw [if_pos hold] at hpre
  exact hpre.trans (hafter.symm.cons key)

/-- Only the tally of the new value changes, when the key leaves another one. -/
theorem count_update (hnodup : keys.Nodup) (hmem : key ∈ keys) (hold : f key ≠ v) :
    count (Function.update f key w) keys v = count f keys v + if w = v then 1 else 0 := by
  have hpre := (having_perm f hmem v).length_eq
  have hafter := (having_perm (Function.update f key w) hmem v).length_eq
  rw [having_erase_update hnodup, Function.update_self] at hafter
  rw [count, count, hafter, hpre]
  split
  · simp
  · rfl

omit [DecidableEq α] in
theorem having_eq_self (h : ∀ key ∈ keys, f key = v) : having f keys v = keys :=
  filter_eq_self.2 fun key hkey => decide_eq_true (h key hkey)

omit [DecidableEq α] in
theorem count_eq_zero (h : ∀ key ∈ keys, f key ≠ v) : count f keys v = 0 := by
  refine length_eq_zero_iff.2 (filter_eq_nil_iff.2 fun key hkey => ?_)
  simpa using h key hkey

theorem count_range_succ {p : ℕ → Bool} {n : ℕ} (h : p n = false) :
    count p (List.range (n + 1)) true = count p (List.range n) true := by
  rw [count, count, having, having, range_succ]
  simp [h]

end Tally
