import Mathlib.Data.List.TakeWhile

/-!
# Streaks

How many of the last elements of a history have a property, one after the other. A
machine that counts observations and starts again at the first that does not fit keeps
such a streak; the lemmas below say in terms of the whole history what its count means:
`le_streak_iff` for the runs that end the history, `ran_concat` for the runs
anywhere in it.
-/

namespace Streak

open List

variable {α : Type*} {p : α → Bool} {history : List α} {a : α} {n : ℕ}

/-- The length of the longest run of elements with the property at the end of a history. -/
def streak (p : α → Bool) (history : List α) : ℕ :=
  (history.reverse.takeWhile p).length

@[simp] theorem streak_nil : streak p [] = 0 := rfl

theorem streak_concat : streak p (history ++ [a]) = if p a then streak p history + 1 else 0 := by
  unfold streak
  rw [reverse_append, reverse_singleton, singleton_append, takeWhile_cons]
  split_ifs <;> rfl

/-- The history ends with a run of at least `n` elements with the property. -/
def EndsRun (n : ℕ) (p : α → Bool) (history : List α) : Prop :=
  ∃ run, run <:+ history ∧ n ≤ run.length ∧ ∀ x ∈ run, p x = true

theorem le_streak_iff : n ≤ streak p history ↔ EndsRun n p history := by
  constructor
  · intro h
    refine ⟨(history.reverse.takeWhile p).reverse, ?_, by simpa [streak] using h, ?_⟩
    · simpa using reverse_suffix.mpr ( takeWhile_prefix (l := history.reverse) p)
    · intro x hx
      exact mem_takeWhile_imp (mem_reverse.mp hx)
  · rintro ⟨run, ⟨before, rfl⟩, hlen, hall⟩
    have hrun : ∀ x ∈ run.reverse, p x = true := fun x hx => hall x (mem_reverse.mp hx)
    rw [streak, reverse_append, takeWhile_append_of_pos hrun, length_append,
      length_reverse]
    omega

/-- Somewhere in the history there is a run of `n` elements with the property. -/
def Ran (n : ℕ) (p : α → Bool) (history : List α) : Prop :=
  ∃ run, run <:+: history ∧ run.length = n ∧ ∀ x ∈ run, p x = true

theorem EndsRun.ran (h : EndsRun n p history) : Ran n p history := by
  obtain ⟨run, hsuffix, hlen, hall⟩ := h
  exact ⟨run.drop (run.length - n), ((drop_suffix ..).trans hsuffix).isInfix,
    by rw [length_drop]; omega, fun x hx => hall x (mem_of_mem_drop hx)⟩

theorem ran_concat : Ran n p (history ++ [a]) ↔ Ran n p history ∨ EndsRun n p (history ++ [a]) := by
  constructor
  · rintro ⟨run, ⟨before, after, heq⟩, hlen, hall⟩
    rcases eq_nil_or_concat after with rfl | ⟨rest, last, rfl⟩
    · exact .inr ⟨run, ⟨before, by simpa using heq⟩, Nat.le_of_eq hlen.symm, hall⟩
    · rw [concat_eq_append, ← append_assoc] at heq
      exact .inl ⟨run, ⟨before, rest, (append_inj' heq rfl).1⟩, hlen, hall⟩
  · rintro (⟨run, hinfix, hlen, hall⟩ | hends)
    · exact ⟨run, hinfix.trans (prefix_append ..).isInfix, hlen, hall⟩
    · exact hends.ran

theorem ran_nil (h : 0 < n) : ¬ Ran n p ([] : List α) := by
  rintro ⟨run, hinfix, hlen, -⟩
  rw [infix_nil.mp hinfix] at hlen
  exact Nat.ne_of_lt h hlen

end Streak
