import Mathlib.Data.List.Basic
import Mathlib.Logic.Function.Basic

/-!
# Exclusive ownership

Holders indexed by `ι` hold lists of resources. Ownership is exclusive when no
resource is held twice, by two holders or by one. It stays so when a holder lets
some of its resources go and when one that holds nothing takes hold of resources
that are free.
-/

namespace Ownership

open Function

variable {ι κ : Type*} [DecidableEq ι] {held : ι → List κ} {i j : ι} {k : κ}

/-- Every resource is held at most once. -/
structure Exclusive (held : ι → List κ) : Prop where
  nodup : ∀ i, (held i).Nodup
  unique : ∀ {i j k}, k ∈ held i → k ∈ held j → i = j

/-- What is held after a holder kept only a part of what it held was held before. -/
theorem mem_of_mem_update {kept : List κ} (hkept : kept ⊆ held i)
    (h : k ∈ Function.update held i kept j) : k ∈ held j := by
  by_cases hj : j = i
  · subst hj
    rw [update_self] at h
    exact hkept h
  · rwa [update_of_ne hj] at h

theorem Exclusive.release {kept : List κ} (h : Exclusive held) (hkept : kept.Sublist (held i)) :
    Exclusive (Function.update held i kept) where
  nodup := by
    intro j
    by_cases hj : j = i
    · subst hj
      rw [update_self]
      exact (h.nodup j).sublist hkept
    · rw [update_of_ne hj]
      exact h.nodup j
  unique := fun hi hj =>
    h.unique (mem_of_mem_update hkept.subset hi) (mem_of_mem_update hkept.subset hj)

theorem Exclusive.acquire {new : List κ} (h : Exclusive held) (hnodup : new.Nodup)
    (hfree : ∀ k ∈ new, ∀ j, k ∉ held j) : Exclusive (Function.update held i new) where
  nodup := by
    intro j
    by_cases hj : j = i
    · subst hj
      rwa [update_self]
    · rw [update_of_ne hj]
      exact h.nodup j
  unique := by
    intro a b k ha hb
    by_cases hai : a = i <;> by_cases hbi : b = i
    · rw [hai, hbi]
    · rw [hai, update_self] at ha
      rw [update_of_ne hbi] at hb
      exact absurd hb (hfree k ha b)
    · rw [hbi, update_self] at hb
      rw [update_of_ne hai] at ha
      exact absurd ha (hfree k hb a)
    · rw [update_of_ne hai] at ha
      rw [update_of_ne hbi] at hb
      exact h.unique ha hb

end Ownership
