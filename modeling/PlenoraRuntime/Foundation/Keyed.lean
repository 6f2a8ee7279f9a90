import Mathlib.Algebra.Ring.Nat
import Mathlib.Data.List.Nodup

/-!
# Ordered tables with keys

A registry that a program keeps in a vector and searches by identifier: lookups
return the first element with a key, updates replace that element in place, and
removals take it out without reordering the rest. When no two elements share a
key, each operation acts on one key and leaves every other key alone, which is
what the lemmas say.
-/

namespace Keyed

open List

variable {α κ : Type*} [DecidableEq κ] {key : α → κ} {k k' : κ} {a b : α} {l : List α}

/-- The first element with key `k`. -/
def lookup (key : α → κ) (k : κ) (l : List α) : Option α :=
  l.find? fun a => key a = k

/-- Replaces the first element with key `k` by `b`, in place. -/
def replace (key : α → κ) (k : κ) (b : α) : List α → List α
  | [] => []
  | a :: l => if key a = k then b :: l else a :: replace key k b l

/-- Removes the first element with key `k`. -/
def erase (key : α → κ) (k : κ) (l : List α) : List α :=
  l.eraseP fun a => key a = k

/-! ## Lookups -/

theorem key_of_lookup (h : lookup key k l = some a) : key a = k := by
  simpa using find?_some h

theorem mem_of_lookup (h : lookup key k l = some a) : a ∈ l :=
  mem_of_find?_eq_some h

theorem lookup_eq_none_iff : lookup key k l = none ↔ k ∉ l.map key := by
  simp [lookup]

theorem lookup_of_mem (hnodup : (l.map key).Nodup) (hmem : a ∈ l) :
    lookup key (key a) l = some a := by
  induction l with
  | nil => simp at hmem
  | cons first rest ih =>
    rw [map_cons, nodup_cons] at hnodup
    rcases mem_cons.mp hmem with rfl | hrest
    · simp [lookup]
    · have hne : key first ≠ key a := by
        intro heq
        exact hnodup.1 (heq ▸ mem_map_of_mem hrest)
      simpa [lookup, hne] using ih hnodup.2 hrest

theorem lookup_append_singleton (l : List α) (b : α) :
    lookup key k (l ++ [b]) = (lookup key k l).or (if key b = k then some b else none) := by
  simp only [lookup, find?_append, find?_singleton, decide_eq_true_eq]

/-! ## Replacing an element -/

@[simp] theorem length_replace : (replace key k b l).length = l.length := by
  induction l with
  | nil => rfl
  | cons first rest ih => by_cases h : key first = k <;> simp [replace, h, ih]

theorem map_key_replace (hkey : key b = k) : (replace key k b l).map key = l.map key := by
  induction l with
  | nil => rfl
  | cons first rest ih => by_cases h : key first = k <;> simp [replace, h, hkey, ih]

theorem mem_replace (hmem : a ∈ replace key k b l) : a = b ∨ a ∈ l := by
  induction l with
  | nil => simp [replace] at hmem
  | cons first rest ih =>
    by_cases h : key first = k
    · simp only [replace, h, ↓reduceIte, mem_cons] at hmem ⊢
      rcases hmem with rfl | hmem
      · exact .inl rfl
      · exact .inr (.inr hmem)
    · simp only [replace, h, ↓reduceIte, mem_cons] at hmem ⊢
      rcases hmem with rfl | hmem
      · exact .inr (.inl rfl)
      · exact (ih hmem).imp_right .inr

theorem lookup_replace_self (hkey : key b = k) (h : lookup key k l = some a) :
    lookup key k (replace key k b l) = some b := by
  induction l with
  | nil => simp [lookup] at h
  | cons first rest ih =>
    by_cases hfirst : key first = k
    · simp [replace, lookup, hfirst, hkey]
    · simp only [lookup, find?_cons, hfirst] at h
      simpa [replace, lookup, hfirst] using ih h

theorem lookup_replace_of_ne (hkey : key b = k) (hne : k' ≠ k) :
    lookup key k' (replace key k b l) = lookup key k' l := by
  induction l with
  | nil => rfl
  | cons first rest ih =>
    by_cases hfirst : key first = k
    · have hb : key b ≠ k' := hkey ▸ hne.symm
      simp [replace, lookup, hfirst, hb, hne.symm]
    · simp only [lookup] at ih
      by_cases hk' : key first = k' <;> simp [replace, lookup, hfirst, hk', ih, hne]

theorem replace_self (h : lookup key k l = some a) : replace key k a l = l := by
  induction l with
  | nil => rfl
  | cons first rest ih =>
    by_cases hfirst : key first = k
    · obtain rfl : first = a := by simpa [lookup, hfirst] using h
      simp [replace, hfirst]
    · simp only [lookup, find?_cons, hfirst] at h
      simp [replace, hfirst, ih h]

theorem replace_replace (hkey : key a = k) :
    replace key k b (replace key k a l) = replace key k b l := by
  induction l with
  | nil => rfl
  | cons first rest ih =>
    by_cases hfirst : key first = k <;> simp [replace, hfirst, hkey, ih]

/-- A sum over the table changes by what the replaced element contributes. -/
theorem sum_map_replace (f : α → ℕ) (h : lookup key k l = some a) :
    ((replace key k b l).map f).sum + f a = (l.map f).sum + f b := by
  induction l with
  | nil => simp [lookup] at h
  | cons first rest ih =>
    by_cases hfirst : key first = k
    · obtain rfl : first = a := by simpa [lookup, hfirst] using h
      simp only [replace, hfirst, ↓reduceIte, map_cons, sum_cons]
      omega
    · simp only [lookup, find?_cons, hfirst] at h
      have hrest := ih h
      simp only [replace, hfirst, ↓reduceIte, map_cons, sum_cons]
      omega

/-! ## Removing an element -/

theorem map_key_erase_sublist : ((erase key k l).map key).Sublist (l.map key) :=
  (eraseP_sublist ..).map key

theorem lookup_erase_self (hnodup : (l.map key).Nodup) : lookup key k (erase key k l) = none := by
  induction l with
  | nil => rfl
  | cons first rest ih =>
    rw [map_cons, nodup_cons] at hnodup
    by_cases h : key first = k
    · have hnone : lookup key k rest = none := lookup_eq_none_iff.2 (h ▸ hnodup.1)
      simpa [erase, h] using hnone
    · simpa [erase, lookup, h] using ih hnodup.2

theorem lookup_erase_of_ne (hne : k' ≠ k) : lookup key k' (erase key k l) = lookup key k' l := by
  induction l with
  | nil => rfl
  | cons first rest ih =>
    by_cases h : key first = k
    · simp [erase, lookup, h, hne.symm]
    · simp only [lookup, erase] at ih
      by_cases hk' : key first = k' <;> simp [erase, lookup, h, hk', ih, hne]

/-! ## Tables under a map that keeps the keys -/

section map

variable {f : α → α} (hkey : ∀ a, key (f a) = key a)
include hkey

theorem lookup_map : lookup key k (l.map f) = (lookup key k l).map f := by
  simp only [lookup, find?_map, Function.comp_def, hkey]

theorem map_replace : (replace key k b l).map f = replace key k (f b) (l.map f) := by
  induction l with
  | nil => rfl
  | cons first rest ih => by_cases h : key first = k <;> simp [replace, h, hkey, ih]

theorem map_erase : (erase key k l).map f = erase key k (l.map f) := by
  simp only [erase, eraseP_map, Function.comp_def, hkey]

end map

end Keyed
