import Mathlib.Algebra.Ring.Nat
import Mathlib.Data.List.Sort
import PlenoraRuntime.Foundation.Keyed

/-!
# Tables in key order

A map that a program keeps ordered by key and iterates over in that order: a list
of pairs whose keys increase strictly. Inserting a key puts its pair where it
belongs, or replaces the pair that is already there.
-/

namespace OrderedTable

open List Option Keyed

variable {κ α : Type*} [LT κ] [DecidableLT κ] [DecidableEq κ] {k k' : κ} {a : α}
  {table : List (κ × α)}

/-- The keys increase strictly. -/
def Sorted (table : List (κ × α)) : Prop :=
  table.Pairwise fun first second => first.1 < second.1

def get (k : κ) (table : List (κ × α)) : Option α :=
  (Keyed.lookup Prod.fst k table).map Prod.snd

/-- Stores `a` under `k`, in key order. -/
def insert (k : κ) (a : α) : List (κ × α) → List (κ × α)
  | [] => [(k, a)]
  | (k', a') :: rest =>
    if k < k' then (k, a) :: (k', a') :: rest
    else if k = k' then (k, a) :: rest
    else (k', a') :: insert k a rest

def erase (k : κ) (table : List (κ × α)) : List (κ × α) :=
  Keyed.erase Prod.fst k table

theorem mem_insert {pair : κ × α} (h : pair ∈ insert k a table) : pair = (k, a) ∨ pair ∈ table := by
  induction table with
  | nil => exact .inl (mem_singleton.mp h)
  | cons first rest ih =>
    unfold insert at h
    split at h
    · rcases mem_cons.mp h with rfl | hold
      · exact .inl rfl
      · exact .inr hold
    · split at h
      · rcases mem_cons.mp h with rfl | hold
        · exact .inl rfl
        · exact .inr (mem_cons_of_mem _ hold)
      · rcases mem_cons.mp h with rfl | hold
        · exact .inr mem_cons_self
        · exact (ih hold).imp_right (mem_cons_of_mem _)

theorem mem_insert_self (k : κ) (a : α) (table : List (κ × α)) : (k, a) ∈ insert k a table := by
  induction table with
  | nil => exact mem_singleton_self _
  | cons first rest ih =>
    unfold insert
    split
    · exact mem_cons_self
    · split
      · exact mem_cons_self
      · exact mem_cons_of_mem _ ih

omit [LT κ] [DecidableLT κ] in
theorem get_eq_none_iff : get k table = none ↔ k ∉ table.map Prod.fst := by
  rw [get, map_eq_none_iff, Keyed.lookup_eq_none_iff]

omit [LT κ] [DecidableLT κ] in
theorem get_cons (first : κ × α) (rest : List (κ × α)) :
    get k (first :: rest) = if k = first.1 then some first.2 else get k rest := by
  by_cases h : first.1 = k
  · simp [get, Keyed.lookup, h]
  · simp [get, Keyed.lookup, h, Ne.symm h]

theorem get_insert : get k' (insert k a table) = if k' = k then some a else get k' table := by
  induction table with
  | nil => exact get_cons ..
  | cons first rest ih =>
    unfold insert
    split
    · exact get_cons ..
    · split
      case isTrue heq =>
        rw [get_cons, get_cons]
        by_cases h : k' = k <;> simp [h, ← heq]
      case isFalse hne =>
        rw [get_cons, get_cons, ih]
        by_cases h : k' = first.1
        · simp [h, Ne.symm hne]
        · simp [h]

/-! ## Keys -/

theorem mem_keys_insert :
    k' ∈ (insert k a table).map Prod.fst ↔ k' = k ∨ k' ∈ table.map Prod.fst := by
  induction table with
  | nil => simp [insert]
  | cons first rest ih =>
    unfold insert
    split
    case isTrue => simp
    case isFalse =>
      split
      case isTrue heq => simp [heq]
      case isFalse =>
        simp only [map_cons, mem_cons, ih]
        exact or_left_comm

omit [LT κ] [DecidableLT κ] in
theorem mem_keys_erase (hnodup : (table.map Prod.fst).Nodup) :
    k' ∈ (erase k table).map Prod.fst ↔ k' ≠ k ∧ k' ∈ table.map Prod.fst := by
  have hlookup : ∀ k₁ l, k₁ ∈ l.map Prod.fst ↔ Keyed.lookup (α := κ × α) Prod.fst k₁ l ≠ none :=
    fun k₁ l => by rw [ne_eq, Keyed.lookup_eq_none_iff, not_not]
  rw [hlookup, hlookup]
  by_cases hk : k' = k
  · subst hk
    simp [erase, lookup_erase_self hnodup]
  · simp [erase, lookup_erase_of_ne hk, hk]

omit [LT κ] [DecidableLT κ] in
/-- The pair of a key, and what is left without it. -/
theorem perm_erase (h : get k table = some a) : table.Perm ((k, a) :: erase k table) := by
  induction table with
  | nil => cases h
  | cons first rest ih =>
    rw [get_cons] at h
    split at h
    case isTrue hkey =>
      cases h
      simp [erase, Keyed.erase, hkey]
    case isFalse hne =>
      have herase : erase k (first :: rest) = first :: erase k rest := by
        simp [erase, Keyed.erase, Ne.symm hne]
      rw [herase]
      exact ((ih h).cons first).trans (.swap ..)

omit [LT κ] [DecidableLT κ] in
theorem get_erase (hnodup : (table.map Prod.fst).Nodup) :
    get k' (erase k table) = if k' = k then none else get k' table := by
  rw [get, erase]
  split
  case isTrue heq => rw [heq, lookup_erase_self hnodup, map_none]
  case isFalse hne => rw [lookup_erase_of_ne hne, get]

omit [LT κ] [DecidableLT κ] in
theorem get_eq_some_iff (hnodup : (table.map Prod.fst).Nodup) :
    get k table = some a ↔ (k, a) ∈ table := by
  constructor
  · intro h
    obtain ⟨pair, hpair, rfl⟩ := map_eq_some_iff.mp h
    obtain rfl : pair.1 = k := key_of_lookup hpair
    exact mem_of_lookup hpair
  · intro h
    rw [get, lookup_of_mem hnodup h, map_some]

omit [DecidableLT κ] in
theorem Sorted.erase (h : Sorted table) (k : κ) : Sorted (erase k table) :=
  List.Pairwise.sublist (eraseP_sublist ..) h

section order

variable [LE κ] [Std.IsLinearOrder κ] [Std.LawfulOrderLT κ] {other : List (κ × α)}

theorem Sorted.insert (h : Sorted table) : Sorted (insert k a table) := by
  induction table with
  | nil => exact pairwise_singleton ..
  | cons first rest ih =>
    obtain ⟨k', a'⟩ := first
    obtain ⟨hfirst, hrest⟩ := pairwise_cons.mp h
    unfold OrderedTable.insert
    split
    case isTrue hlt =>
      refine pairwise_cons.mpr ⟨?_, h⟩
      intro pair hpair
      rcases mem_cons.mp hpair with rfl | hpair
      · exact hlt
      · exact Std.lt_trans hlt (hfirst pair hpair)
    case isFalse hnlt =>
      split
      case isTrue heq =>
        subst heq
        exact pairwise_cons.mpr ⟨hfirst, hrest⟩
      case isFalse hne =>
        refine pairwise_cons.mpr ⟨?_, ih hrest⟩
        intro pair hpair
        rcases mem_insert hpair with rfl | hold
        · exact (Std.lt_trichotomy k k').resolve_left hnlt |>.resolve_left hne
        · exact hfirst pair hold

omit [DecidableLT κ] [DecidableEq κ] [Std.IsLinearOrder κ] in
theorem Sorted.nodup (h : Sorted table) : (table.map Prod.fst).Nodup := by
  refine pairwise_map.mpr (List.Pairwise.imp ?_ h)
  intro first second hlt heq
  rw [heq] at hlt
  exact Std.lt_irrefl hlt

omit [DecidableLT κ] [DecidableEq κ] in
/-- A table with fewer pairs is one with pairs left out. -/
theorem Sorted.sublist_of_subset (h : Sorted table) (hother : Sorted other)
    (hsubset : table ⊆ other) : table.Sublist other := by
  have hnodup : table.Nodup := List.Nodup.of_map _ h.nodup
  exact sublist_of_subperm_of_pairwise (subperm_of_subset hnodup hsubset) h hother

omit [DecidableLT κ] [DecidableEq κ] in
/-- A table is the pairs that are in it. -/
theorem Sorted.eq_of_mem_iff (h : Sorted table) (hother : Sorted other)
    (hmem : ∀ pair, pair ∈ table ↔ pair ∈ other) : table = other := by
  have hthere := h.sublist_of_subset hother fun pair hpair => (hmem pair).mp hpair
  have hback := hother.sublist_of_subset h fun pair hpair => (hmem pair).mpr hpair
  exact hthere.antisymm hback

/-- A quantity that adds up over the pairs grows by that of the new pair, less that of
the pair it replaces. -/
theorem sum_insert (weight : κ × α → ℕ) (h : Sorted table) :
    ((insert k a table).map weight).sum + ((get k table).map fun old => weight (k, old)).getD 0 =
      (table.map weight).sum + weight (k, a) := by
  induction table with
  | nil => simp [insert, get, Keyed.lookup]
  | cons first rest ih =>
    obtain ⟨k', a'⟩ := first
    obtain ⟨hfirst, hrest⟩ := pairwise_cons.mp h
    unfold insert
    split
    case isTrue hlt =>
      -- The key is smaller than all others, so nothing is replaced.
      have hnew : get k ((k', a') :: rest) = none := by
        rw [get_eq_none_iff]
        intro hmem
        obtain ⟨pair, hpair, hkey⟩ := List.mem_map.mp hmem
        rcases mem_cons.mp hpair with rfl | hpair
        · exact Std.lt_irrefl (hkey ▸ hlt)
        · exact Std.lt_irrefl (Std.lt_trans hlt (hkey ▸ hfirst pair hpair))
      rw [hnew]
      simp only [map_cons, sum_cons, map_none, getD_none]
      omega
    case isFalse =>
      split
      case isTrue heq =>
        subst heq
        simp only [get, Keyed.lookup, find?_cons, decide_true, map_some,
          getD_some, map_cons, sum_cons]
        omega
      case isFalse hne =>
        have hskip : get k ((k', a') :: rest) = get k rest := by
          simp [get, Keyed.lookup, Ne.symm hne]
        have hsum := ih hrest
        rw [hskip]
        simp only [map_cons, sum_cons]
        omega

end order

end OrderedTable
