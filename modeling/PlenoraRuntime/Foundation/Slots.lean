import Mathlib.Data.List.Perm.Basic

/-!
# Lists whose positions are names

Processes, handles and flags are kept in a list and named by their position. A
new one is appended and an existing one is overwritten, so a name keeps its
meaning for good. The first lemmas say what is found under a name afterwards, the
others how many slots of a kind there are.
-/

namespace Slots

open List

variable {α : Type*} {l : List α} {a b : α} {i j : ℕ} {p : α → Bool}

theorem getElem?_concat_eq_some :
    (l ++ [a])[i]? = some b ↔ l[i]? = some b ∨ (i = l.length ∧ a = b) := by
  rcases Nat.lt_trichotomy i l.length with hlt | rfl | hgt
  · simp [getElem?_append_left hlt, Nat.ne_of_lt hlt]
  · simp
  · have hlong : (l ++ [a]).length ≤ i := by
      rw [length_append]
      exact hgt
    simp [getElem?_eq_none hlong, getElem?_eq_none (Nat.le_of_lt hgt), Nat.ne_of_gt hgt]

theorem getElem?_set_eq_some :
    (l.set i a)[j]? = some b ↔
      (j = i ∧ i < l.length ∧ a = b) ∨ (j ≠ i ∧ l[j]? = some b) := by
  by_cases hj : j = i
  · subst hj
    by_cases hlt : j < l.length <;> simp [hlt]
  · simp [getElem?_set_ne (Ne.symm hj), hj]

theorem set_self (h : l[i]? = some a) : l.set i a = l := by
  obtain ⟨hlt, rfl⟩ := List.getElem?_eq_some_iff.mp h
  exact set_getElem_self hlt

/-- Overwriting a slot changes a count by what the old and the new value contribute. -/
theorem countP_set_add (h : l[i]? = some a) (b : α) :
    (l.set i b).countP p + (if p a then 1 else 0) = l.countP p + if p b then 1 else 0 := by
  obtain ⟨hlt, rfl⟩ := List.getElem?_eq_some_iff.mp h
  rw [countP_set hlt]
  by_cases hp : p l[i] = true
  · have hpos : 0 < l.countP p := countP_pos_iff.mpr ⟨_, getElem_mem hlt, hp⟩
    rw [if_pos hp]
    omega
  · rw [if_neg hp]
    omega

/-- A slot that only the weaker kind includes makes the count of the stronger one
smaller. -/
theorem countP_lt_countP {q : α → Bool} (himp : ∀ b ∈ l, p b = true → q b = true) (hmem : a ∈ l)
    (hp : p a = false) (hq : q a = true) : l.countP p < l.countP q := by
  obtain ⟨before, after, rfl⟩ := append_of_mem hmem
  have hpre : before.countP p ≤ before.countP q :=
    countP_mono_left fun b hb => himp b (mem_append_left _ hb)
  have hafter : after.countP p ≤ after.countP q :=
    countP_mono_left fun b hb => himp b (mem_append_right _ (mem_cons_of_mem _ hb))
  rw [countP_append, countP_append, countP_cons_of_neg (by simp [hp]),
    countP_cons_of_pos hq]
  omega

/-- What another slot contributes is still there after a slot was overwritten. -/
theorem mem_filterMap_set {β : Type*} {f : α → Option β} {c : β} (h : l[i]? = some a) (b : α)
    (hmem : c ∈ l.filterMap f) (hother : f a ≠ some c) : c ∈ (l.set i b).filterMap f := by
  obtain ⟨a', ha', hc⟩ := mem_filterMap.mp hmem
  obtain ⟨j, hj⟩ := mem_iff_getElem?.mp ha'
  have hji : j ≠ i := by
    rintro rfl
    rw [h, Option.some.injEq] at hj
    exact hother (hj ▸ hc)
  refine mem_filterMap.mpr ⟨a', mem_iff_getElem?.mpr ⟨j, ?_⟩, hc⟩
  rw [getElem?_set_ne (Ne.symm hji), hj]

theorem mem_filterMap_set_self {β : Type*} {f : α → Option β} {c : β} (h : l[i]? = some a)
    (hc : f b = some c) : c ∈ (l.set i b).filterMap f := by
  have hlt : i < l.length := (List.getElem?_eq_some_iff.mp h).1
  exact mem_filterMap.mpr ⟨b, mem_set hlt b, hc⟩

/-- What the other slots contribute stays when a slot is overwritten. -/
theorem perm_filterMap_set {β : Type*} {f : α → Option β} (h : l[i]? = some a) (b : α) :
    ∃ rest, (l.filterMap f).Perm ((f a).toList ++ rest) ∧
      ((l.set i b).filterMap f).Perm ((f b).toList ++ rest) := by
  have hlt : i < l.length := (List.getElem?_eq_some_iff.mp h).1
  have hset : ∀ b, ((l.set i b).filterMap f).Perm ((f b).toList ++ (l.eraseIdx i).filterMap f) := by
    intro b
    have hperm := (set_perm_cons_eraseIdx hlt b).filterMap f
    cases hb : f b with
    | none => simpa [hb] using hperm
    | some c => simpa [hb] using hperm
  have hself := hset a
  rw [set_self h] at hself
  exact ⟨_, hself, hset b⟩

/-- What a slot that was overwritten holds, seen through `f`. -/
theorem bind_set {β : Type*} {f : α → Option β} (h : l[i]? = some a) (b : α) :
    (fun j : ℕ => (l.set i b)[j]?.bind f) =
      Function.update (fun j : ℕ => l[j]?.bind f) i (f b) := by
  funext j
  have hlt : i < l.length := (List.getElem?_eq_some_iff.mp h).1
  by_cases hj : j = i
  · subst hj
    rw [getElem?_set_self hlt, Function.update_self, Option.bind_some]
  · rw [getElem?_set_ne (Ne.symm hj), Function.update_of_ne hj]

/-- A new slot in which `f` sees nothing. -/
theorem bind_concat {β : Type*} {f : α → Option β} (h : f a = none) :
    (fun j : ℕ => (l ++ [a])[j]?.bind f) = fun j : ℕ => l[j]?.bind f := by
  funext j
  rcases Nat.lt_trichotomy j l.length with hlt | rfl | hgt
  · rw [getElem?_append_left hlt]
  · simp [h]
  · have hlong : (l ++ [a]).length ≤ j := by
      rw [length_append]
      exact hgt
    rw [getElem?_eq_none hlong, getElem?_eq_none (Nat.le_of_lt hgt)]

end Slots
