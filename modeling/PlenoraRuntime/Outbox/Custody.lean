import PlenoraRuntime.Foundation.Machine
import PlenoraRuntime.Foundation.Ownership
import PlenoraRuntime.Outbox.Store

/-!
# Who may still publish an entry

Ownership of a claim is not recorded in the store: a claimed record does not say by
which run. `Custody` makes it explicit. A run holds the entries it still has to
publish, mark or release, in that order; it lets go of the first one whether or not
the store accepted the mark.

Held entries are claimed, and no entry is held twice (`Custody.Safe`). Once the
producer may have delivered an entry, it is `Spent`: it is never pending again, and a
run that still holds it has it first and will only mark it.
-/

namespace PlenoraRuntime.Outbox

open Transition Ownership List Function

/-! ## The abstract machine -/

/-- The states of the records, what each run holds, and whether the producer may have
delivered the first entry it holds. -/
structure Custody where
  states : OutboxId → Option OutboxEntryState
  held : ℕ → List OutboxId
  delivered : ℕ → Bool

inductive CustodyEvent
  | published (id : OutboxId)
  | delivered (id : OutboxId)

namespace Custody

/-- What can happen to entries and their holders. -/
inductive Step (c : Custody) : List CustodyEvent → Custody → Prop
  | claim {i} {ids : List OutboxId} (hidle : c.held i = []) (hnodup : ids.Nodup)
      (hpend : ∀ id ∈ ids, c.states id = some .pending) :
      Step c []
        { c with
          states := fun id => if id ∈ ids then some .claimed else c.states id
          held := Function.update c.held i ids }
  | publish {i id rest} (hheld : c.held i = id :: rest)
      (hundelivered : c.delivered i = false) :
      Step c [.published id] c
  | deliver {i id rest} (hheld : c.held i = id :: rest) :
      Step c [.delivered id] { c with delivered := Function.update c.delivered i true }
  | settle {i id rest state} (hheld : c.held i = id :: rest)
      (hclaim : c.states id = some .claimed) (hstate : c.delivered i = true → state ≠ .pending) :
      Step c []
        { states := Function.update c.states id (some state)
          held := Function.update c.held i rest
          delivered := Function.update c.delivered i false }
  | leave {i id rest} (hheld : c.held i = id :: rest) :
      Step c []
        { c with
          held := Function.update c.held i rest
          delivered := Function.update c.delivered i false }
  | drop (i : ℕ) :
      Step c []
        { c with
          held := Function.update c.held i []
          delivered := Function.update c.delivered i false }
  | insert {id} (hnew : c.states id = none) :
      Step c [] { c with states := Function.update c.states id (some .pending) }

/-- No entry is held twice, and what is held is claimed. -/
structure Safe (c : Custody) : Prop where
  exclusive : Exclusive c.held
  claimed : ∀ {i id}, id ∈ c.held i → c.states id = some .claimed

/-- The entry is never published again: it is not pending, and who still holds it has
the producer's answer for it. -/
structure Spent (id : OutboxId) (c : Custody) : Prop where
  registered : c.states id ≠ none
  unavailable : c.states id ≠ some .pending
  answered : ∀ {i}, id ∈ c.held i → c.delivered i = true ∧ ∃ rest, c.held i = id :: rest

variable {c c' : Custody} {events : List CustodyEvent} {id : OutboxId}

theorem Step.length_le_one (h : Step c events c') : events.length ≤ 1 := by
  cases h <;> simp

/-- Letting go of some entries, whatever becomes of a record that nobody holds then. -/
theorem Safe.release (h : Safe c) {i : ℕ} {kept : List OutboxId}
    {states : OutboxId → Option OutboxEntryState} {delivered : ℕ → Bool}
    (hkept : kept.Sublist (c.held i))
    (hstates : ∀ {j id}, id ∈ Function.update c.held i kept j → states id = c.states id) :
    Safe { states, held := Function.update c.held i kept, delivered } where
  exclusive := h.exclusive.release hkept
  claimed := by
    intro j id hid
    exact (hstates hid).trans (h.claimed (mem_of_mem_update hkept.subset hid))

theorem Step.safe (hstep : Step c events c') (h : Safe c) : Safe c' := by
  cases hstep with
  | @claim i ids hidle hnodup hpend =>
    have hfree : ∀ id ∈ ids, ∀ j, id ∉ c.held j := by
      intro id hid j hheld
      have hclaim := h.claimed hheld
      rw [hpend id hid] at hclaim
      cases hclaim
    refine ⟨h.exclusive.acquire hnodup hfree, ?_⟩
    intro j id hid
    dsimp only at hid ⊢
    split
    case isTrue => rfl
    case isFalse hnew =>
      by_cases hj : j = i
      · subst hj
        rw [update_self] at hid
        exact absurd hid hnew
      · rw [update_of_ne hj] at hid
        exact h.claimed hid
  | publish => exact h
  | deliver => exact ⟨h.exclusive, h.claimed⟩
  | @settle i id rest state hheld =>
    have hnodup := h.exclusive.nodup i
    rw [hheld, nodup_cons] at hnodup
    refine h.release (hheld ▸ sublist_cons_self ..) ?_
    intro j other hother
    refine update_of_ne ?_ ..
    -- The settled entry was the first of its holder, and only its holder had it.
    rintro rfl
    by_cases hj : j = i
    · subst hj
      rw [update_self] at hother
      exact hnodup.1 hother
    · rw [update_of_ne hj] at hother
      exact hj (h.exclusive.unique hother (hheld ▸ mem_cons_self))
  | leave hheld => exact h.release (hheld ▸ sublist_cons_self ..) fun _ => rfl
  | drop => exact h.release (nil_sublist _) fun _ => rfl
  | @insert id hnew =>
    refine ⟨h.exclusive, ?_⟩
    intro j other hother
    have hclaim := h.claimed hother
    have hne : other ≠ id := by
      rintro rfl
      rw [hnew] at hclaim
      cases hclaim
    exact (update_of_ne hne ..).trans hclaim

/-- A holder lets go of its first entry, or of all. -/
theorem Spent.release (h : Spent id c) {i : ℕ} {kept}
    {states : OutboxId → Option OutboxEntryState} (hkept : kept ⊆ c.held i) (hgone : id ∉ kept)
    (hreg : states id ≠ none) (hunavailable : states id ≠ some .pending) :
    Spent id
      { states
        held := Function.update c.held i kept
        delivered := Function.update c.delivered i false } where
  registered := hreg
  unavailable := hunavailable
  answered := by
    intro j hj
    by_cases hji : j = i
    · subst hji
      dsimp only at hj
      rw [update_self] at hj
      exact absurd hj hgone
    · dsimp only at hj ⊢
      rw [update_of_ne hji] at hj ⊢
      rw [update_of_ne hji]
      exact h.answered hj

/-- A spent entry is not among the entries after the first of a holder. -/
theorem Spent.not_mem_rest (h : Spent id c) (hsafe : Safe c) {i : ℕ} {first rest}
    (hheld : c.held i = first :: rest) : id ∉ rest := by
  intro hmem
  have hheldId : id ∈ c.held i := hheld ▸ mem_cons_of_mem _ hmem
  obtain ⟨_, rest', hfirst⟩ := h.answered hheldId
  rw [hheld, List.cons.injEq] at hfirst
  have hnodup := hsafe.exclusive.nodup i
  rw [hheld, nodup_cons, hfirst.1] at hnodup
  exact hnodup.1 hmem

theorem Step.spent (hstep : Step c events c') (hsafe : Safe c) (h : Spent id c) : Spent id c' := by
  cases hstep with
  | @claim i ids hidle hnodup hpend =>
    -- Only pending entries are claimed.
    have hnot : id ∉ ids := fun hid => h.unavailable (hpend id hid)
    refine ⟨by simpa [hnot] using h.registered, by simpa [hnot] using h.unavailable, ?_⟩
    intro j hj
    by_cases hji : j = i
    · subst hji
      dsimp only at hj
      rw [update_self] at hj
      exact absurd hj hnot
    · dsimp only at hj ⊢
      rw [update_of_ne hji] at hj ⊢
      exact h.answered hj
  | publish => exact h
  | @deliver i id' rest hheld =>
    refine ⟨h.registered, h.unavailable, ?_⟩
    intro j hj
    obtain ⟨hdeliv, hfirst⟩ := h.answered hj
    refine ⟨?_, hfirst⟩
    by_cases hji : j = i
    · subst hji
      exact update_self ..
    · exact (update_of_ne hji ..).trans hdeliv
  | @settle i id' rest state hheld hclaim hstate =>
    have hsub : rest ⊆ c.held i := hheld ▸ subset_cons_self ..
    refine h.release hsub (h.not_mem_rest hsafe hheld) ?_ ?_
    · by_cases hid : id = id'
      · subst hid
        simp
      · rw [update_of_ne hid]
        exact h.registered
    · by_cases hid : id = id'
      · subst hid
        -- Whoever holds the entry has its answer, and does not return it to pending.
        have hdeliv := (h.answered (i := i) (hheld ▸ mem_cons_self)).1
        rw [update_self]
        exact fun heq => hstate hdeliv (Option.some.inj heq)
      · rw [update_of_ne hid]
        exact h.unavailable
  | @leave i id' rest hheld =>
    have hsub : rest ⊆ c.held i := hheld ▸ subset_cons_self ..
    exact h.release hsub (h.not_mem_rest hsafe hheld) h.registered h.unavailable
  | drop i => exact h.release (nil_subset _) not_mem_nil h.registered h.unavailable
  | @insert id' hnew =>
    -- The inserted entry is another one.
    have hne : id ≠ id' := by
      rintro rfl
      exact h.registered hnew
    refine ⟨?_, ?_, h.answered⟩
    · exact (update_of_ne hne ..).trans_ne h.registered
    · exact (update_of_ne hne ..).trans_ne h.unavailable

/-- The producer's answer spends the entry. -/
theorem Step.spent_of_delivered (hstep : Step c [.delivered id] c') (h : Safe c) : Spent id c' := by
  cases hstep with
  | @deliver i _ rest hheld =>
    have hmem : id ∈ c.held i := hheld ▸ mem_cons_self
    have hclaim := h.claimed hmem
    refine ⟨by simp [hclaim], by simp [hclaim], ?_⟩
    intro j hj
    obtain rfl := h.exclusive.unique hj hmem
    exact ⟨update_self .., rest, hheld⟩

/-- A spent entry is not published. -/
theorem Spent.not_published (h : Spent id c) : ¬ Step c [.published id] c' := by
  intro hstep
  cases hstep with
  | @publish i _ rest hheld hundelivered =>
    have hdeliv := (h.answered (i := i) (hheld ▸ mem_cons_self)).1
    rw [hundelivered] at hdeliv
    cases hdeliv

/-- Final states are not left. -/
theorem Step.final {state : OutboxEntryState} (hstep : Step c events c') (hfinal : state.Final)
    (h : c.states id = some state) : c'.states id = some state := by
  cases hstep with
  | @claim i ids hidle hnodup hpend =>
    have hnot : id ∉ ids := by
      intro hid
      rw [hpend id hid, Option.some.injEq] at h
      subst h
      rcases hfinal with hfinal | hfinal | hfinal <;> cases hfinal
    simpa [hnot] using h
  | @settle i id' rest state' hheld hclaim hstate =>
    have hne : id ≠ id' := by
      rintro rfl
      rw [hclaim, Option.some.injEq] at h
      subst h
      rcases hfinal with hfinal | hfinal | hfinal <;> cases hfinal
    exact (update_of_ne hne ..).trans h
  | @insert id' hnew =>
    have hne : id ≠ id' := by
      rintro rfl
      rw [hnew] at h
      cases h
    exact (update_of_ne hne ..).trans h
  | _ => exact h

/-- After the producer may have delivered an entry, it is never published again. -/
theorem not_published_after {before after} (hsafe : Safe c)
    (hrun : Runs Step c (before ++ .delivered id :: after) c') : .published id ∉ after := by
  intro hmem
  obtain ⟨between, rest, rfl⟩ := append_of_mem hmem
  obtain ⟨c₁, c₂, hpre, hdeliv, hafter⟩ := hrun.split Step.length_le_one rfl
  obtain ⟨c₃, c₄, hbetween, hpub, _⟩ := hafter.split Step.length_le_one rfl
  have hsafe₁ : Safe c₁ := hpre.invariant (fun h hstep => hstep.safe h) hsafe
  have hspent : Safe c₃ ∧ Spent id c₃ := by
    refine hbetween.invariant (I := fun c => Safe c ∧ Spent id c) ?_
      ⟨hdeliv.safe hsafe₁, hdeliv.spent_of_delivered hsafe₁⟩
    rintro c events c' ⟨hsafe, hspent⟩ hstep
    exact ⟨hstep.safe hsafe, hstep.spent hsafe hspent⟩
  exact hspent.2.not_published hpub

end Custody

end PlenoraRuntime.Outbox
