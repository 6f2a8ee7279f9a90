import Mathlib.Logic.Basic

/-!
# Checks in a row

A validation runs through its checks and returns the error of the first that fails, and
so does a loop whose body can fail. These rules turn success into what the checks ask
for, and back.
-/

namespace Guard

open List

variable {ε α : Type*} {a : α}

/-- A check passes when its condition does not hold and the rest passes. -/
theorem ite_error_eq_ok {p : Prop} [Decidable p] {e : ε} {rest : Except ε α} :
    (if p then .error e else rest) = .ok a ↔ ¬ p ∧ rest = .ok a := by
  by_cases hp : p <;> simp [hp]

/-- Two steps succeed when the first does and the second does on its result. -/
theorem bind_eq_ok {β : Type*} {b : β} {first : Except ε α} {next : α → Except ε β} :
    (first.bind next) = .ok b ↔ ∃ a, first = .ok a ∧ next a = .ok b := by
  cases first <;> simp [Except.bind]

theorem mapError_eq_ok {δ : Type*} {f : ε → δ} {result : Except ε α} :
    result.mapError f = .ok a ↔ result = .ok a := by
  cases result with
  | error => exact iff_of_false nofun nofun
  | ok b =>
    constructor
    · intro h
      exact congrArg Except.ok (Except.ok.inj h)
    · intro h
      exact congrArg Except.ok (Except.ok.inj h)

theorem map_bind {β γ : Type*} (f : β → γ) (first : Except ε α) (next : α → Except ε β) :
    (first.bind next).map f = first.bind fun a => (next a).map f := by
  cases first <;> rfl

/-! ## Loops whose body can fail -/

theorem forM_eq_ok_iff {check : α → Except ε Unit} {l : List α} :
    l.forM check = .ok () ↔ ∀ a ∈ l, check a = .ok () := by
  induction l with
  | nil => exact iff_of_true rfl (by simp)
  | cons a rest ih =>
    rw [forall_mem_cons, ← ih]
    cases hcheck : check a with
    | error e | ok => simp [hcheck, bind, Except.bind]

section loops

variable {σ β : Type*} {body : σ → β → Except ε σ} {l : List β} {s last : σ}

/-- A loop completes when its body does on every element, given what the elements before
it have established. -/
theorem foldlM_of_step (body : σ → β → Except ε σ) (P : List β → σ → Prop) (hinit : P [] s)
    (hstep : ∀ seen b rest s, l = seen ++ b :: rest → P seen s → ∃ next, body s b = .ok next ∧
      P (seen ++ [b]) next) : ∃ last, l.foldlM body s = .ok last ∧ P l last := by
  -- Over what is left: everything before it has been seen.
  have hrest : ∀ rest seen s, l = seen ++ rest → P seen s →
      ∃ last, rest.foldlM body s = .ok last ∧ P l last := by
    intro rest
    induction rest with
    | nil =>
      intro seen s hl hseen
      rw [append_nil] at hl
      exact ⟨s, rfl, hl ▸ hseen⟩
    | cons b rest ih =>
      intro seen s hl hseen
      obtain ⟨next, hbody, hnext⟩ := hstep seen b rest s hl hseen
      obtain ⟨last, hlast, hP⟩ := ih (seen ++ [b]) next (by simpa using hl) hnext
      refine ⟨last, ?_, hP⟩
      rw [foldlM_cons, hbody]
      exact hlast
  exact hrest l [] s rfl hinit

/-- What the body keeps holds at the end of a loop that completes. -/
theorem foldlM_inv {P : σ → Prop} (hstep : ∀ s b next, b ∈ l → P s → body s b = .ok next → P next)
    (hinit : P s) (h : l.foldlM body s = .ok last) : P last := by
  induction l generalizing s with
  | nil =>
    cases h
    exact hinit
  | cons b rest ih =>
    rw [foldlM_cons] at h
    cases hbody : body s b with
    | error e => rw [hbody] at h; cases h
    | ok next =>
      rw [hbody] at h
      exact ih (fun s b next hb => hstep s b next (mem_cons_of_mem _ hb))
        (hstep s b next mem_cons_self hinit hbody) h

/-- A loop completes, or it ends with the error of an element, given what the elements
before it have established. -/
theorem foldlM_cases {P : List β → σ → Prop}
    (hstep : ∀ seen b s next, P seen s → body s b = .ok next → P (seen ++ [b]) next)
    (hinit : P [] s) (l : List β) :
    (∃ last, l.foldlM body s = .ok last ∧ P l last) ∨
      ∃ seen b rest before e, l = seen ++ b :: rest ∧ P seen before ∧ body before b = .error e ∧
        l.foldlM body s = .error e := by
  have hrest : ∀ rest seen s, l = seen ++ rest → P seen s →
      (∃ last, rest.foldlM body s = .ok last ∧ P l last) ∨
        ∃ seen b later before e, l = seen ++ b :: later ∧ P seen before ∧
          body before b = .error e ∧ rest.foldlM body s = .error e := by
    intro rest
    induction rest with
    | nil =>
      intro seen s hl hseen
      rw [append_nil] at hl
      exact .inl ⟨s, rfl, hl ▸ hseen⟩
    | cons b rest ih =>
      intro seen s hl hseen
      rw [foldlM_cons]
      cases hbody : body s b with
      | error e => exact .inr ⟨seen, b, rest, s, e, hl, hseen, hbody, rfl⟩
      | ok next => exact ih (seen ++ [b]) next (by simpa using hl) (hstep seen b s next hseen hbody)
  exact hrest l [] s rfl hinit

/-- What the body establishes of the elements it has seen holds of all of them at the end of
a loop that completes. -/
theorem foldlM_seen {P : List β → σ → Prop}
    (hstep : ∀ seen b s next, P seen s → body s b = .ok next → P (seen ++ [b]) next)
    (hinit : P [] s) (h : l.foldlM body s = .ok last) : P l last := by
  rcases foldlM_cases hstep hinit l with ⟨found, hfound, hP⟩ | ⟨-, -, -, -, e, -, -, -, herror⟩
  · cases hfound.symm.trans h
    exact hP
  · cases herror.symm.trans h

end loops

end Guard
