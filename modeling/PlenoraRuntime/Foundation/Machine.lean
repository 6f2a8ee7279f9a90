import Mathlib.Data.List.Basic

/-!
# Transition systems that report events

A concurrent component is modelled by what one atomic step can do: `Step s events s'`
says that a step leads from `s` to `s'` and reports `events`. `Runs Step` closes a
step relation under sequencing and keeps the events in the order in which they were
reported. An interleaving of concurrent callers is one such run, so a statement
about every interleaving is a statement about every run.

The rules below are the only way the rest of the development reasons about runs:

* `Runs.invariant`: what every step preserves holds in the last state;
* `Runs.history`: the same for a property of the state and of everything
  reported so far;
* `Runs.preserved`: a property that a step preserves *unless* it reports one of
  the excluded events survives a run that reports none of them;
* `Runs.restrict`: the events of a run may be assumed of each of its steps;
* `Runs.split`: an event of a run was reported by one of its steps, where the
  run can be cut;
* `Runs.simulate`: when every step of one system is matched by a run of another,
  every run is, and the second reports what can be observed of the first.

`Inevitable` is about what must happen: whichever steps are taken, they lead to the goal.
A measure that every step decreases shows it (`Inevitable.of_measure`).

`Machine` is the executable form: a function from actions to steps. `Machine.run_history`
is `Runs.history` for it, with the actions performed. `Machine.Takes` says that a run went
through a certain moment. A relation that every action keeps makes two of its states
observationally equal (`Machine.run_events_eq`).
-/

namespace Transition

open List Option

variable {σ τ ε δ : Type*}

theorem forall_mem_concat {P : ε → Prop} {events event} (hevents : ∀ old ∈ events, P old)
    (hevent : P event) : ∀ old ∈ events ++ [event], P old :=
  forall_mem_append.mpr ⟨hevents, forall_mem_singleton.mpr hevent⟩

/-- Some sequence of steps leads from the first state to the last and reports
exactly the given events. -/
inductive Runs (Step : σ → List ε → σ → Prop) : σ → List ε → σ → Prop
  | refl (s : σ) : Runs Step s [] s
  | head {s s₁ s₂ : σ} {events later : List ε} :
      Step s events s₁ → Runs Step s₁ later s₂ → Runs Step s (events ++ later) s₂

namespace Runs

variable {Step : σ → List ε → σ → Prop} {Step' : τ → List δ → τ → Prop} {events later : List ε}
  {s s' s₁ s₂ : σ} {event : ε}

theorem single (hstep : Step s events s') : Runs Step s events s' := by
  simpa using Runs.head hstep (Runs.refl s')

/-- A step that reports nothing, before a run. -/
theorem silent (hstep : Step s [] s₁) (hrun : Runs Step s₁ later s₂) : Runs Step s later s₂ :=
  Runs.head hstep hrun

/-- A step that reports one event, before a run. -/
theorem cons (hstep : Step s [event] s₁) (hrun : Runs Step s₁ later s₂) :
    Runs Step s (event :: later) s₂ :=
  Runs.head hstep hrun

theorem trans {first} (h₁ : Runs Step s first s₁) (h₂ : Runs Step s₁ later s₂) :
    Runs Step s (first ++ later) s₂ := by
  induction h₁ with
  | refl => simpa using h₂
  | head hstep _ ih =>
    rw [append_assoc]
    exact .head hstep (ih h₂)

/-- A run, before a step that reports nothing. -/
theorem snoc_silent (hrun : Runs Step s events s₁) (hstep : Step s₁ [] s₂) :
    Runs Step s events s₂ := by
  simpa using hrun.trans (.single hstep)

/-- What every step preserves holds at the end of a run that starts with it. -/
theorem invariant {I : σ → Prop} (hstep : ∀ {s events s'}, I s → Step s events s' → I s')
    (hrun : Runs Step s events s') (hstart : I s) : I s' := by
  induction hrun with
  | refl => exact hstart
  | head hfirst _ ih => exact ih (hstep hstart hfirst)

/-- A property of the state and of the events reported so far, preserved by
every step, holds at the end of a run that starts with it. -/
theorem history {I : σ → List ε → Prop}
    (hstep : ∀ {s past events s'}, I s past → Step s events s' → I s' (past ++ events))
    (past : List ε) (hrun : Runs Step s events s') (hstart : I s past) : I s' (past ++ events) := by
  induction hrun generalizing past with
  | refl => simpa using hstart
  | head hfirst _ ih =>
    rw [← append_assoc]
    exact ih _ (hstep hstart hfirst)

/-- A property that every step without an excluded event preserves survives a
run without excluded events. -/
theorem preserved {I : σ → Prop} (Excluded : ε → Prop)
    (hstep : ∀ {s events s'}, I s → Step s events s' → (∀ event ∈ events, ¬ Excluded event) → I s')
    (hrun : Runs Step s events s') (hevents : ∀ event ∈ events, ¬ Excluded event) (hstart : I s) :
    I s' := by
  induction hrun with
  | refl => exact hstart
  | head hfirst _ ih =>
    exact ih (fun event hevent => hevents event (mem_append_right _ hevent))
      (hstep hstart hfirst fun event hevent => hevents event (mem_append_left _ hevent))

/-- A run all of whose events are allowed is a run of the steps that report allowed
events only. -/
theorem restrict {Allowed : ε → Prop} (hrun : Runs Step s events s')
    (hevents : ∀ event ∈ events, Allowed event) :
    Runs (fun s events s' => Step s events s' ∧ ∀ event ∈ events, Allowed event) s events s' := by
  induction hrun with
  | refl s => exact .refl s
  | head hfirst _ ih =>
    refine .head ⟨hfirst, fun event hevent => hevents event (mem_append_left _ hevent)⟩ ?_
    exact ih fun event hevent => hevents event (mem_append_right _ hevent)

/-- When steps report one event at most, an event of a run was reported by one of
its steps, after the run up to it and before the run from there on. -/
theorem split (hsingle : ∀ {s events s'}, Step s events s' → events.length ≤ 1) {before after}
    (hrun : Runs Step s events s') (hevents : events = before ++ event :: after) :
    ∃ s₁ s₂, Runs Step s before s₁ ∧ Step s₁ [event] s₂ ∧ Runs Step s₂ after s' := by
  induction hrun generalizing before with
  | refl => simp at hevents
  | @head s s₁ s₂ first later hfirst htail ih =>
    have hlen := hsingle hfirst
    match first, before with
    | [], before =>
      obtain ⟨t₁, t₂, hpre, hevent, hafter⟩ := ih hevents
      exact ⟨t₁, t₂, .silent hfirst hpre, hevent, hafter⟩
    | [e], [] =>
      obtain ⟨rfl, rfl⟩ : e = event ∧ later = after := by simpa using hevents
      exact ⟨s, s₁, .refl s, hfirst, htail⟩
    | [e], b :: before =>
      obtain ⟨rfl, hlater⟩ : e = b ∧ later = before ++ event :: after := by
        simpa using hevents
      obtain ⟨t₁, t₂, hpre, hevent, hafter⟩ := ih hlater
      exact ⟨t₁, t₂, .cons hfirst hpre, hevent, hafter⟩
    | _ :: _ :: _, _ => simp at hlen

/-- Forward simulation: `observe` says what of the first system's events the
second one reports. -/
theorem simulate {R : σ → τ → Prop} {observe : ε → Option δ}
    (hstep : ∀ {s t events s'}, R s t → Step s events s' →
      ∃ t', Runs Step' t (events.filterMap observe) t' ∧ R s' t') {t}
    (hrun : Runs Step s events s') (hstart : R s t) :
    ∃ t', Runs Step' t (events.filterMap observe) t' ∧ R s' t' := by
  induction hrun generalizing t with
  | refl => exact ⟨t, by simpa using Runs.refl t, hstart⟩
  | head hfirst _ ih =>
    obtain ⟨t₁, hrun₁, hR₁⟩ := hstep hstart hfirst
    obtain ⟨t₂, hrun₂, hR₂⟩ := ih hR₁
    exact ⟨t₂, by rw [filterMap_append]; exact hrun₁.trans hrun₂, hR₂⟩

/-- A step relation may be refined: runs of steps that are runs of smaller steps
are runs of the smaller steps. -/
theorem refine {Small : σ → List ε → σ → Prop}
    (hstep : ∀ {s events s'}, Step s events s' → Runs Small s events s')
    (hrun : Runs Step s events s') : Runs Small s events s' := by
  induction hrun with
  | refl => exact .refl _
  | head hfirst _ ih => exact (hstep hfirst).trans ih

end Runs

/-- Whatever steps are taken, the goal is reached: before that, a step is possible, and
every one leads to a state from where it is. -/
inductive Inevitable (Step : σ → List ε → σ → Prop) (Goal : σ → Prop) : σ → Prop
  | now {s : σ} (hgoal : Goal s) : Inevitable Step Goal s
  | later {s : σ} (hcan : ∃ events s', Step s events s')
      (hall : ∀ events s', Step s events s' → Inevitable Step Goal s') : Inevitable Step Goal s

theorem Inevitable.of_measure {Step : σ → List ε → σ → Prop} {Goal I : σ → Prop} (measure : σ → ℕ)
    (hcan : ∀ {s}, I s → Goal s ∨ ∃ events s', Step s events s')
    (hstep : ∀ {s events s'}, I s → Step s events s' → I s' ∧ measure s' < measure s) {s}
    (hstart : I s) : Inevitable Step Goal s := by
  induction hmeasure : measure s using Nat.strongRecOn generalizing s with
  | _ n ih =>
    subst hmeasure
    rcases hcan hstart with hgoal | hnext
    · exact .now hgoal
    · refine .later hnext fun events s' htaken => ?_
      obtain ⟨hkept, hless⟩ := hstep hstart htaken
      exact ih _ hless hkept rfl

/-- Some run reaches what is inevitable. -/
theorem Inevitable.exists_run {Step : σ → List ε → σ → Prop} {Goal : σ → Prop} {s}
    (h : Inevitable Step Goal s) : ∃ events s', Runs Step s events s' ∧ Goal s' := by
  induction h with
  | now hgoal => exact ⟨[], _, .refl _, hgoal⟩
  | later hcan _ ih =>
    obtain ⟨first, s₁, hfirst⟩ := hcan
    obtain ⟨later, s', hrun, hgoal⟩ := ih first s₁ hfirst
    exact ⟨first ++ later, s', .head hfirst hrun, hgoal⟩

/-- An action applied in a state yields the next state and the reported events,
or `none` when the action does not apply there. -/
structure Machine (σ α ε : Type*) where
  step : σ → α → Option (σ × List ε)

namespace Machine

variable {α : Type*} (M : Machine σ α ε)

/-- Some action leads from `s` to `s'` and reports `events`. -/
def Step (s : σ) (events : List ε) (s' : σ) : Prop :=
  ∃ action, M.step s action = some (s', events)

/-- Performs the actions in order, or fails at the first that does not apply. -/
def run : σ → List α → Option (σ × List ε)
  | s, [] => some (s, [])
  | s, action :: rest =>
    (M.step s action).bind fun next =>
      (run next.1 rest).map fun last => (last.1, next.2 ++ last.2)

/-- The state after the given actions, and the events they reported. -/
def after (s : σ) (actions : List α) : σ × List ε :=
  (M.run s actions).getD (s, [])

variable {M} {actions : List α} {events past : List ε} {s s' : σ} {action : α}

theorem run_eq_after (h : (M.run s actions).isSome = true) :
    M.run s actions = some (M.after s actions) := by
  obtain ⟨last, hrun⟩ := isSome_iff_exists.mp h
  rw [after, hrun, getD_some]

theorem runs_of_run (hrun : M.run s actions = some (s', events)) : Runs M.Step s events s' := by
  induction actions generalizing s s' events with
  | nil =>
    obtain ⟨rfl, rfl⟩ := hrun
    exact .refl s
  | cons action rest ih =>
    simp only [run, bind_eq_some_iff, map_eq_some_iff] at hrun
    obtain ⟨⟨s₁, first⟩, hstep, ⟨s₂, later⟩, hrest, heq⟩ := hrun
    obtain ⟨rfl, rfl⟩ := heq
    exact .head ⟨action, hstep⟩ (ih hrest)

theorem runs_after (h : (M.run s actions).isSome = true) :
    Runs M.Step s (M.after s actions).2 (M.after s actions).1 :=
  runs_of_run (run_eq_after h)

/-- Every run is the run of some actions. -/
theorem run_of_runs (hrun : Runs M.Step s events s') :
    ∃ actions, M.run s actions = some (s', events) := by
  induction hrun with
  | refl s => exact ⟨[], rfl⟩
  | head hfirst _ ih =>
    obtain ⟨action, hstep⟩ := hfirst
    obtain ⟨rest, hrest⟩ := ih
    exact ⟨action :: rest, by simp only [run, hstep, hrest, bind_some, map_some]⟩

/-- A property of the state, of the actions performed and of the events reported so far,
preserved by every action, holds at the end of a run that starts with it. -/
theorem run_history {I : σ → List α → List ε → Prop}
    (hstep : ∀ {s actions past action s' events}, I s actions past →
      M.step s action = some (s', events) → I s' (actions ++ [action]) (past ++ events))
    (performed : List α) (past : List ε) (hrun : M.run s actions = some (s', events))
    (hstart : I s performed past) : I s' (performed ++ actions) (past ++ events) := by
  induction actions generalizing s performed past events with
  | nil =>
    cases hrun
    simpa using hstart
  | cons action rest ih =>
    simp only [run, bind_eq_some_iff, map_eq_some_iff] at hrun
    obtain ⟨⟨s₁, first⟩, hfirst, ⟨s₂, later⟩, hrest, heq⟩ := hrun
    cases heq
    simpa using ih _ _ hrest (hstep hstart hfirst)

theorem run_concat {s''} (hrun : M.run s actions = some (s', past))
    (hstep : M.step s' action = some (s'', events)) :
    M.run s (actions ++ [action]) = some (s'', past ++ events) := by
  induction actions generalizing s past with
  | nil =>
    cases hrun
    simp [run, hstep]
  | cons first rest ih =>
    simp only [run, bind_eq_some_iff, map_eq_some_iff] at hrun
    obtain ⟨⟨s₁, earlier⟩, hfirst, ⟨s₂, later⟩, hrest, heq⟩ := hrun
    cases heq
    simp [run, hfirst, ih hrest]

/-- The same as `run_history`, from one state, where the run up to each step is known. -/
theorem run_reached {I : σ → List α → List ε → Prop}
    (hstep : ∀ {s₁ actions past action s₂ events}, M.run s actions = some (s₁, past) →
      I s₁ actions past → M.step s₁ action = some (s₂, events) →
      I s₂ (actions ++ [action]) (past ++ events)) (hrun : M.run s actions = some (s', events))
    (hstart : I s [] []) : I s' actions events := by
  let Reached := fun s₁ actions past => M.run s actions = some (s₁, past) ∧ I s₁ actions past
  have hkept : ∀ {s₁ actions past action s₂ events}, Reached s₁ actions past →
      M.step s₁ action = some (s₂, events) → Reached s₂ (actions ++ [action]) (past ++ events) :=
    fun ⟨hpre, h⟩ htaken => ⟨run_concat hpre htaken, hstep hpre h htaken⟩
  exact (run_history (I := Reached) hkept [] [] hrun ⟨rfl, hstart⟩).2

/-- Some action of the run is taken in a state such that `P` holds of both. -/
def Takes (M : Machine σ α ε) (s : σ) (actions : List α) (P : σ → α → Prop) : Prop :=
  ∃ before action rest s₁ past, actions = before ++ action :: rest ∧
    M.run s before = some (s₁, past) ∧ P s₁ action

section takes

variable {P : σ → α → Prop}

theorem not_takes_nil : ¬ M.Takes s [] P := by
  rintro ⟨before, action, rest, _, _, hsplit, _⟩
  exact append_ne_nil_of_right_ne_nil before (cons_ne_nil action rest) hsplit.symm

theorem takes_concat (hrun : M.run s actions = some (s', past)) :
    M.Takes s (actions ++ [action]) P ↔ M.Takes s actions P ∨ P s' action := by
  constructor
  · rintro ⟨before, taken, rest, s₁, earlier, hsplit, hpre, h⟩
    -- the action in question is the last one, or it was taken before
    rcases eq_nil_or_concat rest with rfl | ⟨later, last, rfl⟩
    · obtain ⟨rfl, hlast⟩ := append_inj' hsplit rfl
      obtain rfl : action = taken := singleton_inj.mp hlast
      rw [hrun] at hpre
      cases hpre
      exact .inr h
    · have hinit : actions ++ [action] = (before ++ taken :: later) ++ [last] := by
        rw [hsplit]
        simp
      obtain ⟨rfl, -⟩ := append_inj' hinit rfl
      exact .inl ⟨before, taken, later, s₁, earlier, rfl, hpre, h⟩
  · rintro (⟨before, taken, rest, s₁, earlier, rfl, hpre, h⟩ | h)
    · exact ⟨before, taken, rest ++ [action], s₁, earlier, by simp, hpre, h⟩
    · exact ⟨actions, action, [], s', past, rfl, hrun, h⟩

end takes

/-- Two states of a machine cannot be told apart by the allowed actions when each of
them applies in both or in neither, reports the same events in both and leads to
states that are related again. -/
theorem run_events_eq {R : σ → σ → Prop} {Allowed : α → Prop}
    (hstep : ∀ {s r action}, R s r → Allowed action →
      Option.Rel (fun next next' => next.2 = next'.2 ∧
      R next.1 next'.1) (M.step s action) (M.step r action)) {r}
    (hallowed : ∀ action ∈ actions, Allowed action) (h : R s r) :
    (M.run s actions).map Prod.snd = (M.run r actions).map Prod.snd := by
  induction actions generalizing s r with
  | nil => rfl
  | cons action rest ih =>
    have hfirst := hstep h (hallowed action mem_cons_self)
    simp only [run]
    generalize M.step s action = first at hfirst ⊢
    generalize M.step r action = first' at hfirst ⊢
    cases hfirst with
    | none => rfl
    | @some next next' hrelated =>
      obtain ⟨hevents, hnext⟩ := hrelated
      have hrest := ih (fun action hact => hallowed action (mem_cons_of_mem _ hact))
        hnext
      have hcongr := congrArg (Option.map (next.2 ++ ·)) hrest
      simpa only [bind_some, Option.map_map, Function.comp_def, hevents] using hcongr

end Machine

end Transition
