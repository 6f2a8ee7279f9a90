import PlenoraRuntime.Worker.Lifecycle

/-!
# Moments of one execution

Some results say how an execution ends from what it met on its way: a poll in a certain
view. `PolledIn` says that a run went through such a poll. `Follows` is an invariant of
one execution that speaks of the polls it met; like `Holds`, it is kept by the execution's
own turns and by whoever cancels its token, and `Follows.run` is the run lemma.
-/

namespace PlenoraRuntime.Worker

open Messaging Transition

variable {E : Type*} {executor : Executor E} {i : ℕ} {s s' : State E} {action : Action E}
  {actions : List (Action E)} {history events : List (Event E)} {execution : Execution E}

/-- Execution `i` is polled in a view with `Q`. -/
def PollsIn (i : ℕ) (Q : View E → Prop) (s : State E) (action : Action E) : Prop :=
  action.execution? = some i ∧ action.isPoll = true ∧
    ∃ execution, s.executions[i]? = some execution ∧ Q (s.view execution)

def PolledIn (executor : Executor E) (actions : List (Action E)) (i : ℕ)
    (Q : View E → Prop) : Prop :=
  (machine executor).Takes executor.init actions (PollsIn i Q)

/-- An invariant of execution `i` that speaks of whether it was polled in a view
with `Q`. -/
structure Follows (executor : Executor E) (i : ℕ) (Q : View E → Prop)
    (K : Prop → View E → List (Event E) → Prop) : Prop where
  created : ∀ token, K False ⟨.created, {}, token⟩ []
  turn : ∀ {met : Prop} {s s' action execution execution' past events},
    s.executions[i]? = some execution → s'.executions[i]? = some execution' →
    step executor s action = some (s', events) →
    Turn executor i execution.context action (s.view execution) events (s'.view execution') →
    K met (s.view execution) past →
    K (met ∨ action.isPoll = true ∧ Q (s.view execution)) (s'.view execution') (past ++ events)
  cancel : ∀ {met : Prop} {v past} reason, K met v past →
    K met { v with token := (v.token.cancel reason).1 } past

variable {Q : View E → Prop} {K : Prop → View E → List (Event E) → Prop}

theorem poll_of_step {input : Poll E} (hexec : s.executions[i]? = some execution)
    (hstep : step executor s (.poll i input) = some (s', events)) :
    s.poll i execution executor input = some (s', events) := by
  rwa [step, hexec] at hstep

theorem Action.eq_poll (hexec : action.execution? = some i) (hpoll : action.isPoll = true) :
    ∃ input, action = .poll i input := by
  cases action with
  | poll j input =>
    obtain rfl : j = i := by simpa [Action.execution?] using hexec
    exact ⟨input, rfl⟩
  | _ => cases hpoll

theorem pollsIn_iff (hexec : s.executions[i]? = some execution)
    (hact : action.execution? = some i) :
    PollsIn i Q s action ↔ action.isPoll = true ∧ Q (s.view execution) := by
  constructor
  · rintro ⟨-, hpoll, other, hother, h⟩
    cases hexec.symm.trans hother
    exact ⟨hpoll, h⟩
  · rintro ⟨hpoll, h⟩
    exact ⟨hact, hpoll, execution, hexec, h⟩

/-- What the invariant says in a state of the executor. -/
private structure Traced (executor : Executor E) (i : ℕ) (Q : View E → Prop)
    (K : Prop → View E → List (Event E) → Prop) (s : State E) (actions : List (Action E))
    (history : List (Event E)) : Prop where
  absent : s.executions[i]? = none → ¬ PolledIn executor actions i Q ∧ eventsOf i history = []
  present : ∀ execution, s.executions[i]? = some execution →
    K (PolledIn executor actions i Q) (s.view execution) (eventsOf i history)

private theorem Traced.step (hK : Follows executor i Q K)
    (hrun : (machine executor).run executor.init actions = some (s, history))
    (h : Traced executor i Q K s actions history)
    (hstep : (machine executor).step s action = some (s', events)) :
    Traced executor i Q K s' (actions ++ [action]) (history ++ events) := by
  have heff := step_effect hstep
  have hpolled : PolledIn executor (actions ++ [action]) i Q ↔ _ := Machine.takes_concat hrun
  cases hexec : s.executions[i]? with
  | none =>
    obtain ⟨-, hevents, hnew⟩ := heff.absent hexec
    obtain ⟨hnever, hnone⟩ := h.absent hexec
    rw [← eventsOf_append_of_ne hevents] at hnone
    have hstill : ¬ PolledIn executor (actions ++ [action]) i Q := by
      rw [hpolled]
      rintro (hpre | ⟨-, -, other, hother, -⟩)
      · exact hnever hpre
      · rw [hexec] at hother
        cases hother
    refine ⟨fun _ => ⟨hstill, hnone⟩, fun execution hexec' => ?_⟩
    obtain ⟨context, rfl⟩ := hnew execution hexec'
    rw [hnone, eq_false hstill]
    exact hK.created _
  | some execution =>
    have hpre := h.present execution hexec
    rcases heff.view hexec with ⟨execution', hexec', -, hturn⟩ | hleaves
    · refine ⟨fun habsent => by simp [habsent] at hexec', fun other hother => ?_⟩
      cases hexec'.symm.trans hother
      rw [eventsOf_append hturn.event_execution?, propext hpolled,
        propext (pollsIn_iff hexec hturn.action_execution?)]
      exact hK.turn hexec hexec' hstep hturn hpre
    · have hkept := hleaves.kept
      have hsame : PolledIn executor (actions ++ [action]) i Q ↔
          PolledIn executor actions i Q := by
        rw [hpolled]
        exact or_iff_left fun hpolls => hleaves.action_ne hpolls.1
      refine ⟨fun habsent => by simp [habsent] at hkept, fun other hother => ?_⟩
      cases hkept.symm.trans hother
      rw [eventsOf_append_of_ne hleaves.event_ne, propext hsame]
      rcases hleaves.view with hview | ⟨-, reason, hcancel⟩
      · rw [hview]
        exact hpre
      · rw [hcancel]
        exact hK.cancel reason hpre

theorem Follows.run (hK : Follows executor i Q K)
    (hrun : (machine executor).run executor.init actions = some (s, history))
    (hexec : s.executions[i]? = some execution) :
    K (PolledIn executor actions i Q) (s.view execution) (eventsOf i history) := by
  have hinit : Traced executor i Q K executor.init [] [] := by
    refine ⟨fun _ => ⟨Machine.not_takes_nil, rfl⟩, fun execution hexec => ?_⟩
    simp [Executor.init] at hexec
  exact (Machine.run_reached (I := Traced executor i Q K) (fun hrun h hstep => h.step hK hrun hstep)
    hrun hinit).present execution hexec

end PlenoraRuntime.Worker
