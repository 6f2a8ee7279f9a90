import PlenoraRuntime.Worker.Turn

/-!
# What an execution makes of its handler's answer

An execution that is not dropped, whose deadline does not elapse and whose token nobody
but its handler touches returns what the handler answered, unless the handler left the
token cancelled. `Place` says where the execution is, given the answer the handler will
give and the token it leaves; `verdict` is what the execution returns.
-/

namespace PlenoraRuntime.Worker

open Messaging Transition

variable {E : Type*} {executor : Executor E} {i : ℕ} {context : WorkerContext} {action : Action E}
  {v v' : View E} {events : List (Event E)} {answer : Option (Except E Unit)} {token : TokenState}
  {attempt : ℕ} {execution : Execution E} {result : Except E Unit}

/-- What an execution returns when its handler answered `result` and left `token`. -/
def verdict (executor : Executor E) (attempt : ℕ) (token : TokenState)
    (result : Except E Unit) : ExecutionResult E :=
  match token, result with
  | some reason, _ => .error (.cancelled reason)
  | none, .ok () => .ok ()
  | none, .error source => .error (.handler source (executor.retryPolicy attempt source))

/-- Where an execution is whose handler has answered, or not yet, and left `token`. -/
def Place (executor : Executor E) (attempt : ℕ) (answer : Option (Except E Unit))
    (token : TokenState) (v : View E) : Prop :=
  match v.phase with
  | .created | .checking | .gating | .waiting | .polling | .acquiring | .closed | .acquired
  | .confirming | .starting | .refused | .registering | .entering _ | .invoking _ =>
    v.token = none ∧ answer = none ∧ token = none
  | .handling _ | .watching _ | .beating _ => v.token = token
  | .handled _ result => v.token = token ∧ answer = some result
  | .failing _ source | .deciding _ source => token = none ∧ answer = some (.error source)
  | .expired _ _ => False
  | .cleaning _ stop => ∃ reason, stop = .cancelled reason ∧ token = some reason
  | .leaving _ outcome =>
    ∀ result, answer = some result → outcome = some (verdict executor attempt token result)
  | .done => True

/-- The action is a poll that the handler answers, or not one of those ruled out. -/
structure Action.Undisturbed (action : Action E) (i : ℕ) (answer : Option (Except E Unit)) :
    Prop where
  handler : ∀ input, action = .poll i input → input.handler = answer
  deadline : ∀ input, action = .poll i input → input.deadline = false
  drop : action ≠ .drop i
  panic : action = .panic i → answer = none

theorem place_iff_of_admitting {phase : Phase E} {reporter current} (h : phase.admitting = true) :
    Place executor attempt answer token ⟨phase, reporter, current⟩ ↔
      current = none ∧ answer = none ∧ token = none := by
  cases phase <;> first | exact Iff.rfl | cases h

theorem Turn.place (hturn : Turn executor i context action v events v')
    (hact : action.Undisturbed i answer)
    (hplace : Place executor context.task.attempt answer token v) :
    Place executor context.task.attempt answer token v' := by
  cases hturn with
  | start | register | enter | suspend | beat | resume | beaten | clean | failed
  | cancel | transition | release | guard | abandon | report | heartbeat => exact hplace
  | invoke =>
    obtain ⟨htoken, -, rfl⟩ := hplace
    exact htoken
  | advance hphase hphase' =>
    exact (place_iff_of_admitting hphase').mpr ((place_iff_of_admitting hphase).mp hplace)
  | reject hphase =>
    obtain ⟨-, rfl, -⟩ := (place_iff_of_admitting hphase).mp hplace
    intro result hres
    cases hres
  | forestall hphase =>
    obtain ⟨htoken, -⟩ := (place_iff_of_admitting hphase).mp hplace
    cases htoken
  | handle hhandler => exact ⟨hplace, (hact.handler _ rfl).symm.trans hhandler⟩
  | interrupt reason => exact ⟨reason, rfl, hplace.symm⟩
  | expire hdeadline => cases hdeadline.symm.trans (hact.deadline _ rfl)
  | overrule reason =>
    obtain ⟨rfl, -⟩ := hplace
    intro result _
    rfl
  | succeed | decide =>
    obtain ⟨rfl, rfl⟩ := hplace
    intro result hres
    cases hres
    rfl
  | fail =>
    obtain ⟨rfl, hans⟩ := hplace
    exact ⟨rfl, hans⟩
  -- No handler is given up for a deadline, because none elapses.
  | stop => cases hplace
  | cleaned =>
    obtain ⟨reason, rfl, rfl⟩ := hplace
    intro result _
    rfl
  | finish => trivial
  | dropUnpolled => exact absurd rfl hact.drop
  | unwind hcases =>
    rcases hcases with rfl | rfl
    · exact absurd rfl hact.drop
    · intro result hres
      cases (hact.panic rfl).symm.trans hres
  | policyPanic => cases (hact.panic rfl).symm.trans hplace.2

/-- An execution that is done has returned the verdict. -/
theorem Turn.finished_of_place {outcome} (hturn : Turn executor i context action v events v')
    (hact : action.Undisturbed i answer)
    (hplace : Place executor context.task.attempt answer token v)
    (hfin : .finished i outcome ∈ events) (hans : answer = some result) :
    outcome = some (verdict executor context.task.attempt token result) := by
  rcases (hturn.finished_inv hfin).2 with hphase | ⟨-, rfl⟩
  · rw [Place, hphase] at hplace
    exact hplace result hans
  · exact absurd rfl hact.drop

/-! ## It returns -/

/-- The polls an access takes. -/
def Op.weight : Op → ℕ
  | .dropGuard => 3
  | _ => 1

/-- The polls an execution takes at most to return, once its handler has answered. -/
def Phase.rank : Phase E → ℕ
  | .done => 0
  | .leaving ops _ => 1 + (ops.map Op.weight).sum
  | .deciding _ _ | .cleaning _ _ => 10
  | .failing _ _ => 11
  | .handled _ _ => 12
  | .handling _ => 13
  | .beating _ => 14
  | .watching _ => 15
  | _ => 16

/-- Every poll of an execution whose handler answers brings its return closer. -/
theorem Turn.rank_lt {input} (hturn : Turn executor i context (.poll i input) v events v')
    (hhandler : input.handler = some result) (hdeadline : input.deadline = false)
    (hplace : Place executor attempt (some result) token v) : v'.phase.rank < v.phase.rank := by
  cases hturn with
  | start | register | enter | invoke =>
    obtain ⟨-, hans, -⟩ := hplace
    cases hans
  | advance hphase | reject hphase | forestall hphase =>
    obtain ⟨-, hans, -⟩ := (place_iff_of_admitting hphase).mp hplace
    cases hans
  | suspend hnone | clean hnone => cases hnone.symm.trans hhandler
  | expire helapsed => cases helapsed.symm.trans hdeadline
  | stop => cases hplace
  | @release _ op => cases op <;> simp [Phase.rank, Op.weight]
  | unwind hcases => rcases hcases with hcases | hcases <;> cases hcases
  | abandon =>
    simp only [Phase.rank, Op.weight, List.map_cons, List.sum_cons]
    omega
  | _ => simp [Phase.rank, Phase.scope, Op.weight]

theorem State.poll_isSome (executor : Executor E) (s : State E) (i : ℕ) (input : Poll E)
    (hphase : execution.phase ≠ .done) : (s.poll i execution executor input).isSome = true := by
  unfold State.poll
  dsimp only
  split
  case h_25 hdone => exact absurd hdone hphase
  all_goals
    repeat' split
    all_goals rfl

/-- While it has not returned, an execution can be polled. -/
theorem exists_poll (executor : Executor E) {s : State E} (input : Poll E)
    (hexec : s.executions[i]? = some execution) (hphase : execution.phase ≠ .done) :
    ∃ s' events execution', step executor s (.poll i input) = some (s', events) ∧
      s'.executions[i]? = some execution' ∧ execution'.context = execution.context ∧
      Turn executor i execution.context (.poll i input) (s.view execution) events
        (s'.view execution') := by
  obtain ⟨⟨s', events⟩, hpoll⟩ := Option.isSome_iff_exists.mp
    (State.poll_isSome executor s i input hphase)
  have hstep : step executor s (.poll i input) = some (s', events) := by
    rw [step, hexec, Option.bind_some, hpoll]
  rcases (step_effect hstep).view hexec with ⟨execution', hexec', hctx, hturn⟩ | h
  · exact ⟨s', events, execution', hstep, hexec', hctx, hturn⟩
  · exact absurd rfl h.action_ne

end PlenoraRuntime.Worker
