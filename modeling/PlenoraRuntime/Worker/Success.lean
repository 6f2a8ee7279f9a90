import PlenoraRuntime.Worker.Turn

/-!
# Only a handler that succeeded makes an execution succeed

An execution that is about to return `Ok`, or has returned it, has seen its handler
complete with `Ok`.
-/

namespace PlenoraRuntime.Worker

open Messaging Transition List

variable {E : Type*}

def Phase.succeeded : Phase E → Bool
  | .handled _ result => result.isOk
  | .leaving _ outcome => outcome.any Except.isOk
  | _ => false

/-- An execution that succeeds or has returned `Ok` has a handler that succeeded. -/
structure Successful (i : ℕ) (v : View E) (events : List (Event E)) : Prop where
  succeeding : v.phase.succeeded = true → .handled i (.ok ()) ∈ events
  returned : .finished i (some (.ok ())) ∈ events → .handled i (.ok ()) ∈ events

variable {executor : Executor E} {s : State E} {i : ℕ} {context : WorkerContext}
  {action : Action E} {v v' : View E} {past events history : List (Event E)}

theorem not_succeeded_of_admitting {phase : Phase E} (h : phase.admitting = true) :
    phase.succeeded = false := by
  cases phase <;> first | rfl | cases h

/-- A turn makes a success only of a handler that completes with `Ok`. -/
theorem Turn.succeeded (hturn : Turn executor i context action v events v')
    (hsucc : v'.phase.succeeded = true) :
    v.phase.succeeded = true ∨ .handled i (.ok ()) ∈ events := by
  cases hturn with
  | @handle _ taskId reporter token result =>
    cases result with
    | ok => exact .inr mem_cons_self
    | error => cases hsucc
  | advance _ hphase' =>
    rw [not_succeeded_of_admitting hphase'] at hsucc
    cases hsucc
  | succeed => exact .inl rfl
  | cancel | transition | release | guard | abandon | report | heartbeat =>
    exact .inl hsucc
  | _ => cases hsucc

theorem Successful.turn (h : Successful i v past)
    (hturn : Turn executor i context action v events v') : Successful i v' (past ++ events) := by
  constructor
  · intro hsucc
    rcases hturn.succeeded hsucc with hold | hnew
    · exact mem_append_left _ (h.succeeding hold)
    · exact mem_append_right _ hnew
  · intro hfin
    rcases mem_append.mp hfin with hold | hnew
    · exact mem_append_left _ (h.returned hold)
    · rcases (hturn.finished_inv hnew).2 with hphase | ⟨hnone, -⟩
      · exact mem_append_left _ (h.succeeding (by rw [hphase]; rfl))
      · cases hnone

end PlenoraRuntime.Worker
