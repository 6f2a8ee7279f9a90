import PlenoraRuntime.Apalis.Bridge
import PlenoraRuntime.Foundation.Streak

/-!
# Lease-loss detection

`execute_with_heartbeat` as the loop it is: a biased `select!` between the execution and
the timer, a heartbeat that the loop awaits, and a counter of failures in a row. Other
parties hold the task's token and may cancel it at any time.

The counter is the streak of failures at the end of the heartbeats' answers (`Watched`), so
the loop returns an error exactly if that streak reaches the limit.

The bridge sees the loop as a function of the answers and of the execution's result
(`heartbeatLoop`). Every run of the loop returns what that function does for the answers of the
run (`executeWithHeartbeat_of_run`), so what is shown of the bridge for all answers covers the
loop.
-/

namespace PlenoraRuntime.Apalis

open Messaging Worker Transition Streak List

variable {T : Type*} {answer : Except AckError Unit} {config : DeliveryHeartbeatConfig}

/-- Where `execute_with_heartbeat` is. -/
inductive LeasePhase (T : Type*)
  /-- In the `select!`, after the given number of failures in a row. -/
  | selecting (failures : ℕ)
  | renewing (failures : ℕ)
  | returned (result : Except AckError T)

structure Lease (T : Type*) where
  phase : LeasePhase T := .selecting 0
  token : TokenState := none

inductive LeaseAction (T : Type*)
  /-- The `select!` is polled; what the execution and the timer answer. -/
  | poll (outcome : Option T) (elapsed : Bool)
  | renewed (answer : Except AckError Unit)
  | cancel (reason : TaskCancellationReason)

inductive LeaseEvent
  | sent
  | answered (answer : Except AckError Unit)
  | cancelled (reason : TaskCancellationReason)
  deriving DecidableEq

/-- One step of the loop, or of someone else who holds the token. -/
def Lease.step (config : DeliveryHeartbeatConfig) (s : Lease T) :
    LeaseAction T → Option (Lease T × List LeaseEvent)
  | .poll outcome elapsed =>
    match s.phase with
    | .selecting failures =>
      -- `biased`: a timer that elapsed as well is not looked at.
      match outcome with
      | some outcome => some ({ s with phase := .returned (.ok outcome) }, [])
      | none =>
        if elapsed then some ({ s with phase := .renewing failures }, [.sent])
        else some (s, [])
    | _ => none
  | .renewed answer =>
    match s.phase with
    | .renewing failures =>
      match answer with
      | .ok () => some ({ s with phase := .selecting 0 }, [.answered answer])
      | .error error =>
        let failures := saturatingAddU32 failures 1
        if config.maxConsecutiveFailures.val ≤ failures then
          some ({ phase := .returned (.error error)
                  token := (s.token.cancel .leaseLost).1 }, [.answered answer])
        else some ({ s with phase := .selecting failures }, [.answered answer])
    | _ => none
  | .cancel reason => some ({ s with token := (s.token.cancel reason).1 }, [.cancelled reason])

/-- `execute_with_heartbeat` under every answer and every cancellation. -/
def leaseMachine (T : Type*) (config : DeliveryHeartbeatConfig) :
    Machine (Lease T) (LeaseAction T) LeaseEvent where
  step := Lease.step config

/-! ## The history -/

def answers (history : List LeaseEvent) : List (Except AckError Unit) :=
  history.filterMap fun
    | .answered answer => some answer
    | _ => none

def cancels (history : List LeaseEvent) : List TaskCancellationReason :=
  history.filterMap fun
    | .cancelled reason => some reason
    | _ => none

def failed (answer : Except AckError Unit) : Bool :=
  !answer.isOk

variable {history : List LeaseEvent}

section history

variable {reason : TaskCancellationReason}

@[simp] theorem answers_append (later : List LeaseEvent) :
    answers (history ++ later) = answers history ++ answers later :=
  filterMap_append

@[simp] theorem answers_sent : answers [.sent] = [] := rfl
@[simp] theorem answers_answered : answers [.answered answer] = [answer] := rfl
@[simp] theorem answers_cancelled : answers [.cancelled reason] = [] := rfl

@[simp] theorem cancels_append (later : List LeaseEvent) :
    cancels (history ++ later) = cancels history ++ cancels later :=
  filterMap_append

@[simp] theorem cancels_sent : cancels [.sent] = [] := rfl
@[simp] theorem cancels_answered : cancels [.answered answer] = [] := rfl
@[simp] theorem cancels_cancelled : cancels [.cancelled reason] = [reason] := rfl

theorem answers_of_cancelled {later} (h : ∀ event ∈ later, ∃ reason, event = .cancelled reason) :
    answers later = [] := by
  refine filterMap_eq_nil_iff.mpr fun event hevent => ?_
  obtain ⟨reason, rfl⟩ := h event hevent
  rfl

end history

/-! ## Runs -/

/-- The lease was lost with the given answer, and the loop is left since. -/
def Lost (config : DeliveryHeartbeatConfig) (error : AckError) (token : TokenState)
    (history : List LeaseEvent) : Prop :=
  ∃ before after, history = before ++ .answered (.error error) :: after ∧
    config.maxConsecutiveFailures.val ≤ streak failed (answers before ++ [.error error]) ∧
    (∀ event ∈ after, ∃ reason, event = .cancelled reason) ∧
    token = some ((cancels before).head?.getD .leaseLost)

/-- What the loop knows of the heartbeats. -/
def Watched (config : DeliveryHeartbeatConfig) (s : Lease T) (actions : List (LeaseAction T))
    (history : List LeaseEvent) : Prop :=
  match s.phase with
  | .selecting failures | .renewing failures =>
    failures = streak failed (answers history) ∧
      failures < config.maxConsecutiveFailures.val ∧ s.token = (cancels history).head?
  | .returned (.ok outcome) =>
    streak failed (answers history) < config.maxConsecutiveFailures.val ∧
      ∃ elapsed, .poll (some outcome) elapsed ∈ actions
  | .returned (.error error) => Lost config error s.token history

variable {events : List LeaseEvent}

section steps

variable {s s' : Lease T} {actions : List (LeaseAction T)} {action : LeaseAction T}

theorem Lost.cancel {error token} (h : Lost config error token history)
    (reason : TaskCancellationReason) :
    Lost config error (token.cancel reason).1 (history ++ [.cancelled reason]) := by
  obtain ⟨before, after, rfl, hstreak, hafter, rfl⟩ := h
  exact ⟨before, after ++ [.cancelled reason], by simp, hstreak,
    forall_mem_concat hafter ⟨reason, rfl⟩, rfl⟩

theorem token_cancel_head (history : List LeaseEvent) (reason : TaskCancellationReason) :
    (TokenState.cancel (cancels history).head? reason).1 =
      (cancels (history ++ [.cancelled reason])).head? := by
  rw [cancels_append]
  cases cancels history <;> rfl

theorem Watched.cancel (h : Watched config s actions history) (reason : TaskCancellationReason) :
    Watched config { s with token := (s.token.cancel reason).1 } (actions ++ [.cancel reason])
      (history ++ [.cancelled reason]) := by
  obtain ⟨phase, token⟩ := s
  cases phase with
  | selecting failures | renewing failures =>
    obtain ⟨hfails, hlt, htoken⟩ := h
    obtain rfl : token = _ := htoken
    refine ⟨?_, hlt, token_cancel_head history reason⟩
    rw [answers_append, answers_cancelled, append_nil]
    exact hfails
  | returned result =>
    cases result with
    | ok outcome =>
      obtain ⟨hstreak, elapsed, hmem⟩ := h
      refine ⟨?_, elapsed, mem_append_left _ hmem⟩
      rw [answers_append, answers_cancelled, append_nil]
      exact hstreak
    | error error => exact Lost.cancel h reason

theorem Watched.poll {outcome} {elapsed : Bool} (h : Watched config s actions history)
    (hstep : s.step config (.poll outcome elapsed) = some (s', events)) :
    Watched config s' (actions ++ [.poll outcome elapsed]) (history ++ events) := by
  obtain ⟨phase, token⟩ := s
  cases phase with
  | renewing | returned => cases hstep
  | selecting failures =>
    obtain ⟨hfails, hlt, htoken⟩ := h
    cases outcome with
    | some outcome =>
      cases hstep
      rw [append_nil]
      exact ⟨hfails ▸ hlt, elapsed, by simp⟩
    | none =>
      cases elapsed with
      | true =>
        cases hstep
        refine ⟨?_, hlt, ?_⟩
        · rwa [answers_append, answers_sent, append_nil]
        · rwa [cancels_append, cancels_sent, append_nil]
      | false =>
        cases hstep
        rw [append_nil]
        exact ⟨hfails, hlt, htoken⟩

theorem Watched.renewed (h : Watched config s actions history)
    (hstep : s.step config (.renewed answer) = some (s', events)) :
    Watched config s' (actions ++ [.renewed answer]) (history ++ events) := by
  obtain ⟨phase, token⟩ := s
  cases phase with
  | selecting | returned => cases hstep
  | renewing failures =>
    obtain ⟨rfl, hlt, htoken⟩ := h
    have hkept : ∀ answer, (cancels (history ++ [.answered answer])).head? =
        (cancels history).head? := by simp
    cases answer with
    | ok =>
      cases hstep
      refine ⟨?_, config.failures_pos, htoken.trans (hkept _).symm⟩
      rw [answers_append, answers_answered, streak_concat]
      rfl
    | error error =>
      have hcount : streak failed (answers history ++ [.error error]) =
          saturatingAddU32 (streak failed (answers history)) 1 := by
        have hroom : streak failed (answers history) + 1 ≤ Word.maxValue 32 := by
          unfold Word.maxValue
          omega
        rw [streak_concat, saturatingAddU32, Word.saturatingAdd, Nat.min_eq_left hroom]
        rfl
      simp only [Lease.step] at hstep
      rw [← hcount] at hstep
      split at hstep <;> obtain ⟨rfl, rfl⟩ := Prod.mk.inj (Option.some.inj hstep)
      case isTrue hreached =>
        refine ⟨history, [], rfl, hreached, by simp, ?_⟩
        obtain rfl : token = _ := htoken
        cases (cancels history).head? <;> rfl
      case isFalse hbelow =>
        refine ⟨?_, not_le.mp hbelow, htoken.trans (hkept _).symm⟩
        rw [answers_append, answers_answered]

theorem Watched.step (h : Watched config s actions history)
    (hstep : (leaseMachine T config).step s action = some (s', events)) :
    Watched config s' (actions ++ [action]) (history ++ events) := by
  cases action with
  | poll outcome elapsed => exact h.poll hstep
  | renewed answer => exact h.renewed hstep
  | cancel reason =>
    cases hstep
    exact h.cancel reason

theorem watched_of_run (hrun : (leaseMachine T config).run {} actions = some (s, history)) :
    Watched config s actions history := by
  have hinit : Watched config ({} : Lease T) [] [] := ⟨rfl, config.failures_pos, rfl⟩
  exact Machine.run_reached (I := Watched config) (fun _ h hstep => h.step hstep) hrun hinit

end steps

/-- The lease is lost, and an error returned, exactly if the last heartbeats have failed as
often as the configuration allows. The error is that of the last heartbeat, after which
none is sent, and the task is cancelled: for the lost lease, unless someone else came first.
Otherwise the execution's outcome is returned as soon as the loop sees it. -/
theorem lease_loss_detection {config : DeliveryHeartbeatConfig} {actions : List (LeaseAction T)}
    {s : Lease T} {history : List LeaseEvent}
    (hrun : (leaseMachine T config).run {} actions = some (s, history)) :
    ((∃ error, s.phase = .returned (.error error)) ↔
      EndsRun config.maxConsecutiveFailures.val failed (answers history)) ∧
    (∀ error, s.phase = .returned (.error error) →
      ∃ before after, history = before ++ .answered (.error error) :: after ∧
        (∀ event ∈ after, ∃ reason, event = .cancelled reason) ∧
        s.token = some ((cancels before).head?.getD .leaseLost)) ∧
    (∀ outcome, s.phase = .returned (.ok outcome) →
      ∃ elapsed, .poll (some outcome) elapsed ∈ actions) ∧
    (∀ failures outcome elapsed, s.phase = .selecting failures →
      (leaseMachine T config).step s (.poll (some outcome) elapsed) =
        some ({ s with phase := .returned (.ok outcome) }, [])) := by
  have hwatched := watched_of_run hrun
  obtain ⟨phase, token⟩ := s
  rw [← le_streak_iff]
  refine ⟨?_, ?_, ?_, ?_⟩
  · -- The failures in a row are those the loop has counted.
    cases phase with
    | selecting | renewing =>
      obtain ⟨rfl, hlt, -⟩ := hwatched
      exact iff_of_false (by simp) (not_le.mpr hlt)
    | returned result =>
      cases result with
      | ok outcome => exact iff_of_false (by simp) (not_le.mpr hwatched.1)
      | error error =>
        obtain ⟨before, after, rfl, hstreak, hafter, -⟩ := hwatched
        refine iff_of_true ⟨error, rfl⟩ ?_
        rw [← List.singleton_append, ← List.append_assoc, answers_append,
          answers_of_cancelled hafter, List.append_nil, answers_append, answers_answered]
        exact hstreak
  · rintro error rfl
    obtain ⟨before, after, hhistory, -, hafter, htoken⟩ := hwatched
    exact ⟨before, after, hhistory, hafter, htoken⟩
  · rintro outcome rfl
    exact hwatched.2
  · rintro failures outcome elapsed rfl
    rfl

/-- The heartbeats fail until the lease is lost, while someone else cancels the task. -/
def Sample.leaseLost : List (LeaseAction Unit) :=
  [.poll none true, .renewed (.error ⟨.heartbeat, []⟩), .cancel .requested, .poll none false,
    .poll none true, .renewed (.error ⟨.heartbeat, []⟩)]

def Sample.twoFailures : DeliveryHeartbeatConfig where
  interval := 1
  maxConsecutiveFailures := 2
  interval_pos := Nat.one_pos
  failures_pos := Nat.two_pos

theorem lease_loss_detection_leaseLost :
    let s := (leaseMachine Unit Sample.twoFailures).after {} Sample.leaseLost
    s.1.phase = .returned (.error ⟨.heartbeat, []⟩) ∧ s.1.token = some .requested ∧
      EndsRun 2 failed (answers s.2) := by
  have hrun : (leaseMachine Unit Sample.twoFailures).run {} Sample.leaseLost =
      some ((leaseMachine Unit Sample.twoFailures).after {} Sample.leaseLost) :=
    Machine.run_eq_after rfl
  exact ⟨rfl, rfl, (lease_loss_detection hrun).1.mp ⟨_, rfl⟩⟩

/-! ## The bridge's view of the loop -/

section bridge

variable {M E : Type*} {s s' : Lease (ExecutionResult E)}
  {actions : List (LeaseAction (ExecutionResult E))} {action : LeaseAction (ExecutionResult E)}

/-- What the bridge's loop returns. -/
def bridged (M : Type*) (config : DeliveryHeartbeatConfig) (result : ExecutionResult E)
    (failures : ℕ) (later : List (Except AckError Unit)) : Except AckError (ExecutionResult E) :=
  (heartbeatLoop (T := M) config.maxConsecutiveFailures.val result failures later).2

/-- The bridge's loop has come as far as the loop has. -/
def Agrees (M : Type*) (config : DeliveryHeartbeatConfig) (phase : LeasePhase (ExecutionResult E))
    (answers : List (Except AckError Unit)) : Prop :=
  match phase with
  | .selecting failures | .renewing failures => ∀ (result : ExecutionResult E) later,
      bridged M config result 0 (answers ++ later) = bridged M config result failures later
  | .returned (.ok result) => bridged M config result 0 answers = .ok result
  | .returned (.error error) =>
    ∀ result : ExecutionResult E, bridged M config result 0 answers = .error error

theorem Agrees.renewed (h : Agrees M config s.phase (answers history))
    (hstep : s.step config (.renewed answer) = some (s', events)) :
    Agrees M config s'.phase (answers (history ++ events)) := by
  obtain ⟨phase, token⟩ := s
  cases phase with
  | selecting | returned => cases hstep
  | renewing failures =>
    have hloop : ∀ result later, bridged M config result 0 (answers history ++ later) =
        bridged M config result failures later := h
    cases answer with
    | ok =>
      cases hstep
      intro result later
      rw [answers_append, append_assoc, hloop]
      rfl
    | error error =>
      simp only [Lease.step] at hstep
      split at hstep <;> obtain ⟨rfl, rfl⟩ := Prod.mk.inj (Option.some.inj hstep)
      case isTrue hreached =>
        intro result
        rw [answers_append, answers_answered, hloop, bridged, heartbeatLoop, if_pos hreached]
      case isFalse hbelow =>
        intro result later
        rw [answers_append, answers_answered, append_assoc, hloop, bridged,
          singleton_append, heartbeatLoop, if_neg hbelow]
        rfl

theorem Agrees.step (h : Agrees M config s.phase (answers history))
    (hstep : (leaseMachine (ExecutionResult E) config).step s action = some (s', events)) :
    Agrees M config s'.phase (answers (history ++ events)) := by
  cases action with
  | renewed answer => exact h.renewed hstep
  | cancel reason =>
    cases hstep
    rwa [answers_append, answers_cancelled, append_nil]
  | poll outcome elapsed =>
    obtain ⟨phase, token⟩ := s
    cases phase with
    | renewing | returned => cases hstep
    | selecting failures =>
      have hloop : ∀ result later, bridged M config result 0 (answers history ++ later) =
          bridged M config result failures later := h
      cases outcome with
      | some outcome =>
        cases hstep
        rw [append_nil]
        have hdone := hloop outcome []
        rw [append_nil] at hdone
        exact hdone
      | none =>
        cases elapsed with
        | true =>
          cases hstep
          rw [answers_append, answers_sent, append_nil]
          exact hloop
        | false =>
          cases hstep
          rw [append_nil]
          exact hloop

/-- The bridge's loop returns what the loop returns. -/
theorem executeWithHeartbeat_of_run
    (hrun : (leaseMachine (ExecutionResult E) config).run {} actions = some (s, history))
    {returned} (hphase : s.phase = .returned returned) {result}
    (hresult : ∀ outcome, returned = .ok outcome → outcome = result) :
    (executeWithHeartbeat (T := M) ⟨answers history, result⟩ config).2 = returned := by
  have hinit : Agrees M config ({} : Lease (ExecutionResult E)).phase (answers []) :=
    fun _ _ => rfl
  have hagrees : Agrees M config s.phase (answers history) :=
    Machine.run_reached (I := fun (s : Lease (ExecutionResult E)) _ history =>
      Agrees M config s.phase (answers history)) (fun _ h hstep => h.step hstep) hrun hinit
  rw [hphase] at hagrees
  cases returned with
  | ok outcome =>
    obtain rfl := hresult outcome rfl
    exact hagrees
  | error error => exact hagrees result

end bridge

end PlenoraRuntime.Apalis
