import PlenoraRuntime.Capabilities.Discipline
import PlenoraRuntime.Worker.Answer

/-!
# The dispatcher as the handler of an executor

`CapabilityDispatcher` runs as the handler of a `WorkerExecutor`, and both hold the
cancellation token of the task. A dispatch advances while its execution polls the
handler: one step for each of its calls, the last of which it returns with. What the
execution then makes of the returned error depends on the token alone, and the dispatcher
cancels the token itself when the deadline of a request passes.
-/

namespace PlenoraRuntime.Capabilities

open Messaging Worker List

/-! ## Requests that are overdue -/

/-- A poll finds that the invocation has ended before a timer of `remaining` runs out. -/
def Invocation.EndsBy (remaining : Duration) : Invocation → Prop
  | .completes elapses _ | .panics elapses => elapses remaining = false
  | .stalls => False

variable {remaining : Duration}

theorem Invocation.timeout_eq_elapsed_iff {invocation : Invocation} :
    invocation.timeout remaining = .elapsed ↔ ¬ invocation.EndsBy remaining := by
  cases invocation with
  | completes elapses result | panics elapses =>
    cases helapses : elapses remaining <;> simp [timeout, EndsBy, helapses]
  | stalls => simp [timeout, EndsBy]

section overdue

variable {parseFromRfc3339 : Text → Option OffsetDateTime} {dispatcher : CapabilityDispatcher}
  {now deadline : SystemTime} {context : WorkerContext} {request : CapabilityRequest}
  {registration : CapabilityRegistration}

variable (parseFromRfc3339 dispatcher now context request) in
/-- The request is admitted with a deadline, and the timer of the time that remains runs
out on its adapter. -/
def Overdue : Prop :=
  ∃ registration value deadline,
    Admitted parseFromRfc3339 dispatcher now request registration ∧
    request.input.headers.get executionDeadlineMetadataKey = some value ∧
    parseFromRfc3339 value = some ⟨deadline, 0⟩ ∧
    ¬ (registration.handler context request).EndsBy (deadline - now).toNat

theorem admission_of_admitted {value}
    (hadm : Admitted parseFromRfc3339 dispatcher now request registration)
    (hvalue : request.input.headers.get executionDeadlineMetadataKey = some value)
    (hparse : parseFromRfc3339 value = some ⟨deadline, 0⟩) :
    dispatcher.admission parseFromRfc3339 now request =
      .ok (registration, some (deadline - now).toNat) := by
  obtain ⟨hbound, hreg, hdisc, htimely⟩ := hadm
  obtain ⟨hutf8, timely, htimely, hnow⟩ := htimely value hvalue
  obtain rfl : timely = deadline :=
    (OffsetDateTime.mk.inj (Option.some.inj (htimely.symm.trans hparse))).1
  have hvalid : registration.discovery.elim (.ok ()) (·.validateRequest request) = .ok () := by
    cases hdiscovery : registration.discovery with
    | none => rfl
    | some discovery =>
      exact discovery.validateRequest_eq_ok_iff.mpr (hdisc discovery hdiscovery)
  have hdeadline : requestDeadline parseFromRfc3339 request = .ok (some timely) :=
    requestDeadline_eq_ok_some_iff.mpr ⟨value, hvalue, hutf8, hparse⟩
  have hduration : durationSince timely now = some (timely - now).toNat := if_pos hnow
  simp only [CapabilityDispatcher.admission, if_neg (Nat.not_lt.mpr hbound), hreg,
    hvalid, hdeadline, hduration]

theorem deadline_of_admission
    (h : dispatcher.admission parseFromRfc3339 now request = .ok (registration, some remaining)) :
    ∃ value deadline, request.input.headers.get executionDeadlineMetadataKey = some value ∧
      parseFromRfc3339 value = some ⟨deadline, 0⟩ ∧ remaining = (deadline - now).toNat := by
  simp only [CapabilityDispatcher.admission, Guard.ite_error_eq_ok] at h
  obtain ⟨-, h⟩ := h
  split at h
  case h_1 => cases h
  case h_2 =>
    split at h
    case h_1 => cases h
    case h_2 =>
      split at h
      case h_1 => cases h
      case h_2 => cases h
      case h_3 deadline hdeadline =>
        obtain ⟨value, hvalue, -, hparse⟩ := requestDeadline_eq_ok_some_iff.mp hdeadline
        refine ⟨value, deadline, hvalue, hparse, ?_⟩
        split at h
        case h_1 => cases h
        case h_2 left hleft =>
          obtain rfl : left = remaining :=
            Option.some.inj (Prod.mk.inj (Except.ok.inj h)).2
          unfold durationSince at hleft
          split at hleft
          · exact (Option.some.inj hleft).symm
          · cases hleft

/-- The dispatcher cancels the token of a request that is overdue. -/
theorem handle_of_overdue (h : Overdue parseFromRfc3339 dispatcher now context request) :
    dispatcher.handle parseFromRfc3339 now context request =
      ([.invoke request.capability context request, .cancel context.cancellation .timeout],
        some (.error (.deadlineExceeded request.capability request.operation true))) := by
  obtain ⟨registration, value, deadline, hadm, hvalue, hparse, hlate⟩ := h
  simp only [CapabilityDispatcher.handle, admission_of_admitted hadm hvalue hparse,
    Option.elim_some, Invocation.timeout_eq_elapsed_iff.mpr hlate]

theorem Completion.not_cancel {expected response events returned}
    (h : Completion dispatcher expected response events returned) (token : ℕ)
    (reason : TaskCancellationReason) : .cancel token reason ∉ events := by
  cases h <;> simp

theorem handle_of_not_overdue (h : ¬ Overdue parseFromRfc3339 dispatcher now context request)
    (token : ℕ) (reason : TaskCancellationReason) :
    .cancel token reason ∉ (dispatcher.handle parseFromRfc3339 now context request).1 := by
  unfold CapabilityDispatcher.handle
  dsimp only
  split
  case h_1 => simp
  case h_2 registration remaining hadm =>
    split
    case h_1 => simp
    case h_2 helapsed =>
      exfalso
      cases remaining with
      | none =>
        cases hinvocation : registration.handler context request <;>
          simp [hinvocation, Invocation.await] at helapsed
      | some remaining =>
        obtain ⟨value, deadline, hvalue, hparse, rfl⟩ := deadline_of_admission hadm
        exact h ⟨registration, value, deadline, admission_admitted hadm, hvalue, hparse,
          Invocation.timeout_eq_elapsed_iff.mp helapsed⟩
    case h_3 => simp
    case h_4 response _ =>
      simp only [mem_cons, not_or]
      exact ⟨nofun, nofun, completeResponse_completion.not_cancel token reason⟩

end overdue

/-! ## The composed system -/

/-- An executor whose handler is a dispatcher, and the request of each execution. -/
structure Host where
  executor : Executor CapabilityDispatchError
  dispatcher : CapabilityDispatcher
  parseFromRfc3339 : Text → Option OffsetDateTime
  requests : ℕ → CapabilityRequest

namespace Hosted

/-- Where a dispatch is: it has the given calls before it when it returns, if it does. -/
inductive Dispatch
  | idle
  | awaiting (calls : List Capabilities.Event)
      (returned : Option (Except CapabilityDispatchError Unit))
  | returning (result : Except CapabilityDispatchError Unit)

/-- A dispatch returns with its last call. -/
def Dispatch.settle (calls : List Capabilities.Event)
    (returned : Option (Except CapabilityDispatchError Unit)) : Dispatch :=
  match calls, returned with
  | [], some result => .returning result
  | calls, returned => .awaiting calls returned

/-- What the handler answers when it is polled. -/
def Dispatch.answer : Dispatch → Option (Except CapabilityDispatchError Unit)
  | .returning result => some result
  | .idle | .awaiting _ _ => none

def Dispatch.isLost : Dispatch → Bool
  | .awaiting [] none => true
  | _ => false

structure State where
  worker : Worker.State CapabilityDispatchError
  dispatches : ℕ → Dispatch

inductive Event
  | worker (event : Worker.Event CapabilityDispatchError)
  /-- The dispatcher was called, when its clock showed `now`. -/
  | dispatched (execution : ℕ) (now : SystemTime)
  | returned (execution : ℕ) (result : Except CapabilityDispatchError Unit)

inductive Action
  | worker (action : Worker.Action CapabilityDispatchError)
  | dispatch (execution : ℕ) (now : SystemTime)

def pollsHandler : Phase CapabilityDispatchError → Bool
  | .handling _ | .cleaning _ _ => true
  | _ => false

/-- What a call of the dispatcher does to the executor. -/
def perform (worker : Worker.State CapabilityDispatchError) :
    Capabilities.Event → Worker.State CapabilityDispatchError
  | .cancel token reason => worker.cancelToken token reason
  | .invoke .. | .answer _ | .publish .. => worker

namespace State

variable (host : Host) (s : State) (i : ℕ)

def settle (calls : List Capabilities.Event)
    (returned : Option (Except CapabilityDispatchError Unit)) : State × List Event :=
  let dispatch := Dispatch.settle calls returned
  ({ s with dispatches := Function.update s.dispatches i dispatch },
    dispatch.answer.toList.map (.returned i))

/-- The next step of the dispatch of execution `i`. -/
def advance (execution : Execution CapabilityDispatchError) (now : SystemTime) :
    Option (State × List Event) :=
  if pollsHandler execution.phase then
    match s.dispatches i with
    | .idle =>
      let (calls, returned) := host.dispatcher.handle host.parseFromRfc3339 now
        execution.context (host.requests i)
      let (s, events) := s.settle i calls returned
      some (s, .dispatched i now :: events)
    | .awaiting (call :: calls) returned =>
      some ({ s with worker := perform s.worker call }.settle i calls returned)
    | .awaiting [] _ | .returning _ => none
  else none

/-- The handler of an execution answers what its dispatch returned, and only a dispatch
that is lost panics. -/
def hosted : Worker.Action CapabilityDispatchError → Option (Worker.Action CapabilityDispatchError)
  | .poll i input => some (.poll i { input with handler := (s.dispatches i).answer })
  | .panic i => if (s.dispatches i).isLost then some (.panic i) else none
  | action => some action

end State

def step (host : Host) (s : State) : Action → Option (State × List Event)
  | .worker action =>
    (s.hosted action).bind fun action =>
      (Worker.step host.executor s.worker action).map fun next =>
        ({ s with worker := next.1 }, next.2.map .worker)
  | .dispatch i now =>
    s.worker.executions[i]?.bind fun execution => s.advance host i execution now

def machine (host : Host) : Transition.Machine State Action Event where
  step := step host

def init (host : Host) : State where
  worker := host.executor.init
  dispatches := fun _ => .idle

/-! ## What is known of a dispatch -/

def Event.execution? : Event → Option ℕ
  | .worker event => event.execution?
  | .dispatched i _ | .returned i _ => some i

abbrev handled (host : Host) (i : ℕ) (context : WorkerContext) (now : SystemTime) :
    List Capabilities.Event × Option (Except CapabilityDispatchError Unit) :=
  host.dispatcher.handle host.parseFromRfc3339 now context (host.requests i)

abbrev IsOverdue (host : Host) (i : ℕ) (context : WorkerContext) (now : SystemTime) : Prop :=
  Overdue host.parseFromRfc3339 host.dispatcher now context (host.requests i)

/-- What was reported of a dispatch, and the token it leaves. -/
inductive Ledger (host : Host) (i : ℕ) (context : WorkerContext) (history : List Event) :
    Dispatch → TokenState → Prop
  | idle (hdisp : ∀ now, .dispatched i now ∉ history)
      (hret : ∀ result, .returned i result ∉ history) :
      Ledger host i context history .idle none
  | awaiting {now performed calls returned} (hdisp : ∀ t, .dispatched i t ∈ history ↔ t = now)
      (hret : ∀ result, .returned i result ∉ history)
      (hhandle : handled host i context now = (performed ++ calls, returned))
      (hplain : ∀ token reason, .cancel token reason ∉ performed) :
      Ledger host i context history (.awaiting calls returned) none
  | returning {now result token} (hdisp : ∀ t, .dispatched i t ∈ history ↔ t = now)
      (hret : ∀ other, .returned i other ∈ history ↔ other = result)
      (htoken : IsOverdue host i context now ∧ token = some .timeout ∨
        ¬ IsOverdue host i context now ∧ token = none) :
      Ledger host i context history (.returning result) token

section ledger

variable {host : Host} {i : ℕ} {context : WorkerContext} {history events : List Event}
  {dispatch : Dispatch} {token : TokenState} {now : SystemTime}
  {calls : List Capabilities.Event} {returned : Option (Except CapabilityDispatchError Unit)}

theorem Ledger.append (h : Ledger host i context history dispatch token)
    (hdisp : ∀ now, .dispatched i now ∉ events)
    (hret : ∀ result, .returned i result ∉ events) :
    Ledger host i context (history ++ events) dispatch token := by
  cases h with
  | idle hnone hunret =>
    exact .idle (by simp [hnone, hdisp]) (by simp [hunret, hret])
  | awaiting honce hunret hhandle hplain =>
    exact .awaiting (by simp [honce, hdisp]) (by simp [hunret, hret]) hhandle
      hplain
  | returning honce hres htoken =>
    exact .returning (by simp [honce, hdisp]) (by simp [hres, hret]) htoken

theorem cancel_mem_iff {k : ℕ} {reason} :
    .cancel k reason ∈ (handled host i context now).1 ↔
      IsOverdue host i context now ∧ k = context.cancellation ∧ reason = .timeout := by
  by_cases h : IsOverdue host i context now
  · rw [handled, handle_of_overdue h]
    simp [h]
  · simp [h, handle_of_not_overdue h]

/-- A dispatch that has cancelled nothing goes on or returns. -/
theorem Ledger.settle {performed} (hdisp : ∀ t, .dispatched i t ∈ history ↔ t = now)
    (hret : ∀ result, .returned i result ∉ history)
    (hhandle : handled host i context now = (performed ++ calls, returned))
    (hplain : ∀ token reason, .cancel token reason ∉ performed) :
    Ledger host i context
      (history ++ (Dispatch.settle calls returned).answer.toList.map (.returned i))
      (Dispatch.settle calls returned) none := by
  unfold Dispatch.settle
  split
  case h_1 result =>
    have hintime : ¬ IsOverdue host i context now := by
      intro hoverdue
      have hcancel := cancel_mem_iff.mpr ⟨hoverdue, rfl, rfl⟩
      rw [hhandle, append_nil] at hcancel
      exact hplain _ _ hcancel
    exact .returning (by simp [hdisp])
      (by simp [Dispatch.answer, hret]) (.inr ⟨hintime, rfl⟩)
  case h_2 =>
    simp only [Dispatch.answer, Option.toList_none, map_nil, append_nil]
    exact .awaiting hdisp hret hhandle hplain

/-- A dispatch that cancels the token of its execution returns. -/
theorem Ledger.cancel {performed} {k : ℕ} {reason}
    (hdisp : ∀ t, .dispatched i t ∈ history ↔ t = now)
    (hret : ∀ result, .returned i result ∉ history)
    (hhandle : handled host i context now = (performed ++ .cancel k reason :: calls, returned)) :
    k = context.cancellation ∧ reason = .timeout ∧
      Ledger host i context
        (history ++ (Dispatch.settle calls returned).answer.toList.map (.returned i))
        (Dispatch.settle calls returned) (some .timeout) := by
  have hmem : .cancel k reason ∈ (handled host i context now).1 := by
    rw [hhandle]
    simp
  obtain ⟨hoverdue, rfl, rfl⟩ := cancel_mem_iff.mp hmem
  refine ⟨rfl, rfl, ?_⟩
  rw [handled, handle_of_overdue hoverdue, Prod.mk.injEq] at hhandle
  obtain ⟨hcalls, rfl⟩ := hhandle
  -- The two calls of an overdue dispatch: the second one is the last.
  have hlast : calls = [] := by
    match performed, hcalls with
    | [], hcalls => cases hcalls
    | [_], hcalls =>
      simp only [cons_append, nil_append, List.cons.injEq] at hcalls
      exact hcalls.2.2.symm
    | _ :: _ :: _, hcalls =>
      simp at hcalls
  subst hlast
  exact .returning (by simp [hdisp])
    (by simp [Dispatch.settle, Dispatch.answer, hret]) (.inl ⟨hoverdue, rfl⟩)

/-- What a step of a dispatch does to the executor: nothing, or it cancels the token. -/
theorem Ledger.advance {s s' : State} {execution : Execution CapabilityDispatchError}
    (h : Ledger host i execution.context history (s.dispatches i) token)
    (hadv : s.advance host i execution now = some (s', events)) :
    pollsHandler execution.phase = true ∧ token = none ∧
      (∀ event ∈ events, event.execution? = some i) ∧ (∀ event, .worker event ∉ events) ∧
      (∀ j, j ≠ i → s'.dispatches j = s.dispatches j) ∧
      ∃ token', Ledger host i execution.context (history ++ events) (s'.dispatches i) token' ∧
        (token' = none ∧ s'.worker = s.worker ∨ token' = some .timeout ∧
          s'.worker = s.worker.cancelToken execution.context.cancellation .timeout) := by
  unfold State.advance at hadv
  split at hadv
  case isFalse => cases hadv
  case isTrue hpolls =>
    split at hadv
    case h_1 hidle =>
      rw [hidle] at h
      cases hadv
      cases h with
      | idle hdisp hret =>
        -- The dispatcher is called here and nowhere else.
        have honce : ∀ t, .dispatched i t ∈ history ++ [.dispatched i now] ↔ t = now := by
          simp [hdisp]
        have hledger := Ledger.settle honce (by simp [hret])
          (show handled host i execution.context now = ([] ++ _, _) from rfl) (by simp)
        refine ⟨hpolls, rfl, by simp [Event.execution?], by simp,
          fun j hj => Function.update_of_ne hj _ _, none, ?_, .inl ⟨rfl, rfl⟩⟩
        simpa using hledger
    case h_2 call calls returned hawaiting =>
      rw [hawaiting] at h
      cases hadv
      cases h with
      | @awaiting called performed _ _ hdisp hret hhandle hplain =>
        refine ⟨hpolls, rfl, by simp [Event.execution?], by simp,
          fun j hj => Function.update_of_ne hj _ _, ?_⟩
        cases call with
        | cancel k reason =>
          -- The one cancellation there can be is that of the deadline.
          obtain ⟨rfl, rfl, hledger⟩ := Ledger.cancel hdisp hret hhandle
          refine ⟨_, ?_, .inr ⟨rfl, rfl⟩⟩
          simpa using hledger
        | invoke | answer | publish =>
          rw [append_cons] at hhandle
          have hledger := Ledger.settle hdisp hret hhandle (by simp [hplain])
          refine ⟨none, ?_, .inl ⟨rfl, rfl⟩⟩
          simpa using hledger
    case h_3 | h_4 => cases hadv

end ledger

end Hosted

end PlenoraRuntime.Capabilities
