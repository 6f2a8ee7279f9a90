import PlenoraRuntime.Messaging.Retry
import PlenoraRuntime.Worker.Turn

/-!
# The elapsed-time budget of a worker's retries

A message is driven through the executor attempt by attempt: its handler fails, the
executor answers with a delay, and the next attempt starts when that has passed. The
executor asks its policy with `decide`, which knows the number of the attempt and nothing
of the time that has gone by.

* `decision_of_finished`: what the executor answers is what the policy says of the attempt
  and the error, in every run.
* `exists_driven`: every sequence of attempts that the policy goes on with is a run.
* `retry_budget_iff`: the delays add up to no more than the budget, in all runs, exactly
  when they do as long as each of them fits into the budget on its own.
-/

namespace PlenoraRuntime.Worker

open Messaging Transition List

variable {E : Type*} {i : ℕ} {s : State E} {history events : List (Event E)}
  {context : WorkerContext} {execution : Execution E} {executor : Executor E}

/-! ## What an execution answers -/

/-- The error of the handler and the decision that are returned with it. -/
def decisionOf : Option (ExecutionResult E) → Option (E × RetryDecision)
  | some (.error (.handler source decision)) => some (source, decision)
  | _ => none

/-- What an execution that leaves is going to return, when it asked the policy. -/
def Phase.decision : Phase E → Option (E × RetryDecision)
  | .leaving _ outcome => decisionOf outcome
  | _ => none

/-- An execution that returns its handler's error has asked the policy about it. -/
structure Decided (executor : Executor E) (i attempt : ℕ) (v : View E) (events : List (Event E)) :
    Prop where
  leaving : ∀ source decision, v.phase.decision = some (source, decision) →
    decision = executor.retryPolicy attempt source
  returned : ∀ source decision, .finished i (some (.error (.handler source decision))) ∈ events →
    decision = executor.retryPolicy attempt source

variable {phase : Phase E}

section decided

variable {action : Action E} {v v' : View E} {past : List (Event E)} {source : E}
  {decision : RetryDecision}

theorem decision_of_admitting (h : phase.admitting = true) : phase.decision = none := by
  cases phase <;> first | rfl | cases h

theorem Turn.decided (hturn : Turn executor i context action v events v')
    (h : v'.phase.decision = some (source, decision)) :
    v.phase.decision = some (source, decision) ∨
      decision = executor.retryPolicy context.task.attempt source := by
  cases hturn with
  | decide =>
    cases h
    exact .inr rfl
  | cancel | transition | release | guard | abandon | report | heartbeat => exact .inl h
  | advance _ hphase' =>
    rw [decision_of_admitting hphase'] at h
    cases h
  | @cleaned _ _ stop =>
    cases stop with
    | cancelled reason => cases h
    | deadline timeout observed =>
      simp only [Stop.ending] at h
      split_ifs at h <;> cases h
  | _ => cases h

theorem Decided.turn (h : Decided executor i context.task.attempt v past)
    (hturn : Turn executor i context action v events v') :
    Decided executor i context.task.attempt v' (past ++ events) := by
  constructor
  · intro source decision hphase
    rcases hturn.decided hphase with hpre | hnow
    · exact h.leaving source decision hpre
    · exact hnow
  · intro source decision hfin
    rcases mem_append.mp hfin with hold | hnew
    · exact h.returned source decision hold
    · rcases (hturn.finished_inv hnew).2 with hphase | ⟨hnone, -⟩
      · exact h.leaving source decision (by rw [hphase]; rfl)
      · cases hnone

/-- In every run, the decision that is returned with a handler's error is the policy's, for
the attempt the execution was called with. -/
theorem decision_of_finished (hreach : Reaches executor history s)
    (hexec : s.executions[i]? = some execution)
    (hfin : .finished i (some (.error (.handler source decision))) ∈ history) :
    decision = executor.retryPolicy execution.context.task.attempt source := by
  obtain ⟨actions, hrun⟩ := Machine.run_of_runs hreach
  have hholds : HoldsIn executor i fun context v _ events =>
      Decided executor i context.task.attempt v events :=
    ⟨fun _ _ => ⟨nofun, nofun⟩, fun h hturn => h.turn hturn,
      fun _ h => ⟨h.leaving, h.returned⟩⟩
  exact (hholds.run hrun hexec).returned source decision ((mem_eventsOf rfl).mpr hfin)

end decided

/-! ## A failed attempt from beginning to end -/

/-- Nothing stands in the way of an execution with the given signal and token. -/
structure State.Idle (executor : Executor E) (shutdown cancellation : ℕ) (s : State E) : Prop where
  accepting : s.admission = .accepting
  inFlight : s.inFlight = 0
  permits : s.permits = ⟨executor.maxInFlight, false⟩
  tasks : s.registry.tasks = []
  token : s.tokens cancellation = none
  signal : s.shutdowns shutdown = false

/-- The state with one more execution. -/
def State.with (s : State E) (execution : Execution E) : State E :=
  { s with executions := s.executions ++ [execution] }

section attempt

variable {s' : State E} {reporter : LifecycleState} {execution' : Execution E} {input : Poll E}
  {now : SystemTime}

/-- What is reported of an execution, and when. -/
def Event.At (i : ℕ) (now : SystemTime) : Event E → Prop
  | .lifecycle j event => j = i ∧ event.observedAt = now
  | _ => True

theorem at_record {kind : TaskLifecycleEventKind} :
    ∀ event ∈ (reporter.record context.task now kind).2.toOption.toList.map
      (Event.lifecycle (E := E) i), event.At i now := by
  simp only [LifecycleState.record]
  split_ifs
  · intro event hevent
    obtain rfl := mem_singleton.mp hevent
    exact ⟨rfl, rfl⟩
  · simp [Except.toOption]

theorem at_transition {state : TaskState} :
    ∀ event ∈ (reporter.transition context.task now state).2.toList.map
      (Event.lifecycle (E := E) i), event.At i now := by
  unfold LifecycleState.transition
  split_ifs
  · simp
  · exact at_record

/-- Polls of one execution at one time lead from a state to another. -/
def Goes (executor : Executor E) (i : ℕ) (now : SystemTime) (s s' : State E) : Prop :=
  ∃ events, Runs (machine executor).Step s events s' ∧ ∀ event ∈ events, event.At i now

theorem Goes.trans {s₁ s₂ s₃ : State E} (h : Goes executor i now s₁ s₂)
    (h' : Goes executor i now s₂ s₃) : Goes executor i now s₁ s₃ := by
  obtain ⟨events, hruns, hat⟩ := h
  obtain ⟨later, hruns', hat'⟩ := h'
  refine ⟨events ++ later, hruns.trans hruns', fun event hevent => ?_⟩
  rcases mem_append.mp hevent with hevent | hevent
  · exact hat event hevent
  · exact hat' event hevent

instance (i : ℕ) (now : SystemTime) :
    Trans (Goes executor i now) (Goes executor i now) (Goes executor i now) :=
  ⟨Goes.trans⟩

theorem step_with (input : Poll E)
    (hpoll : (s.with execution).poll s.executions.length execution executor input =
      some (s'.with execution', events)) :
    (machine executor).Step (s.with execution) events (s'.with execution') := by
  refine ⟨.poll s.executions.length input, ?_⟩
  have hexec : (s.with execution).executions[s.executions.length]? = some execution := by
    simp [State.with]
  simp only [machine, step, hexec]
  exact hpoll

theorem goes_of_poll (input : Poll E)
    (hpoll : (s.with execution).poll s.executions.length execution executor input =
      some (s'.with execution', events))
    (hat : ∀ event ∈ events, event.At s.executions.length now) :
    Goes executor s.executions.length now (s.with execution) (s'.with execution') :=
  ⟨events, .single (step_with input hpoll), hat⟩

theorem goes_silently (input : Poll E)
    (hpoll : (s.with execution).poll s.executions.length execution executor input =
      some (s'.with execution', [])) :
    Goes executor s.executions.length now (s.with execution) (s'.with execution') :=
  goes_of_poll input hpoll (by simp)

theorem Executor.maxInFlight_pos (executor : Executor E) : 0 < executor.maxInFlight := by
  have hvalid := executor.valid
  unfold WorkerConfig.validate at hvalid
  split_ifs at hvalid with hzero
  exact Nat.pos_of_ne_zero fun h => hzero (Fin.ext h)

attribute [local simp] State.poll State.checkShutdown State.checkCancellation State.enter
  State.setExecution State.with State.perform State.reported State.leave

theorem goes_admitted (hidle : s.Idle executor context.shutdown context.cancellation)
    (now : SystemTime) :
    ∃ reporter, Goes executor s.executions.length now (s.with ⟨context, {}, .created⟩)
      ({ s with permits := ⟨executor.maxInFlight - 1, false⟩ }.with
        ⟨context, reporter, .starting⟩) := by
  have hpos := executor.maxInFlight_pos
  have hpermits := hidle.permits
  let input : Poll E := { now := now, granted := true }
  let reporter := (LifecycleState.start context.task now).1
  let acquired : State E := { s with permits := ⟨executor.maxInFlight - 1, false⟩ }
  refine ⟨reporter, ?_⟩
  calc Goes executor s.executions.length now (s.with ⟨context, {}, .created⟩)
        (s.with ⟨context, reporter, .checking⟩) :=
      goes_of_poll input (by simp [input, reporter]; rfl) at_record
    Goes executor s.executions.length now _ (s.with ⟨context, reporter, .gating⟩) :=
      goes_silently input (by simp [hidle.signal])
    Goes executor s.executions.length now _ (s.with ⟨context, reporter, .waiting⟩) :=
      goes_silently input (by simp [hidle.accepting])
    Goes executor s.executions.length now _ (s.with ⟨context, reporter, .polling⟩) :=
      goes_silently input (by simp [hidle.signal])
    Goes executor s.executions.length now _ (s.with ⟨context, reporter, .acquiring⟩) :=
      goes_silently input (by simp [hidle.token])
    Goes executor s.executions.length now _ (acquired.with ⟨context, reporter, .acquired⟩) :=
      goes_silently input (by simp [acquired, hpermits, hpos])
    Goes executor s.executions.length now _ (acquired.with ⟨context, reporter, .confirming⟩) :=
      goes_silently (s := acquired) input (by simp [acquired, hidle.signal])
    Goes executor s.executions.length now _ (acquired.with ⟨context, reporter, .starting⟩) :=
      goes_silently (s := acquired) input (by simp [acquired, hidle.token])

/-- A registry without tasks takes the next identity. -/
theorem register_of_empty {registry : ActiveTaskRegistryState} (h : registry.tasks = [])
    {capacity : ℕ} (hpos : 0 < capacity) (task : TaskIdentity) (now : SystemTime) (token : ℕ) :
    ∃ registry' taskId, registry.register capacity task now token = (registry', .ok taskId) ∧
      (registry'.remove taskId).tasks = [] := by
  have hcap : capacity ≠ 0 := Nat.ne_of_gt hpos
  refine ⟨(registry.register capacity task now token).1, registry.nextTaskId, ?_, ?_⟩ <;>
    simp [ActiveTaskRegistryState.register, ActiveTaskRegistryState.allocateTaskId,
      ActiveTaskRegistryState.remove, allocateTaskIdFrom, h, hcap, OrderedTable.get,
      OrderedTable.insert, OrderedTable.erase, Keyed.lookup, Keyed.erase]

/-- An execution that holds a permit starts and calls its handler. -/
theorem goes_entered (executor : Executor E) (context : WorkerContext)
    (reporter : LifecycleState) (hadm : s.admission = .accepting)
    (hinFlight : s.inFlight = 0) (htasks : s.registry.tasks = []) (now : SystemTime) :
    ∃ registry taskId reporter',
      Goes executor s.executions.length now (s.with ⟨context, reporter, .starting⟩)
        ({ s with inFlight := 1, registry }.with ⟨context, reporter', .handling taskId⟩) ∧
      (registry.remove taskId).tasks = [] := by
  obtain ⟨registry, taskId, hreg, hgone⟩ := register_of_empty htasks
    executor.maxInFlight_pos context.task now context.cancellation
  let input : Poll E := { now := now }
  let started : State E := { s with inFlight := 1 }
  let entered : State E := { s with inFlight := 1, registry }
  let reporter' := (reporter.transition context.task now .running).1
  have hone : saturatingAdd 0 1 = 1 := by decide
  refine ⟨registry, taskId, reporter', ?_, hgone⟩
  calc Goes executor s.executions.length now (s.with ⟨context, reporter, .starting⟩)
        (started.with ⟨context, reporter, .registering⟩) := goes_of_poll input
          (by simp [started, hadm, hinFlight, hone]; rfl) (by simp [Event.At])
    Goes executor s.executions.length now _ (entered.with ⟨context, reporter, .entering taskId⟩) :=
      goes_of_poll (s := started) input
        (by simp [started, entered, input, hreg]; rfl) (by simp [Event.At])
    Goes executor s.executions.length now _ (entered.with ⟨context, reporter', .invoking taskId⟩) :=
      goes_of_poll (s := entered) input (by simp [input, reporter']; rfl) at_transition
    Goes executor s.executions.length now _ (entered.with ⟨context, reporter', .handling taskId⟩) :=
      goes_of_poll (s := entered) input (by simp; rfl) (by simp [Event.At])

theorem goes_decided (executor : Executor E) (reporter : LifecycleState)
    (htoken : s.tokens context.cancellation = none) (now : SystemTime) (taskId : WorkerTaskId)
    (source : E) :
    ∃ reporter',
      Goes executor s.executions.length now (s.with ⟨context, reporter, .handling taskId⟩)
        (s.with ⟨context, reporter',
          .leaving [.deregister taskId, .finish, .notify, .release] (some (.error (.handler source
            (executor.retryPolicy context.task.attempt source))))⟩) := by
  let input : Poll E := { now := now, handler := some (.error source) }
  let reporter' := (reporter.transition context.task now .failed).1
  refine ⟨reporter', ?_⟩
  calc Goes executor s.executions.length now (s.with ⟨context, reporter, .handling taskId⟩)
        (s.with ⟨context, reporter, .handled taskId (.error source)⟩) :=
      goes_of_poll input (by simp [input]; rfl) (by simp [Event.At])
    Goes executor s.executions.length now _ (s.with ⟨context, reporter, .failing taskId source⟩) :=
      goes_silently input (by simp [htoken])
    Goes executor s.executions.length now _
        (s.with ⟨context, reporter', .deciding taskId source⟩) :=
      goes_of_poll input (by simp [input, reporter']; rfl) at_transition
    Goes executor s.executions.length now _ _ := goes_silently input (by simp [Phase.scope])

theorem goes_left (executor : Executor E) (s : State E) (context : WorkerContext)
    (reporter : LifecycleState) (taskId : WorkerTaskId) (outcome : Option (ExecutionResult E))
    (now : SystemTime) :
    Goes executor s.executions.length now
      (s.with ⟨context, reporter,
        .leaving [.deregister taskId, .finish, .notify, .release] outcome⟩)
      ({ s with
          registry := s.registry.remove taskId
          inFlight := s.inFlight - 1
          notifications := s.notifications + 1
          permits := { s.permits with available := s.permits.available + 1 } }.with
        ⟨context, reporter, .leaving [] outcome⟩) := by
  let input : Poll E := { now := now }
  let removed : State E := { s with registry := s.registry.remove taskId }
  let finished : State E := { removed with inFlight := s.inFlight - 1 }
  let notified : State E := { finished with notifications := s.notifications + 1 }
  calc Goes executor s.executions.length now _
        (removed.with ⟨context, reporter, .leaving [.finish, .notify, .release] outcome⟩) :=
      goes_silently input (by simp [removed])
    Goes executor s.executions.length now _
        (finished.with ⟨context, reporter, .leaving [.notify, .release] outcome⟩) :=
      goes_silently (s := removed) input (by simp [removed, finished])
    Goes executor s.executions.length now _
        (notified.with ⟨context, reporter, .leaving [.release] outcome⟩) :=
      goes_silently (s := finished) input (by simp [removed, finished, notified])
    Goes executor s.executions.length now _ _ :=
      goes_silently (s := notified) input (by simp [removed, finished, notified])

/-- An idle executor takes an attempt whose handler fails, answers with the policy's
decision and is idle again. -/
theorem exists_attempt (context : WorkerContext)
    (hidle : s.Idle executor context.shutdown context.cancellation) (now : SystemTime)
    (source : E) :
    ∃ events s' execution', Runs (machine executor).Step s events s' ∧
      s'.Idle executor context.shutdown context.cancellation ∧
      s'.executions = s.executions ++ [execution'] ∧ execution'.context = context ∧
      .finished s.executions.length (some (.error (.handler source
        (executor.retryPolicy context.task.attempt source)))) ∈ events ∧
      ∀ event ∈ events, event.At s.executions.length now := by
  let i := s.executions.length
  let result : ExecutionResult E :=
    .error (.handler source (executor.retryPolicy context.task.attempt source))
  -- Admission, the call of the handler, the decision and the way out, one after the other.
  obtain ⟨reporter₁, hadm⟩ := goes_admitted hidle now
  let acquired : State E := { s with permits := ⟨executor.maxInFlight - 1, false⟩ }
  obtain ⟨registry, taskId, reporter₂, hentered, hgone⟩ :=
    goes_entered (s := acquired) executor context reporter₁ hidle.accepting hidle.inFlight
      hidle.tasks now
  let entered : State E := { acquired with inFlight := 1, registry }
  obtain ⟨reporter₃, hdec⟩ :=
    goes_decided (s := entered) executor reporter₂ hidle.token now taskId source
  let left : State E :=
    { entered with
      registry := registry.remove taskId
      inFlight := 0
      notifications := s.notifications + 1
      permits := ⟨executor.maxInFlight - 1 + 1, false⟩ }
  have hleft : Goes executor i now _
      (left.with ⟨context, reporter₃, .leaving [] (some result)⟩) :=
    goes_left executor entered context reporter₃ taskId (some result) now
  obtain ⟨events, hruns, hat⟩ := hadm.trans (hentered.trans (hdec.trans hleft))
  have hexecute : (machine executor).Step s [] (s.with ⟨context, {}, .created⟩) :=
    ⟨.execute context, rfl⟩
  have hfinish : (machine executor).Step (left.with ⟨context, reporter₃, .leaving [] (some result)⟩)
      [.finished i (some result)] (left.with ⟨context, reporter₃, .done⟩) :=
    step_with { now := now }
      (by simp [left, entered, acquired, i])
  refine ⟨events ++ [.finished i (some result)], left.with ⟨context, reporter₃, .done⟩,
    ⟨context, reporter₃, .done⟩, .silent hexecute (hruns.trans (.single hfinish)), ?_, rfl, rfl,
    by simp [i, result], ?_⟩
  · -- The permit and the slot are given back.
    refine ⟨hidle.accepting, rfl, ?_, hgone, hidle.token, hidle.signal⟩
    have hpos := executor.maxInFlight_pos
    simp only [State.with, left]
    congr
    omega
  · intro event hevent
    rcases mem_append.mp hevent with hevent | hevent
    · exact hat event hevent
    · obtain rfl := mem_singleton.mp hevent
      trivial

end attempt

/-! ## Messages that fail again and again -/

def Sample.attempt (attempt : ℕ) : WorkerContext :=
  { Sample.context with task := { Sample.context.task with attempt } }

/-- Attempts one after the other, each at a time of its own. -/
theorem exists_attempts (executor : Executor E) (times : ℕ → SystemTime) (source : E) (n : ℕ) :
    ∃ history s, Reaches executor history s ∧ s.Idle executor 0 0 ∧ s.executions.length = n ∧
      (∀ k < n, ∃ execution, s.executions[k]? = some execution ∧
        execution.context = Sample.attempt (k + 1) ∧
        .finished k (some (.error (.handler source (executor.retryPolicy (k + 1) source)))) ∈
          history) ∧
      ∀ k event, .lifecycle k event ∈ history → event.observedAt = times k := by
  induction n with
  | zero =>
    exact ⟨[], executor.init, .refl _, ⟨rfl, rfl, rfl, rfl, rfl, rfl⟩, rfl, by simp, by simp⟩
  | succ n ih =>
    obtain ⟨history, s, hreach, hidle, hlen, hanswers, htimes⟩ := ih
    obtain ⟨events, s', execution', hruns, hidle', hexecs, hctx, hfin, hat⟩ :=
      exists_attempt (Sample.attempt (n + 1)) hidle (times n) source
    refine ⟨history ++ events, s', hreach.trans hruns, hidle', by simp [hexecs, hlen],
      fun k hk => ?_, fun k event hevent => ?_⟩
    · rcases Nat.lt_succ_iff_lt_or_eq.mp hk with hlt | rfl
      · obtain ⟨execution, hexec, hsame, hans⟩ := hanswers k hlt
        refine ⟨execution, ?_, hsame, mem_append_left _ hans⟩
        rw [hexecs, getElem?_append_left (by omega), hexec]
      · refine ⟨execution', ?_, hctx, mem_append_right _ (hlen ▸ hfin)⟩
        rw [hexecs, ← hlen, getElem?_concat_length]
    · rcases mem_append.mp hevent with hevent | hevent
      · exact htimes k event hevent
      · obtain ⟨rfl, htime⟩ := hat _ hevent
        rw [htime, hlen]

def Executor.withBackoff (config : WorkerConfig) (valid : config.validate = .ok ())
    (policy : ExponentialBackoff) (retryClass : E → RetryErrorClass) : Executor E where
  config := config
  retryPolicy := fun attempt error => policy.decide attempt (retryClass error)
  valid := valid

theorem retryPolicy_withBackoff (config : WorkerConfig) (valid : config.validate = .ok ())
    (policy : ExponentialBackoff) (retryClass : E → RetryErrorClass) (attempt : ℕ) (error : E) :
    (Executor.withBackoff config valid policy retryClass).retryPolicy attempt error =
      policy.decide attempt (retryClass error) := rfl

/-- The attempts of a message, by execution and returned delay: each failed with a retryable
error, and none started before the delay returned for the one before had passed. -/
structure Driven (retryClass : E → RetryErrorClass) (s : State E) (history : List (Event E))
    (message : MessageId) (attempts : List (ℕ × Duration)) : Prop where
  answered : ∀ (k i : ℕ) (delay : Duration), attempts[k]? = some (i, delay) → ∃ execution source,
    s.executions[i]? = some execution ∧ execution.context.task.messageId = message ∧
      execution.context.task.attempt = k + 1 ∧ retryClass source = .retryable ∧
      .finished i (some (.error (.handler source (.retryAfter delay)))) ∈ history
  waited : ∀ (k i j : ℕ) (delay later : Duration), attempts[k]? = some (i, delay) →
    attempts[k + 1]? = some (j, later) → ∀ ended started, .lifecycle i ended ∈ history →
    ended.kind = .stateChanged .failed → .lifecycle j started ∈ history →
    started.kind = .stateChanged .queued → ended.observedAt + Int.ofNat delay ≤ started.observedAt

def delays (policy : ExponentialBackoff) (n : ℕ) : List Duration :=
  (List.range n).map fun k => policy.delayForAttempt (k + 1)

/-- As long as there are attempts left and every delay fits into the budget on its own, all of
them together do. -/
def Fits (policy : ExponentialBackoff) (budget : Duration) : Prop :=
  ∀ n < policy.config.maxAttempts,
    (∀ delay ∈ delays policy n, delay ≤ budget ∧ delay ≤ durationMax) →
      (delays policy n).sum ≤ budget

section budget

variable {policy : ExponentialBackoff} {budget : Duration} {retryClass : E → RetryErrorClass}
  {config : WorkerConfig} {valid : config.validate = .ok ()} {message : MessageId}
  {attempts : List (ℕ × Duration)}

theorem Driven.delays (h : Driven retryClass s history message attempts)
    (hreach : Reaches (.withBackoff config valid policy retryClass) history s)
    (hbudget : policy.config.maxElapsed = some budget) :
    attempts.map Prod.snd = delays policy attempts.length ∧
      ∀ k < attempts.length, k + 1 < policy.config.maxAttempts ∧
        policy.delayForAttempt (k + 1) ≤ budget ∧
        policy.delayForAttempt (k + 1) ≤ durationMax := by
  have hall : ∀ k i delay, attempts[k]? = some (i, delay) →
      k + 1 < policy.config.maxAttempts ∧ delay = policy.delayForAttempt (k + 1) ∧
        0 < budget ∧ delay ≤ budget ∧ delay ≤ durationMax := by
    intro k i delay hatt
    obtain ⟨execution, source, hexec, -, hnumber, hclass, hfin⟩ :=
      h.answered k i delay hatt
    have hdec := decision_of_finished hreach hexec hfin
    rw [hnumber, retryPolicy_withBackoff, hclass] at hdec
    simpa using (ExponentialBackoff.decide_retryable_iff hbudget).mp hdec.symm
  constructor
  · refine ext_getElem (by simp [Worker.delays]) fun k hk hk' => ?_
    rw [length_map] at hk
    have hdelay := (hall k _ _ (getElem?_eq_getElem hk)).2.1
    simpa [Worker.delays] using hdelay
  · intro k hk
    obtain ⟨hnumber, hdelay, -, hfits, hrange⟩ := hall k _ _ (getElem?_eq_getElem hk)
    exact ⟨hnumber, hdelay ▸ hfits, hdelay ▸ hrange⟩

theorem getElem?_delays {n k : ℕ} (hk : k < n) :
    (delays policy n)[k]? = some (policy.delayForAttempt (k + 1)) := by
  simp [delays, hk]

theorem delays_succ (n : ℕ) :
    delays policy (n + 1) = delays policy n ++ [policy.delayForAttempt (n + 1)] := by
  simp [delays, range_succ]

/-- Every sequence of attempts that the policy goes on with is a run. -/
theorem exists_driven (config : WorkerConfig) (valid : config.validate = .ok ())
    (policy : ExponentialBackoff) (retryClass : E → RetryErrorClass) (source : E)
    (hsource : retryClass source = .retryable) (n : ℕ)
    (hretries : ∀ k < n, policy.decide (k + 1) .retryable =
      .retryAfter (policy.delayForAttempt (k + 1))) :
    ∃ history s attempts, Reaches (.withBackoff config valid policy retryClass) history s ∧
      Driven retryClass s history Sample.context.task.messageId attempts ∧
      attempts.map Prod.snd = delays policy n := by
  -- attempt `k` is made when all delays before it have passed
  let times : ℕ → SystemTime := fun k => Int.ofNat (delays policy k).sum
  obtain ⟨history, s, hreach, -, hlen, hanswers, htimes⟩ :=
    exists_attempts (.withBackoff config valid policy retryClass) times source n
  refine ⟨history, s, (List.range n).map fun k => (k, policy.delayForAttempt (k + 1)), hreach,
    ⟨?_, ?_⟩, by simp [delays]⟩
  · intro k i delay hatt
    obtain ⟨hk, rfl, rfl⟩ : k < n ∧ k = i ∧ policy.delayForAttempt (k + 1) = delay := by
      simpa [List.getElem?_eq_some_iff] using hatt
    obtain ⟨execution, hexec, hctx, hfin⟩ := hanswers k hk
    rw [retryPolicy_withBackoff, hsource, hretries k hk] at hfin
    exact ⟨execution, source, hexec, by rw [hctx]; rfl, by rw [hctx]; rfl, hsource,
      hfin⟩
  · intro k i j delay later hatt hnext ended started hended _ hstart _
    obtain ⟨hk, rfl, rfl⟩ : k < n ∧ k = i ∧ policy.delayForAttempt (k + 1) = delay := by
      simpa [List.getElem?_eq_some_iff] using hatt
    obtain ⟨-, rfl, -⟩ : k + 1 < n ∧ k + 1 = j ∧ policy.delayForAttempt (k + 1 + 1) = later := by
      simpa [List.getElem?_eq_some_iff] using hnext
    rw [htimes k ended hended, htimes (k + 1) started hstart]
    simp [times, delays_succ]

end budget

instance (policy : ExponentialBackoff) (budget : Duration) : Decidable (Fits policy budget) :=
  inferInstanceAs (Decidable (∀ n < policy.config.maxAttempts, _ → _))

/-- For every policy with an elapsed-time budget: the delays that the worker returns for a
message that fails again and again add up to no more than the budget, in every run, exactly
when the policy's delays do as long as each of them fits on its own. -/
theorem retry_budget_iff (config : WorkerConfig) (valid : config.validate = .ok ())
    (policy : ExponentialBackoff) {budget : Duration}
    (hbudget : policy.config.maxElapsed = some budget) (retryClass : E → RetryErrorClass)
    (source : E) (hsource : retryClass source = .retryable) :
    (∀ history s message attempts, Reaches (.withBackoff config valid policy retryClass) history s →
      Driven retryClass s history message attempts → (attempts.map Prod.snd).sum ≤ budget) ↔
      Fits policy budget := by
  constructor
  · intro hwithin n hn hfits
    rcases Nat.eq_zero_or_pos budget with rfl | hpos
    · have hzero : ∀ delay ∈ delays policy n, delay = 0 := fun delay hdelay =>
        Nat.le_zero.mp (hfits delay hdelay).1
      rw [List.sum_eq_zero hzero]
    · obtain ⟨history, s, attempts, hreaches, hdriven, hdelays⟩ :=
        exists_driven config valid policy retryClass source hsource n (fun k hk => by
            refine (ExponentialBackoff.decide_retryable_iff hbudget).mpr
              ⟨by rw [max_eq_left (by omega)]; omega, rfl, hpos, ?_⟩
            exact hfits _ (List.mem_of_getElem? (getElem?_delays hk)))
      rw [← hdelays]
      exact hwithin history s _ attempts hreaches hdriven
  · intro hfits history s message attempts hreaches hdriven
    obtain ⟨hsame, hall⟩ := hdriven.delays hreaches hbudget
    rw [hsame]
    rcases Nat.eq_zero_or_pos attempts.length with hnone | hsome
    · simp [hnone, delays]
    · have hlast := (hall (attempts.length - 1) (by omega)).1
      refine hfits _ (by omega) fun delay hdelay => ?_
      obtain ⟨k, hk, rfl⟩ := List.mem_map.mp hdelay
      exact (hall k (List.mem_range.mp hk)).2

def halfSecond : ExponentialBackoff := ⟨{ maxElapsed := some (500 * 10 ^ 6) }, by decide⟩

/-- Under it, a message is told to wait for seven tenths of a second in all. -/
theorem retry_budget_exceeded :
    ∃ history s attempts,
      Reaches (.withBackoff {} WorkerConfig.validate_default halfSecond fun (_ : Unit) =>
        .retryable) history s ∧
      Driven (fun _ => .retryable) s history Sample.context.task.messageId attempts ∧
      (attempts.map Prod.snd).sum = 700 * 10 ^ 6 := by
  obtain ⟨history, s, attempts, hreaches, hdriven, hdelays⟩ :=
    exists_driven {} WorkerConfig.validate_default halfSecond (fun (_ : Unit) => .retryable)
      () rfl 3 (by decide)
  refine ⟨history, s, attempts, hreaches, hdriven, ?_⟩
  rw [hdelays]
  decide

/-- Two retries, and a budget for both. -/
def twoRetries : ExponentialBackoff :=
  ⟨{ maxAttempts := 3, maxElapsed := some (300 * 10 ^ 6) }, by decide⟩

theorem retry_budget_iff_two_retries :
    twoRetries.config.maxElapsed = some (300 * 10 ^ 6) ∧
      ∀ history s message attempts,
        Reaches (.withBackoff {} WorkerConfig.validate_default twoRetries fun (_ : Unit) =>
          .retryable) history s →
        Driven (fun _ => .retryable) s history message attempts →
        (attempts.map Prod.snd).sum ≤ 300 * 10 ^ 6 :=
  ⟨rfl, (retry_budget_iff {} WorkerConfig.validate_default twoRetries rfl (fun (_ : Unit) =>
    .retryable) () rfl).mpr (by decide)⟩

end PlenoraRuntime.Worker
