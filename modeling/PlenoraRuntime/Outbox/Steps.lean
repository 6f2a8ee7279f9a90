import PlenoraRuntime.Outbox.Relay

/-!
# What a step of the relays does

`RunStep` lists the steps of one run, each with the operation of the store that it is, and
`Changes` those of the relays and of the owner of the store. Whatever is proved along the
runs is proved from these lists.

The three marks of an answer are one operation (`recordAnswer`), and what the run does
after it depends on whether the store accepted the mark (`Run.marked`).
-/

namespace PlenoraRuntime.Outbox

open Messaging Transition Option

variable {E : Type*} {store' : OutboxMemoryState} {result : PublishResult E}

/-! ## Recording an answer -/

/-- The mark that records the producer's answer. -/
def recordAnswer (store : OutboxMemoryState) (policy : RelayPolicy) (id : OutboxId) :
    PublishResult E → OutboxMemoryState × Except MemoryStoreError Unit
  | .ok .confirmed => store.markPublished id
  | .ok .outcomeUnknown => store.markFailed id ⟨.outcomeUnknown, policy.outcomeUnknown⟩
  | .error _ => store.markFailed id ⟨.producerError, policy.producerError⟩

/-- The state that a recorded answer leads to. -/
def answeredState (policy : RelayPolicy) : PublishResult E → OutboxEntryState
  | .ok .confirmed => .published
  | .ok .outcomeUnknown => OutboxMemoryState.failedState policy.outcomeUnknown
  | .error _ => OutboxMemoryState.failedState policy.producerError

def refusedFailure (id : OutboxId) (source : MemoryStoreError) : PublishResult E → RunFailure E
  | .ok .confirmed => fun report => .store .markPublished report source
  | .ok .outcomeUnknown => fun report => .store .markFailed report source
  | .error publishSource => fun report => .publishAndStore id report publishSource source

/-- The report after an entry was moved to the state. -/
def RelayBatchReport.settle (report : RelayBatchReport) : OutboxEntryState → RelayBatchReport
  | .pending => { report with retryScheduled := report.retryScheduled + 1 }
  | .claimed => report
  | .published => { report with published := report.published + 1 }
  | .awaitingReconciliation =>
    { report with awaitingReconciliation := report.awaitingReconciliation + 1 }
  | .failed => { report with terminalFailures := report.terminalFailures + 1 }

/-- The run after the store answered the mark. -/
def Run.marked (run : Run E) (id : OutboxId) (unattempted : List OutboxEntry)
    (result : PublishResult E) : Except MemoryStoreError Unit → Run E
  | .ok () =>
    { run with
      report := run.report.settle (answeredState run.config.policy result)
      phase := match result with
        | .ok _ => .looping unattempted
        | .error source => .releasing unattempted fun report => .publish id report source }
  | .error source =>
    { run with phase := .releasing unattempted (refusedFailure id source result) }

/-- The run after the store answered a release. -/
def Run.released (run : Run E) (rest : List OutboxEntry) (failure : RunFailure E) :
    Except MemoryStoreError Unit → Run E
  | .ok () =>
    { run with report := run.report.settle .pending, phase := .releasing rest failure }
  | .error _ =>
    { run with
      report :=
        { run.report with unreleasedClaims := saturatingAdd run.report.unreleasedClaims 1 }
      phase := .releasing rest failure }

theorem recordDisposition_eq (report : RelayBatchReport) (disposition : FailureDisposition) :
    report.recordDisposition disposition =
      report.settle (OutboxMemoryState.failedState disposition) := by
  cases disposition <;> rfl

theorem State.mark_eq (s : State E) (i : ℕ) (run : Run E) (entry : OutboxEntry)
    (unattempted : List OutboxEntry) (result : PublishResult E) :
    s.mark i run entry unattempted result =
      let next := recordAnswer s.store run.config.policy entry.id result
      ({ s with store := next.1 }.setRun i (run.marked entry.id unattempted result next.2),
        []) := by
  match result with
  | .ok .confirmed =>
    simp only [mark, recordAnswer]
    cases (s.store.markPublished entry.id).2 <;> rfl
  | .ok .outcomeUnknown | .error source =>
    simp only [mark, recordAnswer, recordDisposition_eq]
    cases (s.store.markFailed entry.id _).2 <;> rfl

theorem State.release_eq (s : State E) (i : ℕ) (run : Run E) (entry : OutboxEntry)
    (rest : List OutboxEntry) (failure : RunFailure E) :
    s.release i run entry rest failure =
      let next := s.store.markFailed entry.id ⟨.notAttempted, .retry⟩
      ({ s with store := next.1 }.setRun i (run.released rest failure next.2), []) := by
  simp only [release]
  cases (s.store.markFailed entry.id _).2 <;> rfl

/-- The mark is refused, finds the entry published already, or moves the record as the
answer says. -/
theorem recordAnswer_spec {store id policy marked}
    (h : recordAnswer store policy id result = (store', marked)) :
    (∃ source, marked = .error source ∧ store'.find = store.find) ∨
      (marked = .ok () ∧ store.stateOf id = some .published ∧ store'.find = store.find) ∨
      (marked = .ok () ∧ store.Moves store' id (answeredState policy result)) := by
  match result with
  | .ok .confirmed => exact OutboxMemoryState.markPublished_spec h
  | .ok .outcomeUnknown | .error _ => exact (OutboxMemoryState.markFailed_spec h).imp_right .inr

/-! ## Steps -/

/-- The steps of run `i`: the events and what becomes of the store and of the run. -/
inductive RunStep (i : ℕ) (store : OutboxMemoryState) (run : Run E) :
    List (Event E) → OutboxMemoryState → Run E → Prop
  | claimFails {store' source} (hphase : run.phase = .claiming)
      (hclaim : store.claimPending run.config.batchSize = (store', .error source)) :
      RunStep i store run [.finished i (.error (.store .claimPending {} source))] store'
        { run with phase := .done }
  | claims {store' entries} (hphase : run.phase = .claiming)
      (hclaim : store.claimPending run.config.batchSize = (store', .ok entries)) :
      RunStep i store run [.claimed i entries] store'
        { run with
          batch := entries
          report := { claimed := entries.length }
          phase := .looping entries }
  | returns (hphase : run.phase = .looping []) :
      RunStep i store run [.finished i (.ok run.report)] store { run with phase := .done }
  | attempts {entry rest} (hphase : run.phase = .looping (entry :: rest)) :
      RunStep i store run [.published i entry] store { run with phase := .publishing entry rest }
  | answers {entry unattempted} (hphase : run.phase = .publishing entry unattempted)
      (result : PublishResult E) :
      RunStep i store run [.returned i entry.id result] store
        { run with phase := .marking entry unattempted result }
  | records {entry unattempted result store' marked}
      (hphase : run.phase = .marking entry unattempted result)
      (hmark : recordAnswer store run.config.policy entry.id result = (store', marked)) :
      RunStep i store run [] store' (run.marked entry.id unattempted result marked)
  | releases {entry rest failure store' released}
      (hphase : run.phase = .releasing (entry :: rest) failure)
      (hmark : store.markFailed entry.id ⟨.notAttempted, .retry⟩ = (store', released)) :
      RunStep i store run [] store' (run.released rest failure released)
  | fails {failure} (hphase : run.phase = .releasing [] failure) :
      RunStep i store run [.finished i (.error (failure run.report))] store
        { run with phase := .done }

/-- What one step of the relays and of the owner of the store does. -/
inductive Changes (s : State E) : State E → List (Event E) → Prop
  | run {i : ℕ} {run run' store' events} (hrun : s.runs[i]? = some run)
      (hstep : RunStep i s.store run events store' run') :
      Changes s ({ s with store := store' }.setRun i run') events
  | dropped {i : ℕ} {run} (hrun : s.runs[i]? = some run) :
      Changes s (s.setRun i { run with phase := .done }) [.dropped i]
  | started (config : RelayConfig) :
      Changes s { s with runs := s.runs ++ [{ config }] } [.started s.runs.length config]
  | inserted {entry store' result} (hinsert : s.store.insert entry = (store', result)) :
      Changes s { s with store := store' } [.inserted entry.id result]
  | injected {store' : OutboxMemoryState} (hsame : store'.find = s.store.find) :
      Changes s { s with store := store' } []

section steps

variable {i : ℕ} {s s' : State E} {run run' : Run E} {events : List (Event E)}
  {next : State E × List (Event E)}

theorem runStep_of_poll (hpoll : s.poll i run = some next) :
    ∃ store' run', next.1 = { s with store := store' }.setRun i run' ∧
      RunStep i s.store run next.2 store' run' := by
  unfold State.poll at hpoll
  split at hpoll <;> cases hpoll
  case h_1 hphase =>
    unfold State.claim
    generalize hclaim : s.store.claimPending run.config.batchSize = claimed
    obtain ⟨store', _ | entries⟩ := claimed
    · exact ⟨store', _, rfl, .claimFails hphase hclaim⟩
    · exact ⟨store', _, rfl, .claims hphase hclaim⟩
  case h_2 hphase => exact ⟨s.store, _, rfl, .returns hphase⟩
  case h_3 hphase => exact ⟨s.store, _, rfl, .attempts hphase⟩
  case h_5 hphase =>
    rw [State.mark_eq]
    exact ⟨_, _, rfl, .records hphase rfl⟩
  case h_6 hphase => exact ⟨s.store, _, rfl, .fails hphase⟩
  case h_7 hphase =>
    rw [State.release_eq]
    exact ⟨_, _, rfl, .releases hphase rfl⟩

theorem runStep_of_publishReturns (hret : s.publishReturns i run result = some next) :
    ∃ store' run', next.1 = { s with store := store' }.setRun i run' ∧
      RunStep i s.store run next.2 store' run' := by
  unfold State.publishReturns at hret
  split at hret <;> cases hret
  case h_1 hphase => exact ⟨s.store, _, rfl, .answers hphase result⟩

theorem RunStep.step (h : RunStep i s.store run events store' run') (hrun : s.runs[i]? = some run) :
    (machine E).Step s events ({ s with store := store' }.setRun i run') := by
  have hpoll : ∀ {next}, s.poll i run = some next → Outbox.step s (.poll i) = some next := by
    intro next hpoll
    rw [Outbox.step, hrun, bind_some, hpoll]
  cases h with
  | claimFails hphase hclaim | claims hphase hclaim =>
    refine ⟨.poll i, hpoll ?_⟩
    simp only [State.poll, hphase, State.claim, hclaim, State.finish]
  | returns hphase | attempts hphase | fails hphase =>
    refine ⟨.poll i, hpoll ?_⟩
    simp only [State.poll, hphase, State.finish]
  | answers hphase result =>
    refine ⟨.publishReturns i result, ?_⟩
    simp only [machine, Outbox.step, hrun, bind_some, State.publishReturns, hphase]
  | records hphase hmark =>
    refine ⟨.poll i, hpoll ?_⟩
    simp only [State.poll, hphase, State.mark_eq, hmark]
  | releases hphase hmark =>
    refine ⟨.poll i, hpoll ?_⟩
    simp only [State.poll, hphase, State.release_eq, hmark]

theorem changes_of_step (hstep : (machine E).Step s events s') : Changes s s' events := by
  obtain ⟨action, hstep⟩ := hstep
  cases action with
  | runOnce config =>
    cases hstep
    exact .started config
  | poll i =>
    obtain ⟨run, hrun, hpoll⟩ := bind_eq_some_iff.1 hstep
    obtain ⟨store', run', rfl, hstep⟩ := runStep_of_poll hpoll
    exact .run hrun hstep
  | publishReturns i result =>
    obtain ⟨run, hrun, hret⟩ := bind_eq_some_iff.1 hstep
    obtain ⟨store', run', rfl, hstep⟩ := runStep_of_publishReturns hret
    exact .run hrun hstep
  | drop i =>
    obtain ⟨run, hrun, hdrop⟩ := bind_eq_some_iff.1 hstep
    unfold State.drop at hdrop
    split at hdrop <;> cases hdrop
    exact .dropped hrun
  | insert entry =>
    cases hstep
    exact .inserted rfl
  | injectFailure operation times =>
    cases hstep
    exact .injected rfl

end steps

end PlenoraRuntime.Outbox
