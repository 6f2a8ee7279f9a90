import PlenoraRuntime.Foundation.Machine
import PlenoraRuntime.Outbox.Store

/-!
# Relays over one store

Any number of `OutboxRelay` values share an `InMemoryOutboxStore`. One call of
`run_once` is a process of its own: `RunPhase` says at which `await` its future is
suspended and `poll` runs it to the next one. `drop` drops the future there, which
runs none of its code any more.

A run keeps the entries it claimed in `batch` for its whole life, as the source
does; which of them it still has to publish, mark or release is in its phase.
-/

namespace PlenoraRuntime.Outbox

open Messaging Transition

/-! ## Configuration and reports -/

structure RelayPolicy where
  producerError : FailureDisposition := .retry
  outcomeUnknown : FailureDisposition := .reconcile
  deriving DecidableEq, Repr

inductive RelayConfigError
  | zeroBatchSize
  deriving DecidableEq, Repr

structure RelayConfig where
  batchSize : ℕ
  policy : RelayPolicy
  batchSize_pos : 0 < batchSize
  batchSize_le : batchSize ≤ usizeMax
  deriving DecidableEq

def RelayConfig.new (batchSize : Usize) (policy : RelayPolicy) :
    Except RelayConfigError RelayConfig :=
  if hzero : batchSize.val = 0 then .error .zeroBatchSize
  else .ok
    { batchSize := batchSize.val
      policy
      batchSize_pos := Usize.pos_of_ne_zero hzero
      batchSize_le := Usize.le_usizeMax batchSize }

inductive RelayStoreOperation
  | claimPending
  | markPublished
  | markFailed
  deriving DecidableEq, Repr

structure RelayBatchReport where
  claimed : ℕ := 0
  published : ℕ := 0
  retryScheduled : ℕ := 0
  awaitingReconciliation : ℕ := 0
  terminalFailures : ℕ := 0
  unreleasedClaims : ℕ := 0
  deriving DecidableEq, Repr

def RelayBatchReport.recordDisposition (report : RelayBatchReport)
    (disposition : FailureDisposition) : RelayBatchReport :=
  match disposition with
  | .retry => { report with retryScheduled := report.retryScheduled + 1 }
  | .reconcile => { report with awaitingReconciliation := report.awaitingReconciliation + 1 }
  | .terminal => { report with terminalFailures := report.terminalFailures + 1 }

inductive RelayError (E : Type*)
  | store (operation : RelayStoreOperation) (report : RelayBatchReport)
      (source : MemoryStoreError)
  | publish (outboxId : OutboxId) (report : RelayBatchReport) (source : E)
  | publishAndStore (outboxId : OutboxId) (report : RelayBatchReport) (publishSource : E)
      (storeSource : MemoryStoreError)

/-! ## Runs -/

/-- The error a run returns once it has released its claims: what is still missing is
the final report. -/
abbrev RunFailure (E : Type*) := RelayBatchReport → RelayError E

/-- Where the future of one `run_once` is suspended. -/
inductive RunPhase (E : Type*)
  | claiming
  | looping (rest : List OutboxEntry)
  | publishing (entry : OutboxEntry) (unattempted : List OutboxEntry)
  /-- The producer answered; about to record the answer. -/
  | marking (entry : OutboxEntry) (unattempted : List OutboxEntry) (result : PublishResult E)
  /-- About to release the next claim that was never attempted. -/
  | releasing (unattempted : List OutboxEntry) (failure : RunFailure E)
  | done

structure Run (E : Type*) where
  config : RelayConfig
  batch : List OutboxEntry := []
  report : RelayBatchReport := {}
  phase : RunPhase E := .claiming

structure State (E : Type*) where
  store : OutboxMemoryState := {}
  runs : List (Run E) := []

inductive Event (E : Type*)
  | started (run : ℕ) (config : RelayConfig)
  | claimed (run : ℕ) (entries : List OutboxEntry)
  | published (run : ℕ) (entry : OutboxEntry)
  | returned (run : ℕ) (id : OutboxId) (result : PublishResult E)
  | finished (run : ℕ) (result : Except (RelayError E) RelayBatchReport)
  | dropped (run : ℕ)
  | inserted (id : OutboxId) (result : Except MemoryStoreError Unit)

inductive Action (E : Type*)
  | runOnce (config : RelayConfig)
  | poll (run : ℕ)
  | publishReturns (run : ℕ) (result : PublishResult E)
  | drop (run : ℕ)
  | insert (entry : OutboxEntry)
  | injectFailure (operation : MemoryStoreOperation) (times : ℕ)

namespace State

variable {E : Type*} (s : State E)

def setRun (i : ℕ) (run : Run E) : State E :=
  { s with runs := s.runs.set i run }

def finish (i : ℕ) (run : Run E) (result : Except (RelayError E) RelayBatchReport) :
    State E × List (Event E) :=
  (s.setRun i { run with phase := .done }, [.finished i result])

def claim (i : ℕ) (run : Run E) : State E × List (Event E) :=
  let (store, result) := s.store.claimPending run.config.batchSize
  match result with
  | .error source =>
    { s with store }.finish i run (.error (.store .claimPending {} source))
  | .ok entries =>
    ({ s with store }.setRun i
        { run with
          batch := entries
          report := { claimed := entries.length }
          phase := .looping entries },
      [.claimed i entries])

/-- Records the producer's answer for `entry`. -/
def mark (i : ℕ) (run : Run E) (entry : OutboxEntry) (unattempted : List OutboxEntry)
    (result : PublishResult E) : State E × List (Event E) :=
  match result with
  | .ok .confirmed =>
    let (store, marked) := s.store.markPublished entry.id
    let run := match marked with
      | .ok () =>
        { run with
          report := { run.report with published := run.report.published + 1 }
          phase := .looping unattempted }
      | .error source =>
        { run with
          phase := .releasing unattempted fun report => .store .markPublished report source }
    ({ s with store }.setRun i run, [])
  | .ok .outcomeUnknown =>
    let disposition := run.config.policy.outcomeUnknown
    let (store, marked) := s.store.markFailed entry.id ⟨.outcomeUnknown, disposition⟩
    let run := match marked with
      | .ok () =>
        { run with
          report := run.report.recordDisposition disposition
          phase := .looping unattempted }
      | .error source =>
        { run with
          phase := .releasing unattempted fun report => .store .markFailed report source }
    ({ s with store }.setRun i run, [])
  | .error source =>
    let disposition := run.config.policy.producerError
    let (store, marked) := s.store.markFailed entry.id ⟨.producerError, disposition⟩
    let run := match marked with
      | .ok () =>
        { run with
          report := run.report.recordDisposition disposition
          phase := .releasing unattempted fun report => .publish entry.id report source }
      | .error storeSource =>
        { run with
          phase := .releasing unattempted fun report =>
            .publishAndStore entry.id report source storeSource }
    ({ s with store }.setRun i run, [])

/-- Releases one claim that run `i` never attempted. -/
def release (i : ℕ) (run : Run E) (entry : OutboxEntry) (rest : List OutboxEntry)
    (failure : RunFailure E) : State E × List (Event E) :=
  let (store, released) := s.store.markFailed entry.id ⟨.notAttempted, .retry⟩
  let report := match released with
    | .ok () => run.report.recordDisposition .retry
    | .error _ =>
      { run.report with unreleasedClaims := saturatingAdd run.report.unreleasedClaims 1 }
  ({ s with store }.setRun i { run with report, phase := .releasing rest failure }, [])

/-- Runs `run_once` number `i` from the point where it is suspended to the next one. -/
def poll (i : ℕ) (run : Run E) : Option (State E × List (Event E)) :=
  match run.phase with
  | .claiming => some (s.claim i run)
  | .looping [] => some (s.finish i run (.ok run.report))
  | .looping (entry :: rest) =>
    some (s.setRun i { run with phase := .publishing entry rest }, [.published i entry])
  | .publishing _ _ => none
  | .marking entry unattempted result => some (s.mark i run entry unattempted result)
  | .releasing [] failure => some (s.finish i run (.error (failure run.report)))
  | .releasing (entry :: rest) failure => some (s.release i run entry rest failure)
  | .done => none

def publishReturns (i : ℕ) (run : Run E) (result : PublishResult E) :
    Option (State E × List (Event E)) :=
  match run.phase with
  | .publishing entry unattempted =>
    some (s.setRun i { run with phase := .marking entry unattempted result },
      [.returned i entry.id result])
  | _ => none

def drop (i : ℕ) (run : Run E) : Option (State E × List (Event E)) :=
  match run.phase with
  | .done => none
  | _ => some (s.setRun i { run with phase := .done }, [.dropped i])

end State

variable {E : Type*}

/-- One atomic step of the runs, the producer and the owner of the store. -/
def step (s : State E) : Action E → Option (State E × List (Event E))
  | .runOnce config =>
    some ({ s with runs := s.runs ++ [{ config }] }, [.started s.runs.length config])
  | .poll i => s.runs[i]?.bind fun run => s.poll i run
  | .publishReturns i result => s.runs[i]?.bind fun run => s.publishReturns i run result
  | .drop i => s.runs[i]?.bind fun run => s.drop i run
  | .insert entry =>
    let (store, result) := s.store.insert entry
    some ({ s with store }, [.inserted entry.id result])
  | .injectFailure operation times =>
    some ({ s with store := s.store.injectFailure operation times }, [])

/-- The relays under every interleaving. -/
def machine (E : Type*) : Machine (State E) (Action E) (Event E) where
  step := step

/-- `s` is reached, with the given history, from an empty store. -/
def Reaches (history : List (Event E)) (s : State E) : Prop :=
  Runs (machine E).Step {} history s

end PlenoraRuntime.Outbox
