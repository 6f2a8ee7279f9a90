import PlenoraRuntime.Foundation.Tally
import PlenoraRuntime.Outbox.NoRepublish

/-!
# The accounts of a run that nobody interferes with

One `run_once` on a store that nobody else writes to, whatever the producer answers and
whatever failures are injected before each of its steps. The store's answer to a mark is
not an event of the relays, so `alone` reports it besides: `unrecorded` is the entry whose
own record failed and `unreleased` one whose claim could not be given back.

The books are kept per state of a record (`Balance`). The claimed entries of the batch
are those the run still holds and those the store refused; each other state has a counter
of the report. A mark that succeeds moves one entry from the first group to a counter,
a refused mark moves it within the group. When nothing is held any more, this is the
accounting of the report (`Accounts`).
-/

namespace PlenoraRuntime.Outbox

open Messaging Transition List Option

variable {E : Type*} {store' store : OutboxMemoryState}
  {states : OutboxId → Option OutboxEntryState} {unrecorded unreleased : List OutboxId}
  {events : List (Event E)} {i : ℕ} {s' s : State E}

/-! ## A run alone -/

/-- What is seen of a run alone: its events and the marks that the store refused. -/
inductive Observation (E : Type*)
  | event (event : Event E)
  | unrecorded (id : OutboxId)
  | unreleased (id : OutboxId)

inductive RunAction (E : Type*)
  | poll
  | publishReturns (result : PublishResult E)

def RunAction.of (i : ℕ) : RunAction E → Action E
  | .poll => .poll i
  | .publishReturns result => .publishReturns i result

/-- The mark that the store refuses when the run is polled. -/
def Run.refusals (store : OutboxMemoryState) (run : Run E) : List (Observation E) :=
  match run.phase with
  | .marking entry _ result =>
    match (recordAnswer store run.config.policy entry.id result).2 with
    | .ok () => []
    | .error _ => [.unrecorded entry.id]
  | .releasing (entry :: _) _ =>
    match (store.markFailed entry.id ⟨.notAttempted, .retry⟩).2 with
    | .ok () => []
    | .error _ => [.unreleased entry.id]
  | _ => []

namespace State

def inject (s : State E) (failures : List (MemoryStoreOperation × ℕ)) : State E :=
  failures.foldl (fun s failure =>
    { s with store := s.store.injectFailure failure.1 failure.2 }) s

def refusals (s : State E) (i : ℕ) : RunAction E → List (Observation E)
  | .poll => (s.runs[i]?.map fun run => run.refusals s.store).getD []
  | .publishReturns _ => []

variable (s : State E) (failures : List (MemoryStoreOperation × ℕ))

@[simp] theorem runs_inject : (s.inject failures).runs = s.runs := by
  induction failures generalizing s with
  | nil => rfl
  | cons failure rest ih => exact ih _

@[simp] theorem stateOf_inject : (s.inject failures).store.stateOf = s.store.stateOf := by
  induction failures generalizing s with
  | nil => rfl
  | cons failure rest ih => exact ih _

end State

/-- Run `i` and its producer, with failures injected before each step. -/
def alone (i : ℕ) :
    Machine (State E) (List (MemoryStoreOperation × ℕ) × RunAction E) (Observation E) where
  step s action :=
    let s := s.inject action.1
    (step s (action.2.of i)).map fun next =>
      (next.1, next.2.map .event ++ s.refusals i action.2)

variable {observations : List (Observation E)} {run : Run E}

section steps

/-- Every step of a run alone is a step of the run on a store with the same records. -/
theorem runStep_of_alone (hrun : s.runs[i]? = some run) (hstep : (alone i).Step s observations s') :
    ∃ store events run', store.stateOf = s.store.stateOf ∧ s'.runs[i]? = some run' ∧
      RunStep i store run events s'.store run' ∧
      observations = events.map .event ++ run.refusals store := by
  obtain ⟨⟨failures, action⟩, hstep⟩ := hstep
  obtain ⟨⟨s₂, events⟩, htaken, heq⟩ := map_eq_some_iff.1 hstep
  cases heq
  rw [← State.stateOf_inject s failures]
  rw [← State.runs_inject s failures] at hrun
  generalize s.inject failures = s₁ at *
  have hlt : i < s₁.runs.length := (List.getElem?_eq_some_iff.1 hrun).1
  cases action with
  | poll =>
    obtain ⟨run₁, hrun₁, hpoll⟩ := bind_eq_some_iff.1 htaken
    cases hrun.symm.trans hrun₁
    obtain ⟨store', run', rfl, hrunStep⟩ := runStep_of_poll hpoll
    exact ⟨s₁.store, events, run', rfl, by simp [State.setRun, hlt], hrunStep,
      by simp [State.refusals, hrun]⟩
  | publishReturns result =>
    obtain ⟨run₁, hrun₁, hret⟩ := bind_eq_some_iff.1 htaken
    cases hrun.symm.trans hrun₁
    have hnone : run.refusals s₁.store = [] := by
      unfold State.publishReturns at hret
      split at hret
      case h_1 hphase => simp [Run.refusals, hphase]
      case h_2 => cases hret
    obtain ⟨store', run', rfl, hrunStep⟩ := runStep_of_publishReturns hret
    exact ⟨s₁.store, events, run', rfl, by simp [State.setRun, hlt], hrunStep,
      by simp [State.refusals, hnone]⟩

end steps

/-! ## The books -/

/-- The counter of a state. -/
def RelayBatchReport.count (report : RelayBatchReport) : OutboxEntryState → ℕ
  | .pending => report.retryScheduled
  | .claimed => 0
  | .published => report.published
  | .awaitingReconciliation => report.awaitingReconciliation
  | .failed => report.terminalFailures

def Run.ids (run : Run E) : List OutboxId :=
  run.batch.map OutboxEntry.id

/-- The books of a run that has claimed its batch, with the entries it holds. -/
structure Balance (states : OutboxId → Option OutboxEntryState) (ids : List OutboxId)
    (report : RelayBatchReport) (held unrecorded unreleased : List OutboxId) : Prop where
  nodup : ids.Nodup
  length_le : ids.length ≤ usizeMax
  registered : ∀ id ∈ ids, states id ≠ none
  total : report.claimed = ids.length
  counts : ∀ state ≠ .claimed, report.count state = Tally.count states ids (some state)
  kept : (Tally.having states ids (some .claimed)).Perm (held ++ (unrecorded ++ unreleased))
  unreleased_eq : report.unreleasedClaims = unreleased.length

section books

variable {report : RelayBatchReport} {ids held : List OutboxId} {id : OutboxId}

theorem settle_spec (report : RelayBatchReport) {state} (hstate : state ≠ .claimed) :
    (report.settle state).claimed = report.claimed ∧
      (report.settle state).unreleasedClaims = report.unreleasedClaims ∧
      ∀ other, (report.settle state).count other =
        report.count other + if state = other then 1 else 0 := by
  cases state with
  | claimed => exact absurd rfl hstate
  | _ => exact ⟨rfl, rfl, fun other => by cases other <;> rfl⟩

/-- What a run holds is in its batch, and claimed. -/
theorem Balance.claimed (h : Balance states ids report held unrecorded unreleased)
    (hid : id ∈ held) : id ∈ ids ∧ states id = some .claimed := by
  have hmem := h.kept.mem_iff.2 (mem_append_left _ hid)
  rw [Tally.having, mem_filter] at hmem
  exact ⟨hmem.1, of_decide_eq_true hmem.2⟩

/-- A mark succeeds: the first entry held moves to a counter. -/
theorem Balance.settle (h : Balance states ids report (id :: held) unrecorded unreleased) {state}
    (hstate : state ≠ .claimed) :
    Balance (Function.update states id (some state)) ids (report.settle state) held unrecorded
      unreleased := by
  obtain ⟨hmem, hclaim⟩ := h.claimed mem_cons_self
  obtain ⟨htotal, hunreleased, hcount⟩ := settle_spec report hstate
  have hmoved := Tally.having_update_old h.nodup hmem hclaim
    (w := some state) (fun h => hstate (Option.some.inj h))
  -- The entry leaves the claimed ones of the batch and the ones held.
  refine ⟨h.nodup, h.length_le, ?_, htotal.trans h.total, ?_, (hmoved.symm.trans h.kept).cons_inv,
    hunreleased.trans h.unreleased_eq⟩
  · intro other hother
    rw [Function.update_apply]
    split
    · exact some_ne_none _
    · exact h.registered other hother
  · intro other hother
    have hold : states id ≠ some other := by simpa [hclaim] using hother.symm
    rw [hcount, h.counts other hother, Tally.count_update h.nodup hmem hold]
    simp only [Option.some.injEq]

/-- A mark is refused: the first entry held is not held any more. -/
theorem Balance.unrecord (h : Balance states ids report (id :: held) [] unreleased) :
    Balance states ids report held [id] unreleased :=
  { h with kept := h.kept.trans perm_middle.symm }

theorem Balance.unrelease (h : Balance states ids report (id :: held) unrecorded unreleased) :
    Balance states ids
      { report with unreleasedClaims := saturatingAdd report.unreleasedClaims 1 } held unrecorded
      (unreleased ++ [id]) := by
  refine ⟨h.nodup, h.length_le, h.registered, h.total, ?_, ?_, ?_⟩
  · intro state hstate
    rw [← h.counts state hstate]
    cases state <;> rfl
  · rw [← append_assoc, ← append_assoc]
    refine h.kept.trans (List.Perm.trans ?_ (perm_append_singleton ..).symm)
    rw [cons_append, append_assoc]
  · -- The batch is not longer than a `usize`, so the addition does not saturate.
    have hbatch : (Tally.having states ids (some .claimed)).length ≤ usizeMax :=
      (length_filter_le ..).trans h.length_le
    rw [h.kept.length_eq, length_append, length_append, length_cons] at hbatch
    have hfits : unreleased.length + 1 ≤ usizeMax := by
      omega
    rw [h.unreleased_eq, length_append, length_singleton, saturatingAdd_eq hfits]

/-- Every entry of a batch has one of the five states. -/
theorem length_eq_counts (hreg : ∀ id ∈ ids, states id ≠ none) :
    ids.length = Tally.count states ids (some .published) + Tally.count states ids (some .pending) +
      Tally.count states ids (some .awaitingReconciliation) +
      Tally.count states ids (some .failed) + Tally.count states ids (some .claimed) := by
  induction ids with
  | nil => rfl
  | cons id ids ih =>
    have hrest := ih fun other hother => hreg other (mem_cons_of_mem _ hother)
    obtain ⟨state, hstate⟩ := ne_none_iff_exists'.1 (hreg id mem_cons_self)
    simp only [Tally.count, Tally.having, filter_cons, hstate] at hrest ⊢
    cases state <;> simp <;> omega

/-- The entries whose state is recorded. -/
def RelayBatchReport.settled (report : RelayBatchReport) : ℕ :=
  report.published + report.retryScheduled + report.awaitingReconciliation +
    report.terminalFailures

theorem Balance.conservation (h : Balance states ids report held unrecorded unreleased) :
    report.claimed = report.settled + held.length + unrecorded.length + unreleased.length := by
  have hkept : Tally.count states ids (some .claimed) = _ := h.kept.length_eq
  have hcounts := length_eq_counts h.registered
  rw [← h.counts .published (by decide), ← h.counts .pending (by decide),
    ← h.counts .awaitingReconciliation (by decide), ← h.counts .failed (by decide),
    hkept] at hcounts
  simp only [RelayBatchReport.count, length_append] at hcounts
  rw [h.total, RelayBatchReport.settled]
  omega

end books

/-! ## The report -/

def RelayError.report : RelayError E → RelayBatchReport
  | .store _ report _ | .publish _ report _ | .publishAndStore _ report _ _ => report

def reportOf : Except (RelayError E) RelayBatchReport → RelayBatchReport
  | .ok report => report
  | .error error => error.report

/-- How the counters of a report add up, by the result, and which entry's own record failed. -/
def AddsUp (unrecorded : List OutboxId) : Except (RelayError E) RelayBatchReport → Prop
  | .ok report =>
    unrecorded = [] ∧ report.claimed = report.settled ∧ report.unreleasedClaims = 0
  | .error (.publish _ report _) =>
    unrecorded = [] ∧ report.claimed = report.settled + report.unreleasedClaims
  | .error (.store .claimPending report _) => unrecorded = [] ∧ report = {}
  | .error (.store .markPublished report _) | .error (.store .markFailed report _) =>
    (∃ id, unrecorded = [id]) ∧ report.claimed = report.settled + report.unreleasedClaims + 1
  | .error (.publishAndStore id report _ _) =>
    unrecorded = [id] ∧ report.claimed = report.settled + report.unreleasedClaims + 1

/-- A report accounts for the final records of the batch. -/
structure Accounts (states : OutboxId → Option OutboxEntryState) (batch : List OutboxId)
    (unrecorded unreleased : List OutboxId) (result : Except (RelayError E) RelayBatchReport) :
    Prop where
  nodup : batch.Nodup
  total : (reportOf result).claimed = batch.length
  counts : ∀ state ≠ .claimed, (reportOf result).count state = Tally.count states batch (some state)
  claimed : (Tally.having states batch (some .claimed)).Perm (unrecorded ++ unreleased)
  unreleased_eq : (reportOf result).unreleasedClaims = unreleased.length
  addsUp : AddsUp unrecorded result

/-- The error that a run will return, and the entry whose own record failed. -/
inductive Blames : RunFailure E → List OutboxId → Prop
  | publish (id : OutboxId) (source : E) : Blames (fun report => .publish id report source) []
  | markPublished (id : OutboxId) (source : MemoryStoreError) :
      Blames (fun report => .store .markPublished report source) [id]
  | markFailed (id : OutboxId) (source : MemoryStoreError) :
      Blames (fun report => .store .markFailed report source) [id]
  | publishAndStore (id : OutboxId) (publishSource : E) (storeSource : MemoryStoreError) :
      Blames (fun report => .publishAndStore id report publishSource storeSource) [id]

/-- Where a run alone stands, with the marks that the store refused so far. -/
def Stage (states : OutboxId → Option OutboxEntryState) (run : Run E)
    (unrecorded unreleased : List OutboxId) : Prop :=
  match run.phase with
  | .claiming => run.batch = [] ∧ unrecorded = [] ∧ unreleased = []
  | .looping _ | .publishing _ _ | .marking _ _ _ =>
    Balance states run.ids run.report run.held unrecorded unreleased ∧ unrecorded = [] ∧
      unreleased = []
  | .releasing _ failure =>
    Balance states run.ids run.report run.held unrecorded unreleased ∧ Blames failure unrecorded
  | .done => True

variable {run' : Run E}

section report

variable {ids : List OutboxId} {report : RelayBatchReport} {failure : RunFailure E}

theorem Blames.report_eq (h : Blames failure unrecorded) (report : RelayBatchReport) :
    (failure report).report = report := by
  cases h <;> rfl

/-- The books of a run that holds nothing any more, as its result reports them. -/
theorem Balance.accounts (h : Balance states ids report [] unrecorded unreleased)
    {result : Except (RelayError E) RelayBatchReport} (hrep : reportOf result = report)
    (haddsUp : AddsUp unrecorded result) : Accounts states ids unrecorded unreleased result where
  nodup := h.nodup
  total := hrep ▸ h.total
  counts := hrep ▸ h.counts
  claimed := h.kept
  unreleased_eq := hrep ▸ h.unreleased_eq
  addsUp := haddsUp

theorem Balance.accounts_ok (h : Balance states ids report [] [] []) :
    Accounts states ids [] [] (.ok report : Except (RelayError E) RelayBatchReport) :=
  h.accounts rfl ⟨rfl, h.conservation, h.unreleased_eq⟩

theorem Balance.accounts_error (h : Balance states ids report [] unrecorded unreleased)
    (hblames : Blames failure unrecorded) :
    Accounts states ids unrecorded unreleased (.error (failure report)) := by
  refine h.accounts (hblames.report_eq _) ?_
  have hcons := h.conservation
  rw [← h.unreleased_eq, length_nil] at hcons
  cases hblames with
  | publish id source => exact ⟨rfl, hcons⟩
  | markPublished id | markFailed id =>
    exact ⟨⟨id, rfl⟩, hcons.trans (Nat.add_right_comm ..)⟩
  | publishAndStore id => exact ⟨rfl, hcons.trans (Nat.add_right_comm ..)⟩

/-! ## The books along a run -/

/-- The entries whose own record failed. -/
def unrecordedIn (observations : List (Observation E)) : List OutboxId :=
  observations.filterMap fun
    | .unrecorded id => some id
    | _ => none

/-- The entries whose claim was not given back. -/
def unreleasedIn (observations : List (Observation E)) : List OutboxId :=
  observations.filterMap fun
    | .unreleased id => some id
    | _ => none

/-- The entries that the store handed out. -/
def claimedIn (observations : List (Observation E)) : List OutboxEntry :=
  observations.flatMap fun
    | .event (.claimed _ entries) => entries
    | _ => []

theorem balance_claimed {config : RelayConfig} {entries}
    (h : store.Claims store' config.batchSize entries) :
    Balance store'.stateOf (entries.map OutboxEntry.id) { claimed := entries.length }
      (entries.map OutboxEntry.id) [] [] := by
  have hclaim : ∀ id ∈ entries.map OutboxEntry.id, store'.stateOf id = some .claimed :=
    fun id hid => (h.states id).trans (if_pos hid)
  refine ⟨h.nodup, ?_, ?_, ?_, ?_, ?_, rfl⟩
  · rw [length_map]
    exact h.length_le.trans config.batchSize_le
  · intro id hid
    rw [hclaim id hid]
    exact some_ne_none _
  · simp
  · intro state hstate
    rw [Tally.count_eq_zero fun id hid => by simpa [hclaim id hid] using hstate.symm]
    cases state <;> rfl
  · simp [Tally.having_eq_self hclaim]

theorem blames_refusedFailure (id : OutboxId) (source : MemoryStoreError)
    (result : PublishResult E) : Blames (refusedFailure id source result) [id] := by
  match result with
  | .ok .confirmed => exact .markPublished id source
  | .ok .outcomeUnknown => exact .markFailed id source
  | .error publishSource => exact .publishAndStore id publishSource source

theorem answeredState_ne_claimed (policy : RelayPolicy) (result : PublishResult E) :
    answeredState policy result ≠ .claimed := by
  have hfailed : ∀ disposition, OutboxMemoryState.failedState disposition ≠ .claimed := by
    intro disposition
    cases disposition <;> simp [OutboxMemoryState.failedState]
  rcases result with _ | (_ | _)
  · exact hfailed _
  · simp [answeredState]
  · exact hfailed _

/-- One step keeps the books, and a result that is returned accounts for them. -/
theorem RunStep.stage (hstep : RunStep i store run events store' run')
    (hobs : observations = events.map .event ++ run.refusals store)
    (h : Stage store.stateOf run unrecorded unreleased) :
    Stage store'.stateOf run' (unrecorded ++ unrecordedIn observations)
        (unreleased ++ unreleasedIn observations) ∧
      ∀ result, .event (.finished i result) ∈ observations →
        Accounts store'.stateOf run'.ids (unrecorded ++ unrecordedIn observations)
          (unreleased ++ unreleasedIn observations) result := by
  subst hobs
  cases hstep with
  | claimFails hphase hclaim =>
    simp only [Stage, Run.refusals, hphase] at h ⊢
    obtain ⟨hbatch, rfl, rfl⟩ := h
    refine ⟨trivial, fun result hres => ?_⟩
    obtain rfl : result = _ := by simpa using hres
    have hids : ({ run with phase := .done } : Run E).ids = [] := congrArg (List.map _) hbatch
    rw [hids]
    refine ⟨nodup_nil, rfl, ?_, List.Perm.nil, rfl, rfl, rfl⟩
    intro state _
    cases state <;> rfl
  | claims hphase hclaim =>
    simp only [Stage, Run.refusals, hphase] at h ⊢
    obtain ⟨_, rfl, rfl⟩ := h
    have hclaims := OutboxMemoryState.claims_of_claimPending hclaim
    exact ⟨⟨balance_claimed hclaims, rfl, rfl⟩, by simp⟩
  | returns hphase =>
    simp only [Stage, Run.held, Run.refusals, hphase] at h ⊢
    obtain ⟨hbalance, rfl, rfl⟩ := h
    refine ⟨trivial, fun result hres => ?_⟩
    obtain rfl : result = _ := by simpa using hres
    exact hbalance.accounts_ok
  | attempts hphase | answers hphase result =>
    simp only [Stage, Run.held, Run.refusals, hphase] at h ⊢
    obtain ⟨hbalance, rfl, rfl⟩ := h
    exact ⟨⟨hbalance, rfl, rfl⟩, by simp⟩
  | @records entry unattempted result store' marked hphase hmark =>
    simp only [Stage, Run.held, Run.refusals, hphase, hmark] at h ⊢
    obtain ⟨hbalance, rfl, rfl⟩ := h
    rcases recordAnswer_spec hmark with ⟨source, rfl, hsame⟩ | ⟨_, hpub, _⟩ | ⟨rfl, hmoves⟩
    · rw [OutboxMemoryState.stateOf_congr hsame]
      exact ⟨⟨hbalance.unrecord, blames_refusedFailure ..⟩, by simp⟩
    · rw [(hbalance.claimed mem_cons_self).2] at hpub
      cases hpub
    · -- The run goes on, or releases the rest of its batch.
      have hsettled := hbalance.settle (answeredState_ne_claimed run.config.policy result)
      rw [hmoves.states]
      refine ⟨?_, by simp⟩
      cases result with
      | ok outcome => exact ⟨hsettled, rfl, rfl⟩
      | error source => exact ⟨hsettled, .publish entry.id source⟩
  | @releases entry rest failure store' released hphase hmark =>
    simp only [Stage, Run.held, Run.refusals, hphase, hmark] at h ⊢
    rcases OutboxMemoryState.markFailed_spec hmark with ⟨source, rfl, hsame⟩ | ⟨rfl, hmoves⟩
    · rw [OutboxMemoryState.stateOf_congr hsame]
      simpa [unrecordedIn] using ⟨h.1.unrelease, h.2⟩
    · rw [hmoves.states]
      have hsettled := h.1.settle (show OutboxEntryState.pending ≠ .claimed by decide)
      simpa [unrecordedIn, unreleasedIn] using ⟨hsettled, h.2⟩
  | fails hphase =>
    simp only [Stage, Run.held, Run.refusals, hphase] at h ⊢
    refine ⟨trivial, fun result hres => ?_⟩
    obtain rfl : result = _ := by simpa using hres
    simpa [unrecordedIn, unreleasedIn, Run.ids] using h.1.accounts_error h.2

end report

/-! ## Every run returns -/

/-- How many steps a run has still to take, at most. -/
def Run.left (run : Run E) : ℕ :=
  match run.phase with
  | .claiming => 3 * run.config.batchSize + 2
  | .looping rest => 3 * rest.length + 1
  | .publishing _ unattempted => 3 * unattempted.length + 3
  | .marking _ unattempted _ => 3 * unattempted.length + 2
  | .releasing rest _ => rest.length + 1
  | .done => 0

/-- The run returned, alone or with the error of its result. -/
def State.returned (s : State E) (i : ℕ) : Prop :=
  ∃ run, s.runs[i]? = some run ∧ run.phase = .done

section returns

theorem RunStep.left_lt (h : RunStep i store run events store' run') : run'.left < run.left := by
  cases h with
  | claims hphase hclaim =>
    have hlen := (OutboxMemoryState.claims_of_claimPending hclaim).length_le
    simp only [Run.left, hphase]
    omega
  | @records entry unattempted result store' marked hphase =>
    rcases marked with _ | _ <;> rcases result with _ | _ <;>
      simp only [Run.left, hphase, Run.marked] <;> omega
  | @releases entry rest failure store' released hphase =>
    rcases released with _ | _ <;> simp [Run.left, hphase, Run.released]
  | claimFails hphase | returns hphase | attempts hphase | answers hphase | fails hphase =>
    simp [Run.left, hphase]
    try omega

theorem alone_can (hrun : s.runs[i]? = some run) (hphase : run.phase ≠ .done) :
    ∃ observations s', (alone i).Step s observations s' := by
  -- No failure is injected, and the producer answers if the run waits for it.
  have hcan : ∃ action : RunAction E, (step s (action.of i)).isSome = true := by
    by_cases hwaits : ∃ entry unattempted, run.phase = .publishing entry unattempted
    · obtain ⟨entry, unattempted, hwaits⟩ := hwaits
      refine ⟨.publishReturns (.ok .confirmed), ?_⟩
      simp [RunAction.of, step, hrun, State.publishReturns, hwaits]
    · refine ⟨.poll, ?_⟩
      simp only [RunAction.of, step, hrun, bind_some, State.poll]
      split <;> simp_all
  obtain ⟨action, hcan⟩ := hcan
  obtain ⟨next, hnext⟩ := isSome_iff_exists.1 hcan
  exact ⟨_, _, ([], action), congrArg (Option.map _) hnext⟩

/-- The books and the result of a run alone, in every state it reaches. -/
structure Kept (i : ℕ) (s : State E) (observed : List (Observation E)) (run : Run E) : Prop where
  present : s.runs[i]? = some run
  batch : run.batch = claimedIn observed
  stage : Stage s.store.stateOf run (unrecordedIn observed) (unreleasedIn observed)
  result : run.phase = .done → ∃ result, .event (.finished i result) ∈ observed
  accounts : ∀ result, .event (.finished i result) ∈ observed →
    run.phase = .done ∧
      Accounts s.store.stateOf run.ids (unrecordedIn observed) (unreleasedIn observed) result

theorem RunStep.done_iff (h : RunStep i store run events store' run') :
    run.phase ≠ .done ∧ (run'.phase = .done ↔ ∃ result, .finished i result ∈ events) := by
  cases h with
  | @records entry unattempted result store' marked hphase =>
    rcases marked with _ | _ <;> rcases result with _ | _ <;> simp [hphase, Run.marked]
  | @releases entry rest failure store' released hphase =>
    cases released <;> simp [hphase, Run.released]
  | claimFails hphase | claims hphase | returns hphase | attempts hphase | answers hphase
  | fails hphase => simp [hphase]

theorem unrecordedIn_append (first later : List (Observation E)) :
    unrecordedIn (first ++ later) = unrecordedIn first ++ unrecordedIn later :=
  filterMap_append ..

theorem unreleasedIn_append (first later : List (Observation E)) :
    unreleasedIn (first ++ later) = unreleasedIn first ++ unreleasedIn later :=
  filterMap_append ..

theorem event_not_mem_refusals (store : OutboxMemoryState) (run : Run E) (event : Event E) :
    .event event ∉ run.refusals store := by
  unfold Run.refusals
  split
  · split <;> simp
  · split <;> simp
  · exact not_mem_nil

theorem claimedIn_append (first later : List (Observation E)) :
    claimedIn (first ++ later) = claimedIn first ++ claimedIn later :=
  flatMap_append ..

theorem claimedIn_refusals (store : OutboxMemoryState) (run : Run E) :
    claimedIn (run.refusals store) = [] := by
  refine flatMap_eq_nil_iff.2 fun observation hmem => ?_
  cases observation with
  | event event => exact absurd hmem (event_not_mem_refusals store run event)
  | unrecorded | unreleased => rfl

/-- Only the claim fills the batch, with the entries that it was handed. -/
theorem RunStep.batch_eq (hstep : RunStep i store run events store' run')
    (hobs : observations = events.map .event ++ run.refusals store)
    (h : Stage store.stateOf run unrecorded unreleased) :
    run'.batch = run.batch ++ claimedIn observations := by
  rw [hobs, claimedIn_append, claimedIn_refusals, append_nil]
  cases hstep with
  | claims hphase =>
    simp only [Stage, hphase] at h
    simp [claimedIn, h.1]
  | @records entry unattempted result store' marked hphase =>
    rcases marked with _ | _ <;> rcases result with _ | _ <;> exact (append_nil _).symm
  | @releases entry rest failure store' released hphase =>
    cases released <;> exact (append_nil _).symm
  | claimFails | returns | attempts | answers | fails => exact (append_nil _).symm

theorem Kept.step {observed} (h : Kept i s observed run)
    (hstep : (alone i).Step s observations s') :
    ∃ run', Kept i s' (observed ++ observations) run' ∧ run'.left < run.left := by
  obtain ⟨store, events, run', hsame, hrun', hrunStep, hobs⟩ :=
    runStep_of_alone h.present hstep
  obtain ⟨hstage, hacct⟩ := hrunStep.stage hobs (hsame ▸ h.stage)
  obtain ⟨hphase, hdone⟩ := hrunStep.done_iff
  rw [← unrecordedIn_append, ← unreleasedIn_append] at hstage hacct
  have hfin : ∀ {result}, .event (.finished i result) ∈ observations ↔
      .finished i result ∈ events := by
    intro result
    rw [hobs, mem_append, or_iff_left (event_not_mem_refusals store run _)]
    simp
  have hbatch : run'.batch = claimedIn (observed ++ observations) := by
    rw [claimedIn_append, ← h.batch]
    exact hrunStep.batch_eq hobs (hsame ▸ h.stage)
  refine ⟨run', ⟨hrun', hbatch, hstage, ?_, ?_⟩, hrunStep.left_lt⟩
  · intro hret
    obtain ⟨result, hres⟩ := hdone.1 hret
    exact ⟨result, mem_append_right _ (hfin.2 hres)⟩
  · intro result hres
    rcases mem_append.1 hres with hpre | hnow
    · exact absurd (h.accounts result hpre).1 hphase
    · exact ⟨hdone.2 ⟨result, hfin.1 hnow⟩, hacct result hnow⟩

theorem kept_fresh {config} (hfresh : s.runs[i]? = some { config }) :
    Kept i s [] { config } where
  present := hfresh
  batch := rfl
  stage := ⟨rfl, rfl, rfl⟩
  result := fun hdone => by cases hdone
  accounts := fun _ hmem => absurd hmem not_mem_nil

end returns

/-! ## Main result -/

/-- A run that nobody interferes with returns, whatever the producer answers and whatever
failures are injected, and what it reports accounts for the records of its batch: the entries
that its claim was handed. -/
theorem relay_batch_accounting {s₀ : State E} {i : ℕ} {config : RelayConfig}
    (hfresh : s₀.runs[i]? = some { config }) :
    Inevitable (alone i).Step (fun s => s.returned i) s₀ ∧
    ∀ observed s, Runs (alone i).Step s₀ observed s →
      (s.returned i → ∃ result, .event (.finished i result) ∈ observed) ∧
      ∀ result, .event (.finished i result) ∈ observed →
        ∃ run, s.runs[i]? = some run ∧ run.batch = claimedIn observed ∧
          Accounts s.store.stateOf run.ids (unrecordedIn observed) (unreleasedIn observed)
            result := by
  constructor
  · refine Inevitable.of_measure (I := fun s => ∃ observed run, Kept i s observed run)
      (fun s => (s.runs[i]?.map Run.left).getD 0) ?_ ?_ ⟨[], _, kept_fresh hfresh⟩
    · rintro s ⟨observed, run, hkept⟩
      by_cases hdone : run.phase = .done
      · exact .inl ⟨run, hkept.present, hdone⟩
      · exact .inr (alone_can hkept.present hdone)
    · rintro s observations s' ⟨observed, run, hkept⟩ hstep
      obtain ⟨run', hkept', hleft⟩ := hkept.step hstep
      refine ⟨⟨_, run', hkept'⟩, ?_⟩
      simpa [hkept.present, hkept'.present] using hleft
  · intro observed s hruns
    have hkept : ∃ run, Kept i s ([] ++ observed) run := by
      refine Runs.history (I := fun s observed => ∃ run, Kept i s observed run) ?_ [] hruns
        ⟨_, kept_fresh hfresh⟩
      rintro s past observations s' ⟨run, hkept⟩ hstep
      obtain ⟨run', hkept', _⟩ := hkept.step hstep
      exact ⟨run', hkept'⟩
    obtain ⟨run, hkept⟩ := hkept
    rw [List.nil_append] at hkept
    refine ⟨?_, fun result hresult =>
      ⟨run, hkept.present, hkept.batch, (hkept.accounts result hresult).2⟩⟩
    rintro ⟨run₁, hrun₁, hdone⟩
    cases hkept.present.symm.trans hrun₁
    exact hkept.result hdone

/-- The producer answers the first of two entries with an error, and then nothing can be
marked any more: the record of the error fails, and so does the release of the second. -/
def Sample.refused : List (List (MemoryStoreOperation × ℕ) × RunAction Unit) :=
  [([], .poll), ([], .poll), ([], .publishReturns (.error ())), ([(.outboxMarkFailed, 2)], .poll),
    ([], .poll), ([], .poll)]

theorem relay_batch_accounting_refused :
    let start := (Sample.after [.insert (Sample.entry 0), .insert (Sample.entry 1),
      .runOnce Sample.config]).1
    let last := (alone 0).after start Sample.refused
    (claimedIn last.2).map OutboxEntry.id = [⟨0⟩, ⟨1⟩] ∧
    ∃ run, last.1.runs[0]? = some run ∧ run.batch = claimedIn last.2 ∧
      Accounts last.1.store.stateOf run.ids (unrecordedIn last.2) (unreleasedIn last.2)
        (.error (.publishAndStore ⟨0⟩ { claimed := 2, unreleasedClaims := 1 } ()
          (.injected .outboxMarkFailed))) := by
  intro start last
  have hruns : Runs (alone 0).Step start last.2 last.1 := Machine.runs_after rfl
  refine ⟨rfl, ((relay_batch_accounting rfl).2 last.2 last.1 hruns).2 _ ?_⟩
  exact List.mem_of_getElem? (i := 5) rfl

end PlenoraRuntime.Outbox
