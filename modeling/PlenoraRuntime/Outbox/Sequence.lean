import Mathlib.Data.Prod.Lex
import PlenoraRuntime.Outbox.Alone

/-!
# Successive calls of a relay

When nobody interferes, `run_once` is a function of the store and of its producer.
`runOnce` is that function, with the two loops of the source as recursions over the
entries, and `runs_runOnce` says that it is what the run of the relays computes.

A producer that always refuses one entry stops every batch there. The claims are handed
out oldest first, so the entries before the refused one are published and the ones behind
it are claimed and given back over and over (`runOnce_refusing`).
-/

namespace PlenoraRuntime.Outbox

open Messaging Transition List Option Keyed

variable {E σ : Type*} {created : OutboxId → UtcDateTime} {id other : OutboxId}
  {store : OutboxMemoryState} {config : RelayConfig}

/-! ## `run_once` as a function -/

/-- What `publish` answers for an entry, and the producer's next state. -/
abbrev Producer (σ E : Type*) := σ → OutboxEntry → σ × PublishResult E

def releaseClaims : List OutboxEntry → OutboxMemoryState → RelayBatchReport →
    OutboxMemoryState × RelayBatchReport
  | [], store, report => (store, report)
  | entry :: unattempted, store, report =>
    let (store, released) := store.markFailed entry.id ⟨.notAttempted, .retry⟩
    match released with
    | .ok () => releaseClaims unattempted store (report.recordDisposition .retry)
    | .error _ =>
      releaseClaims unattempted store
        { report with unreleasedClaims := saturatingAdd report.unreleasedClaims 1 }

/-- The loop of `run_once` over the claimed entries. -/
def publishEach (policy : RelayPolicy) (producer : Producer σ E) :
    List OutboxEntry → OutboxMemoryState → σ → RelayBatchReport →
      OutboxMemoryState × σ × Except (RelayError E) RelayBatchReport
  | [], store, world, report => (store, world, .ok report)
  | entry :: unattempted, store, world, report =>
    match producer world entry with
    | (world, .ok .confirmed) =>
      match store.markPublished entry.id with
      | (store, .error source) =>
        let (store, report) := releaseClaims unattempted store report
        (store, world, .error (.store .markPublished report source))
      | (store, .ok ()) =>
        publishEach policy producer unattempted store world
          { report with published := report.published + 1 }
    | (world, .ok .outcomeUnknown) =>
      match store.markFailed entry.id ⟨.outcomeUnknown, policy.outcomeUnknown⟩ with
      | (store, .error source) =>
        let (store, report) := releaseClaims unattempted store report
        (store, world, .error (.store .markFailed report source))
      | (store, .ok ()) =>
        publishEach policy producer unattempted store world
          (report.recordDisposition policy.outcomeUnknown)
    | (world, .error source) =>
      match store.markFailed entry.id ⟨.producerError, policy.producerError⟩ with
      | (store, .ok ()) =>
        let (store, report) :=
          releaseClaims unattempted store (report.recordDisposition policy.producerError)
        (store, world, .error (.publish entry.id report source))
      | (store, .error storeSource) =>
        let (store, report) := releaseClaims unattempted store report
        (store, world, .error (.publishAndStore entry.id report source storeSource))

/-- `run_once`, when nobody interferes. -/
def runOnce (config : RelayConfig) (producer : Producer σ E) (store : OutboxMemoryState)
    (world : σ) : OutboxMemoryState × σ × Except (RelayError E) RelayBatchReport :=
  match store.claimPending config.batchSize with
  | (store, .error source) => (store, world, .error (.store .claimPending {} source))
  | (store, .ok entries) =>
    publishEach config.policy producer entries store world { claimed := entries.length }

def afterCalls (config : RelayConfig) (producer : Producer σ E) :
    ℕ → OutboxMemoryState → σ → OutboxMemoryState × σ
  | 0, store, world => (store, world)
  | calls + 1, store, world =>
    let (store, world, _) := runOnce config producer store world
    afterCalls config producer calls store world

/-! ## It is what a run computes -/

/-- The loop, with the mark of an answer as one operation. -/
theorem publishEach_cons (policy : RelayPolicy) (producer : Producer σ E) (entry : OutboxEntry)
    (unattempted : List OutboxEntry) (store : OutboxMemoryState) (world : σ)
    (report : RelayBatchReport) :
    publishEach policy producer (entry :: unattempted) store world report =
      let (world, answer) := producer world entry
      let (store, marked) := recordAnswer store policy entry.id answer
      match marked with
      | .error source =>
        let (store, report) := releaseClaims unattempted store report
        (store, world, .error (refusedFailure entry.id source answer report))
      | .ok () =>
        match answer with
        | .ok _ =>
          publishEach policy producer unattempted store world
            (report.settle (answeredState policy answer))
        | .error source =>
          let (store, report) :=
            releaseClaims unattempted store (report.settle (answeredState policy answer))
          (store, world, .error (.publish entry.id report source)) := by
  simp only [publishEach]
  generalize producer world entry = answered
  obtain ⟨world, answer⟩ := answered
  match answer with
  | .ok .confirmed =>
    simp only [recordAnswer]
    generalize store.markPublished entry.id = next
    obtain ⟨store, marked⟩ := next
    cases marked <;> rfl
  | .ok .outcomeUnknown | .error source =>
    simp only [recordAnswer, recordDisposition_eq]
    generalize store.markFailed entry.id _ = next
    obtain ⟨store, marked⟩ := next
    cases marked <;> rfl

def State.put (s : State E) (i : ℕ) (store : OutboxMemoryState) (run : Run E) : State E :=
  { s with store }.setRun i run

section link

variable {i : ℕ} {s : State E} {run₀ run : Run E}

theorem put_put (store' : OutboxMemoryState) (run' : Run E) :
    (s.put i store run).put i store' run' = s.put i store' run' := by
  simp [State.put, State.setRun]

theorem step_put (hrun : s.runs[i]? = some run₀) {store' run' events}
    (h : RunStep i store run events store' run') :
    (machine E).Step (s.put i store run) events (s.put i store' run') := by
  have hlt : i < s.runs.length := (List.getElem?_eq_some_iff.1 hrun).1
  have hpres : (s.put i store run).runs[i]? = some run := getElem?_set_self hlt
  rw [← put_put store' run']
  exact RunStep.step h hpres

theorem runs_releaseClaims (hrun : s.runs[i]? = some run₀) (unattempted : List OutboxEntry)
    (failure : RunFailure E) (store : OutboxMemoryState) (run : Run E)
    (hphase : run.phase = .releasing unattempted failure) :
    ∃ run', run'.phase = .done ∧
      Runs (machine E).Step (s.put i store run)
        [.finished i (.error (failure (releaseClaims unattempted store run.report).2))]
        (s.put i (releaseClaims unattempted store run.report).1 run') := by
  induction unattempted generalizing store run with
  | nil => exact ⟨_, rfl, .single (step_put hrun (.fails hphase))⟩
  | cons entry unattempted ih =>
    simp only [releaseClaims]
    generalize hmark : store.markFailed entry.id ⟨.notAttempted, .retry⟩ = next
    obtain ⟨store', released⟩ := next
    have hstep := step_put hrun (.releases hphase hmark)
    obtain ⟨run', hdone, hrest⟩ := ih store' (run.released unattempted failure released)
      (by cases released <;> rfl)
    cases released <;> exact ⟨run', hdone, .silent hstep hrest⟩

/-- The next entry is passed to the producer, and its answer is recorded. -/
theorem runs_publish (hrun : s.runs[i]? = some run₀) (store : OutboxMemoryState)
    (answer : PublishResult E) {entry unattempted}
    (hphase : run.phase = .looping (entry :: unattempted)) :
    let next := recordAnswer store run.config.policy entry.id answer
    Runs (machine E).Step (s.put i store run) [.published i entry, .returned i entry.id answer]
      (s.put i next.1 (run.marked entry.id unattempted answer next.2)) := by
  intro next
  let marking : Run E := { run with phase := .marking entry unattempted answer }
  have hsame : marking.marked entry.id unattempted answer next.2 =
      run.marked entry.id unattempted answer next.2 := by
    cases next.2 <;> rfl
  have hmarked : RunStep i store marking [] next.1
    (marking.marked entry.id unattempted answer next.2) := .records rfl rfl
  exact .cons (step_put hrun (.attempts hphase))
    (.cons (step_put hrun (.answers rfl answer)) (.single (step_put hrun hmarked)))

/-- A run that takes its entries one after the other, to its end. -/
theorem runs_publishEach (hrun : s.runs[i]? = some run₀) (producer : Producer σ E)
    (entries : List OutboxEntry) (store : OutboxMemoryState) (world : σ) (run : Run E)
    (hphase : run.phase = .looping entries) :
    ∃ history run', run'.phase = .done ∧
      Runs (machine E).Step (s.put i store run)
        (history ++ [.finished i
          (publishEach run.config.policy producer entries store world run.report).2.2])
        (s.put i (publishEach run.config.policy producer entries store world run.report).1
          run') := by
  induction entries generalizing store world run with
  | nil =>
    exact ⟨[], _, rfl, .single (step_put hrun (.returns hphase))⟩
  | cons entry unattempted ih =>
    rw [publishEach_cons]
    generalize producer world entry = answered
    obtain ⟨world, answer⟩ := answered
    have hpub := runs_publish hrun store answer hphase
    dsimp only at hpub ⊢
    generalize recordAnswer store run.config.policy entry.id answer = next at hpub ⊢
    obtain ⟨store', marked⟩ := next
    cases marked with
    -- A refused mark ends the run, and the claims that are left are released.
    | error source =>
      obtain ⟨run', hdone, hrest⟩ := runs_releaseClaims hrun unattempted
        (refusedFailure entry.id source answer) store'
        (run.marked entry.id unattempted answer (.error source)) rfl
      exact ⟨_, run', hdone, hpub.trans hrest⟩
    | ok =>
      cases answer with
      | ok outcome =>
        obtain ⟨history, run', hdone, hrest⟩ := ih store' world
          (run.marked entry.id unattempted (.ok outcome) (.ok ())) rfl
        have hall := hpub.trans hrest
        rw [← append_assoc] at hall
        exact ⟨_, run', hdone, hall⟩
      | error source =>
        obtain ⟨run', hdone, hrest⟩ := runs_releaseClaims hrun unattempted
          (fun report => .publish entry.id report source) store'
          (run.marked entry.id unattempted (.error source) (.ok ())) rfl
        exact ⟨_, run', hdone, hpub.trans hrest⟩

/-- A fresh run that nobody interferes with computes `runOnce`. -/
theorem runs_runOnce (hrun : s.runs[i]? = some { config }) (producer : Producer σ E) (world : σ) :
    ∃ history run', run'.phase = .done ∧
      Runs (machine E).Step s
        (history ++ [.finished i (runOnce config producer s.store world).2.2])
        (s.put i (runOnce config producer s.store world).1 run') := by
  have hself : s.put i s.store { config } = s := by
    rw [State.put, State.setRun, Slots.set_self hrun]
  unfold runOnce
  generalize hclaim : s.store.claimPending config.batchSize = claimed
  obtain ⟨store, source | entries⟩ := claimed
  · have hfails : RunStep i s.store ({ config } : Run E) _ store _ := .claimFails rfl hclaim
    have hstep := step_put hrun hfails
    rw [hself] at hstep
    exact ⟨[], _, rfl, .single hstep⟩
  · have hclaims : RunStep i s.store ({ config } : Run E) _ store _ := .claims rfl hclaim
    have hstep := step_put hrun hclaims
    rw [hself] at hstep
    obtain ⟨history, run', hdone, hrest⟩ := runs_publishEach hrun producer entries store world
      { config, batch := entries, report := { claimed := entries.length },
        phase := .looping entries } rfl
    exact ⟨_ :: history, run', hdone, .cons hstep hrest⟩

end link

/-! ## The order of claims -/

namespace OutboxMemoryState

/-- No failure is injected into what a relay calls. -/
def Healthy (store : OutboxMemoryState) : Prop :=
  ∀ operation ∈ [MemoryStoreOperation.outboxClaim, .outboxMarkPublished, .outboxMarkFailed],
    (store.faults.check operation).2 = .ok ()

def countInState (store : OutboxMemoryState) (expected : OutboxEntryState) : ℕ :=
  (store.records.filter fun record => record.state = expected).length

def createdOf (store : OutboxMemoryState) (id : OutboxId) : UtcDateTime :=
  ((store.find id).map fun record => record.entry.createdAt).getD 0

end OutboxMemoryState

/-- An entry is claimed before another one: it is older, or as old with a smaller identity. -/
def Precedes (created : OutboxId → UtcDateTime) (id other : OutboxId) : Prop :=
  created id < created other ∨ (created id = created other ∧ id.uuid < other.uuid)

instance (created : OutboxId → UtcDateTime) (id other : OutboxId) :
    Decidable (Precedes created id other) :=
  inferInstanceAs (Decidable (_ ∨ _ ∧ _))

/-- The order of claims is that of pairs. -/
theorem precedes_iff :
    Precedes created id other ↔
      toLex (created id, id.uuid) < toLex (created other, other.uuid) := by
  rw [Prod.Lex.toLex_lt_toLex, Precedes]

theorem Precedes.asymm (h : Precedes created id other) : ¬ Precedes created other id := by
  rw [precedes_iff] at h ⊢
  exact lt_asymm h

theorem Precedes.ne (h : Precedes created id other) : id ≠ other := by
  rintro rfl
  exact h.asymm h

theorem Precedes.trans {middle} (h : Precedes created id middle)
    (h' : Precedes created middle other) : Precedes created id other := by
  rw [precedes_iff] at h h' ⊢
  exact h.trans h'

theorem precedes_trichotomy (created : OutboxId → UtcDateTime) (id other : OutboxId) :
    Precedes created id other ∨ id = other ∨ Precedes created other id := by
  rw [precedes_iff, precedes_iff]
  refine (lt_trichotomy _ _).imp_right (.imp_left fun heq => ?_)
  cases id
  simp_all

namespace OutboxMemoryState

section order

variable {store : OutboxMemoryState} {id other : OutboxId} {limit : ℕ}

theorem claimOrder_iff {left right} :
    claimOrder left right ↔
      toLex (left.entry.createdAt, left.id.uuid) ≤
        toLex (right.entry.createdAt, right.id.uuid) := by
  rw [Prod.Lex.toLex_le_toLex, claimOrder]

instance : Std.Total claimOrder where
  total left right := by
    rw [claimOrder_iff, claimOrder_iff]
    exact le_total _ _

instance : IsTrans OutboxRecord claimOrder where
  trans left middle right hleft hright := by
    rw [claimOrder_iff] at hleft hright ⊢
    exact hleft.trans hright

/-- All pending entries, in the order of claims. -/
def allPending (store : OutboxMemoryState) : List OutboxId :=
  ((store.records.filter fun record => record.state = .pending).insertionSort claimOrder).map
    OutboxRecord.id

theorem pendingIds_eq (store : OutboxMemoryState) (limit : ℕ) :
    store.pendingIds limit = store.allPending.take limit :=
  rfl

theorem mem_allPending : id ∈ store.allPending ↔ store.stateOf id = some .pending := by
  constructor
  · intro hid
    have hall : id ∈ store.pendingIds store.allPending.length := by
      rw [pendingIds_eq, take_length]
      exact hid
    exact stateOf_of_mem_pendingIds hall
  · intro hstate
    obtain ⟨record, hfind, hpend⟩ := map_eq_some_iff.1 hstate
    refine List.mem_map.2 ⟨record, ?_, key_of_lookup hfind⟩
    rw [mem_insertionSort, mem_filter]
    exact ⟨mem_of_lookup hfind, decide_eq_true hpend⟩

theorem createdOf_of_mem {record} (hmem : record ∈ store.records) :
    store.createdOf record.id = record.entry.createdAt := by
  have hfind : store.find record.id = some record := lookup_of_mem store.ids_nodup hmem
  rw [createdOf, hfind, map_some, getD_some]

theorem allPending_pairwise (store : OutboxMemoryState) :
    store.allPending.Pairwise (Precedes store.createdOf) := by
  have hnodup : store.allPending.Nodup := by
    have h := pendingIds_nodup store store.allPending.length
    rwa [pendingIds_eq, take_length] at h
  unfold allPending at hnodup ⊢
  have hsorted := pairwise_insertionSort claimOrder
    (store.records.filter fun record => record.state = .pending)
  rw [pairwise_map]
  rw [List.Nodup, pairwise_map] at hnodup
  refine (hsorted.and hnodup).imp_of_mem fun {left right} hleft hright hboth => ?_
  rw [mem_insertionSort, mem_filter] at hleft hright
  obtain ⟨horder, hne⟩ := hboth
  rw [Precedes, createdOf_of_mem hleft.1, createdOf_of_mem hright.1]
  -- Distinct identities make the order of claims strict.
  rcases horder with hlt | ⟨heq, hle⟩
  · exact .inl hlt
  · refine .inr ⟨heq, lt_of_le_of_ne hle fun huuid => hne ?_⟩
    cases hl : left.id
    simp_all

/-- What precedes a claimed entry is claimed with it. -/
theorem mem_pendingIds_of_precedes (hid : id ∈ store.pendingIds limit)
    (hother : store.stateOf other = some .pending)
    (hprecedes : Precedes store.createdOf other id) : other ∈ store.pendingIds limit := by
  have hsplit := store.allPending_pairwise
  rw [← take_append_drop limit store.allPending, pairwise_append] at hsplit
  have hmem := mem_allPending.2 hother
  rw [← take_append_drop limit store.allPending] at hmem
  rcases mem_append.1 hmem with hfirst | hlast
  · exact hfirst
  · exact absurd (hsplit.2.2 id hid other hlast) hprecedes.asymm

/-- The oldest pending entry is claimed. -/
theorem exists_first (hlimit : 0 < limit) (hid : store.stateOf id = some .pending) :
    ∃ first ∈ store.pendingIds limit, first = id ∨ Precedes store.createdOf first id := by
  have hmem := mem_allPending.2 hid
  have hsorted := store.allPending_pairwise
  obtain ⟨first, rest, hall⟩ := exists_cons_of_ne_nil (ne_nil_of_mem hmem)
  rw [hall] at hmem hsorted
  refine ⟨first, ?_, (mem_cons.1 hmem).imp Eq.symm (rel_of_pairwise_cons hsorted)⟩
  rw [pendingIds_eq, hall]
  obtain ⟨limit, rfl⟩ := Nat.exists_eq_succ_of_ne_zero hlimit.ne'
  exact mem_cons_self

end order

/-! ## A store without failures -/

/-- The frame of what a relay does: no failure is consumed and no entry is created anew. -/
structure Frame (store store' : OutboxMemoryState) : Prop where
  faults : store'.faults = store.faults
  created : store'.createdOf = store.createdOf

section healthy

variable {store store' : OutboxMemoryState} {id : OutboxId}

theorem Frame.refl (store : OutboxMemoryState) : Frame store store :=
  ⟨rfl, rfl⟩

theorem Frame.trans {last} (h : Frame store store') (h' : Frame store' last) :
    Frame store last :=
  ⟨h'.faults.trans h.faults, h'.created.trans h.created⟩

theorem Healthy.frame (h : store.Healthy) (hframe : Frame store store') : store'.Healthy := by
  intro operation hop
  rw [hframe.faults]
  exact h operation hop

theorem checked_of_ok {α : Type} {operation} (h : (store.faults.check operation).2 = .ok ())
    (body : OutboxMemoryState → OutboxMemoryState × Except MemoryStoreError α) :
    store.checked operation body = body store := by
  unfold FaultPlan.check at h
  unfold checked FaultPlan.check
  rcases hrem : store.faults.remaining operation with _ | _ | times
  · rfl
  · rfl
  · simp [hrem] at h

theorem createdOf_eq (store : OutboxMemoryState) (id : OutboxId) :
    store.createdOf id = ((store.entryOf id).map OutboxEntry.createdAt).getD 0 := by
  rw [entryOf, Option.map_map]
  rfl

theorem Moves.frame {state} (h : Moves store store' id state)
    (hfaults : store'.faults = store.faults) : Frame store store' where
  faults := hfaults
  created := by
    funext id
    rw [createdOf_eq, h.entries, createdOf_eq]

theorem markPublished_healthy (h : store.Healthy) (hclaim : store.stateOf id = some .claimed) :
    ∃ store', store.markPublished id = (store', .ok ()) ∧ Frame store store' ∧
      store'.stateOf = Function.update store.stateOf id (some .published) := by
  obtain ⟨record, hfind, hstate⟩ := map_eq_some_iff.1 hclaim
  have hmoves := moves_put { record with state := .published, lastFailure := none } hfind rfl
    hstate rfl
  refine ⟨_, ?_, hmoves.frame rfl, hmoves.states⟩
  rw [markPublished, checked_of_ok (h _ (by decide))]
  simp only [hfind, hstate]

theorem markFailed_healthy (h : store.Healthy) (hclaim : store.stateOf id = some .claimed)
    (failure : PublishFailure) :
    ∃ store', store.markFailed id failure = (store', .ok ()) ∧ Frame store store' ∧
      store'.stateOf =
        Function.update store.stateOf id (some (failedState failure.disposition)) := by
  obtain ⟨record, hfind, hstate⟩ := map_eq_some_iff.1 hclaim
  have hmoves := moves_put
    { record with
      state := failedState failure.disposition
      lastFailure := some failure } hfind rfl hstate rfl
  refine ⟨_, ?_, hmoves.frame rfl, hmoves.states⟩
  rw [markFailed, checked_of_ok (h _ (by decide))]
  simp [hfind, hstate]

theorem faults_claimEach (ids : List OutboxId) (store : OutboxMemoryState) :
    (claimEach ids store).1.faults = store.faults := by
  induction ids generalizing store with
  | nil => rfl
  | cons first rest ih =>
    unfold claimEach
    split
    · exact ih store
    · exact ih _

/-- The oldest pending entries are claimed. -/
theorem claimPending_healthy (h : store.Healthy) (limit : ℕ) :
    ∃ store' entries, store.claimPending limit = (store', .ok entries) ∧ Frame store store' ∧
      entries.map OutboxEntry.id = store.pendingIds limit ∧
      ∀ id, store'.stateOf id =
        if id ∈ store.pendingIds limit then some .claimed else store.stateOf id := by
  obtain ⟨hids, hclaims⟩ := claims_claimEach store limit
  refine ⟨_, _, ?_, ⟨faults_claimEach (store.pendingIds limit) store, ?_⟩, hids,
    fun id => by rw [hclaims.states, hids]⟩
  · rw [claimPending, checked_of_ok (h _ (by decide))]
  · funext id
    rw [createdOf, hclaims.find, createdOf]
    split_ifs
    · cases store.find id <;> rfl
    · rfl

end healthy

end OutboxMemoryState

/-! ## One entry that is always refused -/

/-- The producer refuses one entry and confirms every other one. -/
def Refuses (producer : Producer σ E) (refused : OutboxId) : Prop :=
  ∀ world entry,
    if entry.id = refused then ∃ source, (producer world entry).2 = .error source
    else (producer world entry).2 = .ok .confirmed

section refusing

open OutboxMemoryState

variable {producer : Producer σ E} {refused : OutboxId} {ids : List OutboxId}

/-- A mark leaves the claims on the other entries as they are. -/
theorem claimed_of_update {first state} {store' : OutboxMemoryState} (hfirst : first ∉ ids)
    (hclaim : ∀ id ∈ first :: ids, store.stateOf id = some .claimed)
    (hstates : store'.stateOf = Function.update store.stateOf first state) :
    ∀ id ∈ ids, store'.stateOf id = some .claimed := by
  intro id hid
  rw [hstates, Function.update_of_ne (ne_of_mem_of_not_mem hid hfirst)]
  exact hclaim id (mem_cons_of_mem _ hid)

/-- Every claim that was not attempted is given back. -/
theorem releaseClaims_healthy (entries : List OutboxEntry) (store : OutboxMemoryState)
    (report : RelayBatchReport) (hhealthy : store.Healthy)
    (hnodup : (entries.map OutboxEntry.id).Nodup)
    (hclaim : ∀ id ∈ entries.map OutboxEntry.id, store.stateOf id = some .claimed) :
    Frame store (releaseClaims entries store report).1 ∧
      ∀ id, (releaseClaims entries store report).1.stateOf id =
        if id ∈ entries.map OutboxEntry.id then some .pending else store.stateOf id := by
  induction entries generalizing store report with
  | nil => exact ⟨.refl store, fun id => by simp [releaseClaims]⟩
  | cons entry rest ih =>
    rw [map_cons, nodup_cons] at hnodup
    obtain ⟨store', hmark, hframe, hstates⟩ :=
      markFailed_healthy hhealthy (hclaim entry.id mem_cons_self) ⟨.notAttempted, .retry⟩
    obtain ⟨hframe', hstates'⟩ := ih store' (report.recordDisposition .retry)
      (hhealthy.frame hframe) hnodup.2 (claimed_of_update hnodup.1 hclaim hstates)
    simp only [releaseClaims, hmark]
    refine ⟨hframe.trans hframe', fun id => ?_⟩
    rw [hstates', hstates]
    by_cases heq : id = entry.id <;> simp [heq, failedState]

/-- A batch in the order of claims is published up to the entry that is refused; the others
are pending again. -/
theorem publishEach_refusing (hrefuses : Refuses producer refused) (entries : List OutboxEntry)
    (store : OutboxMemoryState) (world : σ) (report : RelayBatchReport)
    (hhealthy : store.Healthy) (hsorted : (entries.map OutboxEntry.id).Pairwise (Precedes created))
    (hclosed : ∀ id ∈ entries.map OutboxEntry.id, Precedes created refused id →
      refused ∈ entries.map OutboxEntry.id)
    (hclaim : ∀ id ∈ entries.map OutboxEntry.id, store.stateOf id = some .claimed) :
    Frame store (publishEach {} producer entries store world report).1 ∧
      ∀ id, (publishEach {} producer entries store world report).1.stateOf id =
        if id ∈ entries.map OutboxEntry.id then
          if Precedes created id refused then some .published else some .pending
        else store.stateOf id := by
  induction entries generalizing store world report with
  | nil => exact ⟨.refl store, fun id => by simp [publishEach]⟩
  | cons entry rest ih =>
    rw [map_cons] at hsorted hclosed hclaim
    obtain ⟨hafter, hsorted⟩ := pairwise_cons.1 hsorted
    have hnew : entry.id ∉ rest.map OutboxEntry.id := fun h => (hafter _ h).asymm (hafter _ h)
    have hfirst := hclaim entry.id mem_cons_self
    have hans := hrefuses world entry
    rw [publishEach_cons]
    generalize producer world entry = answered at hans ⊢
    obtain ⟨world, answer⟩ := answered
    by_cases hrefused : entry.id = refused
    · -- The refused entry goes back to pending, and so does what comes after it.
      subst hrefused
      rw [if_pos rfl] at hans
      obtain ⟨source, rfl⟩ := hans
      obtain ⟨store', hmark, hframe, hstates⟩ :=
        markFailed_healthy hhealthy hfirst ⟨.producerError, .retry⟩
      obtain ⟨hframe', hstates'⟩ := releaseClaims_healthy rest store'
        (report.settle .pending) (hhealthy.frame hframe) (hsorted.imp Precedes.ne)
        (claimed_of_update hnew hclaim hstates)
      simp only [recordAnswer, hmark, answeredState, failedState]
      refine ⟨hframe.trans hframe', fun id => ?_⟩
      rw [hstates', hstates]
      by_cases heq : id = entry.id
      · simp [heq, failedState, Precedes]
      · simp only [map_cons, mem_cons, heq, false_or, ne_eq, not_false_eq_true,
          Function.update_of_ne]
        split_ifs with hid hpre
        · exact absurd hpre (hafter id hid).asymm
        · rfl
        · rfl
    · rw [if_neg hrefused] at hans
      subst hans
      have hrest := mem_of_ne_of_mem (l := rest.map OutboxEntry.id) (Ne.symm hrefused)
      have hpre : Precedes created entry.id refused := by
        rcases precedes_trichotomy created entry.id refused with hpre | heq | hlater
        · exact hpre
        · exact absurd heq hrefused
        · exact hafter refused (hrest (hclosed _ mem_cons_self hlater))
      obtain ⟨store', hmark, hframe, hstates⟩ := markPublished_healthy hhealthy hfirst
      obtain ⟨hframe', hstates'⟩ := ih store' world (report.settle .published)
        (hhealthy.frame hframe) hsorted
        (fun id hid hlater => hrest (hclosed id (mem_cons_of_mem _ hid) hlater))
        (claimed_of_update hnew hclaim hstates)
      simp only [recordAnswer, hmark, answeredState]
      refine ⟨hframe.trans hframe', fun id => ?_⟩
      rw [hstates', hstates]
      by_cases heq : id = entry.id
      · simp [heq, hpre, hnew]
      · simp [heq]

section call

variable (hrefuses : Refuses producer refused) (hpolicy : config.policy = {})
  (hhealthy : store.Healthy) (hpend : store.stateOf refused = some .pending) (world : σ)
include hrefuses hpolicy hhealthy hpend

/-- One call publishes what it claims of the entries before the refused one, and nothing
else has changed when it returns. -/
theorem runOnce_refusing :
    Frame store (runOnce config producer store world).1 ∧
      ∀ id, (runOnce config producer store world).1.stateOf id =
        if id ∈ store.pendingIds config.batchSize ∧ Precedes store.createdOf id refused then
          some .published
        else store.stateOf id := by
  obtain ⟨store', entries, hclaim, hframe, hids, hstates⟩ :=
    claimPending_healthy hhealthy config.batchSize
  have hsorted : (store.pendingIds config.batchSize).Pairwise (Precedes store.createdOf) :=
    store.allPending_pairwise.sublist (take_sublist ..)
  obtain ⟨hframe', hstates'⟩ := publishEach_refusing hrefuses entries store' world
    { claimed := entries.length } (hhealthy.frame hframe) (hids ▸ hsorted)
    (hids ▸ fun id hid hlater => mem_pendingIds_of_precedes hid hpend hlater)
    (hids ▸ fun id hid => (hstates id).trans (if_pos hid))
  simp only [runOnce, hclaim, hpolicy]
  refine ⟨hframe.trans hframe', fun id => ?_⟩
  rw [hstates', hids, hstates]
  by_cases hmem : id ∈ store.pendingIds config.batchSize
  · have hpre := stateOf_of_mem_pendingIds hmem
    simp [hmem, hpre]
  · simp [hmem]

/-- The pending entries before the refused one, among the given identities. -/
def ahead (store : OutboxMemoryState) (refused : OutboxId) (ids : List OutboxId) : ℕ :=
  ids.countP fun id =>
    store.stateOf id = some .pending ∧ Precedes store.createdOf id refused

/-- What is pending after a call was pending before. -/
theorem pending_of_runOnce
    (hid : (runOnce config producer store world).1.stateOf id = some .pending) :
    store.stateOf id = some .pending := by
  have hstates := (runOnce_refusing hrefuses hpolicy hhealthy hpend world).2 id
  rw [hid] at hstates
  split_ifs at hstates
  · cases hstates
  · exact hstates.symm

/-- With each call, fewer entries are ahead of the refused one. -/
theorem ahead_runOnce (hids : ∀ id, store.stateOf id = some .pending → id ∈ ids)
    (hid : store.stateOf id = some .pending) (hahead : Precedes store.createdOf id refused) :
    ahead (runOnce config producer store world).1 refused ids < ahead store refused ids := by
  obtain ⟨hframe, hstates⟩ := runOnce_refusing hrefuses hpolicy hhealthy hpend world
  obtain ⟨first, hfirst, horder⟩ := exists_first config.batchSize_pos hid
  have hprecedes : Precedes store.createdOf first refused := by
    rcases horder with rfl | hpre
    · exact hahead
    · exact hpre.trans hahead
  have hfirstPending := stateOf_of_mem_pendingIds hfirst
  refine Slots.countP_lt_countP ?_ (hids first hfirstPending) ?_ ?_
  · intro other _ hother
    rw [decide_eq_true_iff, hframe.created] at hother
    have hstate := pending_of_runOnce hrefuses hpolicy hhealthy hpend world hother.1
    exact decide_eq_true ⟨hstate, hother.2⟩
  · rw [hstates, if_pos ⟨hfirst, hprecedes⟩]
    simp
  · exact decide_eq_true ⟨hfirstPending, hprecedes⟩

end call

/-- Enough calls publish everything ahead of the refused entry, and nothing else. -/
theorem afterCalls_refusing (hrefuses : Refuses producer refused) (hpolicy : config.policy = {})
    (calls : ℕ) (store : OutboxMemoryState) (world : σ) (hhealthy : store.Healthy)
    (hpend : store.stateOf refused = some .pending)
    (hids : ∀ id, store.stateOf id = some .pending → id ∈ ids)
    (hcalls : ahead store refused ids ≤ calls) (id : OutboxId) :
    (afterCalls config producer calls store world).1.stateOf id =
      if store.stateOf id = some .pending ∧ Precedes store.createdOf id refused then
        some .published
      else store.stateOf id := by
  induction calls generalizing store world with
  | zero =>
    -- With no call left, nothing pending precedes the refused entry.
    have hnone : ¬ (store.stateOf id = some .pending ∧ Precedes store.createdOf id refused) := by
      intro hahead
      have hzero := countP_eq_zero.1 (Nat.le_zero.1 hcalls) id (hids id hahead.1)
      exact hzero (decide_eq_true hahead)
    rw [if_neg hnone]
    rfl
  | succ calls ih =>
    obtain ⟨hframe, hstates⟩ := runOnce_refusing hrefuses hpolicy hhealthy hpend world
    have hkept : ∀ id, (runOnce config producer store world).1.stateOf id = some .pending →
        store.stateOf id = some .pending :=
      fun _ => pending_of_runOnce hrefuses hpolicy hhealthy hpend world
    -- Each call brings the refused entry closer to the front.
    have hless : ahead (runOnce config producer store world).1 refused ids ≤ calls := by
      by_cases hahead : ∃ id, store.stateOf id = some .pending ∧
          Precedes store.createdOf id refused
      · obtain ⟨id, hid, hprecedes⟩ := hahead
        have hlt := ahead_runOnce hrefuses hpolicy hhealthy hpend world hids hid hprecedes
        omega
      · refine (countP_eq_zero.2 fun id _ hid => hahead ⟨id, ?_⟩).trans_le (Nat.zero_le _)
        rw [decide_eq_true_iff, hframe.created] at hid
        exact ⟨hkept id hid.1, hid.2⟩
    have hrefused : (runOnce config producer store world).1.stateOf refused = some .pending := by
      rw [hstates, if_neg fun h => h.2.asymm h.2, hpend]
    have hrest := ih (runOnce config producer store world).1
      (runOnce config producer store world).2.1 (hhealthy.frame hframe) hrefused
      (fun id hid => hids id (hkept id hid)) hless
    rw [hframe.created, hstates] at hrest
    refine hrest.trans ?_
    by_cases hbatch : id ∈ store.pendingIds config.batchSize ∧
        Precedes store.createdOf id refused
    · have hpre := stateOf_of_mem_pendingIds hbatch.1
      simp [hpre, hbatch.2]
    · rw [if_neg hbatch]

end refusing

/-! ## Main result -/

theorem ahead_le_countInState (store : OutboxMemoryState) (refused : OutboxId) :
    ahead store refused (store.records.map OutboxRecord.id) ≤ store.countInState .pending := by
  rw [ahead, countP_map, OutboxMemoryState.countInState, ← countP_eq_length_filter]
  refine countP_mono_left fun record hrec hahead => ?_
  have hfind : store.find record.id = some record := lookup_of_mem store.ids_nodup hrec
  have hstate := (of_decide_eq_true hahead).1
  rw [OutboxMemoryState.stateOf_of_find hfind] at hstate
  exact decide_eq_true (Option.some.inj hstate)

/-- The producer refuses one of the pending entries and confirms the others. As many calls
as there are pending entries publish every entry that precedes the refused one, and
however many calls are made, those that follow it stay pending. -/
theorem refused_entry_blocks_followers {config : RelayConfig} (hpolicy : config.policy = {})
    {producer : Producer σ E} {refused : OutboxId} (hrefuses : Refuses producer refused)
    {store : OutboxMemoryState} (hhealthy : store.Healthy)
    (hrefused : store.stateOf refused = some .pending) (world : σ) {calls : ℕ}
    (hcalls : store.countInState .pending ≤ calls) {id : OutboxId}
    (hid : store.stateOf id = some .pending) :
    (Precedes store.createdOf id refused →
      (afterCalls config producer calls store world).1.stateOf id = some .published) ∧
    (Precedes store.createdOf refused id →
      (afterCalls config producer calls store world).1.stateOf id = some .pending) := by
  have hids : ∀ id, store.stateOf id = some .pending → id ∈ store.records.map OutboxRecord.id := by
    intro id hstate
    obtain ⟨record, hfind, _⟩ := Option.map_eq_some_iff.1 hstate
    exact List.mem_map.2 ⟨record, Keyed.mem_of_lookup hfind, Keyed.key_of_lookup hfind⟩
  have hlast := afterCalls_refusing hrefuses hpolicy calls store world hhealthy hrefused hids
    ((ahead_le_countInState store refused).trans hcalls) id
  rw [hlast]
  constructor
  · intro hbefore
    rw [if_pos ⟨hid, hbefore⟩]
  · intro hafter
    rw [if_neg fun h => h.2.asymm hafter, hid]

namespace Sample

def refusing (refused : OutboxId) : Producer Unit Unit :=
  fun _ entry => ((), if entry.id = refused then .error () else .ok .confirmed)

theorem refuses_refusing (refused : OutboxId) : Refuses (refusing refused) refused := by
  intro world entry
  split_ifs with hid
  · exact ⟨(), if_pos hid⟩
  · exact if_neg hid

/-- A store with two pending entries, the first of which precedes the second. -/
def twoPending : OutboxMemoryState :=
  (after [.insert (entry 0), .insert (entry 1)]).1.store

theorem healthy_twoPending : twoPending.Healthy := by
  intro operation _
  rfl

end Sample

theorem refused_entry_blocks_followers_second :
    Sample.twoPending.countInState .pending = 2 ∧
      (afterCalls Sample.config (Sample.refusing ⟨1⟩) 3 Sample.twoPending ()).1.stateOf ⟨0⟩ =
        some .published :=
  ⟨rfl, (refused_entry_blocks_followers rfl (Sample.refuses_refusing ⟨1⟩)
    Sample.healthy_twoPending rfl () (by decide) rfl).1 (by decide)⟩

/-- The older of two entries is refused. After three calls, and as many reports of an error,
the other one is still pending. -/
theorem follower_not_published :
    Sample.config.policy = {} ∧ Refuses (Sample.refusing ⟨0⟩) ⟨0⟩ ∧ Sample.twoPending.Healthy ∧
      Sample.twoPending.countInState .pending = 2 ∧
      (afterCalls Sample.config (Sample.refusing ⟨0⟩) 3 Sample.twoPending ()).1.stateOf ⟨1⟩ =
        some .pending :=
  ⟨rfl, Sample.refuses_refusing ⟨0⟩, Sample.healthy_twoPending, rfl, rfl⟩

end PlenoraRuntime.Outbox
