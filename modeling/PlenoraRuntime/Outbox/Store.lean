import Mathlib.Data.List.Sort
import PlenoraRuntime.Messaging.Message

/-!
# The in-memory outbox store

`InMemoryOutboxStore` behind its mutex: each operation is one atomic function from
the store's state to its next state and the result it returns. A failure injected
into an operation is consumed before the operation looks at the records.

The hash map of records is a table with distinct identities. The order in which a
map is traversed cannot be observed: the only traversal sorts what it collects by
creation time and identity.
-/

namespace PlenoraRuntime.Outbox

open Messaging List Option Function Keyed

/-! ## Entries and failures -/

structure OutboxId where
  uuid : Uuid
  deriving DecidableEq

structure OutboxEntry where
  id : OutboxId
  message : SerializedMessage
  createdAt : UtcDateTime
  attempts : ℕ
  deriving DecidableEq

inductive PublishFailureKind
  | producerError
  | outcomeUnknown
  | notAttempted
  deriving DecidableEq, Repr

inductive FailureDisposition
  | retry
  | reconcile
  | terminal
  deriving DecidableEq, Repr

structure PublishFailure where
  kind : PublishFailureKind
  disposition : FailureDisposition
  deriving DecidableEq, Repr

inductive OutboxEntryState
  | pending
  | claimed
  | published
  | awaitingReconciliation
  | failed
  deriving DecidableEq, Repr

/-- The states that the claims and marks of a relay never leave. -/
def OutboxEntryState.Final (state : OutboxEntryState) : Prop :=
  state = .published ∨ state = .awaitingReconciliation ∨ state = .failed

structure OutboxRecord where
  entry : OutboxEntry
  state : OutboxEntryState
  lastFailure : Option PublishFailure
  deriving DecidableEq

def OutboxRecord.id (record : OutboxRecord) : OutboxId :=
  record.entry.id

/-! ## Injected failures -/

inductive MemoryStoreOperation
  | outboxInsert
  | outboxClaim
  | outboxMarkPublished
  | outboxMarkFailed
  | inboxContains
  | inboxRecord
  | idempotencyBegin
  | idempotencyComplete
  deriving DecidableEq, Repr

/-- The errors of the outbox store. `LockPoisoned` cannot occur: nothing panics while
the lock is held. -/
inductive MemoryStoreError
  | injected (operation : MemoryStoreOperation)
  | duplicateOutbox (id : OutboxId)
  | outboxNotFound (id : OutboxId)
  | invalidOutboxTransition (id : OutboxId) (state : OutboxEntryState)
  deriving DecidableEq

/-- `FaultPlan`: how often each operation is still to fail. -/
structure FaultPlan where
  remaining : MemoryStoreOperation → Option ℕ := fun _ => none

namespace FaultPlan

variable (plan : FaultPlan) (operation : MemoryStoreOperation)

def inject (times : ℕ) : FaultPlan where
  remaining := Function.update plan.remaining operation (some times)

def check : FaultPlan × Except MemoryStoreError Unit :=
  match plan.remaining operation with
  | none | some 0 => (plan, .ok ())
  | some (times + 1) => (plan.inject operation times, .error (.injected operation))

end FaultPlan

/-! ## The store -/

structure OutboxMemoryState where
  records : List OutboxRecord := []
  faults : FaultPlan := {}
  ids_nodup : (records.map OutboxRecord.id).Nodup := by exact List.nodup_nil

namespace OutboxMemoryState

variable (store : OutboxMemoryState)

def find (id : OutboxId) : Option OutboxRecord :=
  Keyed.lookup OutboxRecord.id id store.records

/-- Writes a record back to where `find` took it from. -/
def put (record : OutboxRecord) : OutboxMemoryState where
  records := Keyed.replace OutboxRecord.id record.id record store.records
  faults := store.faults
  ids_nodup := by
    rw [Keyed.map_key_replace rfl]
    exact store.ids_nodup

/-- Consumes an injected failure of the operation, or lets it go on. -/
def checked {α : Type} (operation : MemoryStoreOperation)
    (body : OutboxMemoryState → OutboxMemoryState × Except MemoryStoreError α) :
    OutboxMemoryState × Except MemoryStoreError α :=
  let (faults, result) := store.faults.check operation
  match result with
  | .error error => ({ store with faults }, .error error)
  | .ok () => body { store with faults }

def injectFailure (operation : MemoryStoreOperation) (times : ℕ) : OutboxMemoryState :=
  { store with faults := store.faults.inject operation times }

def insert (entry : OutboxEntry) : OutboxMemoryState × Except MemoryStoreError Unit :=
  store.checked .outboxInsert fun store =>
    if hnew : store.find entry.id = none then
      ({ store with
          records := store.records ++ [{ entry, state := .pending, lastFailure := none }]
          ids_nodup := by
            rw [List.map_append, List.map_singleton, List.nodup_append_comm]
            exact List.nodup_cons.mpr ⟨Keyed.lookup_eq_none_iff.mp hnew, store.ids_nodup⟩ },
        .ok ())
    else (store, .error (.duplicateOutbox entry.id))

/-- The order of claims: by creation time, then by identity. -/
def claimOrder (left right : OutboxRecord) : Prop :=
  left.entry.createdAt < right.entry.createdAt ∨
    (left.entry.createdAt = right.entry.createdAt ∧ left.id.uuid ≤ right.id.uuid)

instance : DecidableRel claimOrder :=
  fun _ _ => inferInstanceAs (Decidable (_ ∨ _ ∧ _))

/-- The identities that `claim_pending` collects, sorts and truncates. -/
def pendingIds (limit : ℕ) : List OutboxId :=
  (((store.records.filter fun record => record.state = .pending).insertionSort claimOrder).map
    OutboxRecord.id).take limit

end OutboxMemoryState

/-- A claim counts as one more attempt. -/
def OutboxRecord.claim (record : OutboxRecord) : OutboxRecord :=
  { record with
    state := .claimed
    entry := { record.entry with attempts := saturatingAddU32 record.entry.attempts 1 } }

namespace OutboxMemoryState

/-- The loop of `claim_pending` over the identities. -/
def claimEach : List OutboxId → OutboxMemoryState → OutboxMemoryState × List OutboxEntry
  | [], store => (store, [])
  | id :: rest, store =>
    match store.find id with
    | none => claimEach rest store
    | some record =>
      let (store, claimed) := claimEach rest (store.put record.claim)
      (store, record.claim.entry :: claimed)

variable (store : OutboxMemoryState)

def claimPending (limit : ℕ) : OutboxMemoryState × Except MemoryStoreError (List OutboxEntry) :=
  store.checked .outboxClaim fun store =>
    let (store, claimed) := claimEach (store.pendingIds limit) store
    (store, .ok claimed)

def markPublished (id : OutboxId) : OutboxMemoryState × Except MemoryStoreError Unit :=
  store.checked .outboxMarkPublished fun store =>
    match store.find id with
    | none => (store, .error (.outboxNotFound id))
    | some record =>
      match record.state with
      | .claimed => (store.put { record with state := .published, lastFailure := none }, .ok ())
      | .published => (store, .ok ())
      | observed => (store, .error (.invalidOutboxTransition id observed))

/-- The state a failed publication leads to. -/
def failedState : FailureDisposition → OutboxEntryState
  | .retry => .pending
  | .reconcile => .awaitingReconciliation
  | .terminal => .failed

def markFailed (id : OutboxId) (failure : PublishFailure) :
    OutboxMemoryState × Except MemoryStoreError Unit :=
  store.checked .outboxMarkFailed fun store =>
    match store.find id with
    | none => (store, .error (.outboxNotFound id))
    | some record =>
      if record.state ≠ .claimed then
        (store, .error (.invalidOutboxTransition id record.state))
      else
        (store.put { record with
            state := failedState failure.disposition
            lastFailure := some failure },
          .ok ())

/-! ## What the operations do

What a relay can rely on are the records that `find` returns. Every operation changes
them as the lemmas say, whether or not a failure was injected. -/

def stateOf (id : OutboxId) : Option OutboxEntryState :=
  (store.find id).map OutboxRecord.state

def entryOf (id : OutboxId) : Option OutboxEntry :=
  (store.find id).map OutboxRecord.entry

section records

variable {store} {store' : OutboxMemoryState} {id : OutboxId} {record old : OutboxRecord}
  {result : Except MemoryStoreError Unit} {limit : ℕ} {entries : List OutboxEntry}
  {ids : List OutboxId}

theorem stateOf_of_find (hfind : store.find id = some record) :
    store.stateOf id = some record.state := by
  rw [stateOf, hfind, map_some]

theorem stateOf_congr (h : store'.find = store.find) : store'.stateOf = store.stateOf := by
  funext id
  rw [stateOf, h, stateOf]

/-- A checked operation consumes an injected failure, or is performed on the same
records. -/
theorem checked_cases {α : Type} {operation}
    {body : OutboxMemoryState → OutboxMemoryState × Except MemoryStoreError α} {next}
    (h : store.checked operation body = next) :
    (∃ error, next.2 = .error error ∧ next.1.find = store.find) ∨
      ∃ store₁ : OutboxMemoryState, store₁.find = store.find ∧ body store₁ = next := by
  unfold checked at h
  dsimp only at h
  split at h
  case h_1 error _ =>
    subst h
    exact .inl ⟨error, rfl, rfl⟩
  case h_2 =>
    refine .inr ⟨_, ?_, h⟩
    rfl

theorem find_put (record : OutboxRecord) (hfind : store.find record.id = some old) :
    (store.put record).find = Function.update store.find record.id (some record) := by
  funext id
  by_cases hid : id = record.id
  · rw [hid, update_self]
    exact lookup_replace_self rfl hfind
  · rw [update_of_ne hid]
    exact lookup_replace_of_ne rfl hid

/-- What is read off the records, after one of them was written. -/
theorem map_find_update {α : Type} (read : OutboxRecord → α)
    (h : store'.find = Function.update store.find id (some record)) :
    (fun id => (store'.find id).map read) =
      Function.update (fun id => (store.find id).map read) id (some (read record)) := by
  funext other
  rw [h, update_apply, update_apply]
  split <;> rfl

/-- Every identity that is found is claimed. -/
theorem find_claimEach (hnodup : ids.Nodup) (store : OutboxMemoryState) (id : OutboxId) :
    (claimEach ids store).1.find id =
      if id ∈ ids then (store.find id).map OutboxRecord.claim else store.find id := by
  induction ids generalizing store with
  | nil => simp [claimEach]
  | cons first rest ih =>
    obtain ⟨hfresh, hrest⟩ := nodup_cons.mp hnodup
    unfold claimEach
    split
    case h_1 hnone =>
      rw [ih hrest store]
      by_cases heq : id = first
      · subst heq
        simp [hnone]
      · simp [heq]
    case h_2 record hfind =>
      obtain rfl : record.id = first := key_of_lookup hfind
      rw [ih hrest, find_put record.claim hfind]
      by_cases heq : id = record.id
      · subst heq
        rw [if_neg hfresh, if_pos mem_cons_self, hfind]
        exact update_self record.id ..
      · have hother : id ≠ record.claim.id := heq
        simp [heq, update_of_ne hother]

theorem ids_claimEach (store : OutboxMemoryState) (hfound : ∀ id ∈ ids, store.find id ≠ none) :
    (claimEach ids store).2.map OutboxEntry.id = ids := by
  induction ids generalizing store with
  | nil => rfl
  | cons first rest ih =>
    unfold claimEach
    split
    case h_1 hnone => exact absurd hnone (hfound first mem_cons_self)
    case h_2 record hfind =>
      obtain rfl : record.id = first := key_of_lookup hfind
      refine congrArg (record.id :: ·) (ih _ fun id hid => ?_)
      rw [find_put record.claim hfind, update_apply]
      split
      · exact some_ne_none _
      · exact hfound id (mem_cons_of_mem _ hid)

theorem pendingIds_nodup (store : OutboxMemoryState) (limit : ℕ) :
    (store.pendingIds limit).Nodup := by
  refine List.Nodup.sublist (take_sublist ..) ?_
  rw [((perm_insertionSort _ _).map _).nodup_iff]
  exact store.ids_nodup.sublist (filter_sublist.map _)

theorem stateOf_of_mem_pendingIds (h : id ∈ store.pendingIds limit) :
    store.stateOf id = some .pending := by
  obtain ⟨record, hrec, rfl⟩ := List.mem_map.mp (mem_of_mem_take h)
  rw [mem_insertionSort, mem_filter] at hrec
  rw [stateOf_of_find (lookup_of_mem store.ids_nodup hrec.1)]
  exact congrArg some (of_decide_eq_true hrec.2)

/-- Distinct pending records are claimed, not more than asked for. -/
structure Claims (store store' : OutboxMemoryState) (limit : ℕ) (entries : List OutboxEntry) :
    Prop where
  length_le : entries.length ≤ limit
  nodup : (entries.map OutboxEntry.id).Nodup
  pending : ∀ id ∈ entries.map OutboxEntry.id, store.stateOf id = some .pending
  find : ∀ id, store'.find id =
    if id ∈ entries.map OutboxEntry.id then (store.find id).map OutboxRecord.claim
    else store.find id

theorem Claims.states (h : Claims store store' limit entries) (id : OutboxId) :
    store'.stateOf id =
      if id ∈ entries.map OutboxEntry.id then some .claimed else store.stateOf id := by
  rw [stateOf, h.find]
  split_ifs with hid
  · obtain ⟨record, hfind, _⟩ := map_eq_some_iff.mp (h.pending id hid)
    rw [hfind]
    rfl
  · rfl

theorem claims_claimEach (store : OutboxMemoryState) (limit : ℕ) :
    (claimEach (store.pendingIds limit) store).2.map OutboxEntry.id = store.pendingIds limit ∧
      Claims store (claimEach (store.pendingIds limit) store).1 limit
        (claimEach (store.pendingIds limit) store).2 := by
  have hnodup := pendingIds_nodup store limit
  have hids : (claimEach (store.pendingIds limit) store).2.map OutboxEntry.id =
      store.pendingIds limit := by
    refine ids_claimEach store fun id hid hnone => ?_
    have hstate := stateOf_of_mem_pendingIds hid
    rw [stateOf, hnone] at hstate
    cases hstate
  refine ⟨hids, ?_, ?_, ?_, ?_⟩
  · rw [← length_map OutboxEntry.id, hids]
    exact length_take_le ..
  all_goals rw [hids]
  · exact hnodup
  · exact fun _ => stateOf_of_mem_pendingIds
  · exact find_claimEach hnodup store

theorem find_of_claimPending_error {error} (h : store.claimPending limit = (store', .error error)) :
    store'.find = store.find := by
  rcases checked_cases h with ⟨_, _, hsame⟩ | ⟨store₁, hsame, hbody⟩
  · exact hsame
  · cases hbody

theorem claims_of_claimPending (h : store.claimPending limit = (store', .ok entries)) :
    Claims store store' limit entries := by
  rcases checked_cases h with ⟨_, herror, _⟩ | ⟨store₁, hsame, hbody⟩
  · cases herror
  · cases hbody
    obtain ⟨hlen, hnodup, hpend, hfind⟩ := (claims_claimEach store₁ limit).2
    rw [stateOf_congr hsame] at hpend
    rw [hsame] at hfind
    exact ⟨hlen, hnodup, hpend, hfind⟩

/-- The record of `id` moves from claimed to `state`; no other record does. -/
structure Moves (store store' : OutboxMemoryState) (id : OutboxId) (state : OutboxEntryState) :
    Prop where
  claimed : store.stateOf id = some .claimed
  states : store'.stateOf = Function.update store.stateOf id (some state)
  entries : store'.entryOf = store.entryOf

theorem moves_put {store₁ : OutboxMemoryState} (record : OutboxRecord)
    (hfind : store.find id = some old) (hentry : record.entry = old.entry)
    (hclaim : old.state = .claimed) (hsame : store.find = store₁.find) :
    Moves store₁ (store.put record) id record.state := by
  have hold : old.id = id := key_of_lookup hfind
  obtain rfl : record.id = id := (congrArg OutboxEntry.id hentry).trans hold
  have hput := find_put record hfind
  refine ⟨?_, ?_, ?_⟩
  · rw [stateOf, ← hsame, hfind, map_some, hclaim]
  · rw [← stateOf_congr hsame]
    exact map_find_update OutboxRecord.state hput
  · refine (map_find_update OutboxRecord.entry hput).trans ?_
    rw [hsame]
    refine update_eq_self_iff.mpr ?_
    rw [← hsame, hfind, hentry, map_some]

/-- `mark_published` fails and changes nothing, finds the record published already, or
moves it. -/
theorem markPublished_spec (h : store.markPublished id = (store', result)) :
    (∃ error, result = .error error ∧ store'.find = store.find) ∨
      (result = .ok () ∧ store.stateOf id = some .published ∧ store'.find = store.find) ∨
      (result = .ok () ∧ Moves store store' id .published) := by
  rcases checked_cases h with hfault | ⟨store₁, hsame, hbody⟩
  · exact .inl hfault
  · split at hbody
    case h_1 =>
      cases hbody
      exact .inl ⟨_, rfl, hsame⟩
    case h_2 record hfind =>
      split at hbody <;> cases hbody
      case h_1 hclaim => exact .inr (.inr ⟨rfl, moves_put _ hfind rfl hclaim hsame⟩)
      case h_2 hpub =>
        refine .inr (.inl ⟨rfl, ?_, hsame⟩)
        rw [← stateOf_congr hsame, stateOf_of_find hfind, hpub]
      case h_3 => exact .inl ⟨_, rfl, hsame⟩

/-- `mark_failed` fails and changes nothing, or moves the record as the disposition
says. -/
theorem markFailed_spec {failure} (h : store.markFailed id failure = (store', result)) :
    (∃ error, result = .error error ∧ store'.find = store.find) ∨
      (result = .ok () ∧ Moves store store' id (failedState failure.disposition)) := by
  rcases checked_cases h with hfault | ⟨store₁, hsame, hbody⟩
  · exact .inl hfault
  · split at hbody
    case h_1 =>
      cases hbody
      exact .inl ⟨_, rfl, hsame⟩
    case h_2 record hfind =>
      split at hbody <;> cases hbody
      case isTrue => exact .inl ⟨_, rfl, hsame⟩
      case isFalse hclaim =>
        exact .inr ⟨rfl, moves_put _ hfind rfl (not_not.mp hclaim) hsame⟩

/-- `insert` fails and changes nothing, or adds a pending record under a new identity. -/
theorem insert_spec {entry} (h : store.insert entry = (store', result)) :
    (∃ error, result = .error error ∧ store'.find = store.find) ∨
      (result = .ok () ∧ store.find entry.id = none ∧
        store'.find = Function.update store.find entry.id
          (some { entry, state := .pending, lastFailure := none })) := by
  rcases checked_cases h with hfault | ⟨store₁, hsame, hbody⟩
  · exact .inl hfault
  · split at hbody
    case isFalse =>
      cases hbody
      exact .inl ⟨_, rfl, hsame⟩
    case isTrue hnew =>
      cases hbody
      refine .inr ⟨rfl, hsame ▸ hnew, ?_⟩
      rw [← hsame]
      funext id
      have hlookup : Keyed.lookup OutboxRecord.id entry.id store₁.records = none := hnew
      by_cases hid : id = entry.id
      · subst hid
        simp [find, lookup_append_singleton, hlookup, OutboxRecord.id]
      · simp [find, lookup_append_singleton, OutboxRecord.id, hid, Ne.symm hid]

end records

end OutboxMemoryState

end PlenoraRuntime.Outbox
