import Mathlib.Data.List.Perm.Subperm
import PlenoraRuntime.Foundation.OrderedTable
import PlenoraRuntime.Worker.Task

/-!
# The registry of active tasks

Every admitted execution is registered under an identity of its own while its
handler runs. Identities are taken from a counter that wraps around and skips zero.
A registration tries one candidate more than there are registered tasks, so by the
pigeonhole principle one of them is free.
-/

namespace PlenoraRuntime.Worker

open Messaging List OrderedTable

/-- Executor-local identity of one admitted handler invocation. -/
abbrev WorkerTaskId := U64

structure ActiveWorkerTask where
  taskId : WorkerTaskId
  messageId : MessageId
  correlationId : CorrelationId
  attempt : ℕ
  startedAt : SystemTime
  cancellationReason : Option TaskCancellationReason

/-- A registered task and the handle of its cancellation token. -/
structure ActiveTaskRecord where
  snapshot : ActiveWorkerTask
  cancellation : ℕ

inductive ActiveTaskRegistrationError
  | capacityExhausted
  | identifierSpaceExhausted
  deriving DecidableEq, Repr

structure ActiveTaskRegistryState where
  nextTaskId : U64 := 1
  tasks : List (WorkerTaskId × ActiveTaskRecord) := []
  sorted : OrderedTable.Sorted tasks := by exact List.Pairwise.nil

/-- The identity tried after `candidate`. -/
def followingTaskId (candidate : WorkerTaskId) : WorkerTaskId :=
  if candidate + 1 = 0 then 1 else candidate + 1

/-- The loop of `allocate_task_id`, for the given number of candidates: what is tried
next time, and the free identity that was found. -/
def allocateTaskIdFrom (tasks : List (WorkerTaskId × ActiveTaskRecord)) :
    ℕ → WorkerTaskId → WorkerTaskId × Option WorkerTaskId
  | 0, next => (next, none)
  | candidates + 1, candidate =>
    let next := followingTaskId candidate
    if (OrderedTable.get candidate tasks).isNone then (next, some candidate)
    else allocateTaskIdFrom tasks candidates next

namespace ActiveTaskRegistryState

variable (registry : ActiveTaskRegistryState)

def allocateTaskId : ActiveTaskRegistryState × Option WorkerTaskId :=
  let (nextTaskId, found) :=
    allocateTaskIdFrom registry.tasks (registry.tasks.length + 1) registry.nextTaskId
  ({ registry with nextTaskId }, found)

def register (capacity : ℕ) (task : TaskIdentity) (startedAt : SystemTime) (cancellation : ℕ) :
    ActiveTaskRegistryState × Except ActiveTaskRegistrationError WorkerTaskId :=
  if capacity ≤ registry.tasks.length then (registry, .error .capacityExhausted)
  else
    let (registry, found) := registry.allocateTaskId
    match found with
    | none => (registry, .error .identifierSpaceExhausted)
    | some taskId =>
      let snapshot :=
        { taskId
          messageId := task.messageId
          correlationId := task.correlationId
          attempt := task.attempt
          startedAt
          cancellationReason := none }
      ({ registry with
          tasks := OrderedTable.insert taskId { snapshot, cancellation } registry.tasks
          sorted := registry.sorted.insert },
        .ok taskId)

def remove (taskId : WorkerTaskId) : ActiveTaskRegistryState :=
  { registry with
    tasks := OrderedTable.erase taskId registry.tasks
    sorted := registry.sorted.erase taskId }

def taskIds : List WorkerTaskId :=
  registry.tasks.map Prod.fst

end ActiveTaskRegistryState

/-! ## Allocation -/

section allocation

variable {tasks : List (WorkerTaskId × ActiveTaskRecord)} {first : WorkerTaskId}

theorem val_followingTaskId (candidate : WorkerTaskId) :
    (followingTaskId candidate).val = candidate.val % (2 ^ 64 - 1) + 1 := by
  have hsucc : (candidate + 1).val = (candidate.val + 1) % 2 ^ 64 := Fin.val_add candidate 1
  have hzero : candidate + 1 = 0 ↔ (candidate + 1).val = 0 := Fin.ext_iff
  unfold followingTaskId
  split
  case isTrue hwrap =>
    rw [hzero] at hwrap
    omega
  case isFalse hwrap =>
    rw [hzero] at hwrap
    omega

theorem followingTaskId_ne_zero (candidate : WorkerTaskId) : followingTaskId candidate ≠ 0 := by
  intro hzero
  have hval := val_followingTaskId candidate
  rw [hzero] at hval
  exact absurd hval (Nat.zero_ne_add_one _)

/-- The candidates run through the nonzero identities in a circle. -/
theorem val_iterate_followingTaskId (hfirst : first ≠ 0) (k : ℕ) :
    (followingTaskId^[k] first).val = (first.val - 1 + k) % (2 ^ 64 - 1) + 1 := by
  have hpos : 0 < first.val := Nat.pos_of_ne_zero fun hzero => hfirst (Fin.ext hzero)
  induction k with
  | zero =>
    rw [Function.iterate_zero_apply]
    omega
  | succ k ih =>
    rw [Function.iterate_succ_apply', val_followingTaskId]
    omega

theorem iterate_followingTaskId_injective (hfirst : first ≠ 0) {j k : ℕ} (hj : j < 2 ^ 64 - 1)
    (hk : k < 2 ^ 64 - 1) (h : followingTaskId^[j] first = followingTaskId^[k] first) : j = k := by
  have hval := congrArg Fin.val h
  rw [val_iterate_followingTaskId hfirst, val_iterate_followingTaskId hfirst] at hval
  omega

/-- The search finds a free identity, or all its candidates are taken. -/
theorem allocateTaskIdFrom_spec (tasks : List (WorkerTaskId × ActiveTaskRecord))
    (candidates : ℕ) (hfirst : first ≠ 0) :
    (allocateTaskIdFrom tasks candidates first).1 ≠ 0 ∧
      match (allocateTaskIdFrom tasks candidates first).2 with
      | some taskId => taskId ≠ 0 ∧ taskId ∉ tasks.map Prod.fst
      | none => ∀ k < candidates, followingTaskId^[k] first ∈ tasks.map Prod.fst := by
  induction candidates generalizing first with
  | zero => exact ⟨hfirst, fun k hk => absurd hk (Nat.not_lt_zero k)⟩
  | succ candidates ih =>
    have hfree : (OrderedTable.get first tasks).isNone = true ↔ first ∉ tasks.map Prod.fst := by
      rw [Option.isNone_iff_eq_none, OrderedTable.get, Option.map_eq_none_iff,
        Keyed.lookup_eq_none_iff]
    unfold allocateTaskIdFrom
    split
    case isTrue hnone => exact ⟨followingTaskId_ne_zero first, hfirst, hfree.mp hnone⟩
    case isFalse htaken =>
      rw [hfree, not_not] at htaken
      have hrest := ih (followingTaskId_ne_zero first)
      refine ⟨hrest.1, ?_⟩
      generalize (allocateTaskIdFrom tasks candidates (followingTaskId first)).2 = found at hrest
      cases found with
      | some taskId => exact hrest.2
      | none =>
        intro k hk
        cases k with
        | zero => exact htaken
        | succ k => exact hrest.2 k (Nat.lt_of_succ_lt_succ hk)

/-- One candidate more than there are tasks is enough. -/
theorem exists_allocateTaskIdFrom (hfirst : first ≠ 0) (hroom : tasks.length < 2 ^ 64 - 1) :
    ∃ taskId, (allocateTaskIdFrom tasks (tasks.length + 1) first).2 = some taskId := by
  have hspec := (allocateTaskIdFrom_spec tasks (tasks.length + 1) hfirst).2
  generalize (allocateTaskIdFrom tasks (tasks.length + 1) first).2 = found at hspec
  cases found with
  | some taskId => exact ⟨taskId, rfl⟩
  | none =>
    let candidates := (List.range (tasks.length + 1)).map fun k => followingTaskId^[k] first
    have hnodup : candidates.Nodup := by
      refine List.Nodup.map_on ?_ nodup_range
      intro j hj k hk h
      rw [mem_range] at hj hk
      exact iterate_followingTaskId_injective hfirst (by omega) (by omega) h
    have hsubset : candidates ⊆ tasks.map Prod.fst := by
      intro candidate hcand
      obtain ⟨k, hk, rfl⟩ := mem_map.mp hcand
      exact hspec k (mem_range.mp hk)
    have hlen := (hnodup.subperm hsubset).length_le
    simp only [candidates, length_map, length_range] at hlen
    omega

end allocation

/-! ## Registration -/

namespace ActiveTaskRegistryState

variable {registry : ActiveTaskRegistryState} {taskId : WorkerTaskId}

theorem taskIds_nodup (registry : ActiveTaskRegistryState) : registry.taskIds.Nodup :=
  registry.sorted.nodup

/-- As long as there are free identities, one is found. -/
theorem allocateTaskId_of_lt (hnext : registry.nextTaskId ≠ 0)
    (hroom : registry.tasks.length < 2 ^ 64 - 1) :
    ∃ taskId, registry.allocateTaskId.2 = some taskId ∧ taskId ≠ 0 ∧
      taskId ∉ registry.taskIds ∧ registry.allocateTaskId.1.nextTaskId ≠ 0 := by
  have hspec := allocateTaskIdFrom_spec registry.tasks (registry.tasks.length + 1) hnext
  obtain ⟨taskId, hfound⟩ := exists_allocateTaskIdFrom hnext hroom
  rw [hfound] at hspec
  exact ⟨taskId, hfound, hspec.2.1, hspec.2.2, hspec.1⟩

/-- Below its capacity the registry accepts a task under a new identity. -/
theorem register_of_lt {capacity : ℕ} (task : TaskIdentity) (startedAt : SystemTime)
    (cancellation : ℕ) (hnext : registry.nextTaskId ≠ 0) (hcap : capacity ≤ usizeMax)
    (hroom : registry.tasks.length < capacity) :
    ∃ registry' taskId record,
      registry.register capacity task startedAt cancellation = (registry', .ok taskId) ∧
      registry'.nextTaskId ≠ 0 ∧ taskId ∉ registry.taskIds ∧
      registry'.tasks = OrderedTable.insert taskId record registry.tasks := by
  obtain ⟨taskId, hfound, -, hfree, hnext'⟩ :=
    allocateTaskId_of_lt hnext (Nat.lt_of_lt_of_le hroom hcap)
  have hsame : registry.allocateTaskId.1.tasks = registry.tasks := rfl
  unfold register
  rw [if_neg (Nat.not_le_of_lt hroom)]
  generalize registry.allocateTaskId = allocated at hfound hnext' hsame ⊢
  obtain ⟨registry', found⟩ := allocated
  obtain rfl : found = some taskId := hfound
  exact ⟨_, taskId, _, rfl, hnext', hfree, by rw [← hsame]⟩

theorem mem_taskIds_insert {registry' : ActiveTaskRegistryState} {record : ActiveTaskRecord}
    (h : registry'.tasks = OrderedTable.insert taskId record registry.tasks) (id : WorkerTaskId) :
    id ∈ registry'.taskIds ↔ id = taskId ∨ id ∈ registry.taskIds := by
  rw [taskIds, h]
  exact mem_keys_insert

theorem mem_taskIds_remove {id : WorkerTaskId} :
    id ∈ (registry.remove taskId).taskIds ↔ id ≠ taskId ∧ id ∈ registry.taskIds :=
  mem_keys_erase registry.taskIds_nodup

end ActiveTaskRegistryState

/-! ## Runs of the registry -/

/-- One access to the registry: a task is admitted, or its guard is dropped. -/
inductive RegistryAccess
  | register (task : TaskIdentity) (startedAt : SystemTime) (cancellation : ℕ)
  | remove (taskId : WorkerTaskId)

namespace ActiveTaskRegistryState

variable {registry : ActiveTaskRegistryState}

def access (capacity : Usize) (registry : ActiveTaskRegistryState) :
    RegistryAccess → ActiveTaskRegistryState
  | .register task startedAt cancellation =>
    (registry.register capacity task startedAt cancellation).1
  | .remove taskId => registry.remove taskId

theorem nextTaskId_access (capacity : Usize) (access : RegistryAccess)
    (hnext : registry.nextTaskId ≠ 0) : (registry.access capacity access).nextTaskId ≠ 0 := by
  cases access with
  | remove taskId => exact hnext
  | register task startedAt cancellation =>
    rcases Nat.lt_or_ge registry.tasks.length capacity with hroom | hfull
    · obtain ⟨registry', taskId, record, hreg, hnext', -⟩ :=
        register_of_lt task startedAt cancellation hnext capacity.le_usizeMax hroom
      rw [ActiveTaskRegistryState.access, hreg]
      exact hnext'
    · rw [ActiveTaskRegistryState.access, register, if_pos hfull]
      exact hnext

theorem nextTaskId_accesses (capacity : Usize) (accesses : List RegistryAccess)
    (hnext : registry.nextTaskId ≠ 0) :
    (accesses.foldl (access capacity) registry).nextTaskId ≠ 0 := by
  induction accesses generalizing registry with
  | nil => exact hnext
  | cons first rest ih => exact ih (nextTaskId_access capacity first hnext)

/-- A registration leaves every live task as it was, and does not run out of identities. -/
theorem register_preserves (capacity : Usize) (task : TaskIdentity) (startedAt : SystemTime)
    (cancellation : ℕ) (hnext : registry.nextTaskId ≠ 0) :
    let result := registry.register capacity task startedAt cancellation
    result.2 ≠ .error .identifierSpaceExhausted ∧
      ∀ id record, OrderedTable.get id registry.tasks = some record →
        OrderedTable.get id result.1.tasks = some record := by
  intro result
  rcases Nat.lt_or_ge registry.tasks.length capacity with hroom | hfull
  · obtain ⟨registry', taskId, record, hreg, -, hfree, htasks⟩ :=
      register_of_lt task startedAt cancellation hnext capacity.le_usizeMax hroom
    have hres : result = (registry', .ok taskId) := hreg
    rw [hres]
    refine ⟨by simp, fun id live hlive => ?_⟩
    -- The new identity is not the one of a live task.
    have hne : id ≠ taskId := by
      rintro rfl
      rw [get_eq_none_iff.mpr hfree] at hlive
      cases hlive
    rw [htasks, get_insert, if_neg hne]
    exact hlive
  · have hres : result = (registry, .error .capacityExhausted) := if_pos hfull
    rw [hres]
    exact ⟨by simp, fun _ _ hlive => hlive⟩

end ActiveTaskRegistryState

/-- From any registry whose next identity is not zero and after any accesses: while fewer than
`2 ^ 64 - 1` tasks are registered, an identity is found that is neither zero nor taken; a
registration replaces no live task and never fails for want of an identity. -/
theorem task_ids_fresh (capacity : Usize) (registry : ActiveTaskRegistryState)
    (hnext : registry.nextTaskId ≠ 0) (accesses : List RegistryAccess) :
    let reached := accesses.foldl (ActiveTaskRegistryState.access capacity) registry
    (reached.tasks.length < 2 ^ 64 - 1 →
      ∃ taskId, reached.allocateTaskId.2 = some taskId ∧ taskId ≠ 0 ∧
        taskId ∉ reached.taskIds) ∧
    ∀ task startedAt cancellation,
      let result := reached.register capacity task startedAt cancellation
      result.2 ≠ .error .identifierSpaceExhausted ∧
        ∀ id record, OrderedTable.get id reached.tasks = some record →
          OrderedTable.get id result.1.tasks = some record := by
  intro reached
  have hreached := ActiveTaskRegistryState.nextTaskId_accesses capacity accesses hnext
  refine ⟨fun hroom => ?_, fun task startedAt cancellation => ?_⟩
  · obtain ⟨taskId, hfound, hne, hfree, -⟩ :=
      ActiveTaskRegistryState.allocateTaskId_of_lt hreached hroom
    exact ⟨taskId, hfound, hne, hfree⟩
  · exact ActiveTaskRegistryState.register_preserves capacity task startedAt cancellation hreached

/-- The task with the largest identity makes the counter wrap around, to an identity that is
taken: the next task gets the one after it. -/
theorem task_ids_fresh_wrapped :
    let task : TaskIdentity := ⟨⟨1⟩, ⟨1⟩, 1⟩
    let registry : ActiveTaskRegistryState :=
      { nextTaskId := Fin.last _
        tasks := [(1, ⟨⟨1, ⟨1⟩, ⟨1⟩, 1, 0, none⟩, 0⟩)]
        sorted := List.pairwise_singleton _ _ }
    let reached := [.register task 0 0].foldl (ActiveTaskRegistryState.access 4) registry
    reached.taskIds = [1, Fin.last _] ∧
      (∃ taskId, reached.allocateTaskId.2 = some taskId ∧ taskId ≠ 0 ∧
        taskId ∉ reached.taskIds) ∧
      (reached.register 4 task 0 0).2 = .ok 2 ∧
      ∀ id record, OrderedTable.get id reached.tasks = some record →
        OrderedTable.get id (reached.register 4 task 0 0).1.tasks = some record := by
  intro task registry reached
  obtain ⟨hfound, hregistered⟩ :=
    task_ids_fresh 4 registry (by decide) [.register task 0 0]
  exact ⟨rfl, hfound (by decide), rfl, (hregistered task 0 0).2⟩

/-- A registry whose next identity were zero would hand it out. -/
theorem task_id_zero_allocated :
    ({ nextTaskId := 0 } : ActiveTaskRegistryState).allocateTaskId.2 = some 0 := by
  decide

end PlenoraRuntime.Worker
