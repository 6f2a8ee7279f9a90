import Mathlib.Data.List.DropRight
import PlenoraRuntime.Core.Runtime

/-!
# The books of the runtime

The count of active tasks, the abort handles and the report history are three structures
that a supervisor updates one after the other. Between its accesses they are related by
how far each task has come (`Accounted`): a stage says whether the task is counted,
whether it may have an abort handle and which milestones it has behind it.

* **Milestones.** The supervision of a task has one course: the task is registered, its
  future ends, its completion is recorded, it is no longer counted, and its report is
  handed out. `Task.milestones` is the part of the course that a stage has behind it.
* **Steps.** `Moves` says what one access of a task does to the three structures and to
  the milestones, and `Accounted.move` that the relation follows every such access.
-/

namespace PlenoraRuntime.Core

open List

/-! ## What a history says -/

def registrations (events : List Event) : List ℕ :=
  events.filterMap fun
    | .registered id => some id
    | _ => none

/-- The tasks that are no longer counted, in order. -/
def releases (events : List Event) : List ℕ :=
  events.filterMap fun
    | .released id => some id
    | _ => none

/-- The completions of tasks, in the order in which they were recorded. -/
def completions (events : List Event) : List (ℕ × TaskReport) :=
  events.filterMap fun
    | .completed id report => some (id, report)
    | _ => none

@[simp] theorem registrations_append (past events : List Event) :
    registrations (past ++ events) = registrations past ++ registrations events :=
  filterMap_append

@[simp] theorem completions_append (past events : List Event) :
    completions (past ++ events) = completions past ++ completions events :=
  filterMap_append

/-- The task whose supervision the event is a step of. Aborting a task is a request to
its future, not a step. -/
def Event.task? : Event → Option ℕ
  | .registered id | .ended id _ | .completed id _ | .released id | .reported id _ => some id
  | .rejected _ | .aborted _ | .requested _ | .drained _ => none

/-- The steps of the supervision of the task `id`. -/
def milestones (id : ℕ) (events : List Event) : List Event :=
  events.filter fun event => event.task? = some id

/-- The whole supervision of a task whose future ends with `outcome`. -/
def course (id : ℕ) (spec : TaskSpec) (outcome : TaskOutcome) : List Event :=
  [.registered id, .ended id outcome, .completed id ⟨spec, outcome⟩, .released id,
    .reported id ⟨spec, outcome⟩]

theorem mem_releases {id : ℕ} {events : List Event} :
    id ∈ releases events ↔ .released id ∈ milestones id events := by
  simp only [releases, milestones, mem_filterMap, mem_filter, Event.task?, decide_true, and_true]
  constructor
  · rintro ⟨event, hmem, hid⟩
    cases event with
    | released other => exact Option.some.inj hid ▸ hmem
    | _ => cases hid
  · exact fun hmem => ⟨_, hmem, rfl⟩

section milestones

variable {id other : ℕ} {events : List Event}

@[simp] theorem milestones_append (past events : List Event) :
    milestones id (past ++ events) = milestones id past ++ milestones id events :=
  filter_append ..

theorem milestones_of_forall (h : ∀ event ∈ events, event.task? = some id) :
    milestones id events = events :=
  filter_eq_self.mpr fun event hmem => decide_eq_true (h event hmem)

theorem milestones_of_ne (h : ∀ event ∈ events, event.task? = some id) (hne : other ≠ id) :
    milestones other events = [] := by
  refine filter_eq_nil_iff.mpr fun event hmem => ?_
  rw [h event hmem]
  simpa using hne.symm

/-- Nothing is said about the tasks. -/
def Quiet (events : List Event) : Prop :=
  ∀ event ∈ events, event.task? = none

theorem Quiet.nil : Quiet [] := by simp [Quiet]

theorem Quiet.milestones (h : Quiet events) : milestones id events = [] :=
  filter_eq_nil_iff.mpr fun event hmem => by simp [h event hmem]

theorem Quiet.filterMap {α : Type*} {f : Event → Option α} (h : Quiet events)
    (hf : ∀ event, event.task? = none → f event = none) : events.filterMap f = [] :=
  filterMap_eq_nil_iff.mpr fun event hmem => hf event (h event hmem)

theorem Quiet.registrations (h : Quiet events) : registrations events = [] :=
  h.filterMap fun event hnone => by cases event <;> simp_all [Event.task?]

theorem Quiet.releases (h : Quiet events) : releases events = [] :=
  h.filterMap fun event hnone => by cases event <;> simp_all [Event.task?]

theorem Quiet.completions (h : Quiet events) : completions events = [] :=
  h.filterMap fun event hnone => by cases event <;> simp_all [Event.task?]

end milestones

/-! ## What a stage says -/

namespace TaskStage

/-- The task is counted in `active_tasks`. -/
def isActive : TaskStage → Bool
  | .registered | .supervised | .applying .. | .recording _ | .removing _ | .releasing _ => true
  | .notifying _ | .sending _ | .finished _ => false

/-- The abort handle of the task may be in the map. -/
def holdsHandle : TaskStage → Bool
  | .supervised | .applying .. | .recording _ | .removing _ => true
  | .registered | .releasing _ | .notifying _ | .sending _ | .finished _ => false

end TaskStage

/-- The milestones that a task has behind it. -/
def Task.milestones (task : Task) : List Event :=
  match task.stage with
  | .registered | .supervised => [.registered task.id]
  | .applying outcome _ | .recording outcome => (course task.id task.spec outcome).take 2
  | .removing outcome | .releasing outcome => (course task.id task.spec outcome).take 3
  | .notifying outcome | .sending outcome => (course task.id task.spec outcome).take 4
  | .finished outcome => course task.id task.spec outcome

/-- The task `id` is in a stage of the given kind. -/
def HasTask (tasks : List Task) (kind : TaskStage → Bool) (id : ℕ) : Prop :=
  ∃ task ∈ tasks, task.id = id ∧ kind task.stage = true

variable {stage : TaskStage} {task : Task}

theorem Task.milestones_isPrefix (task : Task) :
    ∃ outcome, task.milestones <+: course task.id task.spec outcome := by
  obtain ⟨id, spec, stage⟩ := task
  cases stage with
  | registered | supervised => exact ⟨.completed, take_prefix 1 (course id spec .completed)⟩
  | finished outcome => exact ⟨outcome, prefix_rfl⟩
  | applying outcome _ | recording outcome | removing outcome | releasing outcome
  | notifying outcome | sending outcome => exact ⟨outcome, take_prefix _ _⟩

/-- A task is counted until it has been released. -/
theorem Task.released_mem_iff : .released task.id ∈ task.milestones ↔
    task.stage.isActive = false := by
  obtain ⟨id, spec, stage⟩ := task
  cases stage <;> simp [Task.milestones, course, TaskStage.isActive]

/-- A task that is no longer counted has ended. -/
theorem Task.ended_mem (h : task.stage.isActive = false) :
    ∃ outcome, .ended task.id outcome ∈ task.milestones := by
  obtain ⟨id, spec, stage⟩ := task
  cases stage with
  | notifying outcome | sending outcome | finished outcome =>
    exact ⟨outcome, by simp [Task.milestones, course]⟩
  | _ => simp [TaskStage.isActive] at h

section tasks

variable {tasks : List Task} {kind : TaskStage → Bool} {i id : ℕ}

theorem hasTask_concat :
    HasTask (tasks ++ [task]) kind id ↔
      HasTask tasks kind id ∨ task.id = id ∧ kind task.stage = true := by
  simp only [HasTask, mem_append, mem_singleton, or_and_right, exists_or, exists_eq_left]

theorem map_id_set (h : tasks[i]? = some task) :
    (tasks.set i { task with stage }).map Task.id = tasks.map Task.id := by
  rw [map_set]
  exact Slots.set_self (by rw [getElem?_map, h]; rfl)

theorem hasTask_of_ids (h : tasks[i]? = some task) (hunique : (tasks.map Task.id).Nodup) :
    HasTask tasks kind task.id ↔ kind task.stage = true := by
  constructor
  · rintro ⟨other, hmem, hid, hkind⟩
    have hother := inj_on_of_nodup_map hunique hmem (mem_of_getElem? h) hid
    exact hother ▸ hkind
  · exact fun hkind => ⟨task, mem_of_getElem? h, rfl, hkind⟩

theorem hasTask_set (h : tasks[i]? = some task) (hunique : (tasks.map Task.id).Nodup) :
    HasTask (tasks.set i { task with stage }) kind id ↔
      if id = task.id then kind stage = true else HasTask tasks kind id := by
  have hlt : i < tasks.length := (List.getElem?_eq_some_iff.mp h).1
  have hself : (tasks.set i { task with stage })[i]? = some { task with stage } := by
    rw [getElem?_set_self hlt]
  split_ifs with hid
  · subst hid
    exact hasTask_of_ids hself (by rwa [map_id_set h])
  · constructor
    · rintro ⟨other, hmem, rfl, hkind⟩
      rcases mem_or_eq_of_mem_set hmem with hmem | rfl
      · exact ⟨other, hmem, rfl, hkind⟩
      · exact absurd rfl hid
    · rintro ⟨other, hmem, rfl, hkind⟩
      obtain ⟨j, hj⟩ := mem_iff_getElem?.mp hmem
      have hij : i ≠ j := by
        rintro rfl
        rw [h, Option.some.injEq] at hj
        exact hid (congrArg Task.id hj.symm)
      exact ⟨other, mem_iff_getElem?.mpr ⟨j, by rw [getElem?_set_ne hij, hj]⟩, rfl, hkind⟩

end tasks

/-! ## The books -/

/-- The shared structures agree with the stages of the tasks and with the history. -/
structure Accounted (config : RuntimeConfig) (inner : RuntimeInner) (tasks : List Task)
    (past : List Event) : Prop where
  registered : registrations past = tasks.map Task.id
  unique : (tasks.map Task.id).Nodup
  fresh : ∀ id ∈ tasks.map Task.id, id < inner.nextTaskId
  active : inner.activeTasks = tasks.countP (·.stage.isActive)
  bounded : inner.activeTasks ≤ config.maxConcurrentTasks.val
  told : ∀ task ∈ tasks, milestones task.id past = task.milestones
  untold : ∀ id ∉ tasks.map Task.id, milestones id past = []
  handlesSorted : OrderedTable.Sorted inner.abortHandles
  handles : ∀ id ∈ inner.abortHandles.map Prod.fst, HasTask tasks TaskStage.holdsHandle id
  reports : inner.reports =
    ((completions past).map Prod.snd).rtake config.taskReportCapacity.val

structure SameBooks (inner inner' : RuntimeInner) : Prop where
  activeTasks : inner'.activeTasks = inner.activeTasks
  reports : inner'.reports = inner.reports
  abortHandles : inner'.abortHandles = inner.abortHandles
  nextTaskId : inner'.nextTaskId = inner.nextTaskId

theorem SameBooks.refl (inner : RuntimeInner) : SameBooks inner inner := ⟨rfl, rfl, rfl, rfl⟩

theorem sameBooks_beginShutdown (inner : RuntimeInner) : SameBooks inner inner.beginShutdown.1 := by
  unfold RuntimeInner.beginShutdown
  split_ifs
  · exact ⟨rfl, rfl, rfl, rfl⟩
  · exact .refl inner

theorem FailureEffect.sameBooks_perform (inner : RuntimeInner) (rest : List FailureEffect)
    (effect : FailureEffect) : SameBooks inner (effect.perform inner rest).1 := by
  cases effect with
  | setHealth health | setReadiness readiness | cancel => exact ⟨rfl, rfl, rfl, rfl⟩
  | beginShutdown => exact sameBooks_beginShutdown inner

/-! ## What a step of a task can do -/

/-- The count of active tasks follows a task that moves between two stages. -/
inductive Counts (id active : ℕ) : Bool → Bool → ℕ → List ℕ → Prop
  | same {isActive} : Counts id active isActive isActive active []
  | releases : Counts id active true false (active - 1) [id]

/-- The report history follows the completions. -/
inductive Records (config : RuntimeConfig) (inner : RuntimeInner) :
    List TaskReport → List TaskReport → Prop
  | same : Records config inner inner.reports []
  | records {report} :
      Records config inner (inner.recordReport config report).reports [report]

variable {config : RuntimeConfig} {inner : RuntimeInner}

section follows

variable {id other active active' : ℕ} {before after : Bool} {released : List ℕ}

section

variable (h : Counts id active before after active' released)

include h

theorem Counts.count (hpos : before = true → 0 < active) :
    active' + (if before then 1 else 0) = active + if after then 1 else 0 := by
  cases h with
  | same => rfl
  | releases =>
    have := hpos rfl
    simp only [↓reduceIte, Bool.false_eq_true]
    omega

theorem Counts.le : active' ≤ active := by
  cases h with
  | same => exact le_rfl
  | releases => exact Nat.sub_le ..

theorem Counts.succ_of_mem (hmem : other ∈ released) (hpos : before = true → 0 < active) :
    active' + 1 = active := by
  cases h with
  | same => simp at hmem
  | releases => exact Nat.sub_add_cancel (hpos rfl)

end

variable {reports past recorded : List TaskReport}

/-- The history keeps the last reports. -/
theorem reports_recordReport {report : TaskReport}
    (h : inner.reports = reports.rtake config.taskReportCapacity.val) :
    (inner.recordReport config report).reports =
      (reports ++ [report]).rtake config.taskReportCapacity.val := by
  unfold RuntimeInner.recordReport
  generalize config.taskReportCapacity.val = capacity at h ⊢
  cases capacity with
  | zero => simpa using h
  | succ capacity =>
    rw [if_pos (Nat.succ_pos _), rtake_concat_succ]
    dsimp only
    congr 1
    rw [h, List.rtake]
    split_ifs with hfull
    · rw [tail_drop]
      congr 1
      simp only [length_drop] at hfull
      omega
    · congr 1
      simp only [length_drop] at hfull
      omega

theorem Records.reports_eq (h : Records config inner reports recorded)
    (hpast : inner.reports = past.rtake config.taskReportCapacity.val) :
    reports = (past ++ recorded).rtake config.taskReportCapacity.val := by
  cases h with
  | same => simpa using hpast
  | records => exact reports_recordReport hpast

end follows

/-- What a step of a task to another stage does to the books. -/
structure Moves (config : RuntimeConfig) (inner inner' : RuntimeInner) (task : Task)
    (stage : TaskStage) (events : List Event) : Prop where
  nextTaskId : inner'.nextTaskId = inner.nextTaskId
  registrations : registrations events = []
  own : ∀ event ∈ events, event.task? = some task.id
  milestones : { task with stage }.milestones = task.milestones ++ events
  counts : Counts task.id inner.activeTasks task.stage.isActive stage.isActive inner'.activeTasks
    (releases events)
  records : Records config inner inner'.reports ((completions events).map Prod.snd)
  handlesSorted : OrderedTable.Sorted inner.abortHandles →
    OrderedTable.Sorted inner'.abortHandles
  handles : OrderedTable.Sorted inner.abortHandles →
    ∀ other ∈ inner'.abortHandles.map Prod.fst, (other = task.id ∧ stage.holdsHandle = true) ∨
      (other ∈ inner.abortHandles.map Prod.fst ∧
        (other = task.id → task.stage.holdsHandle = true → stage.holdsHandle = true))

variable {inner' : RuntimeInner} {events : List Event} {result : JoinResult}

/-- A step that leaves the books alone. -/
theorem SameBooks.moves (h : SameBooks inner inner') (hregs : registrations events = [])
    (hrels : releases events = []) (hcomps : completions events = [])
    (hown : ∀ event ∈ events, event.task? = some task.id)
    (htold : { task with stage }.milestones = task.milestones ++ events)
    (hactive : stage.isActive = task.stage.isActive)
    (hholds : task.stage.holdsHandle = true → stage.holdsHandle = true) :
    Moves config inner inner' task stage events where
  nextTaskId := h.nextTaskId
  registrations := hregs
  own := hown
  milestones := htold
  counts := by
    rw [h.activeTasks, hrels, hactive]
    exact .same
  records := by
    rw [h.reports, hcomps]
    exact .same
  handlesSorted hsorted := h.abortHandles ▸ hsorted
  handles _ other hother := .inr ⟨h.abortHandles ▸ hother, fun _ => hholds⟩

theorem sameBooks_recordReport (config : RuntimeConfig) (inner : RuntimeInner)
    (report : TaskReport) :
    (inner.recordReport config report).activeTasks = inner.activeTasks ∧
      (inner.recordReport config report).abortHandles = inner.abortHandles ∧
      (inner.recordReport config report).nextTaskId = inner.nextTaskId := by
  unfold RuntimeInner.recordReport
  split_ifs <;> exact ⟨rfl, rfl, rfl⟩

theorem Task.moves_of_advance (h : task.advance config inner = some (inner', stage, events)) :
    Moves config inner inner' task stage events := by
  obtain ⟨id, spec, before⟩ := task
  cases before with
  | registered =>
    obtain ⟨rfl, rfl, rfl⟩ := by simpa using h
    exact {
      nextTaskId := rfl
      registrations := rfl
      own := by simp
      milestones := rfl
      counts := .same
      records := .same
      handlesSorted := fun hsorted => hsorted.insert
      handles := fun _ other hother => by
        rcases OrderedTable.mem_keys_insert.mp hother with rfl | hother
        · exact .inl ⟨rfl, rfl⟩
        · exact .inr ⟨hother, fun _ _ => rfl⟩ }
  | supervised | finished outcome => simp [Task.advance] at h
  | applying outcome effects =>
    cases effects with
    | nil =>
      obtain ⟨rfl, rfl, rfl⟩ := by simpa using h
      exact (SameBooks.refl inner).moves rfl rfl rfl (by simp) rfl rfl fun _ => rfl
    | cons effect rest =>
      obtain ⟨rfl, rfl, rfl⟩ := by simpa using h
      exact (effect.sameBooks_perform inner rest).moves rfl rfl rfl (by simp) rfl rfl fun _ => rfl
  | recording outcome =>
    obtain ⟨rfl, rfl, rfl⟩ := by simpa using h
    obtain ⟨hactive, hhandles, hnext⟩ := sameBooks_recordReport config inner ⟨spec, outcome⟩
    exact {
      nextTaskId := hnext
      registrations := rfl
      own := by simp [Event.task?]
      milestones := rfl
      counts := by
        rw [hactive]
        exact .same
      records := .records
      handlesSorted := fun hsorted => hhandles ▸ hsorted
      handles := fun _ other hother => .inr ⟨hhandles ▸ hother, fun _ _ => rfl⟩ }
  | removing outcome =>
    obtain ⟨rfl, rfl, rfl⟩ := by simpa using h
    exact {
      nextTaskId := rfl
      registrations := rfl
      own := by simp
      milestones := rfl
      counts := .same
      records := .same
      handlesSorted := fun hsorted => hsorted.erase id
      handles := fun hsorted other hother => by
        -- The handle that goes is the one of this task.
        obtain ⟨hne, hother⟩ := (OrderedTable.mem_keys_erase hsorted.nodup).mp hother
        exact .inr ⟨hother, fun hid => absurd hid hne⟩ }
  | releasing outcome =>
    obtain ⟨rfl, rfl, rfl⟩ := by simpa using h
    exact {
      nextTaskId := rfl
      registrations := rfl
      own := by simp [Event.task?]
      milestones := rfl
      counts := .releases
      records := .same
      handlesSorted := fun hsorted => hsorted
      handles := fun _ other hother => .inr ⟨hother, fun _ hholds => hholds⟩ }
  | notifying outcome =>
    obtain ⟨rfl, rfl, rfl⟩ := by simpa using h
    have hsame : SameBooks inner { inner with taskChange := inner.taskChange + 1 } :=
      ⟨rfl, rfl, rfl, rfl⟩
    exact hsame.moves rfl rfl rfl (by simp) rfl rfl fun hholds => hholds
  | sending outcome =>
    obtain ⟨rfl, rfl, rfl⟩ := by simpa using h
    exact (SameBooks.refl inner).moves rfl rfl rfl (by simp [Event.task?]) rfl rfl
      fun hholds => hholds

theorem Task.ended_spec (h : task.ended config result = some stage) :
    task.stage = .supervised ∧
      (result.outcome = .completed ∧ stage = .recording .completed ∨
        ∃ failure, result.outcome = .failed failure ∧
          stage = .applying (.failed failure) (applyTaskFailure config task.spec failure)) := by
  unfold Task.ended at h
  split at h
  case h_1 hstage =>
    refine ⟨hstage, ?_⟩
    split at h <;> cases h
    case h_1 hout => exact .inl ⟨hout, rfl⟩
    case h_2 failure hout => exact .inr ⟨failure, hout, rfl⟩
  case h_2 => cases h

theorem Task.moves_of_ended (h : task.ended config result = some stage) :
    Moves config inner inner task stage [.ended task.id result.outcome] := by
  obtain ⟨id, spec, before⟩ := task
  obtain ⟨rfl, ⟨hout, rfl⟩ | ⟨failure, hout, rfl⟩⟩ := Task.ended_spec h
  · exact (SameBooks.refl inner).moves rfl rfl rfl (by simp [Event.task?]) (by rw [hout]; rfl)
      rfl fun _ => rfl
  · exact (SameBooks.refl inner).moves rfl rfl rfl (by simp [Event.task?]) (by rw [hout]; rfl)
      rfl fun _ => rfl

namespace Accounted

variable {tasks : List Task} {past : List Event} {i : ℕ}

theorem new : Accounted config .new [] [] where
  registered := rfl
  unique := nodup_nil
  fresh := by simp
  active := rfl
  bounded := Nat.zero_le _
  told := by simp
  untold _ _ := rfl
  handlesSorted := List.Pairwise.nil
  handles := by simp [RuntimeInner.new]
  reports := by simp [RuntimeInner.new, completions]

theorem quiet (h : Accounted config inner tasks past) (hsame : SameBooks inner inner')
    (hevents : Quiet events) : Accounted config inner' tasks (past ++ events) where
  registered := by rw [registrations_append, hevents.registrations, append_nil, h.registered]
  unique := h.unique
  fresh := hsame.nextTaskId ▸ h.fresh
  active := hsame.activeTasks ▸ h.active
  bounded := hsame.activeTasks ▸ h.bounded
  told task htask := by
    rw [milestones_append, hevents.milestones, append_nil, h.told task htask]
  untold id hid := by rw [milestones_append, hevents.milestones, append_nil, h.untold id hid]
  handlesSorted := hsame.abortHandles ▸ h.handlesSorted
  handles := hsame.abortHandles ▸ h.handles
  reports := by
    rw [completions_append, hevents.completions, append_nil, hsame.reports, h.reports]

theorem register {id : ℕ} (spec : TaskSpec) (h : Accounted config inner tasks past)
    (hreg : inner.registerTask config = .ok (inner', id)) :
    Accounted config inner' (tasks ++ [⟨id, spec, .registered⟩]) (past ++ [.registered id]) := by
  unfold RuntimeInner.registerTask at hreg
  split_ifs at hreg with hphase hfull hexh
  cases hreg
  -- The bound on tasks keeps the counter from saturating.
  have hroom : inner.activeTasks < config.maxConcurrentTasks.val := Nat.lt_of_not_le hfull
  have hadd : saturatingAdd inner.activeTasks 1 = inner.activeTasks + 1 :=
    saturatingAdd_eq (hroom.trans_le config.maxConcurrentTasks.le_usizeMax)
  -- Identities are given out in order, so the next one is new.
  have hnew : inner.nextTaskId ∉ tasks.map Task.id := fun hmem => (h.fresh _ hmem).false
  have hids : (tasks ++ [(⟨inner.nextTaskId, spec, .registered⟩ : Task)]).map Task.id =
      tasks.map Task.id ++ [inner.nextTaskId] := map_append
  have hown : ∀ event ∈ [Event.registered inner.nextTaskId],
      event.task? = some inner.nextTaskId := by simp [Event.task?]
  have hcomps : completions (past ++ [.registered inner.nextTaskId]) = completions past :=
    (completions_append ..).trans (append_nil _)
  exact {
    registered := by
      rw [hids, registrations_append, h.registered]
      rfl
    unique := by
      rw [hids]
      refine nodup_append.mpr ⟨h.unique, nodup_singleton _, fun id hid other hother => ?_⟩
      rintro rfl
      exact hnew (mem_singleton.mp hother ▸ hid)
    fresh := by
      rw [hids]
      exact forall_mem_append.mpr
        ⟨fun id hid => Nat.lt_succ_of_lt (h.fresh id hid), by simp⟩
    active := by
      rw [hadd, h.active, countP_append]
      rfl
    bounded := by
      rw [hadd]
      exact hroom
    told := fun task htask => by
      rw [milestones_append]
      rcases mem_append.mp htask with hold | hlast
      · have hne : task.id ≠ inner.nextTaskId := fun heq => hnew (heq ▸ mem_map_of_mem hold)
        rw [milestones_of_ne hown hne, append_nil, h.told task hold]
      · rw [mem_singleton.mp hlast]
        dsimp only
        rw [h.untold _ hnew, milestones_of_forall hown]
        rfl
    untold := fun id hid => by
      rw [hids, mem_append, not_or, mem_singleton] at hid
      rw [milestones_append, h.untold id hid.1, milestones_of_ne hown hid.2, append_nil]
    handlesSorted := h.handlesSorted
    handles := fun id hid => hasTask_concat.mpr (.inl (h.handles id hid))
    reports := by rw [hcomps]; exact h.reports }

theorem pos_of_isActive (h : Accounted config inner tasks past) (hi : tasks[i]? = some task)
    (hactive : task.stage.isActive = true) : 0 < inner.activeTasks :=
  h.active ▸ countP_pos_iff.mpr ⟨task, mem_of_getElem? hi, hactive⟩

/-- The books follow every step of a task. -/
theorem move (h : Accounted config inner tasks past) (hi : tasks[i]? = some task)
    (hmoves : Moves config inner inner' task stage events) :
    Accounted config inner' (tasks.set i { task with stage }) (past ++ events) where
  registered := by
    rw [map_id_set hi, registrations_append, hmoves.registrations, append_nil, h.registered]
  unique := by rw [map_id_set hi]; exact h.unique
  fresh := by rw [map_id_set hi, hmoves.nextTaskId]; exact h.fresh
  active := by
    have hcount := Slots.countP_set_add (p := fun task => task.stage.isActive) hi
      { task with stage }
    have hcounts := hmoves.counts.count (h.pos_of_isActive hi)
    have hactive := h.active
    dsimp only at hcount
    omega
  bounded := hmoves.counts.le.trans h.bounded
  told other hother := by
    rw [milestones_append]
    by_cases hid : other.id = task.id
    · -- Ids are unique, so this is the task that moved.
      have hlt : i < tasks.length := (List.getElem?_eq_some_iff.mp hi).1
      have hself : { task with stage } ∈ tasks.set i { task with stage } := mem_set hlt _
      have hunique : ((tasks.set i { task with stage }).map Task.id).Nodup := by
        rw [map_id_set hi]
        exact h.unique
      obtain rfl := inj_on_of_nodup_map hunique hother hself hid
      dsimp only
      rw [h.told task (mem_of_getElem? hi), milestones_of_forall hmoves.own, hmoves.milestones]
    · rw [milestones_of_ne hmoves.own hid, append_nil]
      rcases mem_or_eq_of_mem_set hother with hother | rfl
      · exact h.told other hother
      · exact absurd rfl hid
  untold id hid := by
    rw [map_id_set hi] at hid
    have hne : id ≠ task.id := fun heq => hid (heq ▸ mem_map_of_mem (mem_of_getElem? hi))
    rw [milestones_append, h.untold id hid, milestones_of_ne hmoves.own hne, append_nil]
  handlesSorted := hmoves.handlesSorted h.handlesSorted
  handles id hid := by
    rw [hasTask_set hi h.unique]
    rcases hmoves.handles h.handlesSorted id hid with ⟨rfl, hholds⟩ | ⟨hid, hholds⟩
    · rw [if_pos rfl]
      exact hholds
    · have hold := h.handles id hid
      split_ifs with hsame
      · subst hsame
        exact hholds rfl ((hasTask_of_ids hi h.unique).mp hold)
      · exact hold
  reports := by
    rw [completions_append, map_append]
    exact hmoves.records.reports_eq h.reports

end Accounted

end PlenoraRuntime.Core
