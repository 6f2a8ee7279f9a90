import Mathlib.Data.List.Sort
import PlenoraRuntime.Core.Text
import PlenoraRuntime.Core.Time
import PlenoraRuntime.Foundation.Machine
import PlenoraRuntime.Foundation.Slots
import PlenoraRuntime.Foundation.Word

/-!
# Instance heartbeats

Clones of one `WorkerInstanceHeartbeatReporter` report the state of a worker. A call takes
a number and the status under the lock (`ReporterState.record`), and hands the heartbeat to
the observer after it released it. Nothing makes the calls reach the observer in the order
in which they took their numbers.

`Stamped` says that the numbers and the statuses follow the order of the updates. So the
observer receives heartbeats in order exactly if it is called in that order.
-/

namespace PlenoraRuntime.Worker

open Transition List Option Function

structure WorkerInstanceIdentity where
  serviceName : Text
  serviceVersion : Text
  instanceId : Text
  environment : Option Text
  workerName : Text
  deriving DecidableEq, Repr

inductive WorkerInstanceStatus
  | starting
  | ready
  | draining
  | stopped
  deriving DecidableEq, Repr

structure WorkerInstanceHeartbeat where
  identity : WorkerInstanceIdentity
  sequence : ℕ
  observedAt : SystemTime
  status : WorkerInstanceStatus
  maxInFlight : ℕ
  inFlight : ℕ
  availableSlots : ℕ
  deriving DecidableEq

inductive WorkerInstanceHeartbeatError
  | sequenceExhausted
  | invalidTransition (source target : WorkerInstanceStatus)
  deriving DecidableEq, Repr

def statusRank : WorkerInstanceStatus → ℕ
  | .starting => 0
  | .ready => 1
  | .draining => 2
  | .stopped => 3

theorem eq_stopped_of_statusRank {status} (h : 3 ≤ statusRank status) :
    status = .stopped := by
  cases status with
  | stopped => rfl
  | _ => simp [statusRank] at h

/-- `ReporterState`: what the lock protects. -/
structure ReporterState where
  status : WorkerInstanceStatus := .starting
  sequence : ℕ := 0
  deriving DecidableEq, Repr

/-- What a call takes with it when it releases the lock. -/
structure Stamp where
  sequence : ℕ
  status : WorkerInstanceStatus
  deriving DecidableEq, Repr

/-- The locked part of `record`. When the numbers are used up, the status has changed
already. -/
def ReporterState.record (state : ReporterState) (transition : Option WorkerInstanceStatus) :
    ReporterState × Except WorkerInstanceHeartbeatError Stamp :=
  let number (state : ReporterState) : ReporterState × Except WorkerInstanceHeartbeatError Stamp :=
    let sequence := state.sequence + 1
    if sequence ≤ Word.maxValue 64 then
      ({ state with sequence }, .ok { sequence, status := state.status })
    else (state, .error .sequenceExhausted)
  match transition with
  | none => number state
  | some next =>
    if statusRank next < statusRank state.status then
      (state, .error (.invalidTransition state.status next))
    else number { state with status := next }

/-- `ReporterInner`, but for the state. -/
structure WorkerInstanceHeartbeatReporter where
  identity : WorkerInstanceIdentity
  maxInFlight : ℕ

/-- The part of `record` after the lock was released. -/
def WorkerInstanceHeartbeatReporter.snapshot (reporter : WorkerInstanceHeartbeatReporter)
    (stamp : Stamp) (inFlight : ℕ) (now : SystemTime) : WorkerInstanceHeartbeat where
  identity := reporter.identity
  sequence := stamp.sequence
  observedAt := now
  status := stamp.status
  maxInFlight := reporter.maxInFlight
  inFlight := inFlight
  availableSlots := reporter.maxInFlight - inFlight

/-! ## Interleavings -/

inductive ReportCall
  /-- About to lock the state. -/
  | called (transition : Option WorkerInstanceStatus)
  /-- About to call the observer. -/
  | stamped (stamp : Stamp)
  | returned (result : Except WorkerInstanceHeartbeatError WorkerInstanceHeartbeat)

inductive ReportAction
  | heartbeat
  | markReady
  | markDraining
  | markStopped
  | update (call : ℕ)
  | observe (call inFlight : ℕ) (now : SystemTime)

/-- The shared state and the calls of all clones. -/
structure Reports where
  state : ReporterState := {}
  calls : List ReportCall := []

namespace Reports

variable (s : Reports)

def call (transition : Option WorkerInstanceStatus) : Reports :=
  { s with calls := s.calls ++ [.called transition] }

/-- Call `i` runs the locked part of `record`. -/
def update (i : ℕ) (transition : Option WorkerInstanceStatus) : Reports :=
  let (state, result) := s.state.record transition
  { state
    calls := s.calls.set i (match result with
      | .ok stamp => .stamped stamp
      | .error error => .returned (.error error)) }

/-- One step; the events are the heartbeats that the observer receives. -/
def step (reporter : WorkerInstanceHeartbeatReporter) :
    ReportAction → Option (Reports × List WorkerInstanceHeartbeat)
  | .heartbeat => some (s.call none, [])
  | .markReady => some (s.call (some .ready), [])
  | .markDraining => some (s.call (some .draining), [])
  | .markStopped => some (s.call (some .stopped), [])
  | .update i =>
    match s.calls[i]? with
    | some (.called transition) => some (s.update i transition, [])
    | _ => none
  | .observe i inFlight now =>
    match s.calls[i]? with
    | some (.stamped stamp) =>
      let heartbeat := reporter.snapshot stamp inFlight now
      some ({ s with calls := s.calls.set i (.returned (.ok heartbeat)) }, [heartbeat])
    | _ => none

end Reports

/-- The calls of all clones of a reporter under every interleaving. -/
def WorkerInstanceHeartbeatReporter.machine (reporter : WorkerInstanceHeartbeatReporter) :
    Machine Reports ReportAction WorkerInstanceHeartbeat where
  step := fun s action => s.step reporter action

/-- The calls that updated the state, in the order in which they did. -/
def updates (actions : List ReportAction) : List ℕ :=
  actions.filterMap fun
    | .update call => some call
    | _ => none

/-- The calls that called the observer, in the order in which they did. -/
def observations (actions : List ReportAction) : List ℕ :=
  actions.filterMap fun
    | .observe call _ _ => some call
    | _ => none

theorem updates_append (first second : List ReportAction) :
    updates (first ++ second) = updates first ++ updates second :=
  filterMap_append

theorem observations_append (first second : List ReportAction) :
    observations (first ++ second) = observations first ++ observations second :=
  filterMap_append

/-! ## Stamps -/

/-- What a call took with it, if it updated the state successfully. -/
def ReportCall.stamp? : ReportCall → Option Stamp
  | .stamped stamp => some stamp
  | .returned (.ok heartbeat) => some ⟨heartbeat.sequence, heartbeat.status⟩
  | .called _ | .returned (.error _) => none

def ReportCall.heartbeat? : ReportCall → Option WorkerInstanceHeartbeat
  | .returned (.ok heartbeat) => some heartbeat
  | .called _ | .stamped _ | .returned (.error _) => none

/-- The call has updated the state, or failed to. -/
def ReportCall.updated? : ReportCall → Option Unit
  | .called _ => none
  | .stamped _ | .returned _ => some ()

namespace Reports

variable (s : Reports)

def updated? (i : ℕ) : Option Unit :=
  s.calls[i]?.bind ReportCall.updated?

def stamp? (i : ℕ) : Option Stamp :=
  s.calls[i]?.bind ReportCall.stamp?

def heartbeat? (i : ℕ) : Option WorkerInstanceHeartbeat :=
  s.calls[i]?.bind ReportCall.heartbeat?

end Reports

/-- Call `i` took its number before call `j`. -/
def Before (stamps : ℕ → Option Stamp) (i j : ℕ) : Prop :=
  ∃ first second, stamps i = some first ∧ stamps j = some second ∧
    first.sequence < second.sequence

/-- The numbers and the statuses follow the order of the updates. -/
structure Stamped (state : ReporterState) (stamps : ℕ → Option Stamp) (updates : List ℕ) :
    Prop where
  sorted : (updates.filter fun i => (stamps i).isSome).Pairwise (Before stamps)
  mem : ∀ i stamp, stamps i = some stamp → i ∈ updates
  bounded : ∀ i stamp, stamps i = some stamp →
    stamp.sequence ≤ state.sequence ∧ statusRank stamp.status ≤ statusRank state.status
  monotone : ∀ i j first second, stamps i = some first → stamps j = some second →
    first.sequence ≤ second.sequence → statusRank first.status ≤ statusRank second.status

variable {after : ReporterState} {i : ℕ}

section stamps

variable {state : ReporterState} {stamps : ℕ → Option Stamp} {updates : List ℕ}

/-- A call fails to update the state; the status may have changed. -/
theorem Stamped.refuse (h : Stamped state stamps updates) (hnone : stamps i = none)
    (hseq : after.sequence = state.sequence)
    (hstatus : statusRank state.status ≤ statusRank after.status) :
    Stamped after stamps (updates ++ [i]) where
  sorted := by
    rw [filter_append, filter_singleton, hnone]
    simpa using h.sorted
  mem := fun j stamp hstamp => mem_append_left _ (h.mem j stamp hstamp)
  bounded := by
    intro j stamp hstamp
    obtain ⟨hle, hrank⟩ := h.bounded j stamp hstamp
    exact ⟨hseq ▸ hle, hrank.trans hstatus⟩
  monotone := h.monotone

/-- A call takes the next number. -/
theorem Stamped.number (h : Stamped state stamps updates) (hnew : i ∉ updates)
    (hseq : after.sequence = state.sequence + 1)
    (hstatus : statusRank state.status ≤ statusRank after.status) :
    Stamped after (Function.update stamps i (some ⟨after.sequence, after.status⟩))
      (updates ++ [i]) where
  sorted := by
    have hold : ∀ j ∈ updates, Function.update stamps i (some ⟨after.sequence, after.status⟩) j =
        stamps j := by
      intro j hj
      refine update_of_ne ?_ _ _
      rintro rfl
      exact hnew hj
    have hfilter : updates.filter (fun j =>
        (Function.update stamps i (some ⟨after.sequence, after.status⟩) j).isSome) =
        updates.filter fun j => (stamps j).isSome :=
      filter_congr fun j hj => by rw [hold j hj]
    rw [filter_append, hfilter, filter_singleton, update_self]
    refine pairwise_append.mpr ⟨?_, pairwise_singleton _ _, ?_⟩
    · refine h.sorted.imp_of_mem fun hj hk hpre => ?_
      unfold Before
      rwa [hold _ (mem_of_mem_filter hj), hold _ (mem_of_mem_filter hk)]
    · intro j hj k hk
      obtain rfl := mem_singleton.mp hk
      obtain ⟨hmem, hsome⟩ := mem_filter.mp hj
      obtain ⟨stamp, hstamp⟩ := isSome_iff_exists.mp hsome
      refine ⟨stamp, ⟨after.sequence, after.status⟩, ?_, update_self .., ?_⟩
      · rw [hold j hmem, hstamp]
      · have hle := (h.bounded j stamp hstamp).1
        simp only
        omega
  mem := by
    intro j stamp hstamp
    rw [update_apply] at hstamp
    split at hstamp
    case isTrue hj => simp [hj]
    case isFalse => exact mem_append_left _ (h.mem j stamp hstamp)
  bounded := by
    intro j stamp hstamp
    rw [update_apply] at hstamp
    split at hstamp
    · cases hstamp
      exact ⟨le_rfl, le_rfl⟩
    · obtain ⟨hle, hrank⟩ := h.bounded j stamp hstamp
      exact ⟨by omega, hrank.trans hstatus⟩
  monotone := by
    intro j k first second hfirst hsecond hle
    rw [update_apply] at hfirst hsecond
    split at hsecond
    · cases hsecond
      split at hfirst
      · cases hfirst
        exact le_rfl
      · exact (h.bounded j first hfirst).2.trans hstatus
    · split at hfirst
      · -- the new number is larger than all others
        cases hfirst
        have hbound := (h.bounded k second hsecond).1
        simp only at hle
        omega
      · exact h.monotone j k first second hfirst hsecond hle

instance : Std.Irrefl (Before stamps) where
  irrefl := by
    rintro j ⟨first, second, hfirst, hsecond, hlt⟩
    cases hfirst.symm.trans hsecond
    exact lt_irrefl _ hlt

instance : Std.Antisymm (Before stamps) where
  antisymm := by
    rintro j k ⟨first, second, hfirst, hsecond, hlt⟩ ⟨second', first', hsecond', hfirst', hlt'⟩
    cases hfirst.symm.trans hfirst'
    cases hsecond.symm.trans hsecond'
    exact absurd hlt' (lt_asymm hlt)

/-- Calls are listed in the order of their numbers exactly if they are listed in the order
of the updates. -/
theorem Stamped.pairwise_iff (h : Stamped state stamps updates) {calls : List ℕ}
    (hsome : ∀ j ∈ calls, (stamps j).isSome = true) :
    calls.Pairwise (Before stamps) ↔ calls.Sublist updates := by
  have hself : calls.filter (fun j => (stamps j).isSome) = calls := filter_eq_self.mpr hsome
  constructor
  · intro hpair
    have hsubset : calls ⊆ updates.filter fun j => (stamps j).isSome := by
      intro j hj
      obtain ⟨stamp, hstamp⟩ := isSome_iff_exists.mp (hsome j hj)
      exact mem_filter.mpr ⟨h.mem j stamp hstamp, hsome j hj⟩
    have hsubperm := subperm_of_subset hpair.nodup hsubset
    exact (sublist_of_subperm_of_pairwise hsubperm hpair h.sorted).trans
      filter_sublist
  · intro hsublist
    have hfiltered := hsublist.filter fun j => (stamps j).isSome
    rw [hself] at hfiltered
    exact h.sorted.sublist hfiltered

end stamps

/-! ## Runs -/

/-- What is known of the calls after some of their steps. -/
structure Reported (s : Reports) (actions : List ReportAction)
    (received : List WorkerInstanceHeartbeat) : Prop where
  stamped : Stamped s.state s.stamp? (updates actions)
  updated : ∀ i ∈ updates actions, s.updated? i = some ()
  observed : ∀ i ∈ observations actions, ∃ heartbeat, s.heartbeat? i = some heartbeat
  received : received = (observations actions).filterMap s.heartbeat?

section steps

variable {reporter : WorkerInstanceHeartbeatReporter} {s s' : Reports} {actions : List ReportAction}
  {received events : List WorkerInstanceHeartbeat} {transition : Option WorkerInstanceStatus}
  {stamp : Stamp} {action : ReportAction}

theorem stamp?_of_heartbeat? {heartbeat} (h : s.heartbeat? i = some heartbeat) :
    s.stamp? i = some ⟨heartbeat.sequence, heartbeat.status⟩ := by
  obtain ⟨call, hcall, hheartbeat⟩ := bind_eq_some_iff.mp h
  rw [Reports.stamp?, hcall]
  rcases call with _ | _ | (_ | _) <;> cases hheartbeat
  rfl

theorem Reported.call (h : Reported s actions received) (hupdates : updates [action] = [])
    (hobs : observations [action] = []) :
    Reported (s.call transition) (actions ++ [action]) received := by
  have hupd : (s.call transition).updated? = s.updated? := Slots.bind_concat rfl
  have hstamp : (s.call transition).stamp? = s.stamp? := Slots.bind_concat rfl
  have hheartbeat : (s.call transition).heartbeat? = s.heartbeat? := Slots.bind_concat rfl
  cases h
  constructor <;> simpa only [updates_append, observations_append, hupdates, hobs,
    append_nil, hupd, hstamp, hheartbeat]

/-- The locked part of `record` takes the next number or none; it never lowers the
status. -/
theorem ReporterState.record_cases (state : ReporterState)
    (transition : Option WorkerInstanceStatus) :
    ∃ after : ReporterState, statusRank state.status ≤ statusRank after.status ∧
      (after.sequence = state.sequence + 1 ∧
          state.record transition = (after, .ok ⟨after.sequence, after.status⟩) ∨
        after.sequence = state.sequence ∧
          ∃ error, state.record transition = (after, .error error)) := by
  unfold record
  cases transition with
  | none =>
    dsimp only
    split
    · exact ⟨⟨state.status, state.sequence + 1⟩, le_rfl, .inl ⟨rfl, rfl⟩⟩
    · exact ⟨state, le_rfl, .inr ⟨rfl, _, rfl⟩⟩
  | some next =>
    dsimp only
    split
    case isTrue => exact ⟨state, le_rfl, .inr ⟨rfl, _, rfl⟩⟩
    case isFalse hforward =>
      split
      · exact ⟨⟨next, state.sequence + 1⟩, not_lt.mp hforward, .inl ⟨rfl, rfl⟩⟩
      · exact ⟨⟨next, state.sequence⟩, not_lt.mp hforward, .inr ⟨rfl, _, rfl⟩⟩

theorem Reported.go (h : Reported s actions received)
    (hcall : s.calls[i]? = some (.called transition)) {call : ReportCall}
    (hupd : call.updated? = some ()) (hheartbeat : call.heartbeat? = none)
    (hstamped : Stamped after (Function.update s.stamp? i call.stamp?) (updates actions ++ [i])) :
    Reported ⟨after, s.calls.set i call⟩ (actions ++ [.update i]) received := by
  have hobserver : (⟨after, s.calls.set i call⟩ : Reports).heartbeat? = s.heartbeat? := by
    refine (Slots.bind_set hcall call).trans ?_
    rw [hheartbeat]
    exact update_eq_self_iff.mpr (by simp [hcall, ReportCall.heartbeat?])
  have hobs : observations (actions ++ [.update i]) = observations actions :=
    (observations_append ..).trans (append_nil _)
  constructor
  case stamped =>
    have hstamp : (⟨after, s.calls.set i call⟩ : Reports).stamp? = _ := Slots.bind_set hcall call
    rw [updates_append, hstamp]
    exact hstamped
  case updated =>
    rw [updates_append]
    intro j hj
    refine (congrFun (Slots.bind_set hcall call) j).trans ?_
    by_cases hji : j = i
    · rw [hji, update_self, hupd]
    · rw [update_of_ne hji]
      exact h.updated j ((mem_append.mp hj).resolve_right (by simpa [updates] using hji))
  all_goals rw [hobs, hobserver]
  case observed => exact h.observed
  case received => exact h.received

theorem Reported.update (h : Reported s actions received)
    (hcall : s.calls[i]? = some (.called transition)) :
    Reported (s.update i transition) (actions ++ [.update i]) received := by
  have hnew : i ∉ updates actions := by
    intro hmem
    have hupd := h.updated i hmem
    rw [Reports.updated?, hcall] at hupd
    cases hupd
  have hnone : s.stamp? i = none := by simp [Reports.stamp?, hcall, ReportCall.stamp?]
  obtain ⟨after, hstatus, ⟨hseq, hrec⟩ | ⟨hseq, error, hrec⟩⟩ :=
    s.state.record_cases transition <;>
  rw [Reports.update, hrec] <;>
  refine h.go hcall rfl rfl ?_
  · exact h.stamped.number hnew hseq hstatus
  · rw [update_eq_self_iff.mpr hnone.symm]
    exact h.stamped.refuse hnone hseq hstatus

theorem Reported.observe (h : Reported s actions received)
    (hcall : s.calls[i]? = some (.stamped stamp)) (reporter : WorkerInstanceHeartbeatReporter)
    (inFlight : ℕ) (now : SystemTime) :
    let heartbeat := reporter.snapshot stamp inFlight now
    Reported { s with calls := s.calls.set i (.returned (.ok heartbeat)) }
      (actions ++ [.observe i inFlight now]) (received ++ [heartbeat]) := by
  intro heartbeat
  let call : ReportCall := .returned (.ok heartbeat)
  let after : Reports := { s with calls := s.calls.set i call }
  have hsame : after.stamp? = s.stamp? ∧ after.updated? = s.updated? := by
    constructor <;>
    · refine (Slots.bind_set hcall call).trans (update_eq_self_iff.mpr ?_)
      rw [hcall]
      rfl
  have hheartbeat : after.heartbeat? = Function.update s.heartbeat? i (some heartbeat) :=
    Slots.bind_set hcall call
  -- A call observes once, so the earlier heartbeats are those of other calls.
  have hold : ∀ j ∈ observations actions,
      Function.update s.heartbeat? i (some heartbeat) j = s.heartbeat? j := by
    intro j hj
    refine update_of_ne ?_ _ _
    rintro rfl
    obtain ⟨earlier, hearlier⟩ := h.observed j hj
    rw [Reports.heartbeat?, hcall] at hearlier
    cases hearlier
  have hupdates : updates (actions ++ [.observe i inFlight now]) = updates actions :=
    (updates_append ..).trans (append_nil _)
  refine ⟨?_, ?_, ?_, ?_⟩
  · rw [hupdates, hsame.1]
    exact h.stamped
  · rw [hupdates, hsame.2]
    exact h.updated
  · rw [observations_append, hheartbeat]
    intro j hj
    rcases mem_append.mp hj with hmem | hlast
    · rw [hold j hmem]
      exact h.observed j hmem
    · rw [mem_singleton.mp hlast, update_self]
      exact ⟨heartbeat, rfl⟩
  · rw [observations_append, hheartbeat, filterMap_append, filterMap_congr hold,
      ← h.received]
    simp [observations]

theorem Reported.step (h : Reported s actions received)
    (hstep : reporter.machine.step s action = some (s', events)) :
    Reported s' (actions ++ [action]) (received ++ events) := by
  cases action with
  | heartbeat | markReady | markDraining | markStopped =>
    cases hstep
    rw [append_nil]
    exact h.call rfl rfl
  | update i =>
    simp only [WorkerInstanceHeartbeatReporter.machine, Reports.step] at hstep
    split at hstep <;> cases hstep
    case h_1 transition hcall =>
      rw [append_nil]
      exact h.update hcall
  | observe i inFlight now =>
    simp only [WorkerInstanceHeartbeatReporter.machine, Reports.step] at hstep
    split at hstep <;> cases hstep
    case h_1 stamp hcall => exact h.observe hcall reporter inFlight now

end steps

/-- The second heartbeat is newer than the first, and a stopped worker stays stopped. -/
def WorkerInstanceHeartbeat.Precedes (first second : WorkerInstanceHeartbeat) : Prop :=
  first.sequence < second.sequence ∧ (first.status = .stopped → second.status = .stopped)

/-- The observer receives the heartbeats in order exactly if it is called in the order in
which the calls updated the state. -/
theorem heartbeats_in_order_iff {reporter : WorkerInstanceHeartbeatReporter}
    {actions : List ReportAction} {s : Reports} {received : List WorkerInstanceHeartbeat}
    (hrun : reporter.machine.run {} actions = some (s, received)) :
    received.Pairwise WorkerInstanceHeartbeat.Precedes ↔
      (observations actions).Sublist (updates actions) := by
  have hinit : Reported {} [] [] :=
    ⟨⟨List.Pairwise.nil, by simp [Reports.stamp?], by simp [Reports.stamp?],
      by simp [Reports.stamp?]⟩, by simp [updates], by simp [observations], rfl⟩
  have hreported : Reported s actions received :=
    Machine.run_reached (I := Reported) (fun _ h hstep => h.step hstep) hrun hinit
  have hsome : ∀ i ∈ observations actions, (s.stamp? i).isSome = true := by
    intro i hi
    obtain ⟨heartbeat, hheartbeat⟩ := hreported.observed i hi
    rw [stamp?_of_heartbeat? hheartbeat]
    rfl
  rw [← hreported.stamped.pairwise_iff hsome, hreported.received, List.pairwise_filterMap]
  constructor
  · intro hpairwise
    refine hpairwise.imp_of_mem fun {i j} hi hj hprecedes => ?_
    obtain ⟨first, hfirst⟩ := hreported.observed i hi
    obtain ⟨second, hsecond⟩ := hreported.observed j hj
    exact ⟨_, _, stamp?_of_heartbeat? hfirst, stamp?_of_heartbeat? hsecond,
      (hprecedes first hfirst second hsecond).1⟩
  · intro hpairwise
    refine hpairwise.imp fun {i j} hbefore first hfirst second hsecond => ?_
    obtain ⟨stamp, stamp', hstamp, hstamp', hlt⟩ := hbefore
    cases (stamp?_of_heartbeat? hfirst).symm.trans hstamp
    cases (stamp?_of_heartbeat? hsecond).symm.trans hstamp'
    refine ⟨hlt, fun hstopped => ?_⟩
    have hrank := hreported.stamped.monotone i j _ _ hstamp hstamp' hlt.le
    simp only [hstopped] at hrank
    exact eq_stopped_of_statusRank hrank

namespace Sample

def reporter : WorkerInstanceHeartbeatReporter where
  identity :=
    { serviceName := []
      serviceVersion := []
      instanceId := []
      environment := none
      workerName := [] }
  maxInFlight := 2

/-- A worker becomes ready and stops, and the observer hears it in this order. -/
def inOrder : List ReportAction :=
  [.markReady, .markStopped, .update 0, .update 1, .observe 0 0 0, .observe 1 0 0]

/-- The observer is called in the other order. -/
def outOfOrder : List ReportAction :=
  [.markReady, .markStopped, .update 0, .update 1, .observe 1 0 0, .observe 0 0 0]

end Sample

theorem heartbeats_in_order_iff_inOrder :
    let received := (Sample.reporter.machine.after {} Sample.inOrder).2
    received.map (·.sequence) = [1, 2] ∧ received.Pairwise WorkerInstanceHeartbeat.Precedes := by
  have hrun : Sample.reporter.machine.run {} Sample.inOrder =
      some (Sample.reporter.machine.after {} Sample.inOrder) := Machine.run_eq_after rfl
  have hsublist : (observations Sample.inOrder).Sublist (updates Sample.inOrder) :=
    List.Sublist.refl [0, 1]
  exact ⟨rfl, (heartbeats_in_order_iff hrun).mpr hsublist⟩

/-- The observer hears that the worker stopped, and then that it is ready. -/
theorem heartbeats_out_of_order :
    let received := (Sample.reporter.machine.after {} Sample.outOfOrder).2
    received.map (·.sequence) = [2, 1] ∧ received.map (·.status) = [.stopped, .ready] :=
  ⟨rfl, rfl⟩

end PlenoraRuntime.Worker
