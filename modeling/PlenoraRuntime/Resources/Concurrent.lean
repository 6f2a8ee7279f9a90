import PlenoraRuntime.Foundation.Machine
import PlenoraRuntime.Resources.Hysteresis

/-!
# Samples at the same time

Several calls of the monitor run at once. Each updates the state under the lock, and only
then, without the lock, turns the gate by what it had read. Nothing makes the calls turn
the gate in the order in which they updated the state.

`Ordered` says what the monitor and the gate hold at any point of any interleaving: the
state is the one observed by the call that updated it last, the gate is as the call that
turned it last has left it. So the two agree when these are the same call
(`Ordered.follows`). When they are not, some samples make them disagree: everything is low
but the sample of the last update, which fails (`Staged`).
-/

namespace PlenoraRuntime.Resources

open Transition List Option Function
open PlenoraRuntime.Core (HealthRegistry)
open Worker (WorkerAdmissionState)

/-! ## Interleavings -/

/-- A call of `sample_once` begins, or one that began makes its next access. -/
inductive CallAction
  | start
  | advance (i : ℕ)
  deriving DecidableEq, Repr

/-- The monitor and all calls that began, in the order in which they did. -/
structure Calls where
  monitor : Monitor
  calls : List SampleStage

/-- One action; `samples i` is what the sampler returns to call `i`. -/
def Calls.step (config : MemoryPressureConfig) (samples : ℕ → SampleResult) (s : Calls) :
    CallAction → Option (Calls × List Empty)
  | .start => some ({ s with calls := s.calls ++ [.sampled (samples s.calls.length)] }, [])
  | .advance i =>
    s.calls[i]?.bind fun call =>
      (call.advance config s.monitor).map fun next =>
        ({ monitor := next.1, calls := s.calls.set i next.2 }, [])

def Calls.machine (config : MemoryPressureConfig) (samples : ℕ → SampleResult) :
    Machine Calls CallAction Empty where
  step := Calls.step config samples

def SampleStage.accesses : SampleStage → ℕ
  | .sampled _ => 0
  | .classified _ => 1
  | .turned _ => 2
  | .reported _ => 3
  | .returned _ => 4

def SampleStage.observation : SampleStage → Option MemoryPressureObservation
  | .sampled _ => none
  | .classified observation | .turned observation | .reported observation
  | .returned observation => some observation

theorem SampleStage.exists_observation (call : SampleStage) (h : 0 < call.accesses) :
    ∃ observation, call.observation = some observation := by
  cases call with
  | sampled sample => cases h
  | classified observation | turned observation | reported observation | returned observation =>
    exact ⟨observation, rfl⟩

def Calls.Quiet (s : Calls) : Prop :=
  ∀ call ∈ s.calls, call.accesses = 4

/-- The call whose access with the given number came last. -/
def lastAccess (number : ℕ) : List CallAction → Option ℕ
  | actions => go actions.reverse
where
  /-- The actions are in reverse order here. -/
  go : List CallAction → Option ℕ
  | [] => none
  | .start :: earlier => go earlier
  | .advance i :: earlier => if earlier.count (.advance i) = number then some i else go earlier

/-- The call that updated the state last. -/
abbrev lastUpdate (actions : List CallAction) : Option ℕ :=
  lastAccess 0 actions

/-- The call that turned the gate last. -/
abbrev lastTurn (actions : List CallAction) : Option ℕ :=
  lastAccess 1 actions

variable {actions : List CallAction} {i : ℕ}

section lastAccess

variable {number j : ℕ}

@[simp] theorem lastAccess_nil : lastAccess number [] = none := rfl

theorem lastAccess_start : lastAccess number (actions ++ [.start]) = lastAccess number actions := by
  simp [lastAccess, lastAccess.go]

theorem lastAccess_advance :
    lastAccess number (actions ++ [.advance i]) =
      if actions.count (.advance i) = number then some i else lastAccess number actions := by
  simp [lastAccess, lastAccess.go]

theorem lastAccess_of_eq (h : actions.count (.advance i) = number) :
    lastAccess number (actions ++ [.advance i]) = some i := by
  rw [lastAccess_advance, if_pos h]

theorem lastAccess_of_ne (h : actions.count (.advance i) ≠ number) :
    lastAccess number (actions ++ [.advance i]) = lastAccess number actions := by
  rw [lastAccess_advance, if_neg h]

theorem count_start (i : ℕ) :
    (actions ++ [CallAction.start]).count (.advance i) = actions.count (.advance i) := by
  simp

theorem count_advance (i j : ℕ) :
    (actions ++ [CallAction.advance i]).count (.advance j) =
      actions.count (.advance j) + if i = j then 1 else 0 := by
  rw [count_append, count_singleton]
  simp

theorem lt_count_of_lastAccess (h : lastAccess number actions = some i) :
    number < actions.count (.advance i) := by
  induction actions using List.reverseRecOn with
  | nil => cases h
  | append_singleton actions action ih =>
    cases action with
    | start =>
      rw [lastAccess_start] at h
      rw [count_start]
      exact ih h
    | advance j =>
      rw [lastAccess_advance] at h
      rw [count_advance]
      split_ifs at h with hnumber
      · cases h
        rw [if_pos rfl]
        omega
      · have hpre := ih h
        omega

theorem lastAccess_ne_none (number : ℕ) (h : number < actions.count (.advance i)) :
    lastAccess number actions ≠ none := by
  induction actions using List.reverseRecOn with
  | nil => simp at h
  | append_singleton actions action ih =>
    cases action with
    | start =>
      rw [count_start] at h
      rw [lastAccess_start]
      exact ih h
    | advance j =>
      rw [count_advance] at h
      rw [lastAccess_advance]
      by_cases hnumber : actions.count (.advance j) = number
      · simp [hnumber]
      · rw [if_neg hnumber]
        refine ih ?_
        split_ifs at h with hij
        · rw [← hij] at h ⊢
          omega
        · exact h

end lastAccess

/-! ## What every interleaving keeps -/

section entries

variable {α β : Type*} {l : List α} {a b : α} {default : β} {f : α → β}

theorem elim_concat (h : f a = default) :
    (fun j : ℕ => ((l ++ [a])[j]?).elim default f) = fun j : ℕ => (l[j]?).elim default f := by
  funext j
  rcases Nat.lt_trichotomy j l.length with hlt | rfl | hgt
  · rw [getElem?_append_left hlt]
  · simp [h]
  · rw [getElem?_eq_none (by simpa using hgt), getElem?_eq_none hgt.le]

theorem elim_set (ha : l[i]? = some a) :
    (fun j : ℕ => ((l.set i b)[j]?).elim default f) =
      Function.update (fun j : ℕ => (l[j]?).elim default f) i (f b) := by
  obtain ⟨hlt, -⟩ := List.getElem?_eq_some_iff.mp ha
  funext j
  by_cases hij : i = j
  · simp [← hij, hlt]
  · simp [hij, Ne.symm hij]

end entries

def Calls.made (s : Calls) : ℕ → ℕ :=
  fun i => (s.calls[i]?).elim 0 SampleStage.accesses

def Calls.observed (s : Calls) : ℕ → Option MemoryPressureObservation :=
  fun i => (s.calls[i]?).elim none SampleStage.observation

/-- The state that a call has observed; before any, the monitor is initializing. -/
def Calls.seen (s : Calls) (call : Option ℕ) : MemoryPressureState :=
  match call.bind s.observed with
  | none => .initializing
  | some observation => observation.snapshot.state

/-- The calls have made the accesses of the history, the state is the one of the last
update, and the gate is as the last turn has left it. -/
structure Ordered (samples : ℕ → SampleResult) (s : Calls) (actions : List CallAction) : Prop where
  accesses : ∀ i, s.made i = actions.count (.advance i)
  inputs : ∀ i sample, s.calls[i]? = some (.sampled sample) → sample = samples i
  state : s.monitor.state.snapshot.state = s.seen (lastUpdate actions)
  gate : s.monitor.admission =
    if s.seen (lastTurn actions) = .normal then .accepting else .paused

variable {admission : WorkerAdmissionState} {events : List Empty} {config : MemoryPressureConfig}
  {health : HealthRegistry} {sample : SampleResult} {stage call : SampleStage} {action : CallAction}
  {monitor : Monitor} {s' s : Calls}

section ordered

variable {samples : ℕ → SampleResult}

theorem Ordered.follows (h : Ordered samples s actions)
    (hlast : lastTurn actions = lastUpdate actions) : Follows s.monitor := by
  rw [Follows, h.state, h.gate, hlast]

theorem Ordered.count (h : Ordered samples s actions) (hcall : s.calls[i]? = some call) :
    actions.count (.advance i) = call.accesses := by
  rw [← h.accesses, Calls.made, hcall]
  rfl

theorem observed_start (sample : SampleResult) :
    Calls.observed { s with calls := s.calls ++ [.sampled sample] } = s.observed :=
  elim_concat rfl

/-- One access changes what one call has observed. -/
theorem observed_set (hcall : s.calls[i]? = some call) :
    Calls.observed ⟨monitor, s.calls.set i stage⟩ =
      Function.update s.observed i stage.observation :=
  elim_set hcall

theorem observed_set_same (stage : SampleStage) (hcall : s.calls[i]? = some call)
    (hsame : stage.observation = call.observation) :
    Calls.observed ⟨monitor, s.calls.set i stage⟩ = s.observed := by
  have hobs : s.observed i = call.observation := by
    rw [Calls.observed, hcall]
    rfl
  rw [observed_set hcall, hsame, ← hobs, update_eq_self]

/-- What the last call has seen stays when another one observes. -/
theorem seen_set (hcall : s.calls[i]? = some call) {last} (hlast : last ≠ some i) :
    Calls.seen ⟨monitor, s.calls.set i stage⟩ last = s.seen last := by
  cases last with
  | none => rfl
  | some j =>
    unfold Calls.seen
    rw [bind_some, bind_some, observed_set hcall,
      update_of_ne fun hj => hlast (congrArg some hj)]

theorem seen_set_self (hcall : s.calls[i]? = some call) {observation}
    (hstage : stage.observation = some observation) :
    Calls.seen ⟨monitor, s.calls.set i stage⟩ (some i) = observation.snapshot.state := by
  unfold Calls.seen
  rw [bind_some, observed_set hcall, update_self, hstage]

theorem seen_congr (h : s'.observed = s.observed) : s'.seen = s.seen := by
  unfold Calls.seen
  rw [h]

theorem Ordered.start (h : Ordered samples s actions) :
    Ordered samples { s with calls := s.calls ++ [.sampled (samples s.calls.length)] }
      (actions ++ [.start]) := by
  constructor
  · intro j
    have hmade : Calls.made { s with calls := s.calls ++ [.sampled (samples s.calls.length)] } =
        s.made := elim_concat rfl
    rw [count_start, ← h.accesses, hmade]
  · intro j sample hcall
    rw [getElem?_append] at hcall
    split_ifs at hcall with hlt
    · exact h.inputs j sample hcall
    · obtain ⟨hle, -⟩ := List.getElem?_eq_some_iff.mp hcall
      obtain rfl : j = s.calls.length := by simp at hle; omega
      simpa using hcall.symm
  · rw [lastUpdate, lastAccess_start, seen_congr (observed_start _)]
    exact h.state
  · rw [lastTurn, lastAccess_start, seen_congr (observed_start _)]
    exact h.gate

/-- The calls after one more access, when the state and the gate are as they should be. -/
theorem Ordered.of_access (h : Ordered samples s actions) (hcall : s.calls[i]? = some call)
    (hnext : stage.accesses = call.accesses + 1)
    (hstate : monitor.state.snapshot.state =
      Calls.seen ⟨monitor, s.calls.set i stage⟩ (lastUpdate (actions ++ [.advance i])))
    (hgate : monitor.admission =
      if Calls.seen ⟨monitor, s.calls.set i stage⟩ (lastTurn (actions ++ [.advance i])) =
      .normal then .accepting else .paused) :
    Ordered samples ⟨monitor, s.calls.set i stage⟩ (actions ++ [.advance i]) := by
  refine ⟨fun j => ?_, fun j sample hother => ?_, hstate, hgate⟩
  · have hmade : Calls.made ⟨monitor, s.calls.set i stage⟩ =
        Function.update s.made i stage.accesses := elim_set hcall
    rw [hmade, count_advance, update_apply]
    split_ifs with hji hij hij
    · rw [hnext, hji, h.count hcall]
    · exact absurd hji.symm hij
    · exact absurd hij.symm hji
    · exact h.accesses j
  · rw [getElem?_set] at hother
    split_ifs at hother with hij
    · cases hother
      cases hnext
    · exact h.inputs j sample hother

theorem Ordered.not_draining (h : Ordered samples s actions) : s.monitor.admission ≠ .draining := by
  rw [h.gate]
  split_ifs <;> simp

theorem Ordered.update (h : Ordered samples s actions)
    (hcall : s.calls[i]? = some (.sampled sample)) :
    Ordered samples
      ⟨{ s.monitor with state := (s.monitor.state.observe config sample).1 },
        s.calls.set i (.classified (s.monitor.state.observe config sample).2)⟩
      (actions ++ [.advance i]) := by
  have hcount : actions.count (.advance i) = 0 := h.count hcall
  refine h.of_access hcall rfl ?_ ?_
  · rw [lastUpdate, lastAccess_of_eq hcount, seen_set_self hcall rfl, snapshot_observe]
  · have hlast : lastTurn actions ≠ some i := fun hlast => by
      have hlt := lt_count_of_lastAccess hlast
      omega
    rw [lastTurn, lastAccess_of_ne (by omega), seen_set hcall hlast]
    exact h.gate

theorem Ordered.turn {observation} (h : Ordered samples s actions)
    (hcall : s.calls[i]? = some (.classified observation)) :
    Ordered samples
      ⟨{ s.monitor with
          admission := applyAdmission observation.snapshot.state s.monitor.admission },
        s.calls.set i (.turned observation)⟩ (actions ++ [.advance i]) := by
  have hcount : actions.count (.advance i) = 1 := h.count hcall
  refine h.of_access hcall rfl ?_ ?_
  · rw [lastUpdate, lastAccess_of_ne (by omega),
      seen_congr (observed_set_same (.turned _) hcall rfl)]
    exact h.state
  · rw [lastTurn, lastAccess_of_eq hcount, seen_set_self hcall rfl]
    exact applyAdmission_eq h.not_draining _

theorem Ordered.report (stage : SampleStage) (h : Ordered samples s actions)
    (hcall : s.calls[i]? = some call) (hlate : 2 ≤ call.accesses)
    (hnext : stage.accesses = call.accesses + 1)
    (hsame : stage.observation = call.observation) (health : HealthRegistry) :
    Ordered samples ⟨{ s.monitor with health }, s.calls.set i stage⟩ (actions ++ [.advance i]) := by
  have hcount := h.count hcall
  refine h.of_access hcall hnext ?_ ?_
  · rw [lastUpdate, lastAccess_of_ne (by omega), seen_congr (observed_set_same stage hcall hsame)]
    exact h.state
  · rw [lastTurn, lastAccess_of_ne (by omega), seen_congr (observed_set_same stage hcall hsame)]
    exact h.gate

theorem Ordered.step (h : Ordered samples s actions)
    (hstep : s.step config samples action = some (s', events)) :
    Ordered samples s' (actions ++ [action]) := by
  cases action with
  | start =>
    cases hstep
    exact h.start
  | advance i =>
    simp only [Calls.step, bind_eq_some_iff, map_eq_some_iff] at hstep
    obtain ⟨call, hcall, ⟨monitor, stage⟩, hnext, heq⟩ := hstep
    cases heq
    cases call with
    | sampled sample =>
      cases hnext
      exact h.update hcall
    | classified observation =>
      cases hnext
      exact h.turn hcall
    | turned observation =>
      cases hnext
      exact h.report (.reported observation) hcall (Nat.le_refl 2) rfl rfl _
    | reported observation =>
      cases hnext
      exact h.report (.returned observation) hcall (Nat.le_succ 2) rfl rfl _
    | returned observation => cases hnext

theorem ordered_new (samples : ℕ → SampleResult) (health : HealthRegistry)
    (hopen : admission ≠ .draining) : Ordered samples ⟨.new admission health, []⟩ [] where
  accesses := fun _ => rfl
  inputs := by simp
  state := rfl
  gate := Follows.new health hopen

theorem ordered_run (hopen : admission ≠ .draining)
    (hrun : (Calls.machine config samples).run ⟨.new admission health, []⟩ actions =
      some (s, events)) : Ordered samples s actions := by
  have h := Machine.run_history (I := fun s actions _ => Ordered samples s actions)
    (fun h hstep => h.step hstep) [] [] hrun (ordered_new samples health hopen)
  simpa using h

end ordered

/-! ## Samples that tell the order -/

/-- Every sample is low, but that of one call fails. -/
def failing (u : ℕ) : ℕ → SampleResult := fun i => if i = u then none else some 0

/-- As long as the failing call has not updated the state, and while no call does after it,
every other call has observed the normal state. -/
structure Staged (u : ℕ) (s : Calls) (actions : List CallAction) : Prop where
  before : actions.count (.advance u) = 0 →
    s.monitor.state.snapshot.state.isTripped = false ∧
      ∀ i observation, s.observed i = some observation → observation.snapshot.state = .normal
  after : lastUpdate actions = some u →
    (∀ i observation, i ≠ u → s.observed i = some observation →
      observation.snapshot.state = .normal) ∧
    ∀ observation, s.observed u = some observation → observation.snapshot.state = .unavailable

section staged

variable {u : ℕ}

theorem observe_low {state : MonitorState} (h : state.snapshot.state.isTripped = false) :
    (state.observe config (some 0)).1.snapshot.state = .normal := by
  have hlimits := config.of_valid
  rw [observe_some, nextState_below (by omega)]
  simp [h]

theorem Staged.start (h : Staged u s actions) (samples : ℕ → SampleResult) :
    Staged u { s with calls := s.calls ++ [.sampled (samples s.calls.length)] }
      (actions ++ [.start]) := by
  constructor
  · intro hcount
    rw [count_start] at hcount
    simpa only [observed_start] using h.before hcount
  · intro hlast
    rw [lastUpdate, lastAccess_start] at hlast
    simpa only [observed_start] using h.after hlast

/-- An access after the first changes nothing that was observed. -/
theorem Staged.later (h : Staged u s actions) (hcall : s.calls[i]? = some call)
    (hlate : actions.count (.advance i) ≠ 0) (hsame : stage.observation = call.observation)
    (hstate : monitor.state = s.monitor.state) :
    Staged u ⟨monitor, s.calls.set i stage⟩ (actions ++ [.advance i]) := by
  have hobs : Calls.observed ⟨monitor, s.calls.set i stage⟩ = s.observed :=
    observed_set_same stage hcall hsame
  constructor
  · intro hcount
    rw [count_advance] at hcount
    simp only [hobs, hstate]
    exact h.before (by omega)
  · intro hlast
    rw [lastUpdate, lastAccess_of_ne hlate] at hlast
    simpa only [hobs] using h.after hlast

theorem Staged.update (h : Staged u s actions) (hordered : Ordered (failing u) s actions)
    (hcall : s.calls[i]? = some (.sampled sample)) :
    Staged u
      ⟨{ s.monitor with state := (s.monitor.state.observe config sample).1 },
        s.calls.set i (.classified (s.monitor.state.observe config sample).2)⟩
      (actions ++ [.advance i]) := by
  have hcount : actions.count (.advance i) = 0 := hordered.count hcall
  have hsample := hordered.inputs i sample hcall
  constructor
  · intro hzero
    rw [count_advance] at hzero
    have hother : i ≠ u := by
      rintro rfl
      simp at hzero
    obtain ⟨hstate, hnormal⟩ := h.before (by omega)
    have hlow : (s.monitor.state.observe config sample).1.snapshot.state = .normal := by
      rw [hsample, failing, if_neg hother]
      exact observe_low hstate
    refine ⟨by simp [hlow, MemoryPressureState.isTripped], fun j observation hobs => ?_⟩
    rw [observed_set hcall, update_apply] at hobs
    split_ifs at hobs
    · cases hobs
      rw [snapshot_observe, hlow]
    · exact hnormal j observation hobs
  · intro hlast
    rw [lastUpdate, lastAccess_of_eq hcount] at hlast
    cases hlast
    obtain ⟨-, hnormal⟩ := h.before hcount
    refine ⟨fun j observation hother hobs => ?_, fun observation hobs => ?_⟩
    · rw [observed_set hcall, update_of_ne hother] at hobs
      exact hnormal j observation hobs
    · rw [observed_set hcall, update_self] at hobs
      cases hobs
      rw [hsample, failing, if_pos rfl]
      rfl

theorem Staged.step (h : Staged u s actions) (hordered : Ordered (failing u) s actions)
    (hstep : s.step config (failing u) action = some (s', events)) :
    Staged u s' (actions ++ [action]) := by
  cases action with
  | start =>
    cases hstep
    exact h.start (failing u)
  | advance i =>
    simp only [Calls.step, bind_eq_some_iff, map_eq_some_iff] at hstep
    obtain ⟨call, hcall, ⟨monitor, stage⟩, hnext, heq⟩ := hstep
    cases heq
    have hcount := hordered.count hcall
    cases call with
    | sampled sample =>
      cases hnext
      exact h.update hordered hcall
    | classified observation | turned observation | reported observation =>
      cases hnext
      exact h.later hcall (hcount ▸ Nat.succ_ne_zero _) rfl rfl
    | returned observation => cases hnext

theorem staged_run (hopen : admission ≠ .draining)
    (hrun : (Calls.machine config (failing u)).run ⟨.new admission health, []⟩ actions =
      some (s, events)) : Staged u s actions := by
  have hstart : Staged u ⟨.new admission health, []⟩ [] :=
    ⟨fun _ => ⟨rfl, by simp [Calls.observed]⟩, by simp⟩
  have h := Machine.run_history
    (I := fun s actions _ => Ordered (failing u) s actions ∧ Staged u s actions)
    (fun h hstep => ⟨h.1.step hstep, h.2.step h.1 hstep⟩) [] [] hrun
    ⟨ordered_new _ health hopen, hstart⟩
  simpa using h.2

/-- With these samples the gate is left open in the unavailable state, when all calls have
returned and the last turn is not the one of the last update. -/
theorem Staged.overtaken (h : Staged u s actions) (hordered : Ordered (failing u) s actions)
    (hquiet : s.Quiet) (hupdate : lastUpdate actions = some u) (hlast : lastTurn actions ≠ some u) :
    s.monitor.admission = .accepting ∧ s.monitor.state.snapshot.state = .unavailable := by
  have hobs : ∀ i, 0 < actions.count (.advance i) →
      ∃ observation, s.observed i = some observation ∧ 2 ≤ actions.count (.advance i) := by
    intro i hpos
    cases hcall : s.calls[i]? with
    | none => simp [← hordered.accesses, Calls.made, hcall] at hpos
    | some call =>
      have hcount := hordered.count hcall
      have hret := hquiet call (mem_of_getElem? hcall)
      obtain ⟨observation, hseen⟩ := call.exists_observation (by omega)
      exact ⟨observation, by rw [Calls.observed, hcall, ← hseen]; rfl, by omega⟩
  obtain ⟨observation, hsaw, htwice⟩ := hobs u (lt_count_of_lastAccess hupdate)
  obtain ⟨hothers, hself⟩ := h.after hupdate
  constructor
  · obtain ⟨j, hturn⟩ := ne_none_iff_exists'.mp (lastAccess_ne_none 1 htwice)
    have hne : j ≠ u := fun heq => hlast (heq ▸ hturn)
    obtain ⟨seen, hseen, -⟩ := hobs j (Nat.zero_lt_of_lt (lt_count_of_lastAccess hturn))
    rw [hordered.gate, lastTurn, hturn, Calls.seen, bind_some, hseen, if_pos]
    exact hothers j seen hne hseen
  · rw [hordered.state, hupdate, Calls.seen, bind_some, hsaw]
    exact hself observation hsaw

end staged

/-- The calls of an interleaving all come to an end, whatever they sample. -/
def Complete (config : MemoryPressureConfig) (start : Calls) (actions : List CallAction) : Prop :=
  ∀ samples, ∃ last, (Calls.machine config samples).run start actions = some (last, []) ∧ last.Quiet

/-- When no call is in progress any more, the gate is open in the normal state only,
whatever was sampled, exactly when the call that turned the gate last is the one that
updated the state last. -/
theorem fail_closed_iff (config : MemoryPressureConfig) (admission : WorkerAdmissionState)
    (hopen : admission ≠ .draining) (health : HealthRegistry) (actions : List CallAction)
    (hcomplete : Complete config ⟨.new admission health, []⟩ actions) :
    (∀ samples last events,
      (Calls.machine config samples).run ⟨.new admission health, []⟩ actions =
        some (last, events) →
      last.monitor.admission = .accepting → last.monitor.state.snapshot.state = .normal) ↔
      lastTurn actions = lastUpdate actions := by
  constructor
  · intro hclosed
    cases hupdate : lastUpdate actions with
    | none =>
      -- without an update no call can have turned the gate
      by_contra hturn
      obtain ⟨j, hj⟩ := Option.ne_none_iff_exists'.mp hturn
      have htwice := lt_count_of_lastAccess hj
      exact lastAccess_ne_none 0 (Nat.zero_lt_of_lt htwice) hupdate
    | some u =>
      by_contra hturn
      obtain ⟨last, hrun, hquiet⟩ := hcomplete (failing u)
      obtain ⟨haccepting, hstate⟩ := (staged_run hopen hrun).overtaken (ordered_run hopen hrun)
        hquiet hupdate hturn
      have hnormal := hclosed _ _ _ hrun haccepting
      rw [hstate] at hnormal
      cases hnormal
  · intro hlast samples last events hrun haccepting
    have hfollows := (ordered_run hopen hrun).follows hlast
    rw [Follows, haccepting] at hfollows
    by_contra hstate
    rw [if_neg hstate] at hfollows
    cases hfollows

/-- A call that saw little memory in use is overtaken by one that fails, and then opens the
gate. -/
theorem stale_call_opens_gate :
    let samples : ℕ → SampleResult := fun i => if i = 0 then some 10 else none
    let actions : List CallAction := [.start, .start, .advance 0, .advance 1, .advance 1,
      .advance 1, .advance 1, .advance 0, .advance 0, .advance 0]
    let last := ((Calls.machine smallLimits samples).after ⟨.new .accepting .new, []⟩ actions).1
    (∀ call ∈ last.calls, call.accesses = 4) ∧ last.monitor.admission = .accepting ∧
      last.monitor.state.snapshot.state = .unavailable := by
  decide

/-- Two calls that turn the gate in the order of their updates. -/
def inOrder : List CallAction :=
  [.start, .start, .advance 0, .advance 1, .advance 0, .advance 1, .advance 0, .advance 0,
    .advance 1, .advance 1]

theorem fail_closed_iff_in_order :
    let start : Calls := ⟨.new .accepting .new, []⟩
    let last := ((Calls.machine smallLimits fun _ => some 10).after start inOrder).1
    Complete smallLimits start inOrder ∧ last.monitor.state.snapshot.state = .normal := by
  have hcomplete : Complete smallLimits ⟨.new .accepting .new, []⟩ inOrder := by
    intro samples
    refine ⟨_, rfl, ?_⟩
    simp [Calls.Quiet, SampleStage.accesses]
  have hiff := fail_closed_iff smallLimits .accepting (by decide) .new inOrder hcomplete
  have hrun : ((Calls.machine smallLimits fun _ => some 10).run ⟨.new .accepting .new, []⟩
      inOrder).isSome = true := by decide
  exact ⟨hcomplete, hiff.mpr (by decide) _ _ _ (Machine.run_eq_after hrun) (by decide)⟩

end PlenoraRuntime.Resources
