import PlenoraRuntime.Foundation.Slots
import PlenoraRuntime.Outbox.Custody
import PlenoraRuntime.Outbox.Steps

/-!
# No relay republishes what may be delivered

Relays whose policy reconciles unknown outcomes refine the custody machine: every
step of a run, under every answer of the store and of the producer, is a custody step
or leaves custody as it is (`RunStep.custody`). What holds of custody along every run
then holds of the relays.

The entries a run claimed stay in its batch until it returns, those it has marked or
released included. So an entry can be in two batches at a time; only one of the two
runs still has work to do on it.
-/

namespace PlenoraRuntime.Outbox

open Messaging Transition Ownership List Option Function

variable {E : Type*}

/-! ## What a run holds -/

/-- The entries a run still has to publish, mark or release, in that order. -/
def Run.held (run : Run E) : List OutboxId :=
  match run.phase with
  | .claiming | .done => []
  | .looping rest | .releasing rest _ => rest.map OutboxEntry.id
  | .publishing entry unattempted | .marking entry unattempted _ =>
    entry.id :: unattempted.map OutboxEntry.id

/-- The run neither returned nor was dropped. -/
def Run.inProgress (run : Run E) : Bool :=
  match run.phase with
  | .done => false
  | _ => true

/-- Whether the producer may have delivered the first entry the run holds. -/
def Run.delivered (run : Run E) : Bool :=
  match run.phase with
  | .marking _ _ (.ok _) => true
  | _ => false

namespace State

variable (s : State E)

def held (i : ℕ) : List OutboxId :=
  (s.runs[i]?.map Run.held).getD []

def delivered (i : ℕ) : Bool :=
  (s.runs[i]?.map Run.delivered).getD false

def custody : Custody where
  states := s.store.stateOf
  held := s.held
  delivered := s.delivered

/-- Every relay reconciles the outcomes it does not know. -/
def Reconciles : Prop :=
  ∀ run ∈ s.runs, run.config.policy.outcomeUnknown = .reconcile

variable {s} {i : ℕ} {run : Run E}

theorem held_of_run (hrun : s.runs[i]? = some run) : s.held i = run.held := by
  rw [held, hrun, map_some, getD_some]

theorem delivered_of_run (hrun : s.runs[i]? = some run) : s.delivered i = run.delivered := by
  rw [delivered, hrun, map_some, getD_some]

/-- What is read off the runs, after one of them changed. -/
theorem getD_map_set {β : Type*} (read : Run E → β) (default : β) (hrun : s.runs[i]? = some run)
    (run' : Run E) :
    (fun j : ℕ => ((s.runs.set i run')[j]?.map read).getD default) =
      Function.update (fun j => (s.runs[j]?.map read).getD default) i (read run') := by
  have hlt : i < s.runs.length := (List.getElem?_eq_some_iff.mp hrun).1
  funext j
  by_cases hj : j = i
  · subst hj
    simp [hlt]
  · rw [update_of_ne hj, getElem?_set_ne (Ne.symm hj)]

/-- What is read off the runs, after one with nothing to read started. -/
theorem getD_map_concat {β : Type*} (read : Run E → β) (default : β) (s : State E) (new : Run E)
    (hnew : read new = default) :
    (fun j : ℕ => ((s.runs ++ [new])[j]?.map read).getD default) =
      fun j => (s.runs[j]?.map read).getD default := by
  funext j
  rcases Nat.lt_trichotomy j s.runs.length with hlt | rfl | hgt
  · rw [getElem?_append_left hlt]
  · simp [hnew]
  · have hlen : (s.runs ++ [new]).length ≤ j := by
      rw [length_append]
      exact hgt
    rw [getElem?_eq_none hlen, getElem?_eq_none hgt.le]

theorem custody_setRun (hrun : s.runs[i]? = some run) (store : OutboxMemoryState) (run' : Run E) :
    ({ s with store }.setRun i run').custody =
      { states := store.stateOf
        held := Function.update s.held i run'.held
        delivered := Function.update s.delivered i run'.delivered } := by
  have hheld := getD_map_set Run.held [] hrun run'
  have hdeliv := getD_map_set Run.delivered false hrun run'
  simp only [custody, setRun, Custody.mk.injEq]
  exact ⟨trivial, hheld, hdeliv⟩

theorem Reconciles.setRun (h : s.Reconciles) (hrun : s.runs[i]? = some run) (run' : Run E)
    (hconfig : run'.config = run.config) (store : OutboxMemoryState) :
    ({ s with store }.setRun i run').Reconciles := by
  intro other hother
  rcases mem_or_eq_of_mem_set hother with hmem | rfl
  · exact h other hmem
  · rw [hconfig]
    exact h run (mem_of_getElem? hrun)

end State

/-! ## Every step of a run is a custody step -/

/-- What of an event concerns custody. -/
def Event.custody : Event E → Option CustodyEvent
  | .published _ entry => some (.published entry.id)
  | .returned _ id (.ok _) => some (.delivered id)
  | _ => none

variable {events : List (Event E)}

section steps

open OutboxMemoryState

variable {s : State E} {i : ℕ} {run run' : Run E} {store' : OutboxMemoryState}

theorem Run.held_marked (run : Run E) (id : OutboxId) (unattempted : List OutboxEntry)
    (result : PublishResult E) (marked : Except MemoryStoreError Unit) :
    (run.marked id unattempted result marked).held = unattempted.map OutboxEntry.id ∧
      (run.marked id unattempted result marked).delivered = false := by
  cases marked with
  | error source => exact ⟨rfl, rfl⟩
  | ok => cases result <;> exact ⟨rfl, rfl⟩

theorem Run.held_released (run : Run E) (rest : List OutboxEntry) (failure : RunFailure E)
    (released : Except MemoryStoreError Unit) :
    (run.released rest failure released).held = rest.map OutboxEntry.id ∧
      (run.released rest failure released).delivered = false := by
  cases released <;> exact ⟨rfl, rfl⟩

theorem RunStep.config_eq {store : OutboxMemoryState}
    (h : RunStep i store run events store' run') : run'.config = run.config := by
  cases h with
  | @records _ _ _ _ marked => cases marked <;> rfl
  | @releases _ _ _ _ released => cases released <;> rfl
  | _ => rfl

/-- The run is done with its first entry, the only one whose record may have moved. -/
theorem custody_mark (hrun : s.runs[i]? = some run) {id : OutboxId} {rest : List OutboxId}
    (hfirst : run.held = id :: rest)
    (hmark : store'.find = s.store.find ∨ ∃ state, s.store.Moves store' id state ∧
      (run.delivered = true → state ≠ .pending)) :
    Custody.Step s.custody []
      { states := store'.stateOf
        held := Function.update s.held i rest
        delivered := Function.update s.delivered i false } := by
  have hheld : s.custody.held i = id :: rest := (State.held_of_run hrun).trans hfirst
  rcases hmark with hsame | ⟨state, hmoves, hstate⟩
  · rw [stateOf_congr hsame]
    exact .leave hheld
  · rw [hmoves.states]
    refine .settle hheld hmoves.claimed fun hdeliv => hstate ?_
    exact (State.delivered_of_run hrun).symm.trans hdeliv

/-- A step of a run is a step of custody, or leaves it as it is. -/
theorem RunStep.custody (h : RunStep i s.store run events store' run')
    (hrecon : s.Reconciles) (hrun : s.runs[i]? = some run) :
    Runs Custody.Step s.custody (events.filterMap Event.custody)
      ({ s with store := store' }.setRun i run').custody := by
  have hheld := State.held_of_run hrun
  have hdeliv := State.delivered_of_run hrun
  rw [State.custody_setRun hrun]
  cases h with
  | claimFails hphase hclaim =>
    rw [stateOf_congr (find_of_claimPending_error hclaim)]
    exact .single (.drop i)
  | claims hphase hclaim =>
    have hclaims := claims_of_claimPending hclaim
    simp only [Run.held, Run.delivered, hphase] at hheld hdeliv ⊢
    rw [← hdeliv, update_eq_self, funext hclaims.states]
    exact .single (.claim (c := s.custody) hheld hclaims.nodup hclaims.pending)
  | returns | fails => exact .single (.drop i)
  | attempts hphase =>
    simp only [Run.held, Run.delivered, hphase, map_cons] at hheld hdeliv ⊢
    rw [← hheld, ← hdeliv, update_eq_self, update_eq_self]
    exact .single (.publish (c := s.custody) hheld hdeliv)
  | answers hphase result =>
    simp only [Run.held, Run.delivered, hphase] at hheld hdeliv ⊢
    rw [← hheld, update_eq_self]
    cases result with
    | ok outcome => exact .single (.deliver (c := s.custody) hheld)
    | error source =>
      -- An error is no news for custody.
      rw [← hdeliv, update_eq_self]
      exact .refl _
  | @records entry unattempted result store' marked hphase hmark =>
    obtain ⟨hrest, hgone⟩ := run.held_marked entry.id unattempted result marked
    rw [hrest, hgone]
    refine .single (custody_mark hrun (by rw [Run.held, hphase]) ?_)
    rcases recordAnswer_spec hmark with ⟨_, _, hsame⟩ | ⟨_, _, hsame⟩ | ⟨_, hmoves⟩
    · exact .inl hsame
    · exact .inl hsame
    · refine .inr ⟨_, hmoves, ?_⟩
      -- The policy is what keeps the record from becoming pending.
      have hpol := hrecon run (mem_of_getElem? hrun)
      rcases result with source | (_ | _) <;>
        simp [Run.delivered, hphase, answeredState, hpol, failedState]
  | @releases entry rest failure store' released hphase hmark =>
    obtain ⟨hrest, hgone⟩ := run.held_released rest failure released
    rw [hrest, hgone]
    have hfirst : run.held = entry.id :: rest.map OutboxEntry.id := by simp [Run.held, hphase]
    refine .single (custody_mark hrun hfirst ?_)
    rcases markFailed_spec hmark with ⟨_, _, hsame⟩ | ⟨_, hmoves⟩
    · exact .inl hsame
    · exact .inr ⟨_, hmoves, by simp [Run.delivered, hphase]⟩

end steps

/-! ## The relays refine custody -/

/-- Relays are started with a policy that reconciles unknown outcomes. -/
def Event.Reconciles (event : Event E) : Prop :=
  ∀ i config, event = .started i config → config.policy.outcomeUnknown = .reconcile

/-- `c` is the custody of `s`, all of whose relays reconcile. -/
def Tracks (s : State E) (c : Custody) : Prop :=
  c = s.custody ∧ s.Reconciles

section refinement

variable {s s' : State E} {c : Custody}

theorem Tracks.runOnce {config : RelayConfig} (h : Tracks s c)
    (hconfig : config.policy.outcomeUnknown = .reconcile) :
    Tracks { s with runs := s.runs ++ [{ config }] } c := by
  obtain ⟨rfl, hrecon⟩ := h
  constructor
  · -- The new run holds nothing yet.
    have hheld := State.getD_map_concat Run.held [] s ({ config } : Run E) rfl
    have hdeliv := State.getD_map_concat Run.delivered false s ({ config } : Run E) rfl
    simp only [State.custody, Custody.mk.injEq]
    exact ⟨trivial, hheld.symm, hdeliv.symm⟩
  · exact forall_mem_concat hrecon hconfig

theorem Tracks.step (h : Tracks s c) (hstep : (machine E).Step s events s')
    (hevents : ∀ event ∈ events, event.Reconciles) :
    ∃ c', Runs Custody.Step c (events.filterMap Event.custody) c' ∧ Tracks s' c' := by
  obtain ⟨rfl, hrecon⟩ := h
  cases changes_of_step hstep with
  | @run i run run' store' _ hrun hstep =>
    exact ⟨_, hstep.custody hrecon hrun, rfl,
      hrecon.setRun hrun run' hstep.config_eq store'⟩
  | @dropped i run hrun =>
    let run' : Run E := { run with phase := .done }
    exact ⟨_, .single (.drop i), (State.custody_setRun hrun s.store run').symm,
      hrecon.setRun hrun run' rfl s.store⟩
  | started config =>
    exact ⟨_, .refl _, Tracks.runOnce ⟨rfl, hrecon⟩ (hevents _ mem_cons_self _ _ rfl)⟩
  | @inserted entry store' result hinsert =>
    rcases OutboxMemoryState.insert_spec hinsert with ⟨_, rfl, hsame⟩ | ⟨rfl, hnew, hfind⟩
    · refine ⟨s.custody, .refl _, ?_, hrecon⟩
      rw [State.custody, State.custody, OutboxMemoryState.stateOf_congr hsame]
      rfl
    · have hnone : s.custody.states entry.id = none := congrArg (Option.map _) hnew
      refine ⟨_, .single (.insert hnone), ?_, hrecon⟩
      simp only [State.custody, Custody.mk.injEq]
      exact ⟨(OutboxMemoryState.map_find_update OutboxRecord.state hfind).symm, rfl, rfl⟩
  | injected hsame =>
    refine ⟨s.custody, .refl _, ?_, hrecon⟩
    rw [State.custody, State.custody, OutboxMemoryState.stateOf_congr hsame]
    rfl

/-- Every run of the relays is a run of custody. -/
theorem Tracks.runs (h : Tracks s c) (hruns : Runs (machine E).Step s events s')
    (hevents : ∀ event ∈ events, event.Reconciles) :
    Runs Custody.Step c (events.filterMap Event.custody) s'.custody ∧ s'.Reconciles := by
  obtain ⟨_, hcust, rfl, hrecon⟩ := (hruns.restrict hevents).simulate
    (R := Tracks) (fun h hstep => h.step hstep.1 hstep.2) h
  exact ⟨hcust, hrecon⟩

theorem tracks_init : Tracks (E := E) {} ({} : State E).custody :=
  ⟨rfl, fun _ hrun => absurd hrun not_mem_nil⟩

theorem safe_init : ({} : State E).custody.Safe :=
  ⟨⟨fun _ => nodup_nil, fun hi => absurd hi not_mem_nil⟩,
    fun hi => absurd hi not_mem_nil⟩

end refinement

/-! ## Sample runs -/

namespace Sample

def entry (uuid : Uuid) : OutboxEntry where
  id := ⟨uuid⟩
  message := .new (utf8 "text/plain") []
  createdAt := 0
  attempts := 0

/-- Two entries a batch; producer errors are retried. -/
def config : RelayConfig where
  batchSize := 2
  policy := {}
  batchSize_pos := Nat.two_pos
  batchSize_le := two_le_usizeMax

def after (actions : List (Action Unit)) : State Unit × List (Event Unit) :=
  (machine Unit).after {} actions

theorem reaches (actions : List (Action Unit))
    (hsome : ((machine Unit).run {} actions).isSome = true) :
    Reaches (after actions).2 (after actions).1 :=
  Machine.runs_after hsome

def startedReconciling : Event Unit → Bool
  | .started _ config => config.policy.outcomeUnknown = .reconcile
  | _ => true

theorem reconciles {history : List (Event Unit)} (h : history.all startedReconciling = true) :
    ∀ i config, .started i config ∈ history → config.policy.outcomeUnknown = .reconcile := by
  intro i config hstart
  exact of_decide_eq_true (List.all_eq_true.mp h _ hstart)

/-- One run claims both entries and has the producer's answer for the first. -/
def answered (result : PublishResult Unit) : List (Action Unit) :=
  [.insert (entry 0), .insert (entry 1), .runOnce config, .poll 0, .poll 0,
    .publishReturns 0 result]

/-- The outcome is unknown; the run marks the entry and goes on to the next one, and a
second run finds nothing to claim. -/
def unknown : List (Action Unit) :=
  answered (.ok .outcomeUnknown) ++ [.poll 0, .poll 0, .runOnce config, .poll 1, .poll 1]

/-- After an error, a second run claims what the first one gave back. -/
def overlapping : List (Action Unit) :=
  answered (.error ()) ++ [.poll 0, .runOnce config, .poll 1]

end Sample

/-! ## Main result -/

/-- Batches of runs in progress can overlap. The first run's publication of the first
entry failed and the entry went back to pending; while that run still has to release its
second entry, another run claims the first. -/
theorem batches_of_runs_in_progress_overlap :
    ∃ (history : List (Event Unit)) (s : State Unit) (first second : Run Unit) (id : OutboxId),
      Reaches history s ∧
      (∀ i config, .started i config ∈ history → config.policy.outcomeUnknown = .reconcile) ∧
      s.runs[0]? = some first ∧ s.runs[1]? = some second ∧
      first.inProgress = true ∧ second.inProgress = true ∧
      id ∈ first.batch.map OutboxEntry.id ∧ id ∈ second.batch.map OutboxEntry.id := by
  refine ⟨_, _, _, _, ⟨0⟩, Sample.reaches Sample.overlapping rfl, ?_, rfl, rfl, rfl, rfl, ?_, ?_⟩
  · exact Sample.reconciles rfl
  · exact List.mem_cons_self
  · exact List.mem_cons_self

/-- Relays that reconcile unknown outcomes share a store. Once a publication of an entry
was confirmed or its outcome is unknown, the entry is never passed to the producer
again. No entry that a run has still to publish, mark or release is so held by another
one. Published, failed and awaiting records stay as they are. -/
theorem relay_never_republishes {history : List (Event E)} {s : State E}
    (hreaches : Reaches history s)
    (hpolicy : ∀ i config, .started i config ∈ history →
      config.policy.outcomeUnknown = .reconcile) :
    (∀ before after i id outcome, history = before ++ .returned i id (.ok outcome) :: after →
      ∀ j entry, .published j entry ∈ after → entry.id ≠ id) ∧
    (∀ i, (s.held i).Nodup) ∧
    (∀ i j id, id ∈ s.held i → id ∈ s.held j → i = j) ∧
    (∀ earlier later s₀, history = earlier ++ later → Reaches earlier s₀ →
      Runs (machine E).Step s₀ later s → ∀ id state, state.Final →
      s₀.store.stateOf id = some state → s.store.stateOf id = some state) := by
  have hevents : ∀ event ∈ history, event.Reconciles := by
    rintro event hevent i config rfl
    exact hpolicy i config hevent
  have hcustody := (tracks_init.runs hreaches hevents).1
  have hsafe : s.custody.Safe :=
    hcustody.invariant (fun h hstep => hstep.safe h) safe_init
  refine ⟨?_, hsafe.exclusive.nodup, fun i j id => hsafe.exclusive.unique, ?_⟩
  · rintro before after i id outcome rfl j entry hpublished rfl
    have hlater : .published entry.id ∈ after.filterMap Event.custody :=
      List.mem_filterMap.mpr ⟨_, hpublished, rfl⟩
    rw [List.filterMap_append] at hcustody
    exact Custody.not_published_after safe_init hcustody hlater
  · rintro earlier later s₀ rfl hearlier hlater id state hfinal hstate
    have hfirst := tracks_init.runs hearlier fun event hevent =>
      hevents event (List.mem_append_left _ hevent)
    have hsecond := Tracks.runs ⟨rfl, hfirst.2⟩ hlater fun event hevent =>
      hevents event (List.mem_append_right _ hevent)
    exact hsecond.1.invariant (I := fun c => c.states id = some state)
      (fun h hstep => hstep.final hfinal h) hstate

/-- The outcome of the first publication is unknown. The entry awaits reconciliation and
is published by nobody, while the run still holds its second entry. -/
theorem relay_never_republishes_unknown :
    let before := (Sample.after (Sample.answered (.ok .outcomeUnknown))).2
    let last := Sample.after Sample.unknown
    ∃ after, last.2 = before ++ after ∧ after.length = 4 ∧
      (∀ j entry, .published j entry ∈ after → entry.id ≠ ⟨0⟩) ∧
      last.1.store.stateOf ⟨0⟩ = some .awaitingReconciliation ∧
      last.1.held 0 = [⟨1⟩] ∧ ∀ j, ⟨1⟩ ∈ last.1.held j → 0 = j := by
  intro before last
  have hlast := relay_never_republishes (Sample.reaches Sample.unknown rfl)
    (Sample.reconciles rfl)
  refine ⟨_, rfl, rfl, ?_, rfl, rfl, ?_⟩
  · intro j entry hpublished
    exact hlast.1 before.dropLast _ 0 ⟨0⟩ .outcomeUnknown rfl j entry hpublished
  · intro j hheld
    exact hlast.2.2.1 0 j ⟨1⟩ List.mem_cons_self hheld

end PlenoraRuntime.Outbox
