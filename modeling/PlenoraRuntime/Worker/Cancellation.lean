import PlenoraRuntime.Worker.Moments

/-!
# One cancellation reason per task

A token keeps the first reason it is cancelled with. An execution that was cancelled reads
the reason from the token and so reports and returns the same one. But an execution that
is turned away, or dropped, cancels the token itself and reports its own reason without
looking whether the token took it: then the event contradicts the token, exactly if
somebody else was first (`Contradicted`).

`Exit` lists the ways in which an execution leaves, with what is known of its token and of
what it has announced: it withdraws, which is to cancel its token and announce the reason,
announces or concludes, has announced how it ends, or unwinds. `Accounts` says so of every
phase, and each turn keeps it (`Turn.accounts`).
-/

namespace PlenoraRuntime.Worker

open Messaging Transition List

variable {E : Type*}

/-- The execution is about to cancel its token, which holds another reason. -/
def Contradicted (v : View E) : Prop :=
  ∃ reason ops outcome first, v.phase = .leaving (.cancel reason :: ops) outcome ∧
    v.token = some first ∧ first ≠ reason

/-! ## What a reporter announces -/

/-- An access of a reporter announces no state, or the one it goes to. -/
def LifecycleState.Announces (state next : LifecycleState) (events : List TaskLifecycleEvent) :
    Prop :=
  (next.current = state.current ∧ ∀ event ∈ events, event.kind.state? = none) ∨
    state.current.isTerminal = false ∧
      ∀ event ∈ events, event.kind = .stateChanged next.current

namespace LifecycleState

variable (state : LifecycleState) (task : TaskIdentity) (now : SystemTime)

theorem record_current (kind : TaskLifecycleEventKind) :
    (state.record task now kind).1.current = state.current := by
  unfold record
  dsimp only
  split <;> rfl

theorem record_kind {kind event} (h : (state.record task now kind).2 = .ok event) :
    event.kind = kind := by
  unfold record at h
  dsimp only at h
  split at h
  · rw [← Except.ok.inj h]
  · cases h

theorem mem_toOption {ε α : Type*} {result : Except ε α} {a} (h : a ∈ result.toOption.toList) :
    result = .ok a := by
  cases result with
  | error => cases h
  | ok b => rw [mem_singleton.mp h]

theorem announces_none : state.Announces state [] :=
  .inl ⟨rfl, fun _ hevent => absurd hevent not_mem_nil⟩

theorem start_announces (before : LifecycleState) (h : before.current.isTerminal = false) :
    before.Announces (start task now).1 (start task now).2.toOption.toList := by
  refine .inr ⟨h, fun event hevent => ?_⟩
  rw [record_kind _ task now (mem_toOption hevent), start, record_current]

theorem transition_current {next} (h : state.current.isTerminal = false) :
    (state.transition task now next).1.current = next := by
  unfold transition
  rw [if_neg (by rw [h]; exact Bool.false_ne_true)]
  exact record_current _ task now _

theorem transition_announces (next : TaskState) :
    state.Announces (state.transition task now next).1
      (state.transition task now next).2.toList := by
  cases hterm : state.current.isTerminal with
  | true =>
    rw [transition_of_terminal hterm]
    exact state.announces_none
  | false =>
    refine .inr ⟨hterm, fun event hevent => ?_⟩
    rw [state.transition_current task now hterm]
    unfold transition at hevent
    rw [if_neg (by rw [hterm]; exact Bool.false_ne_true)] at hevent
    exact record_kind _ task now (mem_toOption hevent)

/-- What is recorded besides the states announces none. -/
theorem record_silent (kind : TaskLifecycleEventKind) (h : kind.state? = none) :
    (state.record task now kind).1.current = state.current ∧
      ∀ event ∈ (state.record task now kind).2.toOption.toList, event.kind.state? = none := by
  refine ⟨state.record_current task now kind, fun event hevent => ?_⟩
  rw [record_kind _ task now (mem_toOption hevent), h]

theorem report_silent (progress : TaskProgress) :
    (state.report task now progress).1.current = state.current ∧
      ∀ event ∈ (state.report task now progress).2.toOption.toList, event.kind.state? = none := by
  unfold report
  split
  · exact ⟨rfl, forall_mem_nil _⟩
  · exact record_silent _ task now (.progress progress) rfl

theorem heartbeat_silent :
    (state.heartbeat task now).1.current = state.current ∧
      ∀ event ∈ (state.heartbeat task now).2.toOption.toList, event.kind.state? = none := by
  unfold heartbeat
  split
  · exact ⟨rfl, forall_mem_nil _⟩
  · exact state.record_silent task now _ rfl

end LifecycleState

section turns

variable {executor : Executor E} {i : ℕ} {context : WorkerContext} {action : Action E}
  {v v' : View E} {events : List (Event E)}

theorem Turn.announces (h : Turn executor i context action v events v')
    (hcreated : v.phase = .created → v.reporter.current.isTerminal = false) :
    v.reporter.Announces v'.reporter (stream events) := by
  cases h with
  | start =>
    exact LifecycleState.start_announces _ _ _ (hcreated rfl)
  | enter | failed | transition =>
    rw [stream_lifecycle]
    exact LifecycleState.transition_announces ..
  | beaten =>
    rw [stream_lifecycle]
    exact .inl (LifecycleState.heartbeat_silent ..)
  | report =>
    rw [stream_ofReport]
    exact .inl (LifecycleState.report_silent ..)
  | heartbeat =>
    rw [stream_ofReport]
    exact .inl (LifecycleState.heartbeat_silent ..)
  | advance _ _ hevents =>
    rcases hevents with rfl | rfl <;> exact LifecycleState.announces_none _
  | reject _ hevents =>
    rcases hevents with rfl | ⟨_, rfl⟩ <;> exact LifecycleState.announces_none _
  | _ => exact LifecycleState.announces_none _

end turns

/-! ## How an execution leaves -/

/-- A task that was announced as cancelled has the reason of its token, unless the
execution has `met` a token that held another one. -/
def Settled (met : Prop) (token : TokenState) (current : TaskState) : Prop :=
  ∀ reason, current = .cancelled reason → ∃ first, token = some first ∧ (first = reason ↔ ¬ met)

/-- A cancellation that is returned was announced. -/
def Answered (current : TaskState) (outcome : Option (ExecutionResult E)) : Prop :=
  ∀ reason, outcome = some (.error (.cancelled reason)) → current = .cancelled reason

def TaskState.cancellation? : TaskState → Option TaskCancellationReason
  | .cancelled reason => some reason
  | _ => none

def cancellation? : Option (ExecutionResult E) → Option TaskCancellationReason
  | some (.error (.cancelled reason)) => some reason
  | _ => none

/-- The reason for which a handler is given up. -/
def Stop.reason : Stop → TaskCancellationReason
  | .cancelled reason => reason
  | .deadline _ observed => observed

inductive Exit (met : Prop) (token : TokenState) (current : TaskState) :
    List Op → Option (ExecutionResult E) → Prop
  | withdraw {reason scope outcome} (hactive : current.isTerminal = false) (hmet : ¬ met)
      (hscope : ∀ op ∈ scope, op.isRelease = true) (hout : cancellation? outcome = none) :
      Exit met token current (.cancel reason :: .transition (.cancelled reason) :: scope) outcome
  | announce {reason first scope outcome} (hactive : current.isTerminal = false)
      (htoken : token = some first) (hfirst : first = reason ↔ ¬ met)
      (hscope : ∀ op ∈ scope, op.isRelease = true)
      (hout : ∀ other, cancellation? outcome = some other → other = reason) :
      Exit met token current (.transition (.cancelled reason) :: scope) outcome
  | conclude {state : TaskState} {scope outcome} (hactive : current.isTerminal = false)
      (hstate : state.cancellation? = none) (hscope : ∀ op ∈ scope, op.isRelease = true)
      (hout : cancellation? outcome = none) :
      Exit met token current (.transition state :: scope) outcome
  | release {scope outcome} (hsettled : Settled met token current)
      (hansw : Answered current outcome) (hscope : ∀ op ∈ scope, op.isRelease = true) :
      Exit met token current scope outcome
  | unwind {scope} (hactive : current.isTerminal = false) (hmet : ¬ met)
      (hscope : ∀ op ∈ scope, op.isRelease = true) :
      Exit met token current (scope ++ [.dropGuard]) none

def Accounts (met : Prop) (v : View E) : Prop :=
  match v.phase with
  | .leaving ops outcome => Exit met v.token v.reporter.current ops outcome
  | .done => Settled met v.token v.reporter.current
  | .deciding _ _ => v.reporter.current = .failed ∧ ¬ met
  | .cleaning _ stop =>
    v.reporter.current.isTerminal = false ∧ ¬ met ∧ v.token = some stop.reason
  | _ => v.reporter.current.isTerminal = false ∧ ¬ met

section accounts

variable {executor : Executor E} {i : ℕ} {context : WorkerContext} {action : Action E}
  {v v' : View E} {events : List (Event E)} {met : Prop} {phase : Phase E}
  {reporter : LifecycleState} {token : TokenState} {current : TaskState}

theorem accounts_of_admitting (h : phase.admitting = true) :
    Accounts met ⟨phase, reporter, token⟩ ↔ reporter.current.isTerminal = false ∧ ¬ met := by
  cases phase <;> first | exact Iff.rfl | cases h

/-- Of what was announced, only the state counts. -/
theorem accounts_congr {next : LifecycleState} (h : next.current = reporter.current)
    (hv : Accounts met ⟨phase, reporter, token⟩) : Accounts met ⟨phase, next, token⟩ := by
  cases phase <;> simpa only [Accounts, h] using hv

def Phase.isLeaving : Phase E → Bool
  | .leaving _ _ => true
  | _ => false

theorem scope_isRelease (h : phase.isLeaving = false) :
    ∀ op ∈ phase.scope, op.isRelease = true := by
  cases phase with
  | leaving => cases h
  | _ => simp [Phase.scope, Op.isRelease]

theorem not_leaving_of_admitting (h : phase.admitting = true) : phase.isLeaving = false := by
  cases phase <;> first | rfl | cases h

/-- The execution is about to cancel its token. -/
def Phase.withdraws : Phase E → Bool
  | .leaving (.cancel _ :: _) _ => true
  | _ => false

theorem withdraws_of_admitting (h : phase.admitting = true) : phase.withdraws = false := by
  cases phase <;> first | rfl | cases h

/-- Only a poll at a cancellation can be contradicted. -/
theorem met_eq {p : Prop} (h : v.phase.withdraws = false) : (met ∨ p ∧ Contradicted v) = met := by
  refine propext (or_iff_left ?_)
  rintro ⟨-, reason, ops, outcome, -, hphase, -⟩
  rw [hphase] at h
  cases h

theorem Settled.cancel (h : Settled met token current) (reason : TaskCancellationReason) :
    Settled met (token.cancel reason).1 current := by
  intro other hother
  obtain ⟨first, rfl, hfirst⟩ := h other hother
  exact ⟨first, rfl, hfirst⟩

theorem settled_of_other (h : current.cancellation? = none) : Settled met token current := by
  rintro reason rfl
  cases h

theorem answered_of_other {outcome : Option (ExecutionResult E)}
    (h : cancellation? outcome = none) : Answered current outcome := by
  rintro reason rfl
  cases h

theorem settled_of_active (h : current.isTerminal = false) : Settled met token current := by
  rintro reason rfl
  cases h

section exits

variable {ops : List Op} {op : Op} {outcome : Option (ExecutionResult E)}

theorem Exit.cancel (h : Exit met token current ops outcome) (reason : TaskCancellationReason) :
    Exit met (token.cancel reason).1 current ops outcome := by
  cases h with
  | withdraw hactive hmet hscope hout => exact .withdraw hactive hmet hscope hout
  | announce hactive htoken hfirst hscope hout =>
    subst htoken
    exact .announce hactive rfl hfirst hscope hout
  | conclude hactive hstate hscope hout => exact .conclude hactive hstate hscope hout
  | release hsettled hansw hscope =>
    exact .release (hsettled.cancel reason) hansw hscope
  | unwind hactive hmet hscope => exact .unwind hactive hmet hscope

/-- The token takes the reason, unless it holds another. -/
theorem Exit.withdrawn {reason} (h : Exit met token current (.cancel reason :: ops) outcome) :
    Exit (met ∨ ∃ first, token = some first ∧ first ≠ reason) (token.cancel reason).1 current ops
      outcome := by
  generalize hops : Op.cancel reason :: ops = all at h
  cases h with
  | withdraw hactive hmet hscope hout =>
    obtain ⟨hreason, rfl⟩ := List.cons.inj hops
    obtain rfl := Op.cancel.inj hreason
    have hoften : ∀ other, cancellation? outcome = some other → other = reason :=
      fun other hother => absurd (hout.symm.trans hother).symm (Option.some_ne_none other)
    cases token with
    | none | some first => exact .announce hactive rfl (by simp [hmet]) hscope hoften
  | announce | conclude => cases hops
  | release _ _ hscope => cases hscope _ (hops ▸ mem_cons_self)
  | @unwind scope _ _ hscope =>
    cases scope with
    | nil => cases hops
    | cons op scope =>
      obtain ⟨rfl, -⟩ := List.cons.inj hops
      cases hscope _ mem_cons_self

theorem Exit.announced {state : TaskState}
    (h : Exit met token reporter.current (.transition state :: ops) outcome) (task : TaskIdentity)
    (now : SystemTime) :
    Exit met token (reporter.transition task now state).1.current ops outcome := by
  generalize hops : Op.transition state :: ops = all at h
  cases h with
  | withdraw => cases hops
  | announce hactive htoken hfirst hscope hout =>
    obtain ⟨hstate, rfl⟩ := List.cons.inj hops
    obtain rfl := Op.transition.inj hstate
    rw [reporter.transition_current task now hactive]
    refine .release (fun other hother => ?_) (fun other hother => ?_) hscope
    · obtain rfl := TaskState.cancelled.inj hother
      exact ⟨_, htoken, hfirst⟩
    · rw [hout other (by rw [hother]; rfl)]
  | conclude hactive hother hscope hout =>
    obtain ⟨hstate, rfl⟩ := List.cons.inj hops
    obtain rfl := Op.transition.inj hstate
    rw [reporter.transition_current task now hactive]
    exact .release (settled_of_other hother) (answered_of_other hout) hscope
  | release _ _ hscope => cases hscope _ (hops ▸ mem_cons_self)
  | @unwind scope _ _ hscope =>
    cases scope with
    | nil => cases hops
    | cons op scope =>
      obtain ⟨rfl, -⟩ := List.cons.inj hops
      cases hscope _ mem_cons_self

theorem Exit.released (h : Exit met token current (op :: ops) outcome)
    (hop : op.isRelease = true) : Exit met token current ops outcome := by
  generalize hops : op :: ops = all at h
  cases h with
  | withdraw | announce | conclude =>
    obtain ⟨rfl, -⟩ := List.cons.inj hops
    cases hop
  | release hsettled hansw hscope =>
    exact .release hsettled hansw fun other hother =>
      hscope other (hops ▸ mem_cons_of_mem _ hother)
  | @unwind scope hactive hmet hscope =>
    cases scope with
    | nil =>
      obtain ⟨rfl, -⟩ := List.cons.inj hops
      cases hop
    | cons first scope =>
      obtain ⟨-, rfl⟩ := List.cons.inj hops
      exact .unwind hactive hmet fun other hother => hscope other (mem_cons_of_mem _ hother)

theorem Exit.guard_inv (h : Exit met token current (.dropGuard :: ops) outcome) :
    ops = [] ∧ outcome = none ∧ current.isTerminal = false ∧ ¬ met := by
  generalize hops : Op.dropGuard :: ops = all at h
  cases h with
  | withdraw | announce | conclude => cases hops
  | release _ _ hscope => cases hscope _ (hops ▸ mem_cons_self)
  | @unwind scope hactive hmet hscope =>
    cases scope with
    | nil =>
      obtain ⟨-, rfl⟩ := List.cons.inj hops
      exact ⟨rfl, rfl, hactive, hmet⟩
    | cons first scope =>
      obtain ⟨rfl, -⟩ := List.cons.inj hops
      cases hscope _ mem_cons_self

theorem Exit.nil_inv (h : Exit met token current [] outcome) :
    Settled met token current ∧ Answered current outcome := by
  generalize hops : ([] : List Op) = all at h
  cases h with
  | withdraw | announce | conclude => cases hops
  | release hsettled hansw => exact ⟨hsettled, hansw⟩
  | unwind => exact absurd hops.symm (append_ne_nil_of_right_ne_nil _ (cons_ne_nil _ _))

end exits

/-- An execution that leaves with the reason of its token. -/
theorem exit_cancelled {reason} (hactive : current.isTerminal = false) (hmet : ¬ met)
    (hphase : phase.isLeaving = false) :
    Exit (E := E) met (some reason) current ([.transition (.cancelled reason)] ++ phase.scope)
      (some (.error (.cancelled reason))) :=
  .announce hactive rfl (iff_of_true rfl hmet) (scope_isRelease hphase) fun _ hother =>
    (Option.some.inj hother).symm

theorem exit_rejected (reason : WorkerAdmissionReason) (hactive : current.isTerminal = false)
    (hmet : ¬ met) (hphase : phase.admitting = true) :
    Exit (E := E) met token current (finishAdmission reason ++ phase.scope)
      (some (.error (.admission reason))) := by
  have hscope := scope_isRelease (not_leaving_of_admitting hphase)
  cases reason <;> exact .withdraw hactive hmet hscope rfl

theorem exit_stopped (stop : Stop) (taskId : WorkerTaskId) (hactive : current.isTerminal = false)
    (hmet : ¬ met) :
    Exit (E := E) met (some stop.reason) current
      ([.transition (stop.ending executor).1] ++ Phase.scope (E := E) (.cleaning taskId stop))
      (some (.error (stop.ending executor).2)) := by
  cases stop with
  | cancelled reason => exact exit_cancelled hactive hmet rfl
  | deadline timeout observed =>
    unfold Stop.ending
    dsimp only
    split
    · exact exit_cancelled hactive hmet rfl
    · exact .conclude hactive rfl (scope_isRelease rfl) rfl

theorem Turn.accounts (h : Turn executor i context action v events v') (hv : Accounts met v) :
    Accounts (met ∨ action.isPoll = true ∧ Contradicted v) v' := by
  -- Only an execution that is about to cancel its token can meet another reason there.
  have hkeep (h : v.phase.withdraws = false) (hv' : Accounts met v') :
      Accounts (met ∨ action.isPoll = true ∧ Contradicted v) v' := by
    rwa [met_eq h]
  cases h with
  | @start input =>
    refine hkeep rfl ⟨?_, hv.2⟩
    rfl
  | advance hphase hphase' =>
    exact hkeep (withdraws_of_admitting hphase)
      ((accounts_of_admitting hphase').mpr ((accounts_of_admitting hphase).mp hv))
  | reject hphase _ reason =>
    obtain ⟨hactive, hmet⟩ := (accounts_of_admitting hphase).mp hv
    exact hkeep (withdraws_of_admitting hphase) (exit_rejected reason hactive hmet hphase)
  | forestall hphase reason =>
    obtain ⟨hactive, hmet⟩ := (accounts_of_admitting hphase).mp hv
    exact hkeep (withdraws_of_admitting hphase)
      (exit_cancelled hactive hmet (not_leaving_of_admitting hphase))
  | register | invoke | handle | suspend | expire | beat | resume | fail | clean =>
    exact hkeep rfl hv
  | enter => exact hkeep rfl ⟨by rw [LifecycleState.transition_current _ _ _ hv.1]; rfl, hv.2⟩
  | interrupt reason => exact hkeep rfl ⟨hv.1, hv.2, rfl⟩
  | beaten => exact hkeep rfl ⟨by rw [(LifecycleState.heartbeat_silent ..).1]; exact hv.1, hv.2⟩
  | overrule reason => exact hkeep rfl (exit_cancelled hv.1 hv.2 rfl)
  | succeed => exact hkeep rfl (.conclude hv.1 rfl (scope_isRelease rfl) rfl)
  | failed => exact hkeep rfl ⟨LifecycleState.transition_current _ _ _ hv.1, hv.2⟩
  | decide | policyPanic =>
    exact hkeep rfl (.release (settled_of_other (by rw [hv.1]; rfl)) (answered_of_other rfl)
      (scope_isRelease rfl))
  | @stop _ _ _ _ token =>
    refine hkeep rfl ⟨hv.1, hv.2, ?_⟩
    cases token <;> rfl
  | @cleaned _ _ stop _ token =>
    obtain ⟨hactive, hmet, htoken⟩ := hv
    obtain rfl : token = some stop.reason := htoken
    exact hkeep rfl (exit_stopped stop _ hactive hmet)
  | @cancel input reason ops outcome reporter token =>
    -- Here it is about to: `met` takes in what the token holds.
    have hmet : (met ∨ Action.isPoll (.poll i input) = true ∧
        Contradicted ⟨Phase.leaving (.cancel reason :: ops) outcome, reporter, token⟩) =
        (met ∨ ∃ first, token = some first ∧ first ≠ reason) := by
      refine propext (or_congr_right ⟨?_, ?_⟩)
      · rintro ⟨-, _, _, _, first, hphase, htoken, hne⟩
        cases hphase
        exact ⟨first, htoken, hne⟩
      · rintro ⟨first, htoken, hne⟩
        exact ⟨rfl, reason, ops, outcome, first, rfl, htoken, hne⟩
    rw [hmet]
    exact Exit.withdrawn hv
  | transition => exact hkeep rfl (Exit.announced hv _ _)
  | @release _ op hop =>
    exact hkeep (by cases op <;> first | rfl | cases hop) (Exit.released hv hop)
  | guard reason =>
    obtain ⟨rfl, rfl, hactive, hmet⟩ := Exit.guard_inv hv
    exact hkeep rfl (.announce hactive rfl (iff_of_true rfl hmet) (forall_mem_nil _)
      fun _ hother => absurd hother.symm (Option.some_ne_none _))
  | abandon =>
    obtain ⟨rfl, rfl, hactive, hmet⟩ := Exit.guard_inv hv
    exact hkeep rfl (.withdraw hactive hmet (forall_mem_nil _) rfl)
  | finish => exact hkeep rfl (Exit.nil_inv hv).1
  | dropUnpolled => exact hkeep rfl (settled_of_active hv.1)
  | @unwind _ _ phase hsusp =>
    cases phase with
    | waiting | handling => exact hkeep rfl (.unwind hv.1 hv.2 (scope_isRelease rfl))
    | cleaning => exact hkeep rfl (.unwind hv.1 hv.2.1 (scope_isRelease rfl))
    | _ => cases hsusp
  | report =>
    simp only [Action.isPoll, Bool.false_eq_true, false_and, or_false]
    exact accounts_congr (LifecycleState.report_silent ..).1 hv
  | heartbeat =>
    simp only [Action.isPoll, Bool.false_eq_true, false_and, or_false]
    exact accounts_congr (LifecycleState.heartbeat_silent ..).1 hv

/-! ## Runs -/

/-- What is known of an execution agrees with what was reported about it. -/
structure Accounted (i : ℕ) (met : Prop) (v : View E) (past : List (Event E)) : Prop where
  accounts : Accounts met v
  announced : ∀ event ∈ stream past, ∀ state, event.kind = .stateChanged state →
    state.isTerminal = true → v.reporter.current = state
  finished : ∀ outcome, .finished i outcome ∈ past →
    v.phase = .done ∧ Answered v.reporter.current outcome

theorem Accounted.turn_announced {past} (h : Accounted i met v past)
    (hturn : Turn executor i context action v events v') :
    ∀ event ∈ stream (past ++ events), ∀ state, event.kind = .stateChanged state →
      state.isTerminal = true → v'.reporter.current = state := by
  intro event hevent state hkind hterm
  rw [stream, filterMap_append] at hevent
  have hcreated : v.phase = .created → v.reporter.current.isTerminal = false := by
    intro hphase
    have hacct := h.accounts
    rw [Accounts, hphase] at hacct
    exact hacct.1
  rcases hturn.announces hcreated with ⟨hsame, hquiet⟩ | ⟨hactive, hnew⟩
  · rcases mem_append.mp hevent with hold | hadded
    · rw [hsame]
      exact h.announced event hold state hkind hterm
    · have hnone := hquiet event hadded
      rw [hkind] at hnone
      cases hnone
  · rcases mem_append.mp hevent with hold | hadded
    · -- a reporter that announced an end announces nothing any more
      rw [h.announced event hold state hkind hterm, hterm] at hactive
      cases hactive
    · exact (TaskLifecycleEventKind.stateChanged.inj (hkind.symm.trans (hnew event hadded))).symm

/-- An execution ends without announcing anything. -/
theorem Turn.current_of_done (h : Turn executor i context action v events v')
    (hphase : v'.phase = .done) : v'.reporter.current = v.reporter.current := by
  cases h with
  | finish | dropUnpolled => rfl
  | report => exact (LifecycleState.report_silent ..).1
  | heartbeat => exact (LifecycleState.heartbeat_silent ..).1
  | advance _ hadm =>
    obtain rfl : _ = Phase.done := hphase
    cases hadm
  | _ => cases hphase

theorem Accounted.turn_finished {past : List (Event E)} (h : Accounted i met v past)
    (hturn : Turn executor i context action v events v') (outcome : Option (ExecutionResult E))
    (hfin : .finished i outcome ∈ past ++ events) :
    v'.phase = .done ∧ Answered v'.reporter.current outcome := by
  rcases mem_append.mp hfin with hold | hnew
  · obtain ⟨hdone, hansw⟩ := h.finished outcome hold
    have hdone' := (hturn.of_done hdone).1
    exact ⟨hdone', by rwa [hturn.current_of_done hdone']⟩
  · obtain ⟨hdone, hleaving | ⟨rfl, -⟩⟩ := hturn.finished_inv hnew
    · have hexit := h.accounts
      rw [Accounts, hleaving] at hexit
      exact ⟨hdone, by rw [hturn.current_of_done hdone]; exact (Exit.nil_inv hexit).2⟩
    · exact ⟨hdone, answered_of_other rfl⟩

theorem Accounts.cancel (h : Accounts met v) (reason : TaskCancellationReason) :
    Accounts met { v with token := (v.token.cancel reason).1 } := by
  obtain ⟨phase, reporter, token⟩ := v
  cases phase with
  | leaving => exact Exit.cancel h reason
  | done => exact Settled.cancel h reason
  | cleaning _ stop =>
    obtain ⟨hactive, hmet, htoken⟩ := h
    obtain rfl : token = some stop.reason := htoken
    exact ⟨hactive, hmet, rfl⟩
  | _ => exact h

theorem follows_accounted (executor : Executor E) (i : ℕ) :
    Follows executor i Contradicted (Accounted i) where
  created := fun _ => ⟨⟨rfl, id⟩, fun _ h => absurd h not_mem_nil,
    fun _ h => absurd h not_mem_nil⟩
  turn := fun _ _ _ hturn h =>
    ⟨hturn.accounts h.accounts, h.turn_announced hturn, h.turn_finished hturn⟩
  cancel := fun reason h => ⟨h.accounts.cancel reason, h.announced, h.finished⟩

end accounts

/-- Whatever an execution has announced, it has settled with its token. -/
theorem Accounts.settled {met : Prop} {v : View E} (h : Accounts met v) :
    Settled met v.token v.reporter.current := by
  obtain ⟨phase, reporter, token⟩ := v
  cases phase with
  | leaving =>
    have hexit : Exit met token reporter.current _ _ := h
    cases hexit with
    | withdraw hactive | announce hactive | conclude hactive | unwind hactive =>
      exact settled_of_active hactive
    | release hsettled => exact hsettled
  | done => exact h
  | deciding =>
    refine settled_of_other ?_
    rw [show reporter.current = .failed from h.1]
    rfl
  | _ => exact settled_of_active h.1

/-- A terminal event announces a terminal state. -/
theorem TaskLifecycleEvent.exists_state {event : TaskLifecycleEvent} (h : event.isTerminal = true) :
    ∃ state, event.kind = .stateChanged state ∧ state.isTerminal = true := by
  unfold TaskLifecycleEvent.isTerminal at h
  cases hkind : event.kind <;> rw [hkind] at h
  case stateChanged state => exact ⟨state, rfl, h⟩
  all_goals cases h

/-- Whenever a task was announced as cancelled, its token holds the announced reason,
exactly if the execution did not cancel a token that held another one. A cancellation that
is returned is also the one that was announced. -/
theorem cancellation_reason_iff {executor : Executor E} {actions : List (Action E)}
    {s : State E} {history : List (Event E)} {i : ℕ} {execution : Execution E}
    (hrun : (machine executor).run executor.init actions = some (s, history))
    (hexecution : s.executions[i]? = some execution) :
    (∀ event ∈ lifecycleOf i history, ∀ reason, event.kind = .stateChanged (.cancelled reason) →
      (s.tokens execution.context.cancellation = some reason ↔
        ¬ PolledIn executor actions i Contradicted)) ∧
    (∀ reason, .finished i (some (.error (.cancelled reason))) ∈ history →
      (∀ event ∈ lifecycleOf i history, event.isTerminal = true →
        event.kind = .stateChanged (.cancelled reason)) ∧
      ((lifecycleOf i history).length < 2 ^ 64 - 1 →
        ∃ event ∈ lifecycleOf i history, event.isTerminal = true)) := by
  have haccounted := (follows_accounted executor i).run hrun hexecution
  refine ⟨fun event hevent reason hkind => ?_, fun reason hfinished => ⟨fun event hevent h => ?_,
    fun hcount => ?_⟩⟩
  · have hcurrent := haccounted.announced event hevent _ hkind rfl
    have hsettled := haccounted.accounts.settled
    obtain ⟨first, htoken, hfirst⟩ := hsettled reason hcurrent
    have htoken : s.tokens execution.context.cancellation = some first := htoken
    rw [htoken, Option.some_inj]
    exact hfirst
  · obtain ⟨state, hkind, hterminal⟩ := event.exists_state h
    have hcurrent := haccounted.announced event hevent state hkind hterminal
    have hanswered := (haccounted.finished _ ((mem_eventsOf rfl).mpr hfinished)).2 reason rfl
    rw [hkind, ← hcurrent, hanswered]
  · have hanswered := (haccounted.finished _ ((mem_eventsOf rfl).mpr hfinished)).2 reason rfl
    have hjournal := (recorded_of_run hrun hexecution hcount).journal
    obtain ⟨before, last, hstream, hlast, -⟩ := hjournal.terminal (by rw [hanswered]; rfl)
    exact ⟨last, by simp [lifecycleOf, hstream], hlast⟩

/-- A task whose handler is cancelled, and cancelled again before it gave up. -/
def Sample.interrupted : List (Action Unit) :=
  [.execute context] ++ polls 0 12 ++ [.cancel 0 .requested, .cancel 0 .timeout] ++ polls 0 2 ++
    [.poll 0 { grace := true }] ++ polls 0 6

theorem cancellation_reason_iff_interrupted :
    let history := (Sample.after Sample.interrupted).2
    .finished 0 (some (.error (.cancelled .requested))) ∈ history ∧
      (Sample.after Sample.interrupted).1.tokens 0 = some .requested ∧
      ¬ PolledIn Sample.executor Sample.interrupted 0 Contradicted := by
  intro history
  have hrun : (machine Sample.executor).run Sample.executor.init Sample.interrupted =
      some (Sample.after Sample.interrupted) := Machine.run_eq_after rfl
  obtain ⟨execution, hexecution, htoken⟩ : ∃ execution,
      (Sample.after Sample.interrupted).1.executions[0]? = some execution ∧
        (Sample.after Sample.interrupted).1.tokens execution.context.cancellation =
          some .requested := ⟨_, rfl, rfl⟩
  obtain ⟨event, hevent, hkind⟩ : ∃ event ∈ lifecycleOf 0 history,
      event.kind = .stateChanged (.cancelled .requested) :=
    ⟨_, List.mem_of_getElem? (i := 2) rfl, rfl⟩
  have hiff := (cancellation_reason_iff hrun hexecution).1 event hevent .requested hkind
  exact ⟨List.mem_of_getElem? (i := 6) rfl, rfl, hiff.mp htoken⟩

/-- A task that is cancelled before it is executed, and turned away by a worker that shuts
down. -/
def Sample.cancelledTwice : List (Action Unit) :=
  [.cancel 0 .requested, .requestShutdown 0, .execute context] ++ polls 0 5

/-- The event names the shutdown, the token the request. -/
theorem event_contradicts_token :
    (Sample.after Sample.cancelledTwice).1.tokens 0 = some .requested ∧
      ∃ event ∈ lifecycleOf 0 (Sample.after Sample.cancelledTwice).2,
        event.isTerminal = true ∧ event.kind = .stateChanged (.cancelled .runtimeShutdown) :=
  ⟨rfl, _, List.mem_of_getElem? (i := 1) rfl, rfl, rfl⟩

end PlenoraRuntime.Worker
