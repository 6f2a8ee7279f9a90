import PlenoraRuntime.Worker.Moments

/-!
# The reason of a rejection

A rejected execution names the gate's state as the reason. It reads that state again after
the semaphore or `try_start` turned it away, so the gate may have changed in between. The
semaphore is closed only by a drain, which is final. But a gate that was paused can be
resumed before the second read, and an open gate counts as a drain there: exactly then an
execution is rejected for a drain that never began (`Misread`).

`Gated` says what the gate and the history know of each other, and `Gives` what an outcome
says about them.
-/

namespace PlenoraRuntime.Worker

open Messaging Transition List

variable {E : Type*} {executor : Executor E} {i j : ℕ} {s s' : State E} {action : Action E}
  {actions : List (Action E)} {history events : List (Event E)} {execution : Execution E}
  {outcome : Option (ExecutionResult E)} {drain : Drain}

/-- Execution `i` reads the reason for which `try_start` failed from an open gate. -/
def Misread (i : ℕ) (s : State E) (action : Action E) : Prop :=
  action.execution? = some i ∧ action.isPoll = true ∧ s.admission = .accepting ∧
    ∃ execution, s.executions[i]? = some execution ∧ execution.phase = .refused

/-- Execution `i` takes a step to its admission while the gate is paused. -/
def FoundPaused (i : ℕ) (s : State E) (action : Action E) : Prop :=
  action.execution? = some i ∧ s.admission = .paused ∧
    ∃ execution, s.executions[i]? = some execution ∧ execution.phase.admitting = true

/-! ## The gate -/

/-- A drain is known by the gate, by the history and by the semaphore. -/
structure Gated (s : State E) (history : List (Event E)) : Prop where
  draining : s.admission = .draining ↔ .draining ∈ history
  closed : s.permits.closed = true → s.admission = .draining
  closing : ∀ drain ∈ s.drains, drain.phase = .closing → s.admission = .draining

theorem SameGate.gated (h : SameGate s s') (hgated : Gated s history)
    (hevents : .draining ∉ events) : Gated s' (history ++ events) where
  draining := by
    rw [h.admission, hgated.draining, mem_append]
    exact (or_iff_left hevents).symm
  closed := by
    rw [h.admission, h.closed]
    exact hgated.closed
  closing := by
    rw [h.admission, h.drains]
    exact hgated.closing

theorem Gated.setDrain (h : Gated s history) (hphase : drain.phase ≠ .closing)
    (hevents : .draining ∉ events) : Gated (s.setDrain j drain) (history ++ events) where
  draining := by
    rw [mem_append]
    exact h.draining.trans (or_iff_left hevents).symm
  closed := h.closed
  closing := by
    intro other hother hclosing
    rcases mem_or_eq_of_mem_set hother with hmem | rfl
    · exact h.closing other hmem hclosing
    · exact absurd hclosing hphase

theorem Gated.drainBegun (h : Gated s history) (drain : Drain) (changed : Bool) :
    Gated (s.drainBegun j drain changed).1 (history ++ (s.drainBegun j drain changed).2) := by
  unfold State.drainBegun
  split <;> exact h.setDrain nofun (by simp)

theorem Gated.pollDrain (h : Gated s history) {elapsed : Bool} (hdrain : s.drains[j]? = some drain)
    (hpoll : s.pollDrain j drain elapsed = some (s', events)) : Gated s' (history ++ events) := by
  unfold State.pollDrain State.drained at hpoll
  cases hphase : drain.phase <;> rw [hphase] at hpoll <;> dsimp only at hpoll
  case starting =>
    split at hpoll <;> obtain ⟨rfl, rfl⟩ := Prod.mk.inj (Option.some.inj hpoll)
    case isTrue => exact h.drainBegun drain false
    case isFalse =>
      exact ⟨by simp [State.setDrain], fun _ => rfl, fun _ _ _ => rfl⟩
  case closing =>
    obtain ⟨rfl, rfl⟩ := Prod.mk.inj (Option.some.inj hpoll)
    have hdraining := h.closing drain (mem_of_getElem? hdrain) hphase
    have hclosed : Gated { s with permits := { s.permits with closed := true } } history :=
      ⟨h.draining, fun _ => hdraining, h.closing⟩
    exact hclosed.drainBegun drain true
  case done => cases hpoll
  case listening =>
    cases hpoll
    exact h.setDrain nofun (by simp)
  case waiting =>
    split at hpoll
    · cases hpoll
      exact h.setDrain nofun (by simp)
    · split at hpoll <;> cases hpoll
      · exact h.setDrain nofun (by simp)
      · rwa [append_nil]
  all_goals
    split at hpoll <;> cases hpoll <;>
      exact h.setDrain nofun (by simp)

/-- Opening and closing the gate for a while leaves the drain alone. -/
theorem Gated.toggle (h : Gated s history) {admission} (hpre : s.admission ≠ .draining)
    (hafter : admission ≠ .draining) (hevents : .draining ∉ events) :
    Gated { s with admission } (history ++ events) where
  draining := by
    have hnever := mt h.draining.mpr hpre
    simp [hafter, hnever, hevents]
  closed := fun hclosed => absurd (h.closed hclosed) hpre
  closing := fun drain hdrain hclosing => absurd (h.closing drain hdrain hclosing) hpre

theorem Gated.quiet (h : Gated s history) (hevents : .draining ∉ events) :
    Gated s (history ++ events) :=
  SameGate.gated ⟨rfl, rfl, rfl⟩ h hevents

theorem Gated.step (h : Gated s history) (hstep : step executor s action = some (s', events)) :
    Gated s' (history ++ events) := by
  cases action with
  | poll | drop | panic | report | heartbeat =>
    -- An execution's own step tells nothing about the gate.
    obtain ⟨other, -, ⟨_, -, -, -, hturn⟩, hsame⟩ := step_turns hstep rfl
    exact hsame.gated h fun hmem => by cases hturn.event_execution? _ hmem
  | pauseAdmission | resumeAdmission =>
    simp only [Worker.step, State.pauseAdmission, State.resumeAdmission] at hstep
    split at hstep <;> obtain ⟨rfl, rfl⟩ := Prod.mk.inj (Option.some.inj hstep)
    case isTrue hturned => exact h.toggle (by simp [hturned]) (by simp) (by simp)
    case isFalse => exact h.quiet (by simp)
  | pollDrain j elapsed =>
    obtain ⟨drain, hdrain, hpoll⟩ := Option.bind_eq_some_iff.mp hstep
    exact h.pollDrain hdrain hpoll
  | dropDrain j =>
    obtain ⟨drain, -, hdrop⟩ := Option.bind_eq_some_iff.mp hstep
    unfold State.dropDrain at hdrop
    split at hdrop <;> cases hdrop
    exact h.setDrain (by simp) (by simp)
  | beginDrain | drain =>
    cases hstep
    rw [append_nil]
    refine ⟨h.draining, h.closed, fun drain hdrain hclosing => ?_⟩
    rcases mem_append.mp hdrain with hmem | hnew
    · exact h.closing drain hmem hclosing
    · rw [mem_singleton.mp hnew] at hclosing
      cases hclosing
  | execute | cancel | requestShutdown =>
    cases hstep
    rw [append_nil]
    exact ⟨h.draining, h.closed, h.closing⟩

/-! ## What a rejection says -/

/-- A rejection for a drain comes after one, or from a misread gate; a rejection for a pause
found the gate paused. -/
structure Gives (drained misread paused : Prop) (outcome : Option (ExecutionResult E)) :
    Prop where
  draining : outcome = some (.error (.admission .draining)) → drained ∨ misread
  paused : outcome = some (.error (.admission .paused)) → paused

/-- What is known of an execution that was turned away. -/
def Phase.Knows (drained misread paused : Prop) : Phase E → Prop
  | .closed => drained
  | .leaving _ outcome => Gives drained misread paused outcome
  | _ => True

section knowledge

variable {drained misread paused drained' misread' paused' : Prop} {phase : Phase E}
  {context : WorkerContext} {v v' : View E}

theorem Gives.mono (h : Gives drained misread paused outcome) (hdrain : drained → drained')
    (hmisread : misread → misread') (hpaused : paused → paused') :
    Gives drained' misread' paused' outcome :=
  ⟨fun hout => (h.draining hout).imp hdrain hmisread,
    fun hout => hpaused (h.paused hout)⟩

theorem Phase.Knows.mono (h : phase.Knows drained misread paused) (hdrain : drained → drained')
    (hmisread : misread → misread') (hpaused : paused → paused') :
    phase.Knows drained' misread' paused' := by
  cases phase with
  | closed => exact hdrain h
  | leaving => exact Gives.mono h hdrain hmisread hpaused
  | _ => trivial

/-- Once an execution was admitted or turned away, nothing more is learned. -/
theorem Turn.knows (hturn : Turn executor i context action v events v')
    (hadm : v.phase.admitting = true → action.isPoll = false)
    (h : v.phase.Knows drained misread paused) : v'.phase.Knows drained misread paused := by
  cases hturn with
  | advance hphase | reject hphase | forestall hphase => cases hadm hphase
  | report | heartbeat | cancel | transition | release | guard | abandon => exact h
  | overrule | succeed | decide | unwind | policyPanic => exact ⟨nofun, nofun⟩
  | @cleaned _ _ stop =>
    cases stop with
    | cancelled => exact ⟨nofun, nofun⟩
    | deadline =>
      unfold Stop.ending
      dsimp only
      split <;> exact ⟨nofun, nofun⟩
  | _ => trivial

end knowledge

theorem State.rejectionReason_eq_paused : s.rejectionReason = .paused ↔ s.admission = .paused := by
  unfold State.rejectionReason
  split <;> simp [*]

theorem State.rejectionReason_eq_draining :
    s.rejectionReason = .draining ↔ s.admission = .accepting ∨ s.admission = .draining := by
  unfold State.rejectionReason
  split <;> simp [*]

section gives

variable {drained misread paused : Prop}

theorem gives_of_reason {reason} (hdrain : reason = .draining → drained ∨ misread)
    (hpaused : reason = .paused → paused) :
    Gives (E := E) drained misread paused (some (.error (.admission reason))) := by
  have hinj : ∀ {other}, (some (.error (.admission reason)) : Option (ExecutionResult E)) =
      some (.error (.admission other)) → reason = other :=
    fun h => WorkerExecutionError.admission.inj (Except.error.inj (Option.some.inj h))
  exact ⟨fun hout => hdrain (hinj hout), fun hout => hpaused (hinj hout)⟩

end gives

/-- On its way to the handler an execution is turned away for what it finds at the gate. -/
theorem State.poll_knows {input next} {misread paused : Prop}
    (hpoll : s.poll i execution executor input = some next)
    (hadm : execution.phase.admitting = true) (hgated : Gated s history)
    (h : execution.phase.Knows (.draining ∈ history) misread paused) :
    ∃ phase : Phase E, next.1.executions = s.executions.set i { execution with phase } ∧
      phase.Knows (.draining ∈ history)
        (misread ∨ s.admission = .accepting ∧ execution.phase = .refused)
        (paused ∨ s.admission = .paused) := by
  obtain ⟨context, reporter, phase⟩ := execution
  cases phase <;> simp only [State.poll] at hpoll
  case checking | waiting | acquired =>
    cases hpoll
    unfold checkShutdown
    split
    · exact ⟨_, rfl, gives_of_reason (by simp) (by simp)⟩
    · exact ⟨_, rfl, trivial⟩
  case polling | confirming =>
    cases hpoll
    unfold checkCancellation
    split
    · exact ⟨_, rfl, by simp, by simp⟩
    · exact ⟨_, rfl, trivial⟩
  case gating =>
    split at hpoll <;> cases hpoll
    case h_1 => exact ⟨_, rfl, trivial⟩
    case h_2 hpaused => exact ⟨_, rfl, gives_of_reason (by simp) fun _ => .inr hpaused⟩
    case h_3 hdrain =>
      exact ⟨_, rfl, gives_of_reason (fun _ => .inl (hgated.draining.mp hdrain)) (by simp)⟩
  case acquiring =>
    split at hpoll
    case isTrue hclosed =>
      cases hpoll
      exact ⟨_, rfl, hgated.draining.mp (hgated.closed hclosed)⟩
    case isFalse =>
      split at hpoll <;> cases hpoll <;> exact ⟨_, rfl, trivial⟩
  case closed =>
    cases hpoll
    exact ⟨_, rfl, gives_of_reason (fun _ => .inl h) fun hreason =>
      .inr (State.rejectionReason_eq_paused.mp hreason)⟩
  case refused =>
    cases hpoll
    refine ⟨_, rfl, gives_of_reason (fun hreason => ?_) fun hreason =>
      .inr (State.rejectionReason_eq_paused.mp hreason)⟩
    -- the second read of the gate, which may have been resumed since the first
    rcases State.rejectionReason_eq_draining.mp hreason with hopen | hdrain
    · exact .inr (.inr ⟨hopen, rfl⟩)
    · exact .inl (hgated.draining.mp hdrain)
  case starting =>
    split at hpoll <;> cases hpoll <;> exact ⟨_, rfl, trivial⟩
  case registering =>
    split at hpoll <;> cases hpoll
    · exact ⟨_, rfl, trivial⟩
    · exact ⟨_, rfl, gives_of_reason (by simp) (by simp)⟩
  all_goals cases hadm

/-! ## Runs -/

/-- What is known of execution `i` in a state of the executor. -/
structure Reasoned (executor : Executor E) (i : ℕ) (s : State E) (actions : List (Action E))
    (history : List (Event E)) : Prop where
  gated : Gated s history
  phase : ∀ execution, s.executions[i]? = some execution → execution.phase.Knows
    (.draining ∈ history) ((machine executor).Takes executor.init actions (Misread i))
    ((machine executor).Takes executor.init actions (FoundPaused i))
  finished : ∀ before outcome after, history = before ++ .finished i outcome :: after → Gives
    (.draining ∈ before) ((machine executor).Takes executor.init actions (Misread i))
    ((machine executor).Takes executor.init actions (FoundPaused i)) outcome

theorem Reasoned.step_phase
    (hrun : (machine executor).run executor.init actions = some (s, history))
    (h : Reasoned executor i s actions history)
    (hstep : (machine executor).step s action = some (s', events)) {execution'}
    (hexec' : s'.executions[i]? = some execution') :
    execution'.phase.Knows (.draining ∈ history)
      ((machine executor).Takes executor.init (actions ++ [action]) (Misread i))
      ((machine executor).Takes executor.init (actions ++ [action]) (FoundPaused i)) := by
  have heff := step_effect hstep
  rw [propext (Machine.takes_concat hrun), propext (Machine.takes_concat hrun)]
  cases hexec : s.executions[i]? with
  | none =>
    obtain ⟨context, rfl⟩ := (heff.absent hexec).2.2 execution' hexec'
    trivial
  | some execution =>
    have hknows := h.phase execution hexec
    rcases heff.view hexec with ⟨other, hother, -, hturn⟩ | hleaves
    · cases hother.symm.trans hexec'
      -- Only a poll on the way to admission learns something of the gate.
      by_cases hpolled : execution.phase.admitting = true ∧ action.isPoll = true
      · obtain ⟨hadmitting, hpoll⟩ := hpolled
        have hact := hturn.action_execution?
        obtain ⟨input, rfl⟩ := Action.eq_poll hact hpoll
        obtain ⟨phase, hset, hafter⟩ :=
          State.poll_knows (poll_of_step hexec hstep) hadmitting h.gated hknows
        have hlt : i < s.executions.length := (List.getElem?_eq_some_iff.mp hexec).1
        rw [hset, getElem?_set_self hlt] at hexec'
        cases hexec'
        refine hafter.mono id (Or.imp_right ?_) (Or.imp_right ?_)
        · rintro ⟨hopen, hrefused⟩
          exact ⟨hact, hpoll, hopen, execution, hexec, hrefused⟩
        · exact fun hpaused => ⟨hact, hpaused, execution, hexec, hadmitting⟩
      · have hadm : execution.phase.admitting = true → action.isPoll = false :=
          fun hadmitting => Bool.eq_false_of_not_eq_true fun hpoll =>
            hpolled ⟨hadmitting, hpoll⟩
        exact (hturn.knows hadm hknows).mono id .inl .inl
    · cases hleaves.kept.symm.trans hexec'
      exact hknows.mono id .inl .inl

/-- An execution that returns does so with what it knows. -/
theorem Reasoned.returns (h : Reasoned executor i s actions history)
    (hstep : (machine executor).step s action = some (s', events))
    (hmem : .finished i outcome ∈ events) :
    Gives (.draining ∈ history) ((machine executor).Takes executor.init actions (Misread i))
      ((machine executor).Takes executor.init actions (FoundPaused i)) outcome := by
  have heff := step_effect hstep
  cases hexec : s.executions[i]? with
  | none => exact absurd rfl ((heff.absent hexec).2.1 _ hmem)
  | some execution =>
    rcases heff.view hexec with ⟨other, hother, -, hturn⟩ | hleaves
    · rcases (hturn.finished_inv hmem).2 with hleaving | ⟨rfl, -⟩
      · have hknows := h.phase execution hexec
        rw [show execution.phase = .leaving [] outcome from hleaving] at hknows
        exact hknows
      · exact ⟨nofun, nofun⟩
    · exact absurd rfl (hleaves.event_ne _ hmem)

theorem Reasoned.step (hrun : (machine executor).run executor.init actions = some (s, history))
    (h : Reasoned executor i s actions history)
    (hstep : (machine executor).step s action = some (s', events)) :
    Reasoned executor i s' (actions ++ [action]) (history ++ events) := by
  have htakes : ∀ {P}, (machine executor).Takes executor.init actions P →
      (machine executor).Takes executor.init (actions ++ [action]) P :=
    fun htakes => (Machine.takes_concat hrun).mpr (.inl htakes)
  refine ⟨h.gated.step hstep, fun execution' hexec' => ?_, ?_⟩
  · exact (h.step_phase hrun hstep hexec').mono (mem_append_left _) id id
  intro before outcome after hhist
  rcases append_eq_append_iff.mp hhist with
    ⟨earlier, rfl, hevents⟩ | ⟨later, hpre, hrest⟩
  · have hmem : .finished i outcome ∈ events := by simp [hevents]
    exact (h.returns hstep hmem).mono (mem_append_left _) htakes htakes
  · cases later with
    | nil =>
      rw [append_nil] at hpre
      subst hpre
      have hmem : .finished i outcome ∈ events := by
        rw [nil_append] at hrest
        exact hrest ▸ mem_cons_self
      exact (h.returns hstep hmem).mono id htakes htakes
    | cons event later =>
      obtain ⟨rfl, -⟩ := List.cons.inj hrest
      exact (h.finished before outcome later hpre).mono id htakes htakes

/-- Rejections state the true reason as long as no execution misreads the gate: whoever
returns that the worker drains does so after a drain began, and whoever returns that
admission was paused found it paused. The next poll of an execution that `try_start` refused
makes it return with a reason, which is true exactly if the gate is not open again. -/
theorem rejection_reason_iff {executor : Executor E} {actions : List (Action E)} {s : State E}
    {history : List (Event E)}
    (hrun : (machine executor).run executor.init actions = some (s, history)) (i : ℕ) :
    (¬ (machine executor).Takes executor.init actions (Misread i) →
      ∀ before after,
        history = before ++ .finished i (some (.error (.admission .draining))) :: after →
          .draining ∈ before) ∧
    (.finished i (some (.error (.admission .paused))) ∈ history →
      (machine executor).Takes executor.init actions (FoundPaused i)) ∧
    (∀ execution input, s.executions[i]? = some execution → execution.phase = .refused →
      ∃ s' ops reason, (machine executor).step s (.poll i input) = some (s', []) ∧
        s'.executions[i]? = some
          { execution with phase := .leaving ops (some (.error (.admission reason))) } ∧
        ((reason = .draining → .draining ∈ history) ↔ s.admission ≠ .accepting)) := by
  have hinit : Reasoned executor i executor.init [] [] := by
    refine ⟨⟨iff_of_false nofun List.not_mem_nil, nofun, nofun⟩, fun execution hexecution => ?_,
      fun before outcome after hhistory => ?_⟩
    · simp [Executor.init] at hexecution
    · simp at hhistory
  have hreasoned := Machine.run_reached (I := Reasoned executor i)
    (fun hrun h hstep => h.step hrun hstep) hrun hinit
  refine ⟨fun hnever before after hhistory => ?_, fun hfinished => ?_,
    fun execution input hexecution hphase => ?_⟩
  · exact ((hreasoned.finished before _ after hhistory).draining rfl).resolve_right hnever
  · obtain ⟨before, after, hhistory⟩ := List.append_of_mem hfinished
    exact (hreasoned.finished before _ after hhistory).paused rfl
  · have hlt : i < s.executions.length := (List.getElem?_eq_some_iff.mp hexecution).1
    refine ⟨s.reject i execution s.rejectionReason, _, s.rejectionReason,
      by simp [machine, step, hexecution, State.poll, hphase], List.getElem?_set_self hlt, ?_⟩
    -- The reason is read from the gate, which knows whether a drain began.
    rw [State.rejectionReason_eq_draining, ← hreasoned.gated.draining]
    constructor
    · intro htrue hopen
      rw [htrue (.inl hopen)] at hopen
      cases hopen
    · exact fun hclosed hreason => hreason.resolve_left hclosed

/-- An execution that holds a permit when the gate is paused. -/
def Sample.pausedLate : List (Action Unit) :=
  [.execute context] ++ polls 0 8 ++ [.pauseAdmission] ++ polls 0 6

theorem rejection_reason_iff_pausedLate :
    .finished 0 (some (.error (.admission .paused))) ∈ (Sample.after Sample.pausedLate).2 ∧
      (machine Sample.executor).Takes Sample.executor.init Sample.pausedLate (FoundPaused 0) := by
  have hrun : (machine Sample.executor).run Sample.executor.init Sample.pausedLate =
      some (Sample.after Sample.pausedLate) := Machine.run_eq_after rfl
  have hfinished : .finished 0 (some (.error (.admission .paused))) ∈
      (Sample.after Sample.pausedLate).2 := List.mem_of_getElem? (i := 3) rfl
  exact ⟨hfinished, (rejection_reason_iff hrun 0).2.1 hfinished⟩

/-- The gate is resumed after it refused the execution. -/
def Sample.resumed : List (Action Unit) :=
  [.execute context] ++ polls 0 8 ++ [.pauseAdmission] ++ polls 0 1 ++ [.resumeAdmission] ++
    polls 0 5

def Event.isDraining : Event E → Bool
  | .draining => true
  | _ => false

/-- It is rejected for a drain that never began. -/
theorem draining_without_drain :
    let history := (Sample.after Sample.resumed).2
    .finished 0 (some (.error (.admission .draining))) ∈ history ∧ .draining ∉ history := by
  intro history
  refine ⟨List.mem_of_getElem? (i := 4) rfl, fun hdraining => ?_⟩
  have hany : history.any Event.isDraining = true := List.any_eq_true.mpr ⟨_, hdraining, rfl⟩
  exact absurd hany (Bool.false_ne_true : ¬ history.any Event.isDraining = true)

end PlenoraRuntime.Worker
