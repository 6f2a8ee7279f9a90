import PlenoraRuntime.Capabilities.Hosted
import PlenoraRuntime.Capabilities.Retries

/-!
# Handler errors and the retry policy

When nobody but the dispatcher cancels the token of a task, the error a dispatch returns
reaches the retry policy, with one exception: a dispatch whose deadline passes after the
adapter was invoked cancels the token itself, and the execution reports the cancellation
in place of the error.

* **Safety.** `Hosting` ties the place of an undisturbed execution to the token its dispatch
  has left, and every step of the worker and of the dispatcher keeps it (`sound_of_run`).
* **Progress.** An execution whose dispatch has returned ends when it is polled often enough
  (`exists_polls`).
-/

namespace PlenoraRuntime.Capabilities

open Messaging Worker Transition List Option

namespace Hosted

/-! ## Runs in which only the dispatcher touches the token -/

/-- Nobody but the dispatcher can have cancelled the token of execution `i`, the
execution's timeout did not elapse and it was not dropped. -/
structure Undisturbed (i : ℕ) (s : State) (actions : List Action) : Prop where
  sole : ∀ execution j other, s.worker.executions[i]? = some execution →
    s.worker.executions[j]? = some other →
    other.context.cancellation = execution.context.cancellation → j = i
  uncancelled : ∀ execution reason, s.worker.executions[i]? = some execution →
    .worker (.cancel execution.context.cancellation reason) ∉ actions
  patient : ∀ input, .worker (.poll i input) ∈ actions → input.deadline = false
  kept : .worker (.drop i) ∉ actions

/-- What is known of execution `i`, whose dispatch has left `token`. -/
structure Hosting (host : Host) (i : ℕ) (s : State)
    (execution : Execution CapabilityDispatchError) (history : List Event) (token : TokenState) :
    Prop where
  place : Place host.executor execution.context.task.attempt (s.dispatches i).answer token
    (s.worker.view execution)
  finished : ∀ outcome result, .worker (.finished i outcome) ∈ history →
    (s.dispatches i).answer = some result →
    outcome = some (verdict host.executor execution.context.task.attempt token result)
  done : execution.phase = .done ↔ ∃ outcome, .worker (.finished i outcome) ∈ history

section runs

variable {host : Host} {i j : ℕ} {s s' : State} {actions : List Action} {action : Action}
  {history events : List Event} {execution execution' : Execution CapabilityDispatchError}
  {performed performed' : Worker.Action CapabilityDispatchError} {token : TokenState}

theorem Undisturbed.before (h : Undisturbed i s' (actions ++ [action]))
    (hctxs : ∀ {j : ℕ} {other : Execution CapabilityDispatchError}, s.worker.executions[j]? =
      some other → ∃ other', s'.worker.executions[j]? = some other' ∧
      other'.context = other.context) : Undisturbed i s actions := by
  constructor
  · intro execution j other hexec hother htoken
    obtain ⟨execution', hexec', hctx⟩ := hctxs hexec
    obtain ⟨other', hother', hcontext'⟩ := hctxs hother
    exact h.sole execution' j other' hexec' hother' (by rw [hctx, hcontext', htoken])
  · intro execution reason hexec hcancel
    obtain ⟨execution', hexec', hctx⟩ := hctxs hexec
    exact h.uncancelled execution' reason hexec'
      (mem_append_left _ (hctx ▸ hcancel))
  · intro input hpoll
    exact h.patient input (mem_append_left _ hpoll)
  · exact fun hdrop => h.kept (mem_append_left _ hdrop)

theorem hosted_cancel {k : ℕ} {reason} (h : s.hosted performed = some (.cancel k reason)) :
    performed = .cancel k reason := by
  cases performed <;> simp_all [State.hosted]

theorem hosted_undisturbed (hhosted : s.hosted performed = some performed')
    (hpatient : ∀ input, performed = .poll i input → input.deadline = false)
    (hkept : performed ≠ .drop i) : performed'.Undisturbed i (s.dispatches i).answer := by
  cases performed with
  | poll j input =>
    cases hhosted
    refine ⟨?_, ?_, by simp, by simp⟩
    · intro input' heq
      obtain ⟨rfl, rfl⟩ := Worker.Action.poll.inj heq
      rfl
    · intro input' heq
      obtain ⟨rfl, rfl⟩ := Worker.Action.poll.inj heq
      exact hpatient input rfl
  | panic j =>
    simp only [State.hosted] at hhosted
    split at hhosted
    case isFalse => cases hhosted
    case isTrue hlost =>
      cases hhosted
      refine ⟨by simp, by simp, by simp, ?_⟩
      intro heq
      obtain rfl := Worker.Action.panic.inj heq
      revert hlost
      cases s.dispatches j <;> simp [Dispatch.isLost, Dispatch.answer]
  | _ =>
    cases hhosted
    exact ⟨by simp, by simp, hkept, by simp⟩

theorem step_worker (hstep : step host s (.worker performed) = some (s', events)) :
    ∃ performed' workerEvents, s.hosted performed = some performed' ∧
      Worker.step host.executor s.worker performed' = some (s'.worker, workerEvents) ∧
      s'.dispatches = s.dispatches ∧ events = workerEvents.map .worker := by
  obtain ⟨performed', hhosted, hnext⟩ := bind_eq_some_iff.mp hstep
  obtain ⟨⟨worker, workerEvents⟩, hworker, heq⟩ := map_eq_some_iff.mp hnext
  cases heq
  exact ⟨performed', workerEvents, hhosted, hworker, rfl, rfl⟩

theorem Hosting.frame (h : Hosting host i s execution history token)
    (hdisp : s'.dispatches i = s.dispatches i)
    (hview : s'.worker.view execution = s.worker.view execution)
    (hevents : ∀ event ∈ events, event.execution? ≠ some i) :
    Hosting host i s' execution (history ++ events) token := by
  have hold : ∀ outcome, .worker (.finished i outcome) ∈ history ++ events ↔
      .worker (.finished i outcome) ∈ history :=
    fun _ => mem_append.trans (or_iff_left fun hnew => hevents _ hnew rfl)
  constructor
  · rw [hdisp, hview]
    exact h.place
  · simp only [hold, hdisp]
    exact h.finished
  · simp only [hold]
    exact h.done

/-- A turn of an undisturbed execution keeps what is known of it. -/
theorem Hosting.turn {workerEvents} (h : Hosting host i s execution history token)
    (hdisp : s'.dispatches i = s.dispatches i)
    (hctx : execution'.context = execution.context)
    (hact : performed.Undisturbed i (s.dispatches i).answer)
    (hturn : Turn host.executor i execution.context performed (s.worker.view execution)
      workerEvents (s'.worker.view execution')) :
    Hosting host i s' execution' (history ++ workerEvents.map .worker) token := by
  have hnew : ∀ outcome, .worker (.finished i outcome) ∈ history ++ workerEvents.map .worker ↔
      .worker (.finished i outcome) ∈ history ∨ .finished i outcome ∈ workerEvents := by
    simp
  constructor
  · rw [hctx, hdisp]
    exact hturn.place hact h.place
  · intro outcome result hmem hans
    rw [hdisp] at hans
    rw [hctx]
    rcases (hnew outcome).mp hmem with hold | hlast
    · exact h.finished outcome result hold hans
    · exact hturn.finished_of_place hact h.place hlast hans
  · simp only [hnew]
    constructor
    · intro hphase
      rcases hturn.done_inv hphase with hold | ⟨outcome, hlast⟩
      · obtain ⟨outcome, hmem⟩ := h.done.mp hold
        exact ⟨outcome, .inl hmem⟩
      · exact ⟨outcome, .inr hlast⟩
    · rintro ⟨outcome, hold | hlast⟩
      · exact (hturn.of_done (h.done.mpr ⟨outcome, hold⟩)).1
      · exact (hturn.finished_inv hlast).1

/-- So does a turn of another execution, which cannot have the same token. -/
theorem Hosting.leaves {workerEvents} (h : Hosting host i s execution history token)
    (hundisturbed : Undisturbed i s actions) (hexec : s.worker.executions[i]? = some execution)
    (hdisp : s'.dispatches i = s.dispatches i)
    (huncancelled : ∀ reason, performed ≠ .cancel execution.context.cancellation reason)
    (hleaves : s.worker.Leaves i execution performed s'.worker workerEvents) :
    Hosting host i s' execution (history ++ workerEvents.map .worker) token := by
  refine h.frame hdisp ?_ ?_
  · rcases hleaves.view with hsame | ⟨⟨reason, hcancel⟩ | ⟨j, other, hne, hother, htoken⟩, -⟩
    · exact hsame
    · exact absurd hcancel (huncancelled reason)
    · exact absurd (hundisturbed.sole execution j other hexec hother htoken) hne
  · intro event hevent
    obtain ⟨workerEvent, hmem, rfl⟩ := List.mem_map.mp hevent
    exact hleaves.event_ne workerEvent hmem

theorem Hosting.dispatch {token'} (h : Hosting host i s execution history none)
    (hpolls : pollsHandler execution.phase = true) (hevents : ∀ event, .worker event ∉ events)
    (hworker : token' = none ∧ s'.worker = s.worker ∨ token' = some .timeout ∧
      s'.worker = s.worker.cancelToken execution.context.cancellation .timeout) :
    Hosting host i s' execution (history ++ events) token' := by
  have hpend : execution.phase ≠ .done := by
    intro hphase
    rw [hphase] at hpolls
    cases hpolls
  have hunfin : ∀ outcome, .worker (.finished i outcome) ∉ history ++ events := by
    intro outcome hmem
    rcases mem_append.mp hmem with hold | hnew
    · exact hpend (h.done.mpr ⟨outcome, hold⟩)
    · exact hevents _ hnew
  refine ⟨?_, fun outcome _ hmem => absurd hmem (hunfin outcome),
    fun hphase => absurd hphase hpend, fun ⟨outcome, hmem⟩ => absurd hmem (hunfin outcome)⟩
  have hplace := h.place
  obtain ⟨context, reporter, phase⟩ := execution
  cases phase with
  | handling taskId =>
    have htoken : s.worker.tokens context.cancellation = none := hplace
    rcases hworker with ⟨rfl, hworker⟩ | ⟨rfl, hworker⟩
    · simp [Place, State.view, hworker, htoken]
    · simp [Place, State.view, hworker, htoken, State.cancelToken, TokenState.cancel]
  | cleaning taskId stop =>
    obtain ⟨reason, -, hnone⟩ := hplace
    cases hnone
  | _ => cases hpolls

structure Sound (host : Host) (s : State) (actions : List Action) (history : List Event) :
    Prop where
  /-- A token that no execution has and that nobody cancelled is not cancelled. -/
  fresh : ∀ k, (∀ reason, .worker (.cancel k reason) ∉ actions) →
    (∀ (i : ℕ) execution, s.worker.executions[i]? = some execution →
      execution.context.cancellation ≠ k) →
    s.worker.tokens k = none
  absent : ∀ i : ℕ, s.worker.executions[i]? = none →
    s.dispatches i = .idle ∧ ∀ event ∈ history, event.execution? ≠ some i
  present : ∀ (i : ℕ) execution, s.worker.executions[i]? = some execution →
    ∃ token, Ledger host i execution.context history (s.dispatches i) token ∧
      (Undisturbed i s actions → Hosting host i s execution history token)

theorem Hosting.created {context : WorkerContext} (hdisp : s.dispatches i = .idle)
    (htoken : s.worker.tokens context.cancellation = none)
    (hhist : ∀ event ∈ history, event.execution? ≠ some i) :
    Hosting host i s { context } history none := by
  have hnone : ∀ outcome, .worker (.finished i outcome) ∉ history :=
    fun _ hmem => hhist _ hmem rfl
  refine ⟨?_, fun outcome _ hmem => absurd hmem (hnone outcome), by simp [hnone]⟩
  rw [hdisp]
  exact ⟨htoken, rfl, rfl⟩

theorem Sound.worker (h : Sound host s actions history)
    (hstep : step host s (.worker performed) = some (s', events)) :
    Sound host s' (actions ++ [.worker performed]) (history ++ events) := by
  obtain ⟨performed', workerEvents, hhosted, hworker, hdisp, rfl⟩ := step_worker hstep
  have heff := step_effect hworker
  have habsent : ∀ i : ℕ, s.worker.executions[i]? = none →
      ∀ event ∈ history ++ workerEvents.map Event.worker, event.execution? ≠ some i := by
    intro i hnone event hmem
    rcases mem_append.mp hmem with hold | hnew
    · exact (h.absent i hnone).2 event hold
    · obtain ⟨workerEvent, hworkerEvent, rfl⟩ := List.mem_map.mp hnew
      exact (heff.absent hnone).2.1 workerEvent hworkerEvent
  have hfresh : ∀ k, (∀ reason, .worker (.cancel k reason) ∉ actions ++ [.worker performed]) →
      (∀ (j : ℕ) other, s.worker.executions[j]? = some other → other.context.cancellation ≠ k) →
      s'.worker.tokens k = none := by
    intro k huncancelled hunused
    have hcancel : ∀ reason, performed' ≠ .cancel k reason := by
      rintro reason rfl
      exact huncancelled reason (by simp [hosted_cancel hhosted])
    rw [heff.tokens hcancel hunused]
    exact h.fresh k (fun reason hmem => huncancelled reason (mem_append_left _ hmem)) hunused
  refine ⟨fun k huncancelled hunused => hfresh k huncancelled ?_, fun i hnone => ?_, ?_⟩
  · intro j other hother
    obtain ⟨other', hother', hctx⟩ := heff.exists_context hother
    rw [← hctx]
    exact hunused j other' hother'
  · have hnone₀ : s.worker.executions[i]? = none := by
      rw [eq_none_iff_forall_ne_some]
      intro execution hexec
      obtain ⟨execution', hexec', -⟩ := heff.exists_context hexec
      cases hnone.symm.trans hexec'
    rw [hdisp]
    exact ⟨(h.absent i hnone₀).1, habsent i hnone₀⟩
  intro i execution' hexec'
  cases hexec : s.worker.executions[i]? with
  | none =>
    obtain ⟨context, rfl⟩ := (heff.absent hexec).2.2 execution' hexec'
    have hidle : s'.dispatches i = .idle := by rw [hdisp, (h.absent i hexec).1]
    have hhist := habsent i hexec
    refine ⟨none, hidle ▸ .idle (fun _ hmem => hhist _ hmem rfl)
      (fun _ hmem => hhist _ hmem rfl), fun hundisturbed => .created hidle ?_ hhist⟩
    refine hfresh _ (fun reason => hundisturbed.uncancelled _ reason hexec') ?_
    -- Whoever had the token before would share it now.
    intro j other hother htoken
    obtain ⟨other', hother', hctx⟩ := heff.exists_context hother
    obtain rfl := hundisturbed.sole _ j other' hexec' hother' (by rw [hctx, htoken])
    cases hexec.symm.trans hother
  | some execution =>
    obtain ⟨token, hledger, hhosting⟩ := h.present i execution hexec
    rw [← hdisp] at hledger
    refine ⟨token, ?_⟩
    rcases heff.view hexec with ⟨execution'', hexecution'', hctx, hturn⟩ | hleaves
    · cases hexecution''.symm.trans hexec'
      rw [hctx]
      refine ⟨hledger.append (by simp) (by simp), fun hundisturbed => ?_⟩
      refine (hhosting (hundisturbed.before heff.exists_context)).turn
        (by rw [hdisp]) hctx ?_ hturn
      exact hosted_undisturbed hhosted (fun input heq => hundisturbed.patient input (by simp [heq]))
        (fun heq => hundisturbed.kept (by simp [heq]))
    · cases hleaves.kept.symm.trans hexec'
      refine ⟨hledger.append (by simp) (by simp), fun hundisturbed => ?_⟩
      have hpre := hundisturbed.before heff.exists_context
      refine (hhosting hpre).leaves hpre hexec (by rw [hdisp]) ?_ hleaves
      rintro reason rfl
      exact hundisturbed.uncancelled execution' reason hexec' (by simp [hosted_cancel hhosted])

theorem Sound.dispatch {now : SystemTime} (h : Sound host s actions history)
    (hstep : step host s (.dispatch j now) = some (s', events)) :
    Sound host s' (actions ++ [.dispatch j now]) (history ++ events) := by
  obtain ⟨other, hother, hadv⟩ := bind_eq_some_iff.mp hstep
  obtain ⟨token, hledger, hhosting⟩ := h.present j other hother
  obtain ⟨hpolls, rfl, habout, hquiet, hothers, token', hledger', hworker⟩ :=
    hledger.advance hadv
  -- A dispatch touches the executor only when it cancels its own execution's token.
  have hexecs : s'.worker.executions = s.worker.executions := by
    rcases hworker with ⟨-, hworker⟩ | ⟨-, hworker⟩ <;> rw [hworker]
    rfl
  have htokens : ∀ k, k ≠ other.context.cancellation →
      s'.worker.tokens k = s.worker.tokens k := by
    intro k hk
    rcases hworker with ⟨-, hworker⟩ | ⟨-, hworker⟩ <;> rw [hworker]
    exact Function.update_of_ne hk _ _
  have hne : ∀ i, i ≠ j → ∀ event ∈ events, event.execution? ≠ some i := by
    intro i hi event hmem
    rw [habout event hmem]
    exact fun heq => hi (Option.some.inj heq).symm
  constructor <;> rw [hexecs]
  · intro k huncancelled hunused
    rw [htokens k (hunused j other hother).symm]
    exact h.fresh k (fun reason hmem => huncancelled reason (mem_append_left _ hmem)) hunused
  · intro i hnone
    have hi : i ≠ j := by
      rintro rfl
      cases hother.symm.trans hnone
    rw [hothers i hi]
    obtain ⟨hidle, hhist⟩ := h.absent i hnone
    refine ⟨hidle, fun event hmem => ?_⟩
    rcases mem_append.mp hmem with hold | hnew
    · exact hhist event hold
    · exact hne i hi event hnew
  · intro i execution hexec
    have hpre : Undisturbed i s' (actions ++ [.dispatch j now]) → Undisturbed i s actions :=
      fun hundisturbed => hundisturbed.before fun hsome => ⟨_, hexecs ▸ hsome, rfl⟩
    by_cases hi : i = j
    · subst hi
      cases hother.symm.trans hexec
      exact ⟨token', hledger', fun hundisturbed =>
        (hhosting (hpre hundisturbed)).dispatch hpolls hquiet hworker⟩
    · obtain ⟨token, hledger, hhosting⟩ := h.present i execution hexec
      rw [← hothers i hi] at hledger
      refine ⟨token, hledger.append (fun _ hmem => hne i hi _ hmem rfl)
        (fun _ hmem => hne i hi _ hmem rfl), fun hundisturbed => ?_⟩
      refine (hhosting (hpre hundisturbed)).frame (hothers i hi) ?_ (hne i hi)
      -- An undisturbed execution shares its token with no other.
      have hk : execution.context.cancellation ≠ other.context.cancellation := fun htoken =>
        hi ((hpre hundisturbed).sole execution j other hexec hother htoken.symm).symm
      simp only [State.view, htokens _ hk]

theorem sound_of_run (hrun : (machine host).run (init host) actions = some (s, history)) :
    Sound host s actions history := by
  have hinit : Sound host (init host) [] [] := by
    refine ⟨fun _ _ _ => rfl, fun _ _ => ⟨rfl, by simp⟩, fun i execution hexec => ?_⟩
    simp [init, Executor.init] at hexec
  refine Machine.run_history (I := Sound host) ?_ [] [] hrun hinit
  intro s actions past action s' events h hstep
  cases action with
  | worker performed => exact h.worker hstep
  | dispatch j now => exact h.dispatch hstep

/-! ## Main result -/

/-- An execution whose handler has answered returns the verdict after enough polls. -/
theorem exists_polls {result} (hexec : s.worker.executions[i]? = some execution)
    (hdisp : s.dispatches i = .returning result)
    (hplace : Place host.executor execution.context.task.attempt (some result) token
      (s.worker.view execution)) (hphase : execution.phase ≠ .done) :
    ∃ n s' events, (machine host).run s (List.replicate n (.worker (.poll i {}))) =
        some (s', events) ∧
      .worker (.finished i (some (verdict host.executor execution.context.task.attempt token
        result))) ∈ events := by
  -- Every poll makes the rank smaller.
  induction hrank : execution.phase.rank using Nat.strong_induction_on generalizing s execution with
  | _ rank ih =>
    obtain ⟨worker, workerEvents, execution', hworker, hexec', hctx, hturn⟩ :=
      exists_poll host.executor { handler := some result } hexec hphase
    have hstep : (machine host).step s (.worker (.poll i {})) =
        some ({ s with worker }, workerEvents.map .worker) := by
      simp [machine, step, State.hosted, hdisp, Dispatch.answer, hworker]
    have hact : (Worker.Action.poll i { handler := some result }).Undisturbed i
        (some result) := by
      refine ⟨?_, ?_, by simp, by simp⟩ <;>
      · intro input heq
        obtain ⟨-, rfl⟩ := Worker.Action.poll.inj heq
        rfl
    have hplace' := hturn.place hact hplace
    by_cases hdone : execution'.phase = .done
    · rcases hturn.done_inv hdone with hold | ⟨outcome, hfin⟩
      · exact absurd hold hphase
      · obtain rfl := hturn.finished_of_place hact hplace hfin rfl
        refine ⟨1, { s with worker }, workerEvents.map .worker, ?_,
          List.mem_map_of_mem hfin⟩
        simp [Machine.run, hstep]
    · have hlt : execution'.phase.rank < rank := hrank ▸ hturn.rank_lt rfl rfl hplace
      obtain ⟨n, s'', events, hrest, hfin⟩ := ih _ hlt (s := { s with worker })
        hexec' hdisp (hctx ▸ hplace') hdone rfl
      refine ⟨n + 1, s'', workerEvents.map .worker ++ events, ?_, ?_⟩
      · simp [replicate_succ, Machine.run, hstep, hrest]
      · rw [hctx] at hfin
        exact mem_append_right _ hfin

/-- An error that a dispatch returns reaches the retry policy if and only if the dispatch
is not overdue: the execution returns the error with the policy's decision, after enough
polls. -/
theorem handler_error_decided_iff {now : SystemTime} {error : CapabilityDispatchError}
    (hrun : (machine host).run (init host) actions = some (s, history))
    (hexecution : s.worker.executions[i]? = some execution)
    (hundisturbed : Undisturbed i s actions) (hdispatched : .dispatched i now ∈ history)
    (hreturned : .returned i (.error error) ∈ history) :
    let decided : ExecutionResult CapabilityDispatchError :=
      .error (.handler error (host.executor.retryPolicy execution.context.task.attempt error))
    (∀ outcome, .worker (.finished i outcome) ∈ history →
      (outcome = some decided ↔ ¬ Overdue host.parseFromRfc3339 host.dispatcher now
        execution.context (host.requests i))) ∧
    ∃ n s' events outcome, (machine host).run s (List.replicate n (.worker (.poll i {}))) =
        some (s', events) ∧
      .worker (.finished i outcome) ∈ history ++ events ∧
      (outcome = some decided ↔ ¬ Overdue host.parseFromRfc3339 host.dispatcher now
        execution.context (host.requests i)) := by
  intro decided
  obtain ⟨token, hledger, hhosting⟩ := (sound_of_run hrun).present i execution hexecution
  obtain ⟨hplace, hfinished, hdone⟩ := hhosting hundisturbed
  generalize hdispatch : s.dispatches i = dispatch at hledger hplace hfinished
  cases hledger with
  | idle hnone => exact absurd hdispatched (hnone now)
  | awaiting _ hnone => exact absurd hreturned (hnone _)
  | @returning called result _ honce hresult htoken =>
    obtain rfl := (honce now).mp hdispatched
    obtain rfl := (hresult _).mp hreturned
    -- The token decides: it is cancelled exactly if the deadline has passed.
    have hverdict : some (verdict host.executor execution.context.task.attempt token
        (.error error)) = some decided ↔ ¬ IsOverdue host i execution.context now := by
      rcases htoken with ⟨hoverdue, rfl⟩ | ⟨hintime, rfl⟩
      · simp [verdict, decided, hoverdue]
      · simp [verdict, decided, hintime]
    refine ⟨?_, ?_⟩
    · intro outcome hmem
      rw [hfinished outcome _ hmem rfl]
      exact hverdict
    · by_cases hphase : execution.phase = .done
      · obtain ⟨outcome, hmem⟩ := hdone.mp hphase
        refine ⟨0, s, [], outcome, rfl, by simpa using hmem, ?_⟩
        rw [hfinished outcome _ hmem rfl]
        exact hverdict
      · -- An execution that is not done gets there when it is polled often enough.
        obtain ⟨n, s', events, hpolls, hmem⟩ :=
          exists_polls hexecution hdispatch hplace hphase
        exact ⟨n, s', events, _, hpolls, List.mem_append_right _ hmem, hverdict⟩

end runs

namespace Sample

/-- A deadline one second after the Unix epoch. -/
def deadline : Text := utf8 "1970-01-01T00:00:01Z"

def request : CapabilityRequest :=
  { Capabilities.Sample.request with
    input :=
      { Capabilities.Sample.request.input with
        headers :=
          { entries := [(executionDeadlineMetadataKey, deadline)]
            portable :=
              ⟨List.pairwise_singleton _ _, by decide, by decide, by decide, by decide⟩ } } }

/-- A policy that is told to retry unknown outcomes. -/
def policy : ExponentialBackoff := ⟨{ retryUnknownOutcome := true }, by decide⟩

/-- A dispatcher whose adapter goes as given. -/
def host (invocation : Invocation) : Host where
  executor :=
    { config := {}
      retryPolicy := fun attempt error => policy.decideWithElapsed attempt 0 error.retryClass
      valid := WorkerConfig.validate_default }
  dispatcher :=
    { Capabilities.Sample.dispatcher (.new .retryable .notStarted) with
      registry :=
        { registrations := [(Capabilities.Sample.capability, ⟨fun _ _ => invocation, none⟩)]
          nodup := List.nodup_singleton _ } }
  -- A reader of that one text.
  parseFromRfc3339 := fun text => if text = deadline then some ⟨10 ^ 9, 0⟩ else none
  requests := fun _ => request

/-- The execution calls the dispatcher, which returns, and is then polled `n` times. -/
def actions (n : ℕ) : List Action :=
  [.worker (.execute Capabilities.Sample.context)] ++
    List.replicate 12 (.worker (.poll 0 { granted := true })) ++
    List.replicate 3 (.dispatch 0 0) ++ List.replicate n (.worker (.poll 0 {}))

def after (invocation : Invocation) (n : ℕ) : State × List Event :=
  (machine (host invocation)).after (init (host invocation)) (actions n)

theorem undisturbed {n : ℕ} {s : State} (hlen : s.worker.executions.length = 1) :
    Undisturbed 0 s (actions n) := by
  refine ⟨?_, by simp [actions], ?_, by simp [actions]⟩
  · intro _ j other _ hother _
    have hlt := (List.getElem?_eq_some_iff.mp hother).1
    omega
  · intro input hpoll
    have hcases : input = { granted := true } ∨ input = {} := by
      simp only [actions, mem_append, mem_replicate, Action.worker.injEq,
        Worker.Action.poll.injEq] at hpoll
      tauto
    rcases hcases with rfl | rfl <;> rfl

def isExceeded : Event → Bool
  | .returned 0 (.error (.deadlineExceeded _ _ true)) => true
  | _ => false

variable {event : Event}

theorem exists_of_isExceeded (h : isExceeded event = true) :
    ∃ capability operation,
      event = .returned 0 (.error (.deadlineExceeded capability operation true)) := by
  unfold isExceeded at h
  split at h
  · exact ⟨_, _, rfl⟩
  · cases h

def isTimeout : Event → Bool
  | .worker (.finished 0 (some (.error (.cancelled .timeout)))) => true
  | _ => false

theorem eq_of_isTimeout (h : isTimeout event = true) :
    event = .worker (.finished 0 (some (.error (.cancelled .timeout)))) := by
  unfold isTimeout at h
  split at h
  · rfl
  · cases h

end Sample

/-- The adapter never answers, so the deadline of the request passes and the dispatcher
returns that it was exceeded after the invocation started. The policy would retry that
after 100 ms; the execution ends as cancelled for timeout. -/
theorem overdue_dispatch_is_cancelled :
    let host := Sample.host .stalls
    let last := Sample.after .stalls 8
    (machine host).run (init host) (Sample.actions 8) = some last ∧
      Undisturbed 0 last.1 (Sample.actions 8) ∧
      (∃ capability operation,
        .returned 0 (.error (.deadlineExceeded capability operation true)) ∈ last.2 ∧
        host.executor.retryPolicy 1 (.deadlineExceeded capability operation true) =
          .retryAfter (100 * 10 ^ 6)) ∧
      .worker (.finished 0 (some (.error (.cancelled .timeout)))) ∈ last.2 := by
  have hpolicy : Sample.policy.decideWithElapsed 1 0 .outcomeUnknown =
      .retryAfter (100 * 10 ^ 6) := by decide
  have hsome : ((machine (Sample.host .stalls)).run (init (Sample.host .stalls))
      (Sample.actions 8)).isSome = true := by decide +kernel
  have hlength : (Sample.after .stalls 8).1.worker.executions.length = 1 := by decide +kernel
  have hreturned : (Sample.after .stalls 8).2.any Sample.isExceeded = true := by decide +kernel
  have hfinished : (Sample.after .stalls 8).2.any Sample.isTimeout = true := by decide +kernel
  refine ⟨Machine.run_eq_after hsome, Sample.undisturbed hlength, ?_, ?_⟩
  · obtain ⟨event, hmem, hevent⟩ := List.any_eq_true.mp hreturned
    obtain ⟨capability, operation, rfl⟩ := Sample.exists_of_isExceeded hevent
    exact ⟨capability, operation, hmem, hpolicy⟩
  · obtain ⟨event, hmem, hevent⟩ := List.any_eq_true.mp hfinished
    exact Sample.eq_of_isTimeout hevent ▸ hmem

namespace Sample

def isDispatched : Event → Bool
  | .dispatched 0 _ => true
  | _ => false

def isError : Event → Bool
  | .returned 0 (.error _) => true
  | _ => false

def isFinished : Event → Bool
  | .worker (.finished 0 _) => true
  | _ => false

variable {event : Event}

theorem exists_of_isDispatched (h : isDispatched event = true) :
    ∃ now, event = .dispatched 0 now := by
  unfold isDispatched at h
  split at h
  · exact ⟨_, rfl⟩
  · cases h

theorem exists_of_isError (h : isError event = true) :
    ∃ error, event = .returned 0 (.error error) := by
  unfold isError at h
  split at h
  · exact ⟨_, rfl⟩
  · cases h

theorem exists_of_isFinished (h : isFinished event = true) :
    ∃ outcome, event = .worker (.finished 0 outcome) := by
  unfold isFinished at h
  split at h
  · exact ⟨_, rfl⟩
  · cases h

/-- An adapter that fails before the timer runs out is not overdue. -/
theorem not_overdue {failure} {now : SystemTime} {context} :
    ¬ Overdue (host (.completes (fun _ => false) (.error failure))).parseFromRfc3339
      (host (.completes (fun _ => false) (.error failure))).dispatcher now context request := by
  rintro ⟨registration, value, deadline, hadm, -, -, hlate⟩
  have hreg : some (⟨fun _ _ => .completes (fun _ => false) (.error failure), none⟩ :
      CapabilityRegistration) = some registration := hadm.registered
  cases hreg
  exact hlate rfl

end Sample

/-- An adapter that fails in time: the policy decides on its error. -/
theorem handler_error_decided_iff_in_time :
    let failure := CapabilityFailure.new .retryable .notStarted
    let host := Sample.host (.completes (fun _ => false) (.error failure))
    let last := Sample.after (.completes (fun _ => false) (.error failure)) 9
    ∃ error outcome, .returned 0 (.error error) ∈ last.2 ∧
      .worker (.finished 0 outcome) ∈ last.2 ∧
      outcome = some (.error (.handler error (host.executor.retryPolicy 1 error))) := by
  intro failure host last
  have hsome : ((machine host).run (init host) (Sample.actions 9)).isSome = true := by
    decide +kernel
  have hlength : last.1.worker.executions.length = 1 := by decide +kernel
  have hattempt : last.1.worker.executions.all (·.context.task.attempt = 1) = true := by
    decide +kernel
  have hdispatched : last.2.any Sample.isDispatched = true := by decide +kernel
  have hreturned : last.2.any Sample.isError = true := by decide +kernel
  have hfinished : last.2.any Sample.isFinished = true := by decide +kernel
  have hrun : (machine host).run (init host) (Sample.actions 9) = some last :=
    Machine.run_eq_after hsome
  -- The history is known well enough now, and large.
  clear_value last
  obtain ⟨_, hcalled, hevent⟩ := List.any_eq_true.mp hdispatched
  obtain ⟨now, rfl⟩ := Sample.exists_of_isDispatched hevent
  obtain ⟨_, hfailed, hevent⟩ := List.any_eq_true.mp hreturned
  obtain ⟨error, rfl⟩ := Sample.exists_of_isError hevent
  obtain ⟨_, hended, hevent⟩ := List.any_eq_true.mp hfinished
  obtain ⟨outcome, rfl⟩ := Sample.exists_of_isFinished hevent
  obtain ⟨execution, hexecution⟩ : ∃ execution, last.1.worker.executions[0]? = some execution :=
    ⟨_, List.getElem?_eq_getElem (hlength ▸ Nat.zero_lt_one)⟩
  have hone : execution.context.task.attempt = 1 := by
    simpa using List.all_eq_true.mp hattempt execution (List.mem_of_getElem? hexecution)
  have hdecided := (handler_error_decided_iff hrun hexecution
    (Sample.undisturbed hlength) hcalled hfailed).1 outcome hended
  rw [hone] at hdecided
  exact ⟨error, outcome, hfailed, hended, hdecided.mpr Sample.not_overdue⟩

end Hosted

end PlenoraRuntime.Capabilities
