import PlenoraRuntime.Subprocess.Supervisor

/-!
# What an answer leads to

`Supervises` lists what an answer about a child that is owned can do: supervision goes on or
begins to terminate the child, the child is found to have exited, a signal is looked up, sent
or delivered, the last resort is taken, or the termination fails. `Effect` adds the answers
before there is a child and the end of the invocation.

`effect_of_step` is the only proof that looks into the program. What holds along an
invocation is shown for effects.
-/

namespace PlenoraRuntime.Subprocess

open Transition

/-! ## Places -/

/-- There is no child yet, and there may never be one. -/
def Stage.isEarly : Stage → Bool
  | .queued | .spawning => true
  | _ => false

/-- The child is there and was not reaped. -/
def Stage.isOwned : Stage → Bool
  | .watching | .sampling | .resolvingSample | .probing _ | .signalling .. | .waitingGracefully _
  | .reprobing _ | .killing _ | .resolvingKill _ | .waitingHard _ => true
  | .queued | .spawning | .draining _ | .returned _ | .dropped => false

/-- The child exists, and the guard with it. -/
def Stage.isGuarded : Stage → Bool
  | .draining _ => true
  | stage => stage.isOwned

/-- A signal will be sent from here without another look at the pin. -/
def Stage.needsPin : Stage → Bool
  | .signalling _ _ .lookingUpChild | .signalling _ _ (.lookingUpSupervisor _) | .killing _ => true
  | _ => false

/-- `terminate_and_reap` begins here. -/
def Stage.isProbing : Stage → Bool
  | .probing _ => true
  | _ => false

/-- No termination was attempted yet. -/
def Stage.isUnbegun : Stage → Bool
  | .queued | .spawning | .watching | .sampling | .resolvingSample => true
  | _ => false

/-- Inside `terminate_and_reap`, after its first look at the child. -/
def Stage.isTerminating : Stage → Bool
  | .signalling .. | .waitingGracefully _ | .reprobing _ | .killing _ | .resolvingKill _
  | .waitingHard _ => true
  | _ => false

/-- Inside `terminate_and_reap`, after a signal that was delivered or was the last one. -/
def Stage.isCovered : Stage → Bool
  | .waitingGracefully _ | .reprobing _ | .killing _ | .resolvingKill _ | .waitingHard _ => true
  | _ => false

theorem Stage.isUnbegun_of_isCovered {stage : Stage} (h : stage.isCovered = true) :
    stage.isUnbegun = false := by
  cases stage <;> simp_all [Stage.isCovered, Stage.isUnbegun]

def Target.pid : Target → ℕ
  | .process pid => pid
  | .tree pid => pid

/-! ## Effects -/

/-- What an answer tells about the child: a wait found it ended, and so reaped it, or failed. -/
def Answer.news : Answer → List Event
  | .waited (.exited _) => [.reaped]
  | .waited .failed => [.waitFailed]
  | _ => []

def Event.isNews : Event → Bool
  | .reaped | .waitFailed => true
  | _ => false

/-- A look at the child finds it running, or fails and gives up the pin. -/
inductive Waits (answer : Answer) (s : Invocation) : Invocation → List Event → Prop
  | runs (hnews : answer.news = []) : Waits answer s s []
  | fails (hans : answer = .waited .failed) : Waits answer s s.unpin [.waitFailed]

section

variable (config : SubprocessSupervisorConfig) (s : Invocation) (answer : Answer)

/-- What an answer about a child that is owned can do. -/
inductive Supervises :
    Invocation × List Event → Prop
  /-- `supervise` goes on, or begins to terminate the child. -/
  | moves {s₁ events stage counters} (hunbegun : s.stage.isUnbegun = true)
      (hwaits : Waits answer s s₁ events) (howned : stage.isOwned = true)
      (hstage : stage.isTerminating = false)
      (hcompleted : counters.completed = s₁.counters.completed) :
      Supervises ({ s₁ with stage, counters }, events)
  /-- The child has exited on its own. -/
  | exits (hunbegun : s.stage.isUnbegun = true) (status : ExitStatus)
      (hans : answer = .waited (.exited status)) :
      Supervises (s.reap (.supervision .exited) status)
  /-- It had exited before the first signal. -/
  | finds (hbegun : s.stage.isUnbegun = false) (pass : Pass) (status : ExitStatus)
      (hans : answer = .waited (.exited status)) :
      Supervises ((s.degrade config).reap pass status)
  | reaps (hcover : s.stage.isCovered = true) (pass : Pass) (status : ExitStatus)
      (hans : answer = .waited (.exited status)) :
      Supervises (s.reap pass status)
  /-- No signal was delivered. -/
  | degrades {s₁ events} (hbegun : s.stage.isUnbegun = false) (hwaits : Waits answer s s₁ events)
      (pass : Pass) :
      Supervises ({ s₁.degrade config with stage := .reprobing pass }, events)
  | delivers {pass signal stage} (hans : answer = .helperEnded true)
      (hsent : s.stage = .signalling pass signal .sent)
      (hstage : stage = .waitingGracefully pass ∨ stage = .reprobing pass) :
      Supervises ({ s with stage }, [])
  | looksUp {progress} (hbegun : s.stage.isUnbegun = false) (hprog : progress ≠ .sent)
      (hpinned : s.leaderPinned = true) (hpid : s.pid.isSome = true) (pass : Pass)
      (signal : TreeSignal) (hnews : answer.news = []) :
      Supervises ({ s with stage := .signalling pass signal progress }, [])
  | sends (hbegun : s.stage.isUnbegun = false) (hpinned : s.leaderPinned = true) (target : Target)
      (hpid : s.pid = some target.pid)
      (htree : config.processTreeMode = .isolatedTree → ∃ pid, target = .tree pid) (pass : Pass)
      (signal : TreeSignal) (hnews : answer.news = []) :
      Supervises
        ({ s with stage := .signalling pass signal .sent }, [.signalled target signal])
  | requests {s₁ events} (hcover : s.stage.isCovered = true) (hwaits : Waits answer s s₁ events)
      (pass : Pass) : Supervises (s₁.requestKill pass, events)
  | kills {pid stage} (hcover : s.stage.isCovered = true) (hpinned : s.leaderPinned = true)
      (hpid : s.pid = some pid) (pass : Pass)
      (hstage : stage = .waitingHard pass ∨ stage = .resolvingKill pass)
      (hnews : answer.news = []) :
      Supervises ({ s with stage }, [.signalled (.process pid) .kill])
  | fails {s₁ events} (hcover : s.stage.isCovered = true) (hwaits : Waits answer s s₁ events)
      (pass : Pass) (error : SubprocessError) :
      Supervises (s₁.fail pass error, events)

end

inductive Effect (config : SubprocessSupervisorConfig) (s : Invocation) (answer : Answer) :
    Invocation × List Event → Prop
  /-- There is no child: `run` ends or goes on to spawn one. -/
  | childless {stage counters} (hearly : s.stage.isEarly = true)
      (hstage : stage = .spawning ∨ stage = .dropped ∨ (∃ error, stage = .returned (.error error)) ∨
        stage = .returned (.ok ⟨.cancelled .queued, none, false⟩))
      (hcompleted : counters.completed = s.counters.completed) (hnews : answer.news = []) :
      Effect config s answer ({ s with stage, counters }, [])
  | spawns {pid stage counters} (hearly : s.stage.isEarly = true) (howned : stage.isOwned = true)
      (hstage : stage.isTerminating = false)
      (hcompleted : counters.completed = s.counters.completed) (hnews : answer.news = []) :
      Effect config s answer
        ({ s with
            pid, stage, counters
            leaderPinned := true
            guardArmed := decide (config.processTreeMode = ProcessTreeMode.isolatedTree) },
          [.started pid])
  | supervises {next} (howned : s.stage.isOwned = true) (h : Supervises config s answer next) :
      Effect config s answer next
  /-- The guard is dropped with the future or at the end of `run`. -/
  | closes {stage} (hguarded : s.stage.isGuarded = true) (hprobing : s.stage.isProbing = false)
      (hstage : stage = .dropped ∨ ∃ result, s.stage = .draining result ∧ stage = .returned result)
      (delivered : Bool) (hnews : answer.news = []) :
      Effect config s answer (s.close stage delivered)

namespace Invocation

variable {config : SubprocessSupervisorConfig} {s : Invocation} {pass : Pass} {signal : TreeSignal}
  {answer : Answer} {next : Invocation × List Event} {progress : Signalling} {pid : ℕ}

/-- The identifier that a signal is sent to is the child's, and is pinned. -/
theorem of_pinnedTarget (h : s.pinnedTarget = some pid) :
    s.leaderPinned = true ∧ s.pid = some pid := by
  unfold pinnedTarget at h
  split_ifs at h with hpinned
  exact ⟨hpinned, h⟩

section begun

variable (hbegun : s.stage.isUnbegun = false)
include hbegun

section quiet

variable (hnews : answer.news = [])
include hnews

theorem supervises_beginSignal (h : s.pinnedTarget = some pid) :
    Supervises config s answer (s.beginSignal config pass signal pid) := by
  obtain ⟨hpinned, hpid⟩ := of_pinnedTarget h
  unfold beginSignal
  split_ifs
  · exact .looksUp hbegun (by simp) hpinned (by simp [hpid]) pass signal hnews
  · refine .sends hbegun hpinned _ ?_ (fun hmode => ⟨pid, if_pos hmode⟩) pass signal hnews
    split_ifs <;> exact hpid

theorem supervises_force : Supervises config s answer (s.force config pass) := by
  unfold force
  cases htarget : s.pinnedTarget with
  | some pid => exact supervises_beginSignal hbegun hnews htarget
  | none => exact .degrades hbegun (.runs hnews) pass

theorem supervises_terminate : Supervises config s answer (s.terminate config pass) := by
  unfold terminate
  cases htarget : s.pinnedTarget with
  | some pid => exact supervises_beginSignal hbegun hnews htarget
  | none => exact supervises_force hbegun hnews

end quiet

theorem supervises_probing (h : s.probing config pass answer = some next) :
    Supervises config s answer next := by
  unfold probing at h
  split at h <;> cases h
  · exact .finds hbegun pass _ rfl
  · exact supervises_terminate hbegun rfl
  · exact .degrades hbegun (.fails rfl) pass

end begun

theorem supervises_afterSignal {success : Bool} (hnews : answer.news = [])
    (hstage : s.stage = .signalling pass signal progress)
    (hsuccess : success = true → progress = .sent ∧ answer = .helperEnded true) :
    Supervises config s answer (s.afterSignal config pass signal success) := by
  have hbegun : s.stage.isUnbegun = false := by rw [hstage]; rfl
  cases success with
  | true =>
    obtain ⟨rfl, hans⟩ := hsuccess rfl
    cases signal with
    | terminate => exact .delivers hans hstage (.inl rfl)
    | kill => exact .delivers hans hstage (.inr rfl)
  | false =>
    cases signal with
    | terminate => exact supervises_force hbegun hnews
    | kill => exact .degrades hbegun (.runs hnews) pass

theorem supervises_signalling (hstage : s.stage = .signalling pass signal progress)
    (hneedsPin : s.stage.needsPin = true → s.leaderPinned = true ∧ s.pid.isSome = true)
    (h : s.signalling config pass signal progress answer = some next) :
    Supervises config s answer next := by
  have hbegun : s.stage.isUnbegun = false := by rw [hstage]; rfl
  rw [hstage] at hneedsPin
  unfold signalling at h
  split at h
  case h_1 =>
    cases h
    obtain ⟨hpinned, hpid⟩ := hneedsPin rfl
    exact .looksUp hbegun (by simp) hpinned hpid pass signal rfl
  case h_2 childGroup group =>
    split_ifs at h with hunsafe
    · cases h
      exact supervises_afterSignal rfl hstage (by simp)
    · -- The group that is signalled is the child's own.
      rw [not_or, not_ne_iff] at hunsafe
      cases h
      exact .sends hbegun (hneedsPin rfl).1 (.tree childGroup) hunsafe.1 (fun _ => ⟨_, rfl⟩) pass
        signal rfl
  all_goals cases h
  all_goals exact supervises_afterSignal rfl hstage (by simp)

section unbegun

variable (hunbegun : s.stage.isUnbegun = true)
include hunbegun

theorem supervises_watching (h : s.watching config answer = some next) :
    Supervises config s answer next := by
  unfold watching at h
  split at h
  case h_5 =>
    split_ifs at h
    cases h
    exact .moves hunbegun (.runs rfl) rfl rfl rfl
  all_goals cases h
  case h_3 => exact .exits hunbegun _ rfl
  case h_4 => exact .moves hunbegun (.fails rfl) rfl rfl rfl
  all_goals exact .moves hunbegun (.runs rfl) rfl rfl rfl

theorem supervises_sampling (h : s.sampling config answer = some next) :
    Supervises config s answer next := by
  unfold sampling at h
  split at h
  case h_1 =>
    dsimp only at h
    split_ifs at h <;> cases h <;> exact .moves hunbegun (.runs rfl) rfl rfl rfl
  all_goals cases h
  exact .moves hunbegun (.runs rfl) rfl rfl rfl

theorem supervises_resolvingSample (h : s.resolvingSample answer = some next) :
    Supervises config s answer next := by
  unfold resolvingSample at h
  split at h <;> cases h
  · exact .exits hunbegun _ rfl
  · exact .moves hunbegun (.runs rfl) rfl rfl rfl
  · exact .moves hunbegun (.fails rfl) rfl rfl rfl

end unbegun

section covered

variable (hcover : s.stage.isCovered = true)
include hcover

theorem supervises_waitingGracefully (h : s.waitingGracefully config pass answer = some next) :
    Supervises config s answer next := by
  have hbegun := Stage.isUnbegun_of_isCovered hcover
  unfold waitingGracefully at h
  split at h <;> cases h
  · exact .reaps hcover pass _ rfl
  · exact .degrades hbegun (.fails rfl) pass
  · exact supervises_force hbegun rfl

theorem supervises_reprobing (h : s.reprobing pass answer = some next) :
    Supervises config s answer next := by
  unfold reprobing at h
  split at h <;> cases h
  · exact .reaps hcover pass _ rfl
  · exact .requests hcover (.runs rfl) pass
  · exact .requests hcover (.fails rfl) pass

theorem supervises_killing (hpinned : s.leaderPinned = true)
    (h : s.killing pass answer = some next) : Supervises config s answer next := by
  unfold killing at h
  split at h
  case h_2 => cases h
  case h_1 success =>
    obtain ⟨pid, hpid, rfl⟩ := Option.map_eq_some_iff.mp h
    refine .kills hcover hpinned hpid pass ?_ rfl
    cases success with
    | true => exact .inl rfl
    | false => exact .inr rfl

theorem supervises_resolvingKill (h : s.resolvingKill pass answer = some next) :
    Supervises config s answer next := by
  unfold resolvingKill at h
  split at h <;> cases h
  · exact .reaps hcover pass _ rfl
  · exact .fails hcover (.runs rfl) pass _
  · exact .fails hcover (.fails rfl) pass _

theorem supervises_waitingHard (h : s.waitingHard pass answer = some next) :
    Supervises config s answer next := by
  unfold waitingHard at h
  split at h <;> cases h
  · exact .reaps hcover pass _ rfl
  · exact .fails hcover (.fails rfl) pass _
  · exact .fails hcover (.runs rfl) pass _

end covered

/-! ## Before and after the child -/

section early

variable (hearly : s.stage.isEarly = true)
include hearly

theorem effect_queued (h : s.queued answer = some next) : Effect config s answer next := by
  unfold queued at h
  split at h <;> cases h
  · exact .childless hearly (.inr (.inr (.inr rfl))) rfl rfl
  · exact .childless hearly (.inl rfl) rfl rfl
  · exact .childless hearly (.inr (.inr (.inl ⟨_, rfl⟩))) rfl rfl

theorem effect_spawning (h : s.spawning config answer = some next) :
    Effect config s answer next := by
  unfold spawning at h
  split at h <;> cases h
  case h_1 => exact .childless hearly (.inr (.inr (.inl ⟨_, rfl⟩))) rfl rfl
  case h_2 pid =>
    refine .spawns hearly ?_ ?_ rfl rfl
    · cases pid <;> rfl
    · cases pid <;> rfl

end early

theorem effect_abandon {delivered : Bool} (h : s.abandon delivered = some next) :
    Effect config s (.abandoned delivered) next := by
  unfold abandon at h
  split_ifs at h with hqueued hawait <;> cases h
  · exact .childless (by rw [hqueued]; rfl) (.inr (.inl rfl)) rfl rfl
  · -- Every other `await` comes after the child.
    have hplace : s.stage.isGuarded = true ∧ s.stage.isProbing = false := by
      cases hstage : s.stage <;>
        simp_all [Stage.isAwait, Stage.isGuarded, Stage.isOwned, Stage.isProbing]
    exact .closes hplace.1 hplace.2 (.inl rfl) delivered rfl

theorem effect_draining {result} (hstage : s.stage = .draining result)
    (h : s.draining result answer = some next) :
    Effect config s answer next := by
  unfold draining at h
  split at h <;> cases h
  exact .closes (by rw [hstage]; rfl) (by rw [hstage]; rfl) (.inr ⟨result, hstage, rfl⟩) _
    rfl

end Invocation

theorem effect_of_step {config} {s : Invocation} {answer next}
    (hneedsPin : s.stage.needsPin = true → s.leaderPinned = true ∧ s.pid.isSome = true)
    (hstep : (machine config).step s answer = some next) : Effect config s answer next := by
  change s.advance config answer = some next at hstep
  unfold Invocation.advance at hstep
  split at hstep
  case h_1 => exact Invocation.effect_abandon hstep
  case h_2 =>
    split at hstep
    case h_14 | h_15 => cases hstep
    case h_1 hstage => exact Invocation.effect_queued (by rw [hstage]; rfl) hstep
    case h_2 hstage => exact Invocation.effect_spawning (by rw [hstage]; rfl) hstep
    case h_13 hstage => exact Invocation.effect_draining hstage hstep
    all_goals rename_i hstage; refine .supervises (by rw [hstage]; rfl) ?_
    · exact Invocation.supervises_watching (by rw [hstage]; rfl) hstep
    · exact Invocation.supervises_sampling (by rw [hstage]; rfl) hstep
    · exact Invocation.supervises_resolvingSample (by rw [hstage]; rfl) hstep
    · exact Invocation.supervises_probing (by rw [hstage]; rfl) hstep
    · exact Invocation.supervises_signalling hstage hneedsPin hstep
    · exact Invocation.supervises_waitingGracefully (by rw [hstage]; rfl) hstep
    · exact Invocation.supervises_reprobing (by rw [hstage]; rfl) hstep
    · refine Invocation.supervises_killing (by rw [hstage]; rfl) ?_ hstep
      exact (hneedsPin (by rw [hstage]; rfl)).1
    · exact Invocation.supervises_resolvingKill (by rw [hstage]; rfl) hstep
    · exact Invocation.supervises_waitingHard (by rw [hstage]; rfl) hstep

/-! ## What is learnt about the child -/

section news

variable {config : SubprocessSupervisorConfig} {s s₁ : Invocation} {answer : Answer}
  {events : List Event} {next : Invocation × List Event}

theorem Waits.news (h : Waits answer s s₁ events) :
    events.filter Event.isNews = answer.news := by
  cases h with
  | runs hnews => exact hnews.symm
  | fails hans => exact hans ▸ rfl

theorem Invocation.news_reap (pass : Pass) (status : ExitStatus) :
    (s.reap pass status).2.filter Event.isNews = (Answer.waited (.exited status)).news := by
  cases pass <;> rfl

theorem Supervises.news (h : Supervises config s answer next) :
    next.2.filter Event.isNews = answer.news := by
  cases h with
  | moves _ hwaits | degrades _ hwaits | requests _ hwaits | fails _ hwaits => exact hwaits.news
  | exits _ status hans | finds _ pass status hans | reaps _ pass status hans =>
    rw [hans]
    exact Invocation.news_reap _ _
  | delivers hans => exact hans ▸ rfl
  | looksUp _ _ _ _ _ _ hnews | sends _ _ _ _ _ _ _ hnews | kills _ _ _ _ _ hnews =>
    exact hnews.symm

/-- The events tell exactly what the answer tells about the child. -/
theorem Effect.news (h : Effect config s answer next) :
    next.2.filter Event.isNews = answer.news := by
  cases h with
  | childless _ _ _ hnews | spawns _ _ _ _ hnews => exact hnews.symm
  | supervises _ hsup => exact hsup.news
  | @closes stage _ _ _ delivered hnews =>
    rw [hnews]
    simp only [Invocation.close, Invocation.dropGuard]
    split
    · rfl
    · split <;> rfl

end news

end PlenoraRuntime.Subprocess
