import PlenoraRuntime.Subprocess.Steps

/-!
# Signals to a child

While a child is unreaped its identifier is reserved. An invocation may signal it as long
as it has neither reaped the child nor seen a wait fail; `leader_pinned` records the
latter, and the guard is disarmed with the former.

## Strategy

`Custody` relates the local variables to the history and is followed along the effects of the
answers: the program goes on after a look at the child, sends a signal to a pinned identifier,
or reaps the child. Signals that are sent some awaits after the identifier was found pinned
need that no wait happens in between, which is a fact about the places (`Stage.needsPin`).
-/

namespace PlenoraRuntime.Subprocess

open Transition List

/-! ## What may be sent -/

/-- The child's identifier may still be signalled after the given history. -/
def Reserved (history : List Event) : Prop :=
  .reaped ∉ history ∧ .waitFailed ∉ history

/-- What an event must be, given the history before it: a signal goes to a child whose
identifier is reserved, and the guard signals the tree exactly when there is one to
signal. -/
def Event.Allowed (config : SubprocessSupervisorConfig) (pid : Option ℕ) (before : List Event) :
    Event → Prop
  | .signalled target _ => pid = some target.pid ∧ Reserved before
  | .guardDropped target =>
    (target.isSome = true ↔
      config.processTreeMode = .isolatedTree ∧ pid.isSome = true ∧ Reserved before) ∧
    ∀ t, target = some t → pid = some t.pid
  | .started _ | .reaped | .waitFailed => True

def Lawful (config : SubprocessSupervisorConfig) (pid : Option ℕ) (history : List Event) : Prop :=
  ∀ before event after, history = before ++ event :: after → event.Allowed config pid before

variable {config : SubprocessSupervisorConfig} {pid : Option ℕ}

theorem Lawful.nil : Lawful config pid [] := by
  intro before event after h
  simp at h

theorem Lawful.concat {history} {event : Event} (h : Lawful config pid history)
    (hevent : event.Allowed config pid history) : Lawful config pid (history ++ [event]) := by
  intro before other after heq
  rcases eq_nil_or_concat after with rfl | ⟨rest, last, rfl⟩
  · obtain ⟨rfl, hlast⟩ := append_inj' heq rfl
    obtain rfl : event = other := by simpa using hlast
    exact hevent
  · rw [concat_eq_append, ← cons_append, ← append_assoc] at heq
    obtain ⟨rfl, -⟩ := append_inj' heq rfl
    exact h before other rest rfl

/-! ## Custody of the child -/

/-- The child is still owned, or the cleanup has failed. -/
def Stage.Unreaped (stage : Stage) : Prop :=
  stage.isOwned = true ∨ ∃ error, stage = .draining (.error error)

/-- The local variables that matter are the same. -/
structure Keeps (s s' : Invocation) : Prop where
  pid : s'.pid = s.pid
  pinned : s'.leaderPinned = s.leaderPinned
  guardArmed : s'.guardArmed = s.guardArmed
  completed : s'.counters.completed = s.counters.completed

/-- The local variables say what has happened to the child. -/
structure Custody (config : SubprocessSupervisorConfig) (s : Invocation) (past : List Event) :
    Prop where
  early : s.stage.isEarly = true → past = []
  pinned : s.leaderPinned = true ↔ .waitFailed ∉ past
  completed : s.counters.completed = past.count .reaped
  once : past.count .reaped ≤ 1
  armed : s.stage.isGuarded = true →
    (s.guardArmed = true ↔ config.processTreeMode = .isolatedTree ∧ .reaped ∉ past)
  owned : s.stage.isOwned = true → .reaped ∉ past
  needsPin : s.stage.needsPin = true → s.leaderPinned = true ∧ s.pid.isSome = true
  finishes : ∀ report, s.stage = .draining (.ok report) → .reaped ∈ past
  returns : ∀ report, s.stage = .returned (.ok report) →
    .reaped ∈ past ∨ past = [] ∧ report.termination = .cancelled .queued
  lawful : Lawful config s.pid past

section custody

variable {s s' : Invocation} {past events : List Event} {answer : Answer}
  {next : Invocation × List Event} {stage : Stage}

theorem Custody.init : Custody config init [] where
  early _ := rfl
  pinned := by simp [Subprocess.init]
  completed := rfl
  once := Nat.zero_le _
  armed := by simp [Subprocess.init, Stage.isGuarded, Stage.isOwned]
  owned := by simp
  needsPin := by simp [Subprocess.init, Stage.needsPin]
  finishes := by simp [Subprocess.init]
  returns := by simp [Subprocess.init]
  lawful := .nil

theorem Stage.Unreaped.isGuarded (h : stage.Unreaped) : stage.isGuarded = true := by
  rcases h with howned | ⟨error, rfl⟩
  · cases stage <;> simp_all [Stage.isGuarded]
  · rfl

theorem Stage.Unreaped.not_isEarly (h : stage.Unreaped) : stage.isEarly = false := by
  rcases h with howned | ⟨error, rfl⟩
  · cases stage <;> simp_all [Stage.isEarly, Stage.isOwned]
  · rfl

theorem Stage.Unreaped.not_ok {report} (h : stage.Unreaped) :
    stage ≠ .draining (.ok report) ∧ stage ≠ .returned (.ok report) := by
  rcases h with howned | ⟨error, rfl⟩
  · constructor
    · rintro rfl
      simp [Stage.isOwned] at howned
    · rintro rfl
      simp [Stage.isOwned] at howned
  · simp

theorem Stage.isGuarded_of_isOwned (h : stage.isOwned = true) : stage.isGuarded = true :=
  Stage.Unreaped.isGuarded (.inl h)

theorem Invocation.keeps_degrade (config : SubprocessSupervisorConfig) (s : Invocation) :
    Keeps s (s.degrade config) := by
  unfold degrade
  split_ifs <;> exact ⟨rfl, rfl, rfl, rfl⟩

section owned

variable (h : Custody config s past) (howned : s.stage.isOwned = true)
include h howned

/-- News that leave the child unreaped. -/
theorem Custody.continues (hunreaped : s'.stage.Unreaped) (hreaped : .reaped ∉ events)
    (hcompleted : s'.counters.completed = s.counters.completed)
    (harmed : s'.guardArmed = s.guardArmed)
    (hpinned : s'.leaderPinned = true ↔ .waitFailed ∉ past ++ events)
    (hneedsPin : s'.stage.needsPin = true → s'.leaderPinned = true ∧ s'.pid.isSome = true)
    (hlawful : Lawful config s'.pid (past ++ events)) : Custody config s' (past ++ events) := by
  have hpast := h.owned howned
  have hnone : .reaped ∉ past ++ events := by simp [hpast, hreaped]
  have hcount : (past ++ events).count .reaped = 0 := count_eq_zero.mpr hnone
  exact {
    early := fun hearly => by simp [hunreaped.not_isEarly] at hearly
    pinned := hpinned
    completed := by rw [hcompleted, h.completed, hcount, count_eq_zero.mpr hpast]
    once := hcount ▸ Nat.zero_le _
    armed := fun _ => by
      rw [harmed, h.armed (Stage.isGuarded_of_isOwned howned)]
      simp only [hpast, hnone]
    owned := fun _ => hnone
    needsPin := hneedsPin
    finishes := fun report heq => absurd heq hunreaped.not_ok.1
    returns := fun report heq => absurd heq hunreaped.not_ok.2
    lawful := hlawful }

/-- The program goes on after a look at the child. -/
theorem Custody.waits {s₁} (hwaits : Waits answer s s₁ events) (hkeeps : Keeps s₁ s')
    (hunreaped : s'.stage.Unreaped)
    (hneedsPin : s'.stage.needsPin = true → s₁.leaderPinned = true ∧ s₁.pid.isSome = true) :
    Custody config s' (past ++ events) := by
  have hneedsPin' : s'.stage.needsPin = true →
      s'.leaderPinned = true ∧ s'.pid.isSome = true := by
    rw [hkeeps.pinned, hkeeps.pid]
    exact hneedsPin
  cases hwaits with
  | runs =>
    refine h.continues howned hunreaped (by simp) hkeeps.completed hkeeps.guardArmed ?_
      hneedsPin' ?_
    · rw [hkeeps.pinned, h.pinned, append_nil]
    · rw [append_nil, hkeeps.pid]
      exact h.lawful
  | fails =>
    refine h.continues howned hunreaped (by simp) hkeeps.completed hkeeps.guardArmed ?_
      hneedsPin' ?_
    · simp [hkeeps.pinned, Invocation.unpin]
    · rw [hkeeps.pid]
      exact h.lawful.concat trivial

/-- A signal is sent to the child, whose identifier is pinned. -/
theorem Custody.signals {target : Target} {signal} (hpinned : s.leaderPinned = true)
    (hpid : s.pid = some target.pid) (hstage : stage.isOwned = true)
    (hneedsPin : stage.needsPin = false) :
    Custody config { s with stage } (past ++ [.signalled target signal]) := by
  refine h.continues howned (.inl hstage) (by simp) rfl rfl ?_ (by simp [hneedsPin]) ?_
  · simp [h.pinned]
  · exact h.lawful.concat ⟨hpid, h.owned howned, h.pinned.mp hpinned⟩

theorem Custody.reaps (hkeeps : Keeps s s') (pass : Pass) (status : ExitStatus) :
    Custody config (s'.reap pass status).1 (past ++ (s'.reap pass status).2) := by
  have hpast := h.owned howned
  have hcount : (past ++ [Event.reaped]).count .reaped = past.count .reaped + 1 := by simp
  cases pass with
  | supervision | cleanup =>
    exact {
      early := by simp [Invocation.reap, Stage.isEarly]
      pinned := by simp [Invocation.reap, hkeeps.pinned, h.pinned]
      completed := (congrArg (· + 1) (hkeeps.completed.trans h.completed)).trans hcount.symm
      once := hcount.trans_le (by rw [count_eq_zero.mpr hpast])
      armed := by simp [Invocation.reap]
      owned := by simp [Invocation.reap, Stage.isOwned]
      needsPin := by simp [Invocation.reap, Stage.needsPin]
      finishes := by simp [Invocation.reap]
      returns := by simp [Invocation.reap]
      lawful := hkeeps.pid.symm ▸ h.lawful.concat trivial }

theorem Custody.supervises (hsup : Supervises config s answer next) :
    Custody config next.1 (past ++ next.2) := by
  cases hsup with
  | @moves s₁ _ stage _ _ hwaits hstage hterm hcompleted =>
    refine h.waits howned hwaits ⟨rfl, rfl, rfl, hcompleted⟩ (.inl hstage) fun hneeds => ?_
    cases stage <;> simp_all [Stage.needsPin, Stage.isTerminating]
  | exits _ status => exact h.reaps howned ⟨rfl, rfl, rfl, rfl⟩ _ status
  | finds _ pass status => exact h.reaps howned (s.keeps_degrade config) pass status
  | reaps _ pass status => exact h.reaps howned ⟨rfl, rfl, rfl, rfl⟩ pass status
  | @degrades s₁ _ _ hwaits pass =>
    obtain ⟨hpid, hpinned, harmed, hcompleted⟩ := s₁.keeps_degrade config
    exact h.waits howned hwaits ⟨hpid, hpinned, harmed, hcompleted⟩ (.inl rfl)
      (by simp [Stage.needsPin])
  | delivers hans _ hstage =>
    have hnews : answer.news = [] := hans ▸ rfl
    rcases hstage with rfl | rfl <;>
      exact h.waits howned (.runs hnews) ⟨rfl, rfl, rfl, rfl⟩ (.inl rfl) (by simp [Stage.needsPin])
  | looksUp _ _ hpinned hpid _ _ hnews =>
    exact h.waits howned (.runs hnews) ⟨rfl, rfl, rfl, rfl⟩ (.inl rfl) fun _ => ⟨hpinned, hpid⟩
  | sends _ hpinned target hpid => exact h.signals howned hpinned hpid rfl rfl
  | @requests s₁ _ _ hwaits pass =>
    unfold Invocation.requestKill
    cases htarget : s₁.pinnedTarget with
    | some pid =>
      obtain ⟨hpinned, hpid⟩ := Invocation.of_pinnedTarget htarget
      exact h.waits howned hwaits ⟨rfl, rfl, rfl, rfl⟩ (.inl rfl) fun _ => ⟨hpinned, by simp [hpid]⟩
    | none =>
      exact h.waits howned hwaits ⟨rfl, rfl, rfl, rfl⟩ (.inl rfl) (by simp [Stage.needsPin])
  | kills _ hpinned hpid _ hstage =>
    rcases hstage with rfl | rfl <;> exact h.signals howned hpinned hpid rfl rfl
  | fails _ hwaits pass error =>
    have hneeds : ∀ s₁ : Invocation, (s₁.fail pass error).stage.needsPin = false := by
      cases pass <;> exact fun _ => rfl
    cases pass with
    | supervision => exact h.waits howned hwaits ⟨rfl, rfl, rfl, rfl⟩ (.inl rfl) (by simp [hneeds])
    | cleanup =>
      exact h.waits howned hwaits ⟨rfl, rfl, rfl, rfl⟩ (.inr ⟨_, rfl⟩) (by simp [hneeds])

end owned

/-- Whom the guard signals when it is dropped. -/
def Invocation.guardTarget (s : Invocation) : Option Target :=
  if s.guardArmed then s.pinnedTarget.map .tree else none

theorem Invocation.dropGuard_eq (s : Invocation) (delivered : Bool) :
    Keeps s (s.dropGuard delivered).1 ∧
      (s.dropGuard delivered).2 = [.guardDropped s.guardTarget] := by
  obtain ⟨stage, pid, pinned, armed, degraded, counters⟩ := s
  cases armed with
  | false => exact ⟨⟨rfl, rfl, rfl, rfl⟩, rfl⟩
  | true =>
    cases pinned with
    | false => exact ⟨⟨rfl, rfl, rfl, rfl⟩, rfl⟩
    | true => cases pid <;> cases delivered <;> exact ⟨⟨rfl, rfl, rfl, rfl⟩, rfl⟩

theorem Custody.allowed_guardDropped (h : Custody config s past)
    (hguarded : s.stage.isGuarded = true) :
    (Event.guardDropped s.guardTarget).Allowed config s.pid past := by
  have harmed := h.armed hguarded
  have hpinned := h.pinned
  simp only [Event.Allowed, Invocation.guardTarget, Invocation.pinnedTarget, Reserved]
  cases hguard : s.guardArmed with
  | false =>
    refine ⟨?_, by simp⟩
    rw [hguard] at harmed
    simp only [Bool.false_eq_true, false_iff, ↓reduceIte, Option.isSome_none] at harmed ⊢
    exact fun hall => harmed ⟨hall.1, hall.2.2.1⟩
  | true =>
    obtain ⟨hmode, hreaped⟩ := harmed.mp hguard
    cases hpin : s.leaderPinned with
    | false =>
      rw [hpin] at hpinned
      simp only [Bool.false_eq_true, false_iff] at hpinned
      simp [hpinned]
    | true =>
      refine ⟨by simp [hmode, hreaped, hpinned.mp hpin], fun t ht => ?_⟩
      obtain ⟨pid, hpid, rfl⟩ := Option.map_eq_some_iff.mp ht
      exact hpid

theorem Custody.close {stage} (h : Custody config s past) (hguarded : s.stage.isGuarded = true)
    (delivered : Bool)
    (hstage : stage = .dropped ∨ ∃ result, s.stage = .draining result ∧ stage = .returned result) :
    Custody config (s.close stage delivered).1 (past ++ (s.close stage delivered).2) := by
  obtain ⟨hkeeps, hevents⟩ := s.dropGuard_eq delivered
  have hallowed := h.allowed_guardDropped hguarded
  have hclose : (s.close stage delivered).2 = [.guardDropped s.guardTarget] := hevents
  have hkinds : stage.isEarly = false ∧ stage.isGuarded = false ∧ stage.isOwned = false ∧
      stage.needsPin = false ∧ ∀ report, stage ≠ .draining (.ok report) := by
    rcases hstage with rfl | ⟨result, -, rfl⟩ <;>
      simp [Stage.isEarly, Stage.isGuarded, Stage.isOwned, Stage.needsPin]
  obtain ⟨hearly, hclosed, howned, hneedsPin, hdrain⟩ := hkinds
  have hcount : (past ++ [Event.guardDropped s.guardTarget]).count .reaped =
      past.count .reaped := by simp
  rw [hclose]
  exact {
    early := fun htrue => absurd htrue (by simp [Invocation.close, hearly])
    pinned := by
      refine (iff_of_eq (congrArg (· = true) hkeeps.pinned)).trans (h.pinned.trans ?_)
      simp
    completed := hkeeps.completed.trans (h.completed.trans hcount.symm)
    once := hcount ▸ h.once
    armed := fun htrue => absurd htrue (by simp [Invocation.close, hclosed])
    owned := fun htrue => absurd htrue (by simp [Invocation.close, howned])
    needsPin := fun htrue => absurd htrue (by simp [Invocation.close, hneedsPin])
    finishes := fun report heq => absurd heq (hdrain report)
    returns := fun report heq => by
      rcases hstage with rfl | ⟨result, hres, rfl⟩
      · simp [Invocation.close] at heq
      · obtain rfl : result = .ok report := by simpa [Invocation.close] using heq
        exact .inl (mem_append_left _ (h.finishes report hres))
    lawful := by
      have hpid : (s.close stage delivered).1.pid = s.pid := hkeeps.pid
      rw [hpid]
      exact h.lawful.concat hallowed }

/-- An invocation that has not spawned a child, and ends or goes on to spawn one. -/
theorem Custody.childless {stage : Stage} {counters : Counters} (h : Custody config s [])
    (hguarded : stage.isGuarded = false) (hneedsPin : stage.needsPin = false)
    (hret : ∀ report, stage = .returned (.ok report) → report.termination = .cancelled .queued)
    (hcompleted : counters.completed = s.counters.completed) :
    Custody config { s with stage, counters } [] where
  early _ := rfl
  pinned := h.pinned
  completed := hcompleted.trans h.completed
  once := h.once
  armed htrue := absurd htrue (by simp [hguarded])
  owned htrue := absurd (Stage.isGuarded_of_isOwned htrue) (by simp [hguarded])
  needsPin htrue := absurd htrue (by simp [hneedsPin])
  finishes report heq := by
    obtain rfl : stage = .draining (.ok report) := heq
    simp [Stage.isGuarded] at hguarded
  returns report heq := .inr ⟨rfl, hret report heq⟩
  lawful := h.lawful

theorem Custody.effect (h : Custody config s past) (heff : Effect config s answer next) :
    Custody config next.1 (past ++ next.2) := by
  cases heff with
  | @childless stage _ hearly hstage hcompleted =>
    obtain rfl := h.early hearly
    have hkinds : stage.isGuarded = false ∧ stage.needsPin = false ∧
        ∀ report, stage = .returned (.ok report) → report.termination = .cancelled .queued := by
      rcases hstage with rfl | rfl | ⟨error, rfl⟩ | rfl <;>
        simp [Stage.isGuarded, Stage.isOwned, Stage.needsPin]
    exact h.childless hkinds.1 hkinds.2.1 hkinds.2.2 hcompleted
  | @spawns pid stage _ hearly howned hstage hcompleted =>
    obtain rfl := h.early hearly
    have hunreaped : stage.Unreaped := .inl howned
    have hneedsPin : stage.needsPin = false := by
      cases stage <;> simp_all [Stage.needsPin, Stage.isTerminating]
    exact {
      early := fun hearly => absurd hearly (by simp [hunreaped.not_isEarly])
      pinned := by simp
      completed := hcompleted.trans h.completed
      once := by simp
      armed := fun _ => by simp
      owned := fun _ => by simp
      needsPin := fun htrue => absurd htrue (by simp [hneedsPin])
      finishes := fun report heq => absurd heq hunreaped.not_ok.1
      returns := fun report heq => absurd heq hunreaped.not_ok.2
      lawful := Lawful.nil.concat trivial }
  | supervises howned hsup => exact h.supervises howned hsup
  | closes hguarded _ hstage delivered => exact h.close hguarded delivered hstage

theorem custody_step (h : Custody config s past)
    (hstep : (machine config).step s answer = some (s', events)) :
    Custody config s' (past ++ events) :=
  h.effect (effect_of_step h.needsPin hstep)

theorem custody_run {answers} (hrun : (machine config).run init answers = some (s, events)) :
    Custody config s events :=
  Runs.history (fun h ⟨_, hstep⟩ => custody_step h hstep) [] (Machine.runs_of_run hrun)
    Custody.init

/-- What a run reports about the child is what the waits for it answered, in this order. -/
theorem news_run {answers} (hrun : (machine config).run init answers = some (s, events)) :
    events.filter Event.isNews = answers.flatMap Answer.news := by
  refine Machine.run_reached (I := fun _ answers past =>
    past.filter Event.isNews = answers.flatMap Answer.news) ?_ hrun rfl
  intro s₁ answers past answer s₂ events hpre hpast hstep
  have heffect := effect_of_step (custody_run hpre).needsPin hstep
  simp [hpast, heffect.news]

end custody

/-- Over all answers and all places at which the future may be dropped: a signal goes to
the child only while it is neither reaped nor lost to a failed wait; the abandonment guard
signals the tree exactly when there is one to signal; `run` returns a report only for a
child that was reaped, or for none when it was cancelled in the queue; and the child is
counted as completed once it is reaped, and once only. The child is reaped when a wait for it
answers that it has exited, and a wait has failed when it answers that. -/
theorem no_signal_to_released_child {config : SubprocessSupervisorConfig} {s : Invocation}
    {answers : List Answer} {events : List Event}
    (hrun : (machine config).run init answers = some (s, events)) :
    (∀ before target signal after, events = before ++ .signalled target signal :: after →
      s.pid = some target.pid ∧ .reaped ∉ before ∧ .waitFailed ∉ before) ∧
    (∀ before target after, events = before ++ .guardDropped target :: after →
      (target.isSome = true ↔ config.processTreeMode = .isolatedTree ∧ s.pid.isSome = true ∧
        .reaped ∉ before ∧ .waitFailed ∉ before) ∧
      ∀ t, target = some t → s.pid = some t.pid) ∧
    (∀ report, s.stage = .returned (.ok report) →
      .reaped ∈ events ∨ events = [] ∧ report.termination = .cancelled .queued) ∧
    s.counters.completed = events.count .reaped ∧ events.count .reaped ≤ 1 ∧
    events.filter Event.isNews = answers.flatMap Answer.news := by
  have hcustody := custody_run hrun
  exact ⟨fun before target signal after heq => hcustody.lawful before _ after heq,
    fun before target after heq => hcustody.lawful before _ after heq, hcustody.returns,
    hcustody.completed, hcustody.once, news_run hrun⟩

/-- A cancelled child is asked to terminate; the wait for it fails, and the future is
dropped while it waits again. -/
theorem no_signal_to_released_child_dropped :
    let config : SubprocessSupervisorConfig := ⟨.unix, .isolatedTree, none⟩
    let answers : List Answer :=
      [.admitted, .spawned (some 42), .cancelled, .waited .running, .lookedUp (some 42),
        .lookedUp (some 7), .helperEnded true, .waited .failed, .waited .running, .abandoned true]
    let last := (machine config).after init answers
    let history : List Event :=
      [.started (some 42), .signalled (.tree 42) .terminate, .waitFailed]
    last.2 = history ++ [.guardDropped none] ∧ .reaped ∉ history ∧
      ¬ (config.processTreeMode = .isolatedTree ∧ last.1.pid.isSome = true ∧
        .reaped ∉ history ∧ .waitFailed ∉ history) := by
  intro config answers last history
  have hrun : (machine config).run init answers = some last :=
    Machine.run_eq_after (by decide +kernel)
  have hevents : last.2 = history ++ [.guardDropped none] := by decide +kernel
  clear_value last
  obtain ⟨-, hguard, -⟩ := no_signal_to_released_child hrun
  obtain ⟨hsignals, -⟩ := hguard history none [] hevents
  exact ⟨hevents, by decide, fun hall => absurd (hsignals.mpr hall) (by decide)⟩

end PlenoraRuntime.Subprocess
