import PlenoraRuntime.Subprocess.Signals

/-!
# Degraded containment is visible

In `IsolatedTree` mode a child that must end is to take its tree with it. Where this cannot
be shown, three things tell: the flag `tree_degraded`, which becomes part of the report; the
counter `tree_termination_failures`; and the marker `containment_failed` on an error.

## Strategy

`terminate_and_reap` runs once or twice. Past its signals, and whenever it reaps the child,
some tree signal was delivered or the flag is set; the flag and the counter are set together.
`Attempts` states this of one answer, for each part of the program. `Contained` collects what
the answers so far have shown: whether a signal was delivered and whether `terminate_and_reap`
was called are not local variables, so they are read off the answers (`Machine.Takes`).
-/

namespace PlenoraRuntime.Subprocess

open Transition List

/-! ## What the answers have shown -/

/-- The helper of a signal reports success. -/
def Delivers (s : Invocation) (answer : Answer) : Prop :=
  answer = .helperEnded true ∧ ∃ pass signal, s.stage = .signalling pass signal .sent

/-- A signal to the child's tree was reported delivered while the child's identifier was
pinned: the last thing done was to send it, and the helper answered with success. -/
def TreeSignalDelivered (config : SubprocessSupervisorConfig) (answers : List Answer) : Prop :=
  ∃ before rest s past pass signal pid,
    answers = before ++ .helperEnded true :: rest ∧
    (machine config).run init before = some (s, past) ∧
    s.stage = .signalling pass signal .sent ∧
    past.getLast? = some (.signalled (.tree pid) signal) ∧
    s.pid = some pid ∧ s.leaderPinned = true ∧ Reserved past

/-- The invocation set out to terminate its child: it called `terminate_and_reap`. -/
def SetsOutToTerminate (config : SubprocessSupervisorConfig) (answers : List Answer) : Prop :=
  (machine config).Takes init answers fun s _ => s.stage.isProbing = true

def Spawned (history : List Event) : Prop :=
  ∃ pid, .started pid ∈ history

/-! ## One answer during termination -/

/-- What `run` returns, or will return. -/
def Stage.result? : Stage → Option (Except SubprocessError SubprocessReport)
  | .draining result | .returned result => some result
  | _ => none

/-- The flag and the counter change together, if at all. -/
def Flagged (s s' : Invocation) : Prop :=
  s'.treeDegraded = s.treeDegraded ∧
      s'.counters.treeTerminationFailures = s.counters.treeTerminationFailures ∨
    s'.treeDegraded = true ∧ 0 < s'.counters.treeTerminationFailures

/-- The consequences of an answer to `terminate_and_reap`, when `delivered` says whether some
signal was delivered up to and including this answer. -/
structure Attempts (delivered : Prop) (s s' : Invocation) (events : List Event) : Prop where
  flagged : Flagged s s'
  begun : s'.stage.isUnbegun = false
  covered : s'.stage.isCovered = true ∨ .reaped ∈ events → delivered ∨ s'.treeDegraded = true
  sent : ∀ pass signal, s'.stage = .signalling pass signal .sent →
    ∃ before pid, events = before ++ [.signalled (.tree pid) signal]
  reports : ∀ report, s'.stage.result? = some (.ok report) →
    .reaped ∈ events ∧ report.treeTerminationDegraded = s'.treeDegraded
  errors : ∀ error, s'.stage.result? = some (.error error) → error.containmentFailed = false →
    .reaped ∈ events ∧ s'.treeDegraded = false
  childless : ∀ pid, .started pid ∉ events

variable {s : Invocation} {events : List Event}

theorem Waits.quiet {s₁ : Invocation} (h : Waits answer s s₁ events) :
    .reaped ∉ events ∧ ∀ pid, .started pid ∉ events := by
  cases h <;> simp

variable {s' : Invocation}

theorem Attempts.move {delivered : Prop} (hflagged : Flagged s s')
    (hbegun : s'.stage.isUnbegun = false) (hres : s'.stage.result? = none)
    (hcover : s'.stage.isCovered = true → delivered ∨ s'.treeDegraded = true)
    (hsent : ∀ pass signal, s'.stage ≠ .signalling pass signal .sent)
    (hquiet : .reaped ∉ events ∧ ∀ pid, .started pid ∉ events) :
    Attempts delivered s s' events where
  flagged := hflagged
  begun := hbegun
  covered h := h.elim hcover fun hreaped => absurd hreaped hquiet.1
  sent pass signal hstage := absurd hstage (hsent pass signal)
  reports report h := by simp [hres] at h
  errors error h := by simp [hres] at h
  childless := hquiet.2

namespace Invocation

variable {config : SubprocessSupervisorConfig} {delivered : Prop} {s s' : Invocation} {pass : Pass}
  {signal : TreeSignal} {events : List Event} {answer : Answer}

theorem flagged_degrade (hmode : config.processTreeMode = .isolatedTree) :
    (s.degrade config).treeDegraded = true ∧
      0 < (s.degrade config).counters.treeTerminationFailures := by
  rw [degrade, if_pos hmode]
  exact ⟨rfl, Nat.succ_pos _⟩

/-- The child is reaped after a signal was delivered, or with the flag set. -/
theorem attempts_reap (hflagged : Flagged s s') (hcover : delivered ∨ s'.treeDegraded = true)
    (pass : Pass) (status : ExitStatus) :
    Attempts delivered s (s'.reap pass status).1 (s'.reap pass status).2 := by
  cases pass with
  | supervision termination =>
    refine ⟨hflagged, rfl, fun _ => hcover, by simp [reap], ?_, by simp [reap, Stage.result?],
      by simp [reap]⟩
    intro report hres
    cases hres
    exact ⟨mem_cons_self, rfl⟩
  | cleanup error =>
    refine ⟨hflagged, rfl, fun _ => hcover, by simp [reap], by simp [reap, Stage.result?], ?_,
      by simp [reap]⟩
    intro reported hres hcontained
    cases hres
    refine ⟨mem_cons_self, ?_⟩
    -- With the flag set, the error would carry the marker.
    cases hflag : s'.treeDegraded with
    | false => exact hflag
    | true => simp [hflag, SubprocessError.withContainmentFailure] at hcontained

end Invocation

variable {config : SubprocessSupervisorConfig} {next : Invocation × List Event} {answer : Answer}

/-- After its first look at the child, `terminate_and_reap` attempts to contain it. -/
theorem Supervises.attempts {delivered : Prop} (h : Supervises config s answer next)
    (hmode : config.processTreeMode = .isolatedTree) (hbegun : s.stage.isUnbegun = false)
    (hcover : s.stage.isCovered = true → delivered ∨ s.treeDegraded = true)
    (hdelivers : Delivers s answer → delivered) : Attempts delivered s next.1 next.2 := by
  have hflag : ∀ s₁ : Invocation, _ := fun s₁ => Invocation.flagged_degrade (s := s₁) hmode
  cases h with
  | moves hunbegun | exits hunbegun => simp [hbegun] at hunbegun
  | finds => exact Invocation.attempts_reap (.inr (hflag s)) (.inr (hflag s).1) _ _
  | reaps hfrom => exact Invocation.attempts_reap (.inl ⟨rfl, rfl⟩) (hcover hfrom) _ _
  | @degrades s₁ _ _ hwaits =>
    exact .move (.inr (hflag s₁)) rfl rfl (fun _ => .inr (hflag s₁).1) (by simp) hwaits.quiet
  | delivers hans hsent hstage =>
    have hdeliv := hdelivers ⟨hans, _, _, hsent⟩
    rcases hstage with rfl | rfl <;>
      exact .move (.inl ⟨rfl, rfl⟩) rfl rfl (fun _ => .inl hdeliv) (by simp) (by simp)
  | looksUp _ hprog =>
    exact .move (.inl ⟨rfl, rfl⟩) rfl rfl (by simp [Stage.isCovered])
      (fun _ _ heq => hprog (Stage.signalling.inj heq).2.2) (by simp)
  | sends _ _ target _ htree pass signal =>
    refine ⟨.inl ⟨rfl, rfl⟩, rfl, by simp [Stage.isCovered], ?_, by simp [Stage.result?],
      by simp [Stage.result?], by simp⟩
    intro other sent hstage
    obtain ⟨-, rfl, -⟩ := Stage.signalling.inj hstage
    -- In this mode only the tree is signalled.
    obtain ⟨pid, rfl⟩ := htree hmode
    exact ⟨[], pid, rfl⟩
  | @requests s₁ _ hfrom hwaits pass =>
    have hkept := hcover hfrom
    unfold Invocation.requestKill
    cases s₁.pinnedTarget <;> cases hwaits <;>
      exact .move (.inl ⟨rfl, rfl⟩) rfl rfl (fun _ => hkept) (by simp) (by simp)
  | kills hfrom _ _ _ hstage =>
    have hkept := hcover hfrom
    rcases hstage with rfl | rfl <;>
      exact .move (.inl ⟨rfl, rfl⟩) rfl rfl (fun _ => hkept) (by simp) (by simp)
  | @fails s₁ _ _ hwaits pass error =>
    have hsame : Flagged s (s₁.fail pass error) := by
      cases hwaits <;> cases pass <;> exact .inl ⟨rfl, rfl⟩
    cases pass with
    | supervision =>
      exact .move hsame rfl rfl (by simp [Invocation.fail, Stage.isCovered])
        (by simp [Invocation.fail]) hwaits.quiet
    | cleanup cause =>
      refine ⟨hsame, rfl, ?_, by simp [Invocation.fail], by simp [Invocation.fail, Stage.result?],
        ?_, hwaits.quiet.2⟩
      · simp [Invocation.fail, Stage.isCovered, hwaits.quiet.1]
      · -- The error of a failed cleanup is always marked.
        intro reported hres hcontained
        cases hres
        cases hcontained

/-! ## One answer before termination -/

/-- The consequences of an answer to `supervise` outside `terminate_and_reap`: it goes on, begins
to terminate the child, or reports a child that has exited on its own. -/
structure Watches (s s' : Invocation) : Prop where
  degraded : s'.treeDegraded = s.treeDegraded
  stage : s'.stage.isTerminating = false
  results : ∀ result, s'.stage.result? = some result →
    ∃ code, result = .ok ⟨.exited, code, s.treeDegraded⟩

theorem Supervises.watches (h : Supervises config s answer next)
    (hunbegun : s.stage.isUnbegun = true) : Watches s next.1 := by
  cases h with
  | @moves _ _ stage _ _ hwaits howned hstage =>
    refine ⟨by cases hwaits <;> rfl, hstage, fun result hres => ?_⟩
    cases stage <;> simp_all [Stage.isOwned, Stage.result?]
  | exits _ status => exact ⟨rfl, rfl, fun _ hres => ⟨status.code, (Option.some.inj hres).symm⟩⟩
  | finds hbegun | degrades hbegun | looksUp hbegun | sends hbegun => simp [hunbegun] at hbegun
  | delivers _ hsent => simp [hsent, Stage.isUnbegun] at hunbegun
  | reaps hcover | requests hcover | kills hcover | fails hcover =>
    simp [Stage.isUnbegun_of_isCovered hcover] at hunbegun

/-! ## The invariant -/

/-- What an invocation shows of its containment, when `delivered` says whether a signal was
reported delivered and `setOut` whether termination was begun. -/
structure Contained (delivered setOut : Prop) (s : Invocation) (past : List Event) : Prop where
  counted : s.treeDegraded = true → 0 < s.counters.treeTerminationFailures
  unbegun : s.stage.isUnbegun = true → ¬ setOut ∧ s.treeDegraded = false
  terminating : s.stage.isTerminating = true → setOut
  covered : s.stage.isCovered = true → delivered ∨ s.treeDegraded = true
  sent : ∀ pass signal, s.stage = .signalling pass signal .sent →
    ∃ before pid, past = before ++ [.signalled (.tree pid) signal]
  reaped : .reaped ∈ past → setOut → delivered ∨ s.treeDegraded = true
  reports : ∀ report, s.stage.result? = some (.ok report) →
    report.treeTerminationDegraded = s.treeDegraded ∧
      (report.termination = .exited ∨ ¬ Spawned past ∨ .reaped ∈ past ∧ setOut)
  errors : ∀ error, s.stage.result? = some (.error error) → error.containmentFailed = false →
    ¬ Spawned past ∨ s.treeDegraded = false ∧ .reaped ∈ past ∧ setOut

section contained

variable {delivered delivered' setOut setOut' : Prop} {past : List Event} {answers : List Answer}
  {stage : Stage}

theorem Contained.init : Contained False False init [] where
  counted h := by cases h
  unbegun _ := ⟨not_false, rfl⟩
  terminating h := by cases h
  covered h := by cases h
  sent pass signal h := by cases h
  reaped h := by cases h
  reports report h := by cases h
  errors error h := by cases h

theorem Flagged.counted (h : Flagged s s')
    (hcount : s.treeDegraded = true → 0 < s.counters.treeTerminationFailures) :
    s'.treeDegraded = true → 0 < s'.counters.treeTerminationFailures := by
  rcases h with ⟨hflag, hcounter⟩ | ⟨-, hpos⟩
  · rw [hflag, hcounter]
    exact hcount
  · exact fun _ => hpos

theorem Contained.attempts (h : Contained delivered setOut s past) (hpast : .reaped ∉ past)
    (hset : setOut') (hatts : Attempts delivered' s s' events) :
    Contained delivered' setOut' s' (past ++ events) where
  counted := hatts.flagged.counted h.counted
  unbegun hunbegun := by simp [hatts.begun] at hunbegun
  terminating _ := hset
  covered hcover := hatts.covered (.inl hcover)
  sent pass signal hstage := by
    obtain ⟨before, pid, rfl⟩ := hatts.sent pass signal hstage
    exact ⟨past ++ before, pid, (append_assoc ..).symm⟩
  reaped hreaped _ := by
    rcases mem_append.mp hreaped with hpre | hnow
    · exact absurd hpre hpast
    · exact hatts.covered (.inr hnow)
  reports report hres := by
    obtain ⟨hreaped, hflag⟩ := hatts.reports report hres
    exact ⟨hflag, .inr (.inr ⟨mem_append_right _ hreaped, hset⟩)⟩
  errors error hres hcontained := by
    obtain ⟨hreaped, hflag⟩ := hatts.errors error hres hcontained
    exact .inr ⟨hflag, mem_append_right _ hreaped, hset⟩

theorem Stage.isTerminating_of_isCovered (h : stage.isCovered = true) :
    stage.isTerminating = true := by
  cases stage <;> simp_all [Stage.isCovered, Stage.isTerminating]

/-- As long as termination was not begun there is nothing to show, except of a result. -/
theorem Contained.patient (hflag : s.treeDegraded = false) (hset : ¬ setOut)
    (hstage : s.stage.isTerminating = false)
    (hreps : ∀ report, s.stage.result? = some (.ok report) →
      report.treeTerminationDegraded = false ∧ (report.termination = .exited ∨ ¬ Spawned past))
    (herrors : ∀ error, s.stage.result? = some (.error error) → ¬ Spawned past) :
    Contained delivered setOut s past where
  counted h := by simp [hflag] at h
  unbegun _ := ⟨hset, hflag⟩
  terminating h := by simp [hstage] at h
  covered h := by simp [Stage.isTerminating_of_isCovered h] at hstage
  sent pass signal h := by simp [h, Stage.isTerminating] at hstage
  reaped _ h := absurd h hset
  reports report hres := by
    obtain ⟨hrep, hchild⟩ := hreps report hres
    exact ⟨hrep.trans hflag.symm, hchild.imp_right .inl⟩
  errors error hres _ := .inl (herrors error hres)

theorem Contained.watches (h : Contained delivered setOut s past)
    (hunbegun : s.stage.isUnbegun = true) (hset : ¬ setOut') (hwatches : Watches s s') :
    Contained delivered' setOut' s' (past ++ events) := by
  obtain ⟨-, hflag⟩ := h.unbegun hunbegun
  refine .patient (hwatches.degraded.trans hflag) hset hwatches.stage ?_ ?_
  · intro report hres
    obtain ⟨code, heq⟩ := hwatches.results _ hres
    cases heq
    exact ⟨hflag, .inl rfl⟩
  · intro error hres
    obtain ⟨code, heq⟩ := hwatches.results _ hres
    cases heq

/-- Dropping the guard leaves the flag alone, and may count a failure. -/
theorem Invocation.dropGuard_flag (s : Invocation) (success : Bool) :
    (s.dropGuard success).1.treeDegraded = s.treeDegraded ∧
      s.counters.treeTerminationFailures ≤
        (s.dropGuard success).1.counters.treeTerminationFailures := by
  obtain ⟨stage, pid, pinned, armed, degraded, counters⟩ := s
  cases armed with
  | false => exact ⟨rfl, le_rfl⟩
  | true =>
    cases pinned with
    | false => exact ⟨rfl, Nat.le_succ _⟩
    | true =>
      cases pid with
      | none => exact ⟨rfl, Nat.le_succ _⟩
      | some pid =>
        cases success with
        | true => exact ⟨rfl, le_rfl⟩
        | false => exact ⟨rfl, Nat.le_succ _⟩

theorem Contained.close (h : Contained delivered setOut s past) (stage : Stage) (success : Bool)
    (hstage : stage = .dropped ∨ ∃ result, s.stage = .draining result ∧ stage = .returned result) :
    Contained delivered setOut (s.close stage success).1 (past ++ (s.close stage success).2) := by
  obtain ⟨hflag, hfails⟩ := s.dropGuard_flag success
  have hevents : (s.close stage success).2 = [.guardDropped s.guardTarget] :=
    (s.dropGuard_eq success).2
  have hclosed : (s.close stage success).1.stage = stage := rfl
  have hdegraded : (s.close stage success).1.treeDegraded = s.treeDegraded := hflag
  have hspawned : Spawned (past ++ [.guardDropped s.guardTarget]) → Spawned past := by
    rintro ⟨pid, hpid⟩
    exact ⟨pid, by simpa using hpid⟩
  have hreaped : .reaped ∈ past ++ [.guardDropped s.guardTarget] ↔ Event.reaped ∈ past := by simp
  -- An invocation that is closed does not go on terminating its child.
  have hkinds : stage.isUnbegun = false ∧ stage.isTerminating = false ∧
      ∀ result, stage.result? = some result → s.stage.result? = some result := by
    rcases hstage with rfl | ⟨result, hres, rfl⟩
    · exact ⟨rfl, rfl, fun _ hnone => by cases hnone⟩
    · exact ⟨rfl, rfl, fun _ hsome => by rw [hres]; exact hsome⟩
  obtain ⟨hunbegun, hterm, hress⟩ := hkinds
  rw [hevents]
  exact {
    counted := fun htrue => (h.counted (hdegraded ▸ htrue)).trans_le hfails
    unbegun := fun htrue => by simp [hclosed, hunbegun] at htrue
    terminating := fun htrue => by simp [hclosed, hterm] at htrue
    covered := fun htrue => by
      have := Stage.isTerminating_of_isCovered htrue
      simp [hclosed, hterm] at this
    sent := fun pass signal heq => by
      rw [hclosed] at heq
      simp [heq, Stage.isTerminating] at hterm
    reaped := fun hmem hset => by
      rw [hdegraded]
      exact h.reaped (hreaped.mp hmem) hset
    reports := fun report hres => by
      obtain ⟨hrep, hchild⟩ := h.reports report (hress _ hres)
      rw [hdegraded, hreaped]
      exact ⟨hrep, hchild.imp_right (Or.imp_left (mt hspawned))⟩
    errors := fun error hres hcontained => by
      have hchild := h.errors error (hress _ hres) hcontained
      rw [hdegraded, hreaped]
      exact hchild.imp_left (mt hspawned) }

theorem Contained.mono (h : Contained delivered setOut s past) (hdeliv : delivered → delivered')
    (hset : setOut ↔ setOut') : Contained delivered' setOut' s past := by
  rw [hset] at h
  exact {
    counted := h.counted
    unbegun := h.unbegun
    terminating := h.terminating
    covered := fun hcover => (h.covered hcover).imp_left hdeliv
    sent := h.sent
    reaped := fun hreaped hset => (h.reaped hreaped hset).imp_left hdeliv
    reports := h.reports
    errors := h.errors }

theorem Stage.not_isProbing_of_isUnbegun (h : stage.isUnbegun = true) :
    stage.isProbing = false := by
  cases stage <;> simp_all [Stage.isUnbegun, Stage.isProbing]

theorem Contained.effect (h : Contained delivered setOut s past)
    (hmode : config.processTreeMode = .isolatedTree) (hcust : Custody config s past)
    (heff : Effect config s answer next) :
    Contained (delivered ∨ Delivers s answer) (setOut ∨ s.stage.isProbing = true) next.1
      (past ++ next.2) := by
  have hunset (hunbegun : s.stage.isUnbegun = true) : ¬ (setOut ∨ s.stage.isProbing = true) := by
    simp [(h.unbegun hunbegun).1, Stage.not_isProbing_of_isUnbegun hunbegun]
  have hearly (hearly : s.stage.isEarly = true) : s.stage.isUnbegun = true := by
    cases hstage : s.stage <;> simp_all [Stage.isEarly, Stage.isUnbegun]
  cases heff with
  | @childless stage _ hfrom hstage =>
    obtain rfl := hcust.early hfrom
    have hspawned : ¬ Spawned ([] ++ []) := by simp [Spawned]
    refine .patient (h.unbegun (hearly hfrom)).2 (hunset (hearly hfrom)) ?_ ?_ fun _ _ => hspawned
    · rcases hstage with rfl | rfl | ⟨error, rfl⟩ | rfl <;> rfl
    · intro report hres
      refine ⟨?_, .inr hspawned⟩
      rcases hstage with rfl | rfl | ⟨error, rfl⟩ | rfl <;> cases hres
      rfl
  | @spawns _ stage _ hfrom howned hstage =>
    have hres : stage.result? = none := by
      cases stage <;> simp_all [Stage.isOwned, Stage.result?]
    exact .patient (h.unbegun (hearly hfrom)).2 (hunset (hearly hfrom)) hstage (by simp [hres])
      (by simp [hres])
  | supervises howned hsup =>
    cases hunbegun : s.stage.isUnbegun with
    | true => exact h.watches hunbegun (hunset hunbegun) (hsup.watches hunbegun)
    | false =>
      refine h.attempts (hcust.owned howned) ?_ (hsup.attempts hmode hunbegun
        (fun hcover => (h.covered hcover).imp_left .inl) .inr)
      cases hstage : s.stage <;>
        simp_all [Stage.isOwned, Stage.isUnbegun, Stage.isProbing, h.terminating,
          Stage.isTerminating]
  | closes _ hprobing hstage success =>
    exact (h.close _ success hstage).mono .inl (by simp [hprobing])

theorem contained_run (hmode : config.processTreeMode = .isolatedTree)
    (hrun : (machine config).run init answers = some (s, events)) :
    Contained ((machine config).Takes init answers Delivers) (SetsOutToTerminate config answers) s
      events := by
  refine Machine.run_reached (I := fun s answers past =>
    Contained ((machine config).Takes init answers Delivers) (SetsOutToTerminate config answers)
      s past) ?_ hrun ?_
  · intro s₁ answers past answer s₂ events hpre h hstep
    have hcust := custody_run hpre
    have hnext := h.effect hmode hcust (effect_of_step hcust.needsPin hstep)
    exact hnext.mono (Machine.takes_concat hpre).mpr (Machine.takes_concat hpre).symm
  · exact Contained.init.mono False.elim (iff_of_false not_false Machine.not_takes_nil)

/-- The helper that answers was sent to the tree of a child that is still pinned. -/
theorem treeSignalDelivered_of_takes (hmode : config.processTreeMode = .isolatedTree)
    (h : (machine config).Takes init answers Delivers) : TreeSignalDelivered config answers := by
  obtain ⟨before, answer, rest, s, past, hsplit, hrun, rfl, pass, signal, hstage⟩ := h
  have hcust := custody_run hrun
  obtain ⟨earlier, pid, rfl⟩ := (contained_run hmode hrun).sent pass signal hstage
  obtain ⟨hpid, hreaped, hwaited⟩ := hcust.lawful earlier _ [] rfl
  have hreserved : Reserved (earlier ++ [.signalled (.tree pid) signal]) := by
    simp [Reserved, hreaped, hwaited]
  exact ⟨before, rest, s, _, pass, signal, pid, hsplit, hrun, hstage, by simp, hpid,
    hcust.pinned.mpr hreserved.2, hreserved⟩

end contained

/-- In `IsolatedTree` mode, over all answers: a report of a terminated child that is not marked
as degraded, and an error about a child that is not marked as a containment failure, come after
a tree signal was delivered while the child was pinned, and the child of such an error was
reaped; a degraded report, or the reaping of a child that was to be terminated without such a
signal, is counted. -/
theorem containment_degradation_visible {config : SubprocessSupervisorConfig}
    (hmode : config.processTreeMode = .isolatedTree) {answers : List Answer} {s : Invocation}
    {events : List Event} (hrun : (machine config).run init answers = some (s, events)) :
    (∀ report, s.stage = .returned (.ok report) → Spawned events →
      report.termination ≠ .exited → report.treeTerminationDegraded = false →
        TreeSignalDelivered config answers) ∧
    (∀ error, s.stage = .returned (.error error) → Spawned events →
      error.containmentFailed = false →
        .reaped ∈ events ∧ TreeSignalDelivered config answers) ∧
    (∀ report, s.stage = .returned (.ok report) → report.treeTerminationDegraded = true →
      0 < s.counters.treeTerminationFailures) ∧
    (.reaped ∈ events → SetsOutToTerminate config answers →
      ¬ TreeSignalDelivered config answers → 0 < s.counters.treeTerminationFailures) ∧
    events.filter Event.isNews = answers.flatMap Answer.news := by
  have h := contained_run hmode hrun
  have hdelivered : (machine config).Takes init answers Delivers →
      TreeSignalDelivered config answers := treeSignalDelivered_of_takes hmode
  -- A child that was to be terminated and was reaped shows one of the two.
  have hcovered : .reaped ∈ events → SetsOutToTerminate config answers →
      TreeSignalDelivered config answers ∨ s.treeDegraded = true :=
    fun hreaped hset => (h.reaped hreaped hset).imp_left hdelivered
  refine ⟨?_, ?_, ?_, ?_, news_run hrun⟩
  · intro report hstage hspawned hterminated hcontained
    obtain ⟨hflag, hchild⟩ := h.reports report (by rw [hstage]; rfl)
    rcases hchild with hexited | hnone | ⟨hreaped, hset⟩
    · exact absurd hexited hterminated
    · exact absurd hspawned hnone
    · refine (hcovered hreaped hset).resolve_right ?_
      simp [← hflag, hcontained]
  · intro error hstage hspawned hcontained
    rcases h.errors error (by rw [hstage]; rfl) hcontained with hnone | ⟨hflag, hreaped, hset⟩
    · exact absurd hspawned hnone
    · exact ⟨hreaped, (hcovered hreaped hset).resolve_right (by simp [hflag])⟩
  · intro report hstage hdegraded
    obtain ⟨hflag, -⟩ := h.reports report (by rw [hstage]; rfl)
    exact h.counted (hflag ▸ hdegraded)
  · intro hreaped hset hundelivered
    exact h.counted ((hcovered hreaped hset).resolve_left hundelivered)

/-- A child that runs into its deadline ignores the graceful signal, which no helper delivers,
and ends with the forced one. -/
theorem containment_degradation_visible_forced :
    let config : SubprocessSupervisorConfig := ⟨.unix, .isolatedTree, none⟩
    let answers : List Answer :=
      [.admitted, .spawned (some 42), .deadline, .waited .running, .elapsed, .lookedUp (some 42),
        .lookedUp (some 7), .helperEnded true, .waited (.exited ⟨some 137⟩), .drained true]
    let last := (machine config).after init answers
    last.1.stage = .returned (.ok ⟨.timedOut, some 137, false⟩) ∧
      TreeSignalDelivered config answers := by
  intro config answers last
  have hrun : (machine config).run init answers = some last :=
    Machine.run_eq_after (by decide +kernel)
  have hstage : last.1.stage = .returned (.ok ⟨.timedOut, some 137, false⟩) := by decide +kernel
  have hspawned : .started (some 42) ∈ last.2 := by decide +kernel
  clear_value last
  obtain ⟨hreports, -⟩ := containment_degradation_visible rfl hrun
  exact ⟨hstage, hreports _ hstage ⟨_, hspawned⟩ (by decide) rfl⟩

end PlenoraRuntime.Subprocess
