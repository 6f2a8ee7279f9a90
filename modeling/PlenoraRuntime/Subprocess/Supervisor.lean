import PlenoraRuntime.Core.Text
import PlenoraRuntime.Foundation.Machine

/-!
# The subprocess supervisor

One invocation of `SubprocessSupervisor::run` is a sequential program that asks the
operating system again and again: whether the child has exited, whether a signal helper
has succeeded, how much memory the child uses. It is modelled by the place where it
waits for the next answer (`Stage`) and by a function that continues from there to the
next question. The answers are arbitrary. Where the place is an `await`, the future may
be dropped instead; where it is a plain call, it may not.

`terminate_and_reap` is called from supervision and, when supervision fails, once more
for cleaning up. `Pass` says which of the two calls is in progress, so that its result
goes where the source sends it.
-/

namespace PlenoraRuntime.Subprocess

open Transition

/-! ## Results -/

inductive ProcessTreeMode
  | directChild
  | isolatedTree
  deriving DecidableEq, Repr

inductive Platform
  | unix
  | windows
  deriving DecidableEq, Repr

/-- The parts of `SubprocessSupervisorConfig` that `run` reads, without the time limits. -/
structure SubprocessSupervisorConfig where
  platform : Platform
  processTreeMode : ProcessTreeMode
  residentMemoryLimitBytes : Option ℕ

inductive SubprocessCancellationPhase
  | queued
  | running
  deriving DecidableEq, Repr

inductive SubprocessTermination
  | exited
  | timedOut
  | cancelled (phase : SubprocessCancellationPhase)
  | residentMemoryLimitExceeded (observedBytes limitBytes : ℕ)
  deriving DecidableEq, Repr

/-- `ExitStatus`, by its code. -/
structure ExitStatus where
  code : Option ℤ
  deriving DecidableEq, Repr

/-- `SubprocessReport`, without the captured output and the time. -/
structure SubprocessReport where
  termination : SubprocessTermination
  exitCode : Option ℤ
  treeTerminationDegraded : Bool
  deriving DecidableEq, Repr

inductive SubprocessErrorKind
  | spawn
  | wait
  | termination
  | memorySample
  deriving DecidableEq, Repr

/-- `SubprocessError`, without its source. -/
structure SubprocessError where
  kind : SubprocessErrorKind
  message : Text
  containmentFailed : Bool := false
  deriving DecidableEq

def SubprocessError.withContainmentFailure (error : SubprocessError) : SubprocessError :=
  { error with containmentFailed := true }

/-- What one invocation adds to the counters. -/
structure Counters where
  started : ℕ := 0
  completed : ℕ := 0
  spawnFailures : ℕ := 0
  cancellations : ℕ := 0
  timeouts : ℕ := 0
  memoryTerminations : ℕ := 0
  treeTerminationFailures : ℕ := 0
  deriving DecidableEq, Repr

/-! ## Places -/

inductive TreeSignal
  | terminate
  | kill
  deriving DecidableEq, Repr

/-- Whom a signal is sent to: the process itself, or the tree that it leads. -/
inductive Target
  | process (pid : ℕ)
  | tree (pid : ℕ)
  deriving DecidableEq, Repr

/-- A call of `terminate_and_reap`: from supervision, which then reports the termination,
or from the cleanup after an error. -/
inductive Pass
  | supervision (termination : SubprocessTermination)
  | cleanup (error : SubprocessError)
  deriving DecidableEq

/-- How far `signal_process` has come. -/
inductive Signalling
  | lookingUpChild
  | lookingUpSupervisor (childGroup : ℕ)
  | sent
  deriving DecidableEq, Repr

/-- The place at which an invocation waits for an answer. -/
inductive Stage
  | queued
  | spawning
  | watching
  | sampling
  | resolvingSample
  | probing (pass : Pass)
  | signalling (pass : Pass) (signal : TreeSignal) (progress : Signalling)
  | waitingGracefully (pass : Pass)
  | reprobing (pass : Pass)
  | killing (pass : Pass)
  | resolvingKill (pass : Pass)
  | waitingHard (pass : Pass)
  | draining (result : Except SubprocessError SubprocessReport)
  | returned (result : Except SubprocessError SubprocessReport)
  | dropped
  deriving DecidableEq

/-- The place is an `await`, where the future may be dropped. -/
def Stage.isAwait : Stage → Bool
  | .queued | .watching | .sampling | .signalling .. | .waitingGracefully _ | .waitingHard _
  | .draining _ => true
  | .spawning | .resolvingSample | .probing _ | .reprobing _ | .killing _ | .resolvingKill _
  | .returned _ | .dropped => false

/-- An invocation of `run`: its place and its local variables. -/
structure Invocation where
  stage : Stage
  pid : Option ℕ
  leaderPinned : Bool
  guardArmed : Bool
  treeDegraded : Bool
  counters : Counters
  deriving DecidableEq

/-- What an invocation does that matters outside, and what it learns about its child.
`guardDropped` says whom the abandonment guard signalled. -/
inductive Event
  | started (pid : Option ℕ)
  | reaped
  | waitFailed
  | signalled (target : Target) (signal : TreeSignal)
  | guardDropped (target : Option Target)
  deriving DecidableEq, Repr

/-- The result of `wait` or `try_wait` on the child. -/
inductive WaitResult
  | exited (status : ExitStatus)
  | running
  | failed
  deriving DecidableEq, Repr

/-- What the operating system, the caller and time may answer. -/
inductive Answer
  | cancelled
  | admitted
  | admissionClosed
  | spawned (pid : Option ℕ)
  | spawnFailed
  | deadline
  | memoryTick
  | sampled (observed : Option ℕ)
  | waited (result : WaitResult)
  | lookedUp (group : Option ℕ)
  | helperEnded (success : Bool)
  | elapsed
  | killRequested (success : Bool)
  | drained (delivered : Bool)
  | abandoned (delivered : Bool)
  deriving DecidableEq, Repr

/-! ## The program between two questions -/

namespace Invocation

variable (config : SubprocessSupervisorConfig) (s : Invocation)

def pinnedTarget : Option ℕ :=
  if s.leaderPinned then s.pid else none

/-- `AbandonedTreeGuard::drop`, which is told whether its helper delivered the signal. -/
def dropGuard (delivered : Bool) : Invocation × List Event :=
  if !s.guardArmed then (s, [.guardDropped none])
  else
    match s.pinnedTarget with
    | some pid =>
      let counters := if delivered then s.counters
        else { s.counters with treeTerminationFailures := s.counters.treeTerminationFailures + 1 }
      ({ s with counters }, [.guardDropped (some (.tree pid))])
    | none =>
      ({ s with counters := { s.counters with
          treeTerminationFailures := s.counters.treeTerminationFailures + 1 } },
        [.guardDropped none])

/-- The tree may have survived. -/
def degrade : Invocation :=
  if config.processTreeMode = .isolatedTree then
    { s with
      treeDegraded := true
      counters := { s.counters with
        treeTerminationFailures := s.counters.treeTerminationFailures + 1 } }
  else s

/-- The child was reaped: `run` disarms the guard and counts the child. -/
def reap (pass : Pass) (status : ExitStatus) : Invocation × List Event :=
  let s' := { s with
    guardArmed := false
    counters := { s.counters with completed := s.counters.completed + 1 } }
  match pass with
  | .supervision termination =>
    ({ s' with stage := .draining (.ok ⟨termination, status.code, s.treeDegraded⟩) }, [.reaped])
  | .cleanup error =>
    ({ s' with stage := .draining (.error
        (if !s.treeDegraded then error else error.withContainmentFailure)) }, [.reaped])

/-- `terminate_and_reap` or supervision failed: supervision is followed by the cleanup, the
cleanup by the end. -/
def fail (pass : Pass) (error : SubprocessError) : Invocation :=
  match pass with
  | .supervision _ => { s with stage := .probing (.cleanup error) }
  | .cleanup cause => { s with stage := .draining (.error cause.withContainmentFailure) }

def target (pid : ℕ) : Target :=
  if config.processTreeMode = .isolatedTree then .tree pid else .process pid

/-- `signal_tree` begins: on Unix, groups are looked up before a tree is signalled. -/
def beginSignal (pass : Pass) (signal : TreeSignal) (pid : ℕ) : Invocation × List Event :=
  if config.platform = .unix ∧ config.processTreeMode = .isolatedTree then
    ({ s with stage := .signalling pass signal .lookingUpChild }, [])
  else
    ({ s with stage := .signalling pass signal .sent }, [.signalled (target config pid) signal])

/-- The forced part of `terminate_and_reap`. -/
def force (pass : Pass) : Invocation × List Event :=
  match s.pinnedTarget with
  | some pid => s.beginSignal config pass .kill pid
  | none => ({ s.degrade config with stage := .reprobing pass }, [])

/-- The graceful part of `terminate_and_reap`. -/
def terminate (pass : Pass) : Invocation × List Event :=
  match s.pinnedTarget with
  | some pid => s.beginSignal config pass .terminate pid
  | none => s.force config pass

/-- What follows a signal that was delivered, or was not. -/
def afterSignal (pass : Pass) (signal : TreeSignal) (delivered : Bool) :
    Invocation × List Event :=
  match signal with
  | .terminate =>
    if delivered then ({ s with stage := .waitingGracefully pass }, []) else s.force config pass
  | .kill =>
    let s' := if delivered then s else s.degrade config
    ({ s' with stage := .reprobing pass }, [])

/-- A wait failed: the identifier is no longer pinned. -/
def unpin : Invocation :=
  { s with leaderPinned := false }

/-- The last part of `terminate_and_reap`: a kill request, while the child is pinned. -/
def requestKill (pass : Pass) : Invocation :=
  match s.pinnedTarget with
  | some _ => { s with stage := .killing pass }
  | none => { s with stage := .waitingHard pass }

/-- The end of `run`, or of its future, once the child exists. -/
def close (stage : Stage) (delivered : Bool) : Invocation × List Event :=
  let (s', events) := s.dropGuard delivered
  ({ s' with stage }, events)

end Invocation

/-! ## The program -/

def admissionClosedError : SubprocessError :=
  { kind := .spawn, message := utf8 "subprocess admission control is closed" }

def spawnError : SubprocessError :=
  { kind := .spawn, message := utf8 "subprocess could not be started" }

def missingPidError : SubprocessError :=
  { kind := .spawn, message := utf8 "subprocess identifier is unavailable" }

def waitError : SubprocessError :=
  { kind := .wait, message := utf8 "subprocess wait failed" }

def memorySampleError : SubprocessError :=
  { kind := .memorySample
    message := utf8 "subprocess RSS sampling failed while enforcement was active" }

def killRequestError : SubprocessError :=
  { kind := .termination, message := utf8 "subprocess hard termination could not be requested" }

def hardTimeoutError : SubprocessError :=
  { kind := .termination
    message := utf8 "subprocess did not exit before the hard termination deadline" }

def hardWaitError : SubprocessError :=
  { kind := .termination, message := utf8 "subprocess wait failed after hard termination" }

namespace Invocation

variable (config : SubprocessSupervisorConfig) (s : Invocation)

/-- `run` waits for a permit. -/
def queued : Answer → Option (Invocation × List Event)
  | .cancelled =>
    let counters := { s.counters with cancellations := s.counters.cancellations + 1 }
    some ({ s with counters, stage := .returned (.ok ⟨.cancelled .queued, none, false⟩) }, [])
  | .admitted => some ({ s with stage := .spawning }, [])
  | .admissionClosed => some ({ s with stage := .returned (.error admissionClosedError) }, [])
  | _ => none

/-- `run` spawns the child; a child without an identifier is not supervised. -/
def spawning : Answer → Option (Invocation × List Event)
  | .spawnFailed =>
    let counters := { s.counters with spawnFailures := s.counters.spawnFailures + 1 }
    some ({ s with counters, stage := .returned (.error spawnError) }, [])
  | .spawned pid =>
    some ({ s with
      pid
      leaderPinned := true
      guardArmed := decide (config.processTreeMode = ProcessTreeMode.isolatedTree)
      counters := { s.counters with started := s.counters.started + 1 }
      stage := if pid.isSome then .watching else .probing (.cleanup missingPidError) },
      [.started pid])
  | _ => none

/-- The `select!` of `supervise`. -/
def watching : Answer → Option (Invocation × List Event)
  | .cancelled =>
    let counters := { s.counters with cancellations := s.counters.cancellations + 1 }
    some ({ s with counters, stage := .probing (.supervision (.cancelled .running)) }, [])
  | .deadline =>
    let counters := { s.counters with timeouts := s.counters.timeouts + 1 }
    some ({ s with counters, stage := .probing (.supervision .timedOut) }, [])
  | .waited (.exited status) => some (s.reap (.supervision .exited) status)
  | .waited .failed => some (s.unpin.fail (.supervision .exited) waitError, [.waitFailed])
  | .memoryTick =>
    if config.residentMemoryLimitBytes.isSome then some ({ s with stage := .sampling }, [])
    else none
  | _ => none

/-- `supervise` reads the memory of the child. -/
def sampling : Answer → Option (Invocation × List Event)
  | .sampled (some observed) =>
    let limit := config.residentMemoryLimitBytes.getD 0
    if limit < observed then
      let counters := { s.counters with
        memoryTerminations := s.counters.memoryTerminations + 1 }
      let termination := .residentMemoryLimitExceeded observed limit
      some ({ s with counters, stage := .probing (.supervision termination) }, [])
    else some ({ s with stage := .watching }, [])
  | .sampled none => some ({ s with stage := .resolvingSample }, [])
  | _ => none

/-- `poll_reaped` after a failed sample. -/
def resolvingSample : Answer → Option (Invocation × List Event)
  | .waited (.exited status) => some (s.reap (.supervision .exited) status)
  | .waited .running => some (s.fail (.supervision .exited) memorySampleError, [])
  | .waited .failed =>
    some (s.unpin.fail (.supervision .exited) memorySampleError, [.waitFailed])
  | _ => none

/-- The first `poll_reaped` of `terminate_and_reap`. -/
def probing (pass : Pass) : Answer → Option (Invocation × List Event)
  | .waited (.exited status) => some ((s.degrade config).reap pass status)
  | .waited .running => some (s.terminate config pass)
  | .waited .failed =>
    let (s', events) := s.unpin.terminate config pass
    some (s', .waitFailed :: events)
  | _ => none

/-- `signal_process`, under the time limit of `signal_tree`. -/
def signalling (pass : Pass) (signal : TreeSignal) :
    Signalling → Answer → Option (Invocation × List Event)
  | .lookingUpChild, .lookedUp (some group) =>
    some ({ s with stage := .signalling pass signal (.lookingUpSupervisor group) }, [])
  | .lookingUpSupervisor childGroup, .lookedUp (some group) =>
    -- `isolated_process_group_target`.
    if s.pid ≠ some childGroup ∨ childGroup = group then
      some (s.afterSignal config pass signal false)
    else
      some ({ s with stage := .signalling pass signal .sent },
        [.signalled (.tree childGroup) signal])
  | .lookingUpChild, .lookedUp none => some (s.afterSignal config pass signal false)
  | .lookingUpSupervisor _, .lookedUp none => some (s.afterSignal config pass signal false)
  | .sent, .helperEnded success => some (s.afterSignal config pass signal success)
  | _, .elapsed => some (s.afterSignal config pass signal false)
  | _, _ => none

/-- `terminate_and_reap` waits after the graceful signal. -/
def waitingGracefully (pass : Pass) : Answer → Option (Invocation × List Event)
  | .waited (.exited status) => some (s.reap pass status)
  | .waited .failed =>
    let (s', events) := s.unpin.force config pass
    some (s', .waitFailed :: events)
  | .elapsed => some (s.force config pass)
  | _ => none

/-- `poll_reaped` after the forced signal. -/
def reprobing (pass : Pass) : Answer → Option (Invocation × List Event)
  | .waited (.exited status) => some (s.reap pass status)
  | .waited .running => some (s.requestKill pass, [])
  | .waited .failed => some (s.unpin.requestKill pass, [.waitFailed])
  | _ => none

/-- `start_kill`. -/
def killing (pass : Pass) : Answer → Option (Invocation × List Event)
  | .killRequested success =>
    s.pid.map fun pid =>
      ({ s with stage := if success then .waitingHard pass else .resolvingKill pass },
        [.signalled (.process pid) .kill])
  | _ => none

/-- `poll_reaped` after a failed kill request. -/
def resolvingKill (pass : Pass) : Answer → Option (Invocation × List Event)
  | .waited (.exited status) => some (s.reap pass status)
  | .waited .running => some (s.fail pass killRequestError, [])
  | .waited .failed => some (s.unpin.fail pass killRequestError, [.waitFailed])
  | _ => none

/-- The last wait of `terminate_and_reap`. -/
def waitingHard (pass : Pass) : Answer → Option (Invocation × List Event)
  | .waited (.exited status) => some (s.reap pass status)
  | .waited .failed => some (s.unpin.fail pass hardWaitError, [.waitFailed])
  | .elapsed => some (s.fail pass hardTimeoutError, [])
  | _ => none

/-- `run` drains the output and returns. -/
def draining (result : Except SubprocessError SubprocessReport) :
    Answer → Option (Invocation × List Event)
  | .drained delivered => some (s.close (.returned result) delivered)
  | _ => none

def abandon (delivered : Bool) : Option (Invocation × List Event) :=
  if s.stage = .queued then some ({ s with stage := .dropped }, [])
  else if s.stage.isAwait then some (s.close .dropped delivered)
  else none

/-- Continues from the place of the invocation with an answer, if it is one to the question
asked there. -/
def advance : Answer → Option (Invocation × List Event)
  | .abandoned delivered => s.abandon delivered
  | answer =>
    match s.stage with
    | .queued => s.queued answer
    | .spawning => s.spawning config answer
    | .watching => s.watching config answer
    | .sampling => s.sampling config answer
    | .resolvingSample => s.resolvingSample answer
    | .probing pass => s.probing config pass answer
    | .signalling pass signal progress => s.signalling config pass signal progress answer
    | .waitingGracefully pass => s.waitingGracefully config pass answer
    | .reprobing pass => s.reprobing pass answer
    | .killing pass => s.killing pass answer
    | .resolvingKill pass => s.resolvingKill pass answer
    | .waitingHard pass => s.waitingHard pass answer
    | .draining result => s.draining result answer
    | .returned _ => none
    | .dropped => none

end Invocation

/-- One invocation of `SubprocessSupervisor::run`. -/
def machine (config : SubprocessSupervisorConfig) : Machine Invocation Answer Event where
  step s answer := s.advance config answer

/-- A future that was polled for the first time. -/
def init : Invocation where
  stage := .queued
  pid := none
  leaderPinned := true
  guardArmed := false
  treeDegraded := false
  counters := {}

end PlenoraRuntime.Subprocess
