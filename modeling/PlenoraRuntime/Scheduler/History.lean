import Mathlib.Data.List.Infix
import PlenoraRuntime.Foundation.Slots
import PlenoraRuntime.Scheduler.Update

/-!
# What a history records

Facts that relate the state to everything reported so far: dispatcher calls are
numbered in increasing order, every tick was started at its instant, and the
`skipped_misfires` counter of a tick is the number of occurrences it skipped, up
to the saturation of the counter.
-/

namespace PlenoraRuntime.Scheduler

open Transition List

variable {T : Type*}

def Event.startedCall : Event T → Option ℕ
  | .dispatched call _ _ _ => some call
  | _ => none

def Event.isSkipBy (i : ℕ) : Event T → Bool
  | .skipped j _ => j = i
  | _ => false

/-- The number of occurrences that tick `i` skipped. -/
def skipsBy (i : ℕ) (history : List (Event T)) : ℕ :=
  history.countP (Event.isSkipBy i)

/-- The state agrees with the history that led to it. -/
structure Chronicle (s : State T) (history : List (Event T)) : Prop where
  calls_increase : (history.filterMap Event.startedCall).Pairwise (· < ·)
  call_lt : ∀ call ∈ history.filterMap Event.startedCall, call < s.flags.length
  started : ∀ {i tick}, s.ticks[i]? = some tick → .tickStarted i tick.now ∈ history
  counted : ∀ {i tick}, s.ticks[i]? = some tick →
    tick.report.skippedMisfires = min (skipsBy i history) usizeMax
  unstarted : ∀ {i}, s.ticks.length ≤ i → skipsBy i history = 0
  finished : ∀ {past i report}, past ++ [.tickFinished i report] <+: history →
    report.skippedMisfires = min (skipsBy i past) usizeMax

namespace Chronicle

variable {s s' : State T} {history : List (Event T)} {event : Event T} {i : ℕ}

theorem silent (h : Chronicle s history) (hflags : s'.flags.length = s.flags.length)
    (hlen : s'.ticks.length = s.ticks.length)
    (hticks : ∀ {i : ℕ} {tick' : Tick T}, s'.ticks[i]? = some tick' →
      ∃ tick : Tick T, s.ticks[i]? = some tick ∧ tick'.now = tick.now ∧
      tick'.report.skippedMisfires = tick.report.skippedMisfires) : Chronicle s' history where
  calls_increase := h.calls_increase
  call_lt := by
    rw [hflags]
    exact h.call_lt
  started := by
    intro i tick' htick'
    obtain ⟨tick, htick, hnow, _⟩ := hticks htick'
    rw [hnow]
    exact h.started htick
  counted := by
    intro i tick' htick'
    obtain ⟨tick, htick, _, hskip⟩ := hticks htick'
    rw [hskip]
    exact h.counted htick
  unstarted := by
    intro i hi
    exact h.unstarted (hlen ▸ hi)
  finished := h.finished

/-- The report of every finished tick, with one more event. -/
theorem finished_append (h : Chronicle s history)
    (hfinish : ∀ i report, event = .tickFinished i report →
      report.skippedMisfires = min (skipsBy i history) usizeMax) {past report}
    (hinit : past ++ [.tickFinished i report] <+: history ++ [event]) :
    report.skippedMisfires = min (skipsBy i past) usizeMax := by
  rcases prefix_concat_iff.mp hinit with hwhole | hpast
  · obtain ⟨rfl, hevent⟩ := append_inj' hwhole rfl
    exact hfinish i report (by simpa using hevent.symm)
  · exact h.finished hpast

/-- An event that starts no call, skips nothing and finishes no tick. -/
theorem append (h : Chronicle s history) (hcall : event.startedCall = none)
    (hskip : ∀ i, event.isSkipBy i = false)
    (hfinish : ∀ i report, event = .tickFinished i report →
      report.skippedMisfires = min (skipsBy i history) usizeMax) :
    Chronicle s (history ++ [event]) := by
  have hskips : ∀ i, skipsBy i (history ++ [event]) = skipsBy i history := by
    intro i
    simp [skipsBy, hskip i]
  refine ⟨?_, ?_, ?_, ?_, ?_, h.finished_append hfinish⟩
  · simpa [hcall] using h.calls_increase
  · simpa [hcall] using h.call_lt
  · intro i tick htick
    exact mem_append_left _ (h.started htick)
  · intro i tick htick
    rw [hskips]
    exact h.counted htick
  · intro i hi
    rw [hskips]
    exact h.unstarted hi

theorem congr (h : Chronicle s history) (hflags : s'.flags.length = s.flags.length)
    (hticks : s'.ticks = s.ticks) : Chronicle s' history := by
  refine h.silent hflags (by rw [hticks]) ?_
  intro i tick htick
  exact ⟨tick, hticks ▸ htick, rfl, rfl⟩

theorem setTick (h : Chronicle s history) {tick tick' : Tick T} (htick : s.ticks[i]? = some tick)
    (hnow : tick'.now = tick.now)
    (hskip : tick'.report.skippedMisfires = tick.report.skippedMisfires) :
    Chronicle (s.setTick i tick') history := by
  refine h.silent rfl (by simp [State.setTick]) ?_
  intro j other hother
  rcases Slots.getElem?_set_eq_some.mp hother with ⟨rfl, _, rfl⟩ | ⟨_, hsame⟩
  · exact ⟨tick, htick, hnow, hskip⟩
  · exact ⟨other, hsame, rfl, rfl⟩

theorem start (h : Chronicle s history) {tick : Tick T}
    (hrep : tick.report.skippedMisfires = 0) :
    Chronicle { s with ticks := s.ticks ++ [tick] }
      (history ++ [.tickStarted s.ticks.length tick.now]) := by
  have happend : Chronicle s (history ++ [.tickStarted s.ticks.length tick.now]) :=
    h.append rfl (fun _ => rfl) (by simp)
  refine ⟨happend.calls_increase, happend.call_lt, ?_, ?_, ?_, happend.finished⟩
  · intro i other hother
    rcases Slots.getElem?_concat_eq_some.mp hother with hold | ⟨rfl, rfl⟩
    · exact happend.started hold
    · simp
  · intro i other hother
    rcases Slots.getElem?_concat_eq_some.mp hother with hold | ⟨rfl, rfl⟩
    · exact happend.counted hold
    · rw [happend.unstarted le_rfl, hrep]
      rfl
  · intro i hi
    rw [length_append] at hi
    exact happend.unstarted (by omega)

theorem skip (h : Chronicle s history) {i : ℕ} {tick occurrence} (htick : s.ticks[i]? = some tick) :
    Chronicle (s.setTick i { tick with report := tick.report.skip })
      (history ++ [.skipped i occurrence]) := by
  have hlt : i < s.ticks.length := (List.getElem?_eq_some_iff.mp htick).1
  have hself : skipsBy i (history ++ [.skipped i occurrence]) = skipsBy i history + 1 := by
    simp [skipsBy, Event.isSkipBy]
  have hother : ∀ {j}, j ≠ i →
      skipsBy j (history ++ [.skipped i occurrence]) = skipsBy j history := by
    intro j hj
    simp [skipsBy, Event.isSkipBy, hj.symm]
  have hcalls : List.filterMap Event.startedCall (history ++ [Event.skipped i occurrence]) =
      history.filterMap Event.startedCall := by
    simp [filterMap_cons, Event.startedCall]
  refine ⟨hcalls ▸ h.calls_increase, hcalls ▸ h.call_lt, ?_, ?_, ?_, h.finished_append (by simp)⟩
  · intro j other hticks
    refine mem_append_left _ ?_
    rcases Slots.getElem?_set_eq_some.mp hticks with ⟨rfl, _, hcount⟩ | ⟨_, hsame⟩
    · have hnow : other.now = tick.now := by rw [← hcount]
      rw [hnow]
      exact h.started htick
    · exact h.started hsame
  · intro j other hticks
    rcases Slots.getElem?_set_eq_some.mp hticks with ⟨rfl, _, rfl⟩ | ⟨hj, hsame⟩
    · -- The counter saturates exactly when the number of skips reaches its limit.
      simp only [SchedulerTickReport.skip, saturatingAdd, Word.saturatingAdd, h.counted htick]
      change min (min _ usizeMax + 1) usizeMax = _
      omega
    · rw [hother hj]
      exact h.counted hsame
  · intro j hj
    rw [State.setTick, length_set] at hj
    rw [hother (by omega)]
    exact h.unstarted hj

theorem dispatch (h : Chronicle s history) {i : ℕ} {now : SystemTime} {occurrence}
    (hflags : s'.flags.length = s.flags.length + 1)
    (hticks : Chronicle { s' with flags := s.flags } history) :
    Chronicle s' (history ++ [.dispatched s.flags.length i now occurrence]) := by
  have hskips : ∀ j, skipsBy j (history ++ [.dispatched s.flags.length i now occurrence]) =
      skipsBy j history := by
    simp [skipsBy, Event.isSkipBy]
  have hcalls : List.filterMap Event.startedCall
      (history ++ [Event.dispatched s.flags.length i now occurrence]) =
        history.filterMap Event.startedCall ++ [s.flags.length] := by
    simp [Event.startedCall]
  refine ⟨?_, ?_, ?_, ?_, ?_, h.finished_append (by simp)⟩
  · rw [hcalls, pairwise_append]
    refine ⟨h.calls_increase, pairwise_singleton .., ?_⟩
    intro call hcall last hlast
    rw [mem_singleton.mp hlast]
    exact h.call_lt call hcall
  · rw [hcalls]
    exact forall_mem_concat (fun call hold => (h.call_lt call hold).trans (by omega)) (by omega)
  · intro j tick htick
    exact mem_append_left _ (hticks.started htick)
  · intro j tick htick
    rw [hskips]
    exact hticks.counted htick
  · intro j hj
    rw [hskips]
    exact hticks.unstarted hj

end Chronicle

section run

variable {config : SchedulerConfig} {s s' : State T} {history events : List (Event T)}

theorem State.restart_ticks (hrestart : s.restart config = some s') :
    s'.ticks = s.ticks.map (fun tick => { tick with phase := .done }) ∧
      s'.flags.length = s.flags.length := by
  simp only [State.restart, Option.map_eq_some_iff] at hrestart
  obtain ⟨builder, _, rfl⟩ := hrestart
  exact ⟨rfl, length_map ..⟩

theorem Update.chronicle (hupdate : Update config s events s') (h : Chronicle s history) :
    Chronicle s' (history ++ events) := by
  cases hupdate with
  | remark hremark =>
    refine h.append ?_ ?_ ?_ <;> cases hremark <;> simp [Event.startedCall, Event.isSkipBy]
  | prune | endTrigger | setStatus | clear => exact (append_nil history).symm ▸ h.congr rfl rfl
  | trigger | register | remove | resolve =>
    refine Chronicle.append ?_ rfl (fun _ => rfl) (by simp)
    exact h.congr rfl rfl
  | start now observesShutdown => exact h.start rfl
  | move htick _ hcont =>
    rw [append_nil]
    exact h.setTick htick hcont.now_eq hcont.skipped_eq
  | finish htick _ hcont =>
    refine (h.setTick htick hcont.now_eq hcont.skipped_eq).append rfl
      (fun _ => rfl) ?_
    intro i report heq
    cases heq
    rw [hcont.skipped_eq]
    exact h.counted htick
  | @skip i tick entry skipped due htick =>
    have hput : Chronicle { s with registry := s.registry.put skipped } history :=
      h.congr rfl rfl
    exact hput.skip htick
  | noSlot | missing | mismatch => exact h.append rfl (fun _ => rfl) (by simp)
  | @dispatch i tick tick' entry due htick hflight hfind hready hcont =>
    refine h.dispatch (by simp [State.launch]) ?_
    exact (h.setTick htick hcont.now_eq hcont.skipped_eq).congr rfl rfl
  | returned result htick _ _ hcont =>
    exact (h.setTick htick hcont.now_eq hcont.skipped_eq).append rfl
      (fun _ => rfl) (by simp)
  | settle htick _ _ _ _ _ hcont =>
    refine Chronicle.append ?_ rfl (fun _ => rfl) (by simp)
    exact (h.setTick htick hcont.now_eq hcont.skipped_eq).congr
      (length_set ..) rfl
  | drop htick _ hcont =>
    rw [append_nil]
    exact (h.setTick htick hcont.now_eq hcont.skipped_eq).congr
      (length_set ..) rfl
  | restart hrestart =>
    obtain ⟨hticks, hflags⟩ := State.restart_ticks hrestart
    -- The ticks of the old process are kept, with nothing left to do.
    refine Chronicle.append ?_ rfl (fun _ => rfl) (by simp)
    refine h.silent hflags (by rw [hticks, length_map]) ?_
    intro i tick' htick'
    rw [hticks, getElem?_map, Option.map_eq_some_iff] at htick'
    obtain ⟨tick, htick, rfl⟩ := htick'
    exact ⟨tick, htick, rfl, rfl⟩

theorem Reaches.chronicle (hreach : Reaches config history s) : Chronicle s history := by
  obtain ⟨builder, _, hrun⟩ := hreach
  refine (hrun.refine step_updates).history (fun h hupdate => hupdate.chronicle h) [] ?_
  constructor <;> simp [SchedulerBuilder.build, skipsBy]

/-- Dispatcher calls are numbered apart. -/
theorem Reaches.call_ne {before after} {call call' i j : ℕ} {now now' : SystemTime}
    {occurrence occurrence'}
    (hreach : Reaches config (before ++ .dispatched call i now occurrence :: after) s)
    (hlater : .dispatched call' j now' occurrence' ∈ after) : call < call' := by
  have hcalls := hreach.chronicle.calls_increase
  simp only [filterMap_append] at hcalls
  have htail := (pairwise_append.mp hcalls).2.1
  exact (pairwise_cons.mp htail).1 call' (mem_filterMap.mpr ⟨_, hlater, rfl⟩)

end run

end PlenoraRuntime.Scheduler
