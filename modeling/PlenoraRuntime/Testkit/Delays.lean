import PlenoraRuntime.Testkit.Conservation

/-!
# The fake broker and delivery delays

The latest disposition of a delivery says from when on it may be taken: its enqueueing,
with the delay of `enqueue_delayed`, or the `nack`, failed call or drop that put it back.
`Event.due` is that instant, where `wait` is what becomes of the delay of a
`NackReason::RetryAfter`. A caller expects to wait all of it, `complete_delivery` does not
look at it. So the broker is punctual when `wait` is zero, and for the callers exactly
when nobody asks for a delay.
-/

namespace PlenoraRuntime.Testkit

open Messaging Transition List

/-- From when on the delivery may be taken, when the event decides about it. -/
def Event.due (wait : Duration → Duration) (id : FakeDeliveryId) : Event → Option SystemTime
  | .enqueued id' now delay => if id' = id then some (now + delay) else none
  | .completed id' (.nack (.retryAfter delay)) true now =>
    if id' = id then some (now + wait delay) else none
  | .completed id' settlement accepted now =>
    if id' = id && !(accepted && settlement.final) then some now else none
  | .abandoned id' now => if id' = id then some now else none
  | .dequeued _ _ => none

def Event.about : Event → FakeDeliveryId
  | .enqueued id _ _ | .dequeued id _ | .completed id _ _ _ | .abandoned id _ => id

variable {id : FakeDeliveryId} {wait : Duration → Duration} {event : Event}

theorem Event.due_of_ne (h : event.about ≠ id) : event.due wait id = none := by
  unfold Event.due
  split <;> simp_all [Event.about]

/-- A call that puts the delivery back makes it available at once. -/
theorem Event.due_back {settlement : Settlement} {accepted : Bool}
    (h : (accepted && settlement.final) = false) (id : FakeDeliveryId) (now : SystemTime) :
    (Event.completed id settlement accepted now).due (fun _ => 0) id = some now := by
  unfold Event.due
  split <;> simp_all

/-- What the latest disposition of the delivery says. -/
def lastDue (wait : Duration → Duration) (id : FakeDeliveryId) (past : List Event) :
    Option SystemTime :=
  past.reverse.findSome? (Event.due wait id)

/-- No delivery was taken before its time. -/
def Punctual (wait : Duration → Duration) (events : List Event) : Prop :=
  ∀ n id now, events[n]? = some (.dequeued id now) →
    ∃ instant, lastDue wait id (events.take n) = some instant ∧ instant ≤ now

variable {events past : List Event}

section

variable {now : SystemTime} {queue : Multiset QueuedDelivery}

theorem lastDue_concat :
    lastDue wait id (past ++ [event]) = (event.due wait id).or (lastDue wait id past) := by
  rw [lastDue, reverse_concat, findSome?_cons]
  cases event.due wait id <;> rfl

theorem Punctual.concat (h : Punctual wait past)
    (hevent : ∀ id now, event = .dequeued id now → ∃ instant, lastDue wait id past = some instant ∧
      instant ≤ now) : Punctual wait (past ++ [event]) := by
  intro n id now hget
  rcases Slots.getElem?_concat_eq_some.mp hget with hpre | ⟨rfl, hlast⟩
  · rw [take_append_of_le_length (List.getElem?_eq_some_iff.mp hpre).1.le]
    exact h n id now hpre
  · rw [take_left]
    exact hevent id now hlast

/-- With the broker, a queued delivery waits for what its latest disposition says. -/
def Timely (queue : Multiset QueuedDelivery) (past : List Event) : Prop :=
  ∀ queued ∈ queue, lastDue (fun _ => 0) queued.id past = some queued.availableAt

theorem Timely.other (h : Timely queue past) (hevent : ∀ queued ∈ queue, event.about ≠ queued.id) :
    Timely queue (past ++ [event]) := by
  intro queued hmem
  rw [lastDue_concat, Event.due_of_ne (hevent queued hmem)]
  exact h queued hmem

theorem Timely.cons {new : QueuedDelivery} (h : Timely queue past)
    (hother : ∀ queued ∈ queue, event.about ≠ queued.id)
    (hevent : event.due (fun _ => 0) new.id = some new.availableAt) :
    Timely (new ::ₘ queue) (past ++ [event]) := by
  intro queued hmem
  rcases Multiset.mem_cons.mp hmem with rfl | hmem
  · rw [lastDue_concat, hevent, Option.some_or]
  · exact h.other hother queued hmem

/-- A call keeps the queue in time and takes nothing before its time. -/
theorem Timely.move {before after : Places}
    (hcons : Conserved before.nextId (before.queue + before.owned) past)
    (h : Timely before.queue past) (hpunctual : Punctual (fun _ => 0) past)
    (hmove : Move now before events after) :
    Timely after.queue (past ++ events) ∧ Punctual (fun _ => 0) (past ++ events) := by
  -- what is queued is neither new nor owned by anybody
  have hqueued : ∀ {queue owned : Multiset QueuedDelivery} {queued : QueuedDelivery},
      before.queue = queue → before.owned = queued ::ₘ owned →
        ∀ other ∈ queue, queued.id ≠ other.id := by
    rintro queue owned queued rfl howned other hmem
    rw [howned, Multiset.add_cons] at hcons
    exact (hcons.ne_id (Multiset.mem_add.mpr (.inl hmem))).symm
  cases hmove with
  | idle => simpa using ⟨h, hpunctual⟩
  | enqueue new delay hid _ hdue =>
    refine ⟨h.cons ?_ ?_, hpunctual.concat (by simp)⟩
    · intro queued hmem
      obtain ⟨rest, hrest⟩ := Multiset.exists_cons_of_mem (Multiset.mem_add.mpr (.inl hmem))
      rw [hrest] at hcons
      intro heq
      have hval : new.id.val = queued.id.val := congrArg Fin.val heq
      exact absurd (hval.symm.trans hid) hcons.id_lt.ne
    · simp [Event.due, hdue]
  | dequeue queued hready =>
    refine ⟨?_, hpunctual.concat ?_⟩
    · intro other hmem
      rw [lastDue_concat, Event.due]
      exact h other (Multiset.mem_cons_of_mem hmem)
    · rintro id now ⟨⟩
      exact ⟨_, h queued (Multiset.mem_cons_self _ _), hready⟩
  | settle queued settlement _ =>
    exact ⟨h.other (hqueued rfl rfl), hpunctual.concat (by simp)⟩
  | requeue queued settlement accepted hback =>
    exact ⟨h.cons (hqueued rfl rfl) (Event.due_back hback queued.id now),
      hpunctual.concat (by simp)⟩
  | abandon queued =>
    exact ⟨h.cons (hqueued rfl rfl) (if_pos rfl), hpunctual.concat (by simp)⟩

end

/-- In every run, a delivery waits for what the broker makes of its latest disposition. -/
theorem punctual_run {limits : FakeBrokerLimits} {clock : SystemTime} {actions : List Action}
    {s : System} (hrun : machine.run (.start limits clock) actions = some (s, events)) :
    Punctual (fun _ => 0) events := by
  have hkept := Runs.history
    (I := fun s past => s.Accounted limits past ∧
      Timely s.places.queue past ∧ Punctual (fun _ => 0) past)
    (fun ⟨hacct, htimely, hpunctual⟩ ⟨_, hstep⟩ =>
      ⟨hacct.step hstep,
        htimely.move hacct.2 hpunctual (hacct.1.step hstep).2⟩)
    [] (Machine.runs_of_run hrun)
    ⟨accounted_start limits clock, by simp [Timely, System.places, System.start],
      by simp [Punctual]⟩
  exact hkept.2.2

/-- The delays asked for make no difference when they are all zero. -/
theorem lastDue_eq
    (hzero : ∀ id delay now, Event.completed id (.nack (.retryAfter delay)) true now ∈ past →
      delay = 0) : lastDue (fun delay => delay) id past = lastDue (fun _ => 0) id past := by
  induction past using List.reverseRecOn with
  | nil => rfl
  | append_singleton earlier event ih =>
    have hevent : event.due (fun delay => delay) id = event.due (fun _ => 0) id := by
      unfold Event.due
      split
      case h_2 id' delay now =>
        rw [hzero id' delay now (by simp)]
      all_goals rfl
    rw [lastDue_concat, lastDue_concat, hevent,
      ih fun id delay now hmem => hzero id delay now (mem_append_left _ hmem)]

/-- The clock is set back. -/
def SetBack (s : System) (action : Action) : Prop :=
  ∃ now, action = .setClock now ∧ now < s.clock

/-- A delivery that is handed back with a delay and taken at once. -/
def retriedAtOnce (delay : Duration) : List Action :=
  [.enqueue plainMessage, .dequeue, .settle 0 (.nack (.retryAfter delay)), .poll 0, .dequeue]

def retriedEvents (delay : Duration) : List Event :=
  [.enqueued 1 0 0, .dequeued 1 0, .completed 1 (.nack (.retryAfter delay)) true 0, .dequeued 1 0]

theorem run_retriedAtOnce (delay : Duration) :
    ∃ s, machine.run (.start {} 0) (retriedAtOnce delay) = some (s, retriedEvents delay) :=
  ⟨_, rfl⟩

theorem forward_retriedAtOnce (delay : Duration) :
    ¬ machine.Takes (.start {} 0) (retriedAtOnce delay) SetBack := by
  rintro ⟨before, action, rest, s₁, past, hsplit, -, now, rfl, -⟩
  have hmem : Action.setClock now ∈ retriedAtOnce delay := by
    rw [hsplit]
    exact mem_append_right _ mem_cons_self
  simp [retriedAtOnce] at hmem

theorem eq_zero_of_punctual {delay : Duration}
    (h : Punctual (fun delay => delay) (retriedEvents delay)) : delay = 0 := by
  obtain ⟨instant, hdue, hle⟩ := h 3 1 0 rfl
  have hinstant : some ((0 : ℤ) + delay) = some instant := hdue
  rw [Option.some.injEq] at hinstant
  rw [← hinstant, Int.zero_add] at hle
  exact Nat.eq_zero_of_le_zero (Int.ofNat_le.mp hle)

/-- While the clock never goes back, every delivery waits for the delay it was enqueued with.
It also waits for the delays of the successful `nack`s with `RetryAfter` exactly when these
are all zero. -/
theorem delays_honoured_iff (allowed : Duration → Prop) :
    (∀ limits clock actions s events,
      machine.run (.start limits clock) actions = some (s, events) →
      ¬ machine.Takes (.start limits clock) actions SetBack → Punctual (fun _ => 0) events) ∧
    ((∀ limits clock actions s events,
      machine.run (.start limits clock) actions = some (s, events) →
      ¬ machine.Takes (.start limits clock) actions SetBack →
      (∀ id delay now,
        Event.completed id (.nack (.retryAfter delay)) true now ∈ events → allowed delay) →
      Punctual (fun delay => delay) events) ↔ ∀ delay, allowed delay → delay = 0) := by
  refine ⟨fun _ _ _ _ _ hrun _ => punctual_run hrun, ?_, ?_⟩
  · intro h delay hallowed
    obtain ⟨s, hrun⟩ := run_retriedAtOnce delay
    refine eq_zero_of_punctual (h {} 0 _ s _ hrun (forward_retriedAtOnce delay) ?_)
    intro id asked now hmem
    obtain ⟨-, rfl, -⟩ : id = 1 ∧ asked = delay ∧ now = 0 := by simpa [retriedEvents] using hmem
    exact hallowed
  · intro hzero limits clock actions s events hrun _ hallowed n id now hget
    rw [lastDue_eq fun id delay now hmem =>
      hzero delay (hallowed id delay now (List.mem_of_mem_take hmem))]
    exact punctual_run hrun n id now hget

/-- A delivery handed back for one second is taken again while the clock stands still. -/
theorem retried_before_delay :
    ∃ s events, machine.run (.start {} 0) (retriedAtOnce 1000000000) = some (s, events) ∧
      ¬ machine.Takes (.start {} 0) (retriedAtOnce 1000000000) SetBack ∧
        ¬ Punctual (fun delay => delay) events := by
  obtain ⟨s, hrun⟩ := run_retriedAtOnce 1000000000
  refine ⟨s, _, hrun, forward_retriedAtOnce _, fun h => ?_⟩
  exact absurd (eq_zero_of_punctual h) (by decide)

end PlenoraRuntime.Testkit
