import Mathlib.Data.List.Perm.Basic
import Mathlib.Data.Multiset.Count
import PlenoraRuntime.Foundation.Slots
import PlenoraRuntime.Testkit.Broker

/-!
# The fake broker conserves deliveries

`Places` is what the broker is for: a bag of queued deliveries and a bag of owned ones.
A `Move` lets a delivery enter the queue under the next identifier, takes it out of the
queue for an owner, puts it back for another attempt, or lets it leave for good. Every
move keeps an account of the events reported so far, `Conserved`: a delivery that was
enqueued is in one of the bags or was settled, and its attempts are counted.

The functions of the broker are described one by one, by what they do to its queue
(`Enters`, `Takes`, `Releases`). `System.Sound.step` refines every call on the broker to a
move. It carries with it that `in_flight` is the number of owners and that there is room for
all of them (`Sound`).
-/

namespace PlenoraRuntime.Testkit

open Messaging Transition List Option

/-! ## Deliveries and where they are -/

/-- The delivery leaves the broker when the call succeeds. -/
def Settlement.final : Settlement → Bool
  | .ack => true
  | .nack reason => reason.terminates

namespace Event

def enqueues (id : FakeDeliveryId) : Event → Bool
  | .enqueued id' _ _ => id' = id
  | _ => false

/-- The delivery was settled by a successful `ack` or terminal `nack`. -/
def settles (id : FakeDeliveryId) : Event → Bool
  | .completed id' settlement accepted _ => id' = id && (accepted && settlement.final)
  | _ => false

def requeues (id : FakeDeliveryId) : Event → Bool
  | .completed id' settlement accepted _ => id' = id && !(accepted && settlement.final)
  | .abandoned id' _ => id' = id
  | _ => false

end Event

/-- The identifier of the next delivery, and where the others are. -/
structure Places where
  nextId : ℕ
  queue : Multiset QueuedDelivery
  owned : Multiset QueuedDelivery

inductive Move (now : SystemTime) : Places → List Event → Places → Prop
  | idle (places : Places) : Move now places [] places
  | enqueue {nextId queue owned} (new : QueuedDelivery) (delay : Duration)
      (hid : new.id.val = nextId) (hatt : new.attempt = 1)
      (hdue : new.availableAt = now + delay) :
      Move now ⟨nextId, queue, owned⟩ [.enqueued new.id now delay]
        ⟨nextId + 1, new ::ₘ queue, owned⟩
  | dequeue {nextId queue owned} (queued : QueuedDelivery) (hready : queued.availableAt ≤ now) :
      Move now ⟨nextId, queued ::ₘ queue, owned⟩ [.dequeued queued.id now]
        ⟨nextId, queue, queued ::ₘ owned⟩
  | settle {nextId queue owned} (queued : QueuedDelivery) (settlement : Settlement)
      (hfinal : settlement.final = true) :
      Move now ⟨nextId, queue, queued ::ₘ owned⟩ [.completed queued.id settlement true now]
        ⟨nextId, queue, owned⟩
  | requeue {nextId queue owned} (queued : QueuedDelivery) (settlement : Settlement)
      (accepted : Bool) (hback : (accepted && settlement.final) = false) :
      Move now ⟨nextId, queue, queued ::ₘ owned⟩ [.completed queued.id settlement accepted now]
        ⟨nextId, redelivery queued now ::ₘ queue, owned⟩
  | abandon {nextId queue owned} (queued : QueuedDelivery) :
      Move now ⟨nextId, queue, queued ::ₘ owned⟩ [.abandoned queued.id now]
        ⟨nextId, redelivery queued now ::ₘ queue, owned⟩

def maxAttempt : ℕ := Word.maxValue 32

/-- The account of the deliveries that are still with the broker or with an owner. -/
structure Conserved (nextId : ℕ) (pending : Multiset QueuedDelivery) (past : List Event) :
    Prop where
  places : ∀ id, pending.countP (fun queued => queued.id = id) +
    past.countP (Event.settles id) = past.countP (Event.enqueues id)
  once : ∀ id, past.countP (Event.enqueues id) ≤ 1
  unborn : ∀ id : FakeDeliveryId, nextId ≤ id.val →
    past.countP (Event.enqueues id) = 0 ∧ past.countP (Event.requeues id) = 0
  attempts : ∀ queued ∈ pending,
    queued.attempt = min (1 + past.countP (Event.requeues queued.id)) maxAttempt

@[simp] theorem id_redelivery (queued : QueuedDelivery) (now : SystemTime) :
    (redelivery queued now).id = queued.id := rfl

namespace Conserved

variable {nextId : ℕ} {pending : Multiset QueuedDelivery} {past : List Event}
  {queued : QueuedDelivery} {event : Event}

theorem start : Conserved 1 0 [] where
  places := fun _ => rfl
  once := fun _ => Nat.zero_le 1
  unborn := fun _ _ => ⟨rfl, rfl⟩
  attempts := by simp

/-- No other delivery has the same identifier. -/
theorem ne_id (h : Conserved nextId (queued ::ₘ pending) past) {other} (hmem : other ∈ pending) :
    other.id ≠ queued.id := by
  intro hid
  have hpos : 0 < pending.countP (fun other => other.id = queued.id) :=
    Multiset.countP_pos.mpr ⟨other, hmem, hid⟩
  have hplaces := h.places queued.id
  have honce := h.once queued.id
  rw [Multiset.countP_cons, if_pos rfl] at hplaces
  omega

/-- The identifier was given out before. -/
theorem id_lt (h : Conserved nextId (queued ::ₘ pending) past) : queued.id.val < nextId := by
  by_contra hle
  have hplaces := h.places queued.id
  rw [(h.unborn queued.id (Nat.le_of_not_lt hle)).1, Multiset.countP_cons, if_pos rfl] at hplaces
  omega

theorem silent (h : Conserved nextId pending past)
    (hevent : ∀ id, event.enqueues id = false ∧ event.settles id = false ∧
      event.requeues id = false) : Conserved nextId pending (past ++ [event]) where
  places := by simpa [hevent] using h.places
  once := by simpa [hevent] using h.once
  unborn := by simpa [hevent] using h.unborn
  attempts := by simpa [hevent] using h.attempts

theorem enter (h : Conserved nextId pending past) (hid : queued.id.val = nextId)
    (hatt : queued.attempt = 1)
    (hevent : ∀ id, event.enqueues id = decide (queued.id = id) ∧ event.settles id = false ∧
      event.requeues id = false) :
    Conserved (nextId + 1) (queued ::ₘ pending) (past ++ [event]) where
  places := by
    intro id
    have hplaces := h.places id
    simp only [Multiset.countP_cons, countP_append, countP_singleton, hevent]
    simp
    omega
  once := by
    intro id
    simp only [countP_append, countP_singleton, hevent, decide_eq_true_eq]
    split
    · next heq =>
      subst heq
      rw [(h.unborn queued.id hid.ge).1]
    · exact h.once id
  unborn := by
    intro id hle
    have hne : queued.id ≠ id := by rintro rfl; omega
    simpa [hevent, hne] using h.unborn id (Nat.le_of_succ_le hle)
  attempts := by
    simp only [Multiset.mem_cons, countP_append, countP_singleton, hevent]
    rintro other (rfl | hmem)
    · rw [hatt, (h.unborn _ hid.ge).2]
      rfl
    · simpa using h.attempts other hmem

theorem leave (h : Conserved nextId (queued ::ₘ pending) past)
    (hevent : ∀ id, event.enqueues id = false ∧ event.settles id = decide (queued.id = id) ∧
      event.requeues id = false) : Conserved nextId pending (past ++ [event]) where
  places := by
    intro id
    have hplaces := h.places id
    rw [Multiset.countP_cons] at hplaces
    simp only [countP_append, countP_singleton, hevent]
    simp
    omega
  once := by simpa [hevent] using h.once
  unborn := by simpa [hevent] using h.unborn
  attempts := by
    simpa [hevent] using fun other hmem => h.attempts other (Multiset.mem_cons_of_mem hmem)

theorem again (h : Conserved nextId (queued ::ₘ pending) past)
    (hevent : ∀ id, event.enqueues id = false ∧ event.settles id = false ∧
      event.requeues id = decide (queued.id = id)) (now : SystemTime) :
    Conserved nextId (redelivery queued now ::ₘ pending) (past ++ [event]) where
  places := by
    intro id
    have hsame : (redelivery queued now ::ₘ pending).countP (fun queued => queued.id = id) =
        (queued ::ₘ pending).countP (fun queued => queued.id = id) := by
      rw [Multiset.countP_cons, Multiset.countP_cons]
      rfl
    rw [hsame]
    simpa [hevent] using h.places id
  once := by simpa [hevent] using h.once
  unborn := by
    intro id hle
    have hne : queued.id ≠ id := by
      rintro rfl
      exact absurd h.id_lt (Nat.not_lt.mpr hle)
    simpa [hevent, hne] using h.unborn id hle
  attempts := by
    simp only [Multiset.mem_cons, countP_append, countP_singleton, hevent]
    rintro other (rfl | hmem)
    · have hatt := h.attempts queued (Multiset.mem_cons_self queued pending)
      have hnext : (redelivery queued now).attempt =
          min (1 + past.countP (Event.requeues queued.id) + 1) maxAttempt := by
        rw [redelivery, hatt]
        exact Word.saturatingAdd_min 32 _ 1
      simpa [Nat.add_assoc] using hnext
    · simpa [(h.ne_id hmem).symm] using h.attempts other (Multiset.mem_cons_of_mem hmem)

theorem move {now : SystemTime} {before : Places} {after events}
    (h : Conserved before.nextId (before.queue + before.owned) past)
    (hmove : Move now before events after) :
    Conserved after.nextId (after.queue + after.owned) (past ++ events) := by
  cases hmove with
  | idle => simpa using h
  | enqueue new delay hid hatt _ =>
    rw [Multiset.cons_add]
    exact h.enter hid hatt fun id => ⟨rfl, rfl, rfl⟩
  | dequeue queued _ =>
    rw [Multiset.cons_add] at h
    rw [Multiset.add_cons]
    exact h.silent fun id => ⟨rfl, rfl, rfl⟩
  | settle queued settlement hfinal =>
    rw [Multiset.add_cons] at h
    exact h.leave fun id => by simp [Event.enqueues, Event.settles, Event.requeues, hfinal]
  | requeue queued settlement accepted hback =>
    rw [Multiset.add_cons] at h
    rw [Multiset.cons_add]
    exact h.again (fun id => by simp [Event.enqueues, Event.settles, Event.requeues, hback]) now
  | abandon queued =>
    rw [Multiset.add_cons] at h
    rw [Multiset.cons_add]
    exact h.again (fun id => ⟨rfl, rfl, rfl⟩) now

end Conserved

/-! ## Every call is a move -/

namespace BrokerState

variable {b b' : BrokerState} {now availableAt : SystemTime} {message : SerializedMessage}
  {queued : QueuedDelivery}

def Same (b b' : BrokerState) : Prop :=
  b'.limits = b.limits ∧ b'.nextId = b.nextId ∧ b'.inFlight = b.inFlight ∧ b'.queue = b.queue

/-- At most one delivery was enqueued, for which there was room. -/
def Enters (b b' : BrokerState) (availableAt : SystemTime) : Prop :=
  b.Same b' ∨
    ∃ message, b'.limits = b.limits ∧ b'.nextId.val = b.nextId.val + 1 ∧
      b'.inFlight = b.inFlight ∧ b'.queue = b.queue ++ [⟨b.nextId, message, 1, availableAt⟩] ∧
      saturatingAdd b.queue.length b.inFlight < b.limits.maxPendingDeliveries.val

/-- The first ready delivery was taken out of the queue. -/
def Takes (b b' : BrokerState) (queued : QueuedDelivery) (now : SystemTime) : Prop :=
  queued.availableAt ≤ now ∧ b'.limits = b.limits ∧ b'.nextId = b.nextId ∧
    b'.inFlight = saturatingAdd b.inFlight 1 ∧ b.queue.Perm (queued :: b'.queue)

/-- A delivery was given back, to be queued again or not. -/
def Releases (b b' : BrokerState) (again : Option QueuedDelivery) : Prop :=
  b'.limits = b.limits ∧ b'.nextId = b.nextId ∧ b'.inFlight = b.inFlight - 1 ∧
    b'.queue = b.queue ++ again.toList

theorem Same.refl (b : BrokerState) : b.Same b :=
  ⟨rfl, rfl, rfl, rfl⟩

theorem Enters.refl (b : BrokerState) (availableAt : SystemTime) : b.Enters b availableAt :=
  .inl (.refl b)

theorem enters_enqueueLocked : b.Enters (b.enqueueLocked message availableAt).1 availableAt := by
  unfold enqueueLocked
  dsimp only
  repeat' split
  case h_2.isTrue hcap _ =>
    rw [validateDeliveryCapacity, Guard.ite_error_eq_ok] at hcap
    exact .inr ⟨message, rfl, rfl, rfl, rfl, Nat.lt_of_not_le hcap.1⟩
  all_goals exact .refl b availableAt

theorem enters_enqueueDelayed {delay : Duration} :
    b.Enters (b.enqueueDelayed message delay now).1 (now + delay) := by
  unfold enqueueDelayed
  split
  · exact .refl b _
  · next hadd =>
    rw [(Scheduler.checkedAdd_eq_some.mp hadd).2]
    exact enters_enqueueLocked

theorem enters_injectDuplicate {source} :
    b.Enters (b.injectDuplicate source now).1 now := by
  unfold injectDuplicate
  split
  · exact .refl b now
  · exact enters_enqueueLocked

theorem enters_publishApplied {outcome} :
    b.Enters (b.publishApplied message now outcome).1 now := by
  have henters : b.Enters (b.enqueueLocked message now).1 now := enters_enqueueLocked
  unfold publishApplied
  split <;> next hlocked => rwa [hlocked] at henters

theorem enters_publish : b.Enters (b.publish message now).1 now := by
  unfold publish
  repeat' split
  all_goals first | exact .refl b now | exact enters_publishApplied

/-- A fault that is consumed leaves everything else in place. -/
theorem same_settlementFailure (operation : AckOperation) :
    b.Same (b.settlementFailure operation).1 := by
  unfold settlementFailure
  split
  · cases operation with
    | ack | nack | heartbeat => exact ⟨rfl, rfl, rfl, rfl⟩
  · exact .refl b

theorem releases_completeDelivery (settlement : Settlement) :
    b.Releases (b.completeDelivery queued settlement.event now).1
      (if (b.completeDelivery queued settlement.event now).2.isOk && settlement.final then none
        else some (redelivery queued now)) := by
  obtain ⟨hlimits, hnext, hflight, hqueue⟩ :=
    same_settlementFailure (b := b) settlement.event.operation
  unfold completeDelivery
  generalize b.settlementFailure settlement.event.operation = fault at *
  obtain ⟨popped, failure⟩ := fault
  have hrel := congrArg (· - 1) hflight
  have hkept := hqueue.trans (append_nil _).symm
  have hback := congrArg (· ++ [redelivery queued now]) hqueue
  cases failure with
  | some _ => exact ⟨hlimits, hnext, hrel, hback⟩
  | none =>
    cases settlement with
    | ack => exact ⟨hlimits, hnext, hrel, hkept⟩
    | nack reason =>
      cases reason with
      | retryable | retryAfter _ | shutdown => exact ⟨hlimits, hnext, hrel, hback⟩
      | permanent | consumerRejected => exact ⟨hlimits, hnext, hrel, hkept⟩

theorem releases_abandonDelivery :
    b.Releases (b.abandonDelivery queued now) (some (redelivery queued now)) :=
  ⟨rfl, rfl, rfl, rfl⟩

theorem same_heartbeatDelivery : b.Same (b.heartbeatDelivery queued).1 := by
  unfold heartbeatDelivery
  split
  next hpopped =>
  split at hpopped <;> cases hpopped <;> exact ⟨rfl, rfl, rfl, rfl⟩

theorem same_pushFault (fault : FaultKind) : b.Same (b.pushFault fault).1 := by
  unfold pushFault
  cases fault with
  | publish _ | receive | ack | nack | heartbeat =>
    dsimp only
    split
    · exact .refl b
    · exact ⟨rfl, rfl, rfl, rfl⟩

end BrokerState

namespace FakeDelivery

/-- The metadata of a delivery always fits. -/
theorem exists_new (queued : QueuedDelivery) :
    ∃ delivery, FakeDelivery.new queued = .ok delivery ∧ delivery.queued = queued ∧
      delivery.id = queued.id ∧ delivery.settled = false := by
  have hlen : (decimal queued.id.val).length ≤ 20 :=
    length_decimal_le 20 (by decide) (queued.id.isLt.trans (by decide))
  have hinsert : ∃ metadata, (MessageMetadata.new.insert (utf8 "plenora.testkit.delivery_id")
      (decimal queued.id.val)).map Prod.fst = .ok metadata := by
    refine MessageMetadata.exists_insert_iff.mpr ⟨⟨by decide +kernel, ?_⟩, ?_, ?_⟩
    · exact validateValue_eq_ok_iff.mpr (hlen.trans (by decide))
    · decide
    · have hkey : headerBytes (utf8 "plenora.testkit.delivery_id", decimal queued.id.val) ≤ 47 :=
        Nat.add_le_add_left hlen 27
      exact (Nat.add_le_add_left hkey 0).trans (by decide)
  obtain ⟨metadata, hmap⟩ := hinsert
  unfold FakeDelivery.new MessageMetadata.insertText
  cases hres : MessageMetadata.new.insert (utf8 "plenora.testkit.delivery_id")
      (decimal queued.id.val) with
  | error error =>
    rw [hres] at hmap
    cases hmap
  | ok inserted => exact ⟨_, rfl, rfl, rfl, rfl⟩

end FakeDelivery

/-- A call of `dequeue` takes nothing, or its caller owns what it takes. -/
theorem BrokerState.dequeue_cases (b : BrokerState) (now : SystemTime) :
    (∃ b' result, b.dequeue now = (b', result) ∧ (∀ delivery, result ≠ .ok (some delivery)) ∧
      b.Same b') ∨
    ∃ b' delivery, b.dequeue now = (b', .ok (some delivery)) ∧ delivery.settled = false ∧
      delivery.id = delivery.queued.id ∧ b.Takes b' delivery.queued now := by
  unfold BrokerState.dequeue
  split
  · exact .inl ⟨_, _, rfl, by simp, .refl b⟩
  · split
    · exact .inl ⟨_, _, rfl, by simp, ⟨rfl, rfl, rfl, rfl⟩⟩
    · split
      · exact .inl ⟨_, _, rfl, by simp, .refl b⟩
      · next queued hfind =>
        obtain ⟨delivery, hnew, rfl, hid, hlive⟩ := FakeDelivery.exists_new queued
        rw [hnew]
        obtain ⟨hready, before, after, hsplit, hpre⟩ := find?_eq_some_iff_append.mp hfind
        refine .inr ⟨_, delivery, rfl, hlive, hid, of_decide_eq_true hready, rfl, rfl, rfl, ?_⟩
        have herase : b.queue.eraseP (·.availableAt ≤ now) = before ++ after := by
          rw [hsplit, eraseP_append_right _ (by simpa using hpre), eraseP_cons, hready]
          rfl
        rw [herase, hsplit]
        exact perm_middle

/-! ## The system -/

private theorem coe_concat {α : Type*} (l : List α) (a : α) :
    (↑(l ++ [a]) : Multiset α) = a ::ₘ (l : Multiset α) :=
  Multiset.coe_eq_coe.mpr (perm_append_singleton a l)

namespace System

variable {s s' : System} {limits : FakeBrokerLimits} {broker : BrokerState}

def owned (s : System) : List QueuedDelivery :=
  s.handles.filterMap (Option.map (·.owner.queued))

def places (s : System) : Places :=
  ⟨s.broker.nextId.val, s.broker.queue, s.owned⟩

structure Sound (s : System) (limits : FakeBrokerLimits) : Prop where
  limits_eq : s.broker.limits = limits
  inFlight_eq : s.broker.inFlight = s.owned.length
  room : s.broker.queue.length + s.owned.length ≤ limits.maxPendingDeliveries.val

theorem Sound.same (h : s.Sound limits) (hsame : s.broker.Same s'.broker)
    (howned : s'.owned.Perm s.owned) : s'.Sound limits ∧ Move s.clock s.places [] s'.places := by
  obtain ⟨hlimits, hnext, hflight, hqueue⟩ := hsame
  have hplaces : s'.places = s.places := by
    rw [places, places, hnext, hqueue, Multiset.coe_eq_coe.mpr howned]
  refine ⟨⟨hlimits.trans h.limits_eq, ?_, ?_⟩, hplaces ▸ .idle _⟩
  · rw [hflight, h.inFlight_eq, howned.length_eq]
  · rw [hqueue, howned.length_eq]
    exact h.room

theorem Sound.enqueuedBy {delay : Duration} (h : s.Sound limits)
    (henters : s.broker.Enters broker (s.clock + delay)) :
    (s.enqueuedBy broker delay).1.Sound limits ∧
      Move s.clock s.places (s.enqueuedBy broker delay).2 (s.enqueuedBy broker delay).1.places := by
  rcases henters with hsame | ⟨message, hlimits, hnext, hflight, hqueue, hroom⟩
  · rw [System.enqueuedBy, if_pos hsame.2.1]
    exact h.same hsame (.refl _)
  · have hne : broker.nextId ≠ s.broker.nextId := fun heq => by
      rw [heq] at hnext
      omega
    rw [System.enqueuedBy, if_neg hne]
    rw [h.limits_eq, h.inFlight_eq,
      saturatingAdd_eq (h.room.trans limits.maxPendingDeliveries.le_usizeMax)] at hroom
    have hplaces : ({ s with broker } : System).places =
        ⟨s.broker.nextId.val + 1,
          ⟨s.broker.nextId, message, 1, s.clock + delay⟩ ::ₘ (s.broker.queue : Multiset _),
          s.owned⟩ := by
      rw [places, hnext, hqueue, coe_concat]
      rfl
    refine ⟨⟨hlimits.trans h.limits_eq, hflight.trans h.inFlight_eq, ?_⟩, ?_⟩
    · have howned : ({ s with broker } : System).owned = s.owned := rfl
      rw [howned, hqueue, length_append, length_singleton]
      omega
    · rw [hplaces]
      exact .enqueue ⟨s.broker.nextId, message, 1, s.clock + delay⟩ delay rfl rfl rfl

theorem Sound.enqueuedNow (h : s.Sound limits) (henters : s.broker.Enters broker s.clock) :
    (s.enqueuedBy broker 0).1.Sound limits ∧
      Move s.clock s.places (s.enqueuedBy broker 0).2 (s.enqueuedBy broker 0).1.places :=
  h.enqueuedBy (by rwa [Int.natCast_zero, Int.add_zero])

theorem Sound.takes {queued} (h : s.Sound limits)
    (htakes : s.broker.Takes s'.broker queued s.clock) (howned : s'.owned = s.owned ++ [queued]) :
    s'.Sound limits ∧ Move s.clock s.places [.dequeued queued.id s.clock] s'.places := by
  obtain ⟨hready, hlimits, hnext, hflight, hqueue⟩ := htakes
  have hroom := h.room
  rw [hqueue.length_eq, length_cons] at hroom
  have hlen : s'.owned.length = s.owned.length + 1 := by simp [howned]
  refine ⟨⟨hlimits.trans h.limits_eq, ?_, ?_⟩, ?_⟩
  · have hmax := limits.maxPendingDeliveries.le_usizeMax
    rw [hflight, h.inFlight_eq, hlen, saturatingAdd_eq (by omega)]
  · omega
  · rw [places, places, hnext, howned, Multiset.coe_eq_coe.mpr hqueue, coe_concat,
      ← Multiset.cons_coe]
    exact .dequeue queued hready

/-- What remains when an owner is done with its delivery. -/
theorem Sound.releases {i : ℕ} {handle broker again} (h : s.Sound limits)
    (hslot : s.handles[i]?.join = some handle) (hrels : s.broker.Releases broker again) :
    ({ s with broker, handles := s.handles.set i none } : System).Sound limits ∧
      ∃ others : Multiset QueuedDelivery,
        s.places = ⟨s.broker.nextId.val, s.broker.queue, handle.owner.queued ::ₘ others⟩ ∧
        ({ s with broker, handles := s.handles.set i none } : System).places =
          ⟨s.broker.nextId.val, ↑(s.broker.queue ++ again.toList), others⟩ := by
  obtain ⟨hlimits, hnext, hflight, hqueue⟩ := hrels
  obtain ⟨others, hpre, hafter⟩ := Slots.perm_filterMap_set
    (f := Option.map (·.owner.queued)) (join_eq_some_iff.mp hslot) none
  have hpre : s.owned.Perm (handle.owner.queued :: others) := hpre
  have hafter : ({ s with broker, handles := s.handles.set i none } : System).owned.Perm others :=
    hafter
  have hlen := hpre.length_eq
  rw [length_cons] at hlen
  have hroom := h.room
  have hagain : again.toList.length ≤ 1 := by cases again <;> simp
  refine ⟨⟨hlimits.trans h.limits_eq, ?_, ?_⟩, others, ?_, ?_⟩
  · rw [hflight, h.inFlight_eq, hafter.length_eq, hlen, Nat.add_sub_cancel]
  · rw [hqueue, hafter.length_eq, length_append]
    omega
  · rw [places, Multiset.coe_eq_coe.mpr hpre, ← Multiset.cons_coe]
  · rw [places, hnext, hqueue, Multiset.coe_eq_coe.mpr hafter]

theorem owned_replace {i : ℕ} {handle handle'} (hslot : s.handles[i]?.join = some handle)
    (hhandles : s'.handles = s.handles.set i (some handle'))
    (hqueued : handle'.owner.queued = handle.owner.queued) : s'.owned.Perm s.owned := by
  obtain ⟨rest, hpre, hafter⟩ := Slots.perm_filterMap_set
    (f := Option.map (·.owner.queued)) (join_eq_some_iff.mp hslot) (some handle')
  rw [map_some, hqueued] at hafter
  rw [owned, hhandles]
  exact hafter.trans hpre.symm

end System

theorem Owner.settle_eq (owner : Owner) (settlement : Settlement) (b : BrokerState)
    (now : SystemTime) :
    owner.settle settlement b now = b.completeDelivery owner.queued settlement.event now := by
  cases owner with
  | fakeDelivery delivery => rfl
  | acknowledger inner => rfl

theorem Owner.drop_eq {owner : Owner} (hlive : owner.done = false) (b : BrokerState)
    (now : SystemTime) : owner.drop b now = b.abandonDelivery owner.queued now := by
  cases owner with
  | fakeDelivery delivery => simp_all [Owner.drop, Owner.done, FakeDelivery.drop, Owner.queued]
  | acknowledger inner => simp_all [Owner.drop, Owner.done, FakeAcknowledger.drop, Owner.queued]

variable {limits : FakeBrokerLimits} {events : List Event} {action : Action} {s' s : System}

theorem System.Sound.step (h : s.Sound limits) (hstep : s.step action = some (s', events)) :
    s'.Sound limits ∧ Move s.clock s.places events s'.places := by
  cases action with
  | enqueue message =>
    cases hstep
    exact h.enqueuedNow BrokerState.enters_enqueueLocked
  | enqueueDelayed message delay =>
    cases hstep
    exact h.enqueuedBy BrokerState.enters_enqueueDelayed
  | injectDuplicate source =>
    cases hstep
    exact h.enqueuedNow BrokerState.enters_injectDuplicate
  | publish message =>
    cases hstep
    exact h.enqueuedNow BrokerState.enters_publish
  | dequeue =>
    simp only [System.step] at hstep
    -- Nothing is ready, or the first ready delivery gets an owner.
    rcases s.broker.dequeue_cases s.clock with
      ⟨broker, result, hdequeue, hnothing, hsame⟩ | ⟨broker, delivery, hdequeue, hlive, hid, htakes⟩
    · rw [hdequeue] at hstep
      match result with
      | .error _ | .ok none =>
        cases hstep
        exact h.same hsame (.refl _)
      | .ok (some delivery) => exact absurd rfl (hnothing delivery)
    · simp only [hdequeue, hlive, hid] at hstep
      cases hstep
      exact h.takes htakes (by simp [owned, Owner.queued])
  | intoDelivery i | settle i settlement =>
    simp only [System.step] at hstep
    split at hstep
    · -- The delivery only changes the value that owns it.
      next hslot =>
      cases hstep
      exact h.same (.refl _) (owned_replace hslot rfl rfl)
    · cases hstep
  | poll i =>
    simp only [System.step] at hstep
    split at hstep
    · next owner settlement hlive hslot =>
      cases hstep
      rw [owner.settle_eq]
      obtain ⟨hsound, others, hpre, hafter⟩ :=
        h.releases hslot (BrokerState.releases_completeDelivery settlement)
      refine ⟨hsound, ?_⟩
      rw [hpre, hafter]
      -- An accepted final settlement ends the delivery, any other puts it back.
      split
      · next hdone =>
        obtain ⟨hacc, hfinal⟩ := Bool.and_eq_true_iff.mp hdone
        rw [hacc, toList_none, append_nil]
        exact .settle _ settlement hfinal
      · next hback =>
        rw [toList_some, coe_concat]
        exact .requeue _ settlement _ (Bool.eq_false_iff.mpr hback)
    · cases hstep
  | drop i =>
    simp only [System.step] at hstep
    split at hstep
    · next handle hslot =>
      cases hstep
      rw [Owner.drop_eq handle.live]
      obtain ⟨hsound, others, hpre, hafter⟩ :=
        h.releases hslot BrokerState.releases_abandonDelivery
      refine ⟨hsound, ?_⟩
      rw [hpre, hafter, toList_some, coe_concat]
      exact .abandon _
    · cases hstep
  | heartbeat i =>
    simp only [System.step] at hstep
    split at hstep
    · cases hstep
      exact h.same BrokerState.same_heartbeatDelivery (.refl _)
    · cases hstep
  | disconnect | reconnect =>
    cases hstep
    exact h.same ⟨rfl, rfl, rfl, rfl⟩ (.refl _)
  | setClock now =>
    cases hstep
    exact h.same (.refl _) (.refl _)
  | pushFault fault =>
    cases hstep
    exact h.same (BrokerState.same_pushFault fault) (.refl _)

/-! ## Every run -/

/-- What holds of the system and of what was reported so far. -/
def System.Accounted (s : System) (limits : FakeBrokerLimits) (past : List Event) : Prop :=
  s.Sound limits ∧ Conserved s.places.nextId (s.places.queue + s.places.owned) past

theorem System.Accounted.step {past} (h : s.Accounted limits past)
    (hstep : s.step action = some (s', events)) : s'.Accounted limits (past ++ events) := by
  obtain ⟨hsound, hmove⟩ := h.1.step hstep
  exact ⟨hsound, h.2.move hmove⟩

theorem accounted_start (limits : FakeBrokerLimits) (clock : SystemTime) :
    (System.start limits clock).Accounted limits [] :=
  ⟨⟨rfl, rfl, Nat.zero_le _⟩, Conserved.start⟩

/-- Every delivery that was ever enqueued is in one place: in the queue, with one owner, or
settled by a successful `ack` or terminal `nack`. `in_flight` counts the owners, the
pending deliveries are within their bound, and the attempt of a delivery counts how often
it came back. What was reported stays reported, so a settled delivery never returns. -/
theorem deliveries_conserved (limits : FakeBrokerLimits) (clock : SystemTime)
    (actions : List Action) (s : System) (events : List Event)
    (hrun : machine.run (.start limits clock) actions = some (s, events)) :
    (∀ id, s.broker.queue.countP (fun queued => queued.id = id) +
        s.owned.countP (fun queued => queued.id = id) +
        events.countP (Event.settles id) = events.countP (Event.enqueues id) ∧
      events.countP (Event.enqueues id) ≤ 1) ∧
    s.broker.inFlight = s.owned.length ∧
    s.broker.queue.length + s.broker.inFlight ≤ limits.maxPendingDeliveries.val ∧
    ∀ queued ∈ s.broker.queue ++ s.owned,
      queued.attempt = min (1 + events.countP (Event.requeues queued.id)) maxAttempt := by
  obtain ⟨hsound, hconserved⟩ := Runs.history (I := fun s past => s.Accounted limits past)
    (fun h ⟨_, hstep⟩ => h.step hstep) [] (Machine.runs_of_run hrun) (accounted_start limits clock)
  refine ⟨fun id => ⟨?_, hconserved.once id⟩, hsound.inFlight_eq, ?_, ?_⟩
  · have hplaces := hconserved.places id
    rwa [Multiset.countP_add] at hplaces
  · rw [hsound.inFlight_eq]
    exact hsound.room
  · intro queued hmem
    exact hconserved.attempts queued hmem

def plainMessage : SerializedMessage :=
  .new (utf8 "text/plain") []

/-- A delivery that fails to be acknowledged, is handed back and is acknowledged in the end,
while a duplicate of it is held by a consumer. -/
def mixedCalls : List Action :=
  [.enqueue plainMessage, .dequeue, .pushFault .ack, .settle 0 .ack, .poll 0, .dequeue,
    .intoDelivery 1, .drop 1, .injectDuplicate 1, .dequeue, .settle 2 .ack, .poll 2, .dequeue]

theorem deliveries_conserved_mixed :
    let last := machine.after (.start {} 0) mixedCalls
    last.1.broker.inFlight = last.1.owned.length ∧ last.1.owned.length = 1 := by
  intro last
  have hrun : machine.run (.start {} 0) mixedCalls = some last :=
    Machine.run_eq_after (by decide +kernel)
  exact ⟨(deliveries_conserved {} 0 mixedCalls last.1 last.2 hrun).2.1, by decide +kernel⟩

end PlenoraRuntime.Testkit
