import PlenoraRuntime.Foundation.Machine
import PlenoraRuntime.Messaging.Additions
import PlenoraRuntime.Messaging.Delivery
import PlenoraRuntime.Scheduler.Plans

/-!
# The fake broker of the testkit

`FakeBroker` keeps deliveries in a queue and hands them out to owners: the inspectable
`FakeDelivery`, the `FakeAcknowledger` inside a broker-neutral delivery, and the future of
an `ack` or `nack` that has taken either and was not polled yet. An owner that goes out of
scope before it is settled abandons its delivery, which puts it back into the queue.

`machine` runs one broker with its clock and with everybody who holds one of its
deliveries. It reports what the callers can observe.
-/

namespace PlenoraRuntime.Testkit

open Messaging
open Scheduler (checkedAdd)

abbrev FakeDeliveryId := Fin (2 ^ 64)

/-- Whether an unknown publish outcome applied its remote effect. -/
inductive UnknownPublishEffect
  | applied
  | notApplied
  deriving DecidableEq, Repr

inductive FakeBrokerErrorKind
  | disconnected
  | injected
  | unknownDelivery
  | identifierExhausted
  | delayOverflow
  | invalidBrokerMetadata
  | capacityExceeded
  | payloadTooLarge
  deriving DecidableEq, Repr

structure FakeBrokerError where
  kind : FakeBrokerErrorKind
  message : Text
  deriving DecidableEq

inductive AckEvent
  | acked
  | nacked (reason : NackReason)
  | failed (operation : AckOperation)
  deriving DecidableEq, Repr

def AckEvent.operation : AckEvent → AckOperation
  | .acked => .ack
  | .nacked _ => .nack
  | .failed operation => operation

structure AckRecord where
  deliveryId : FakeDeliveryId
  attempt : ℕ
  event : AckEvent
  deriving DecidableEq

inductive HeartbeatEvent
  | renewed
  | failed
  deriving DecidableEq, Repr

structure HeartbeatRecord where
  deliveryId : FakeDeliveryId
  attempt : ℕ
  event : HeartbeatEvent
  deriving DecidableEq

/-- Memory and admission bounds, with the defaults of `FakeBrokerLimits`. -/
structure FakeBrokerLimits where
  maxPendingDeliveries : Usize := 1024
  maxCatalogEntries : Usize := 4096
  maxPublishedHistory : Usize := 1024
  maxAcknowledgementHistory : Usize := 4096
  maxTerminalHistory : Usize := 1024
  maxScriptedFaults : Usize := 256
  maxMessageBytes : Usize := 1048576

structure QueuedDelivery where
  id : FakeDeliveryId
  message : SerializedMessage
  attempt : ℕ
  availableAt : SystemTime
  deriving DecidableEq

inductive PublishFault
  | error
  | outcomeUnknown (effect : UnknownPublishEffect)
  deriving DecidableEq, Repr

inductive FaultKind
  | publish (fault : PublishFault)
  | receive
  | ack
  | nack
  | heartbeat
  deriving DecidableEq, Repr

/-- `BrokerState`. A script of faults that carry nothing is the number of them. -/
structure BrokerState where
  limits : FakeBrokerLimits
  connected : Bool := true
  nextId : FakeDeliveryId := 1
  queue : List QueuedDelivery := []
  inFlight : ℕ := 0
  catalog : List (FakeDeliveryId × SerializedMessage) := []
  published : List SerializedMessage := []
  appliedPublishCount : ℕ := 0
  acknowledgements : List AckRecord := []
  acknowledgementCount : ℕ := 0
  heartbeats : List HeartbeatRecord := []
  heartbeatCount : ℕ := 0
  terminalDeliveries : List AckRecord := []
  terminalDeliveryCount : ℕ := 0
  publishFaults : List PublishFault := []
  receiveFaults : ℕ := 0
  ackFaults : ℕ := 0
  nackFaults : ℕ := 0
  heartbeatFaults : ℕ := 0

def disconnectedError : FakeBrokerError :=
  ⟨.disconnected, utf8 "fake broker is disconnected"⟩

def capacityError (message : Text) : FakeBrokerError :=
  ⟨.capacityExceeded, message⟩

def pushBounded {α : Type*} (entries : List α) (entry : α) (capacity : Usize) : List α :=
  if capacity.val = 0 then entries
  else if entries.length = capacity.val then entries.tail ++ [entry]
  else entries ++ [entry]

def redelivery (queued : QueuedDelivery) (availableAt : SystemTime) : QueuedDelivery :=
  { queued with attempt := saturatingAddU32 queued.attempt 1, availableAt }

namespace BrokerState

variable (state : BrokerState)

def recordPublished (message : SerializedMessage) : BrokerState :=
  { state with
    appliedPublishCount := saturatingAdd state.appliedPublishCount 1
    published := pushBounded state.published message state.limits.maxPublishedHistory }

def recordAcknowledgement (record : AckRecord) : BrokerState :=
  { state with
    acknowledgementCount := saturatingAdd state.acknowledgementCount 1
    acknowledgements :=
      pushBounded state.acknowledgements record state.limits.maxAcknowledgementHistory }

def recordHeartbeat (record : HeartbeatRecord) : BrokerState :=
  { state with
    heartbeatCount := saturatingAdd state.heartbeatCount 1
    heartbeats := pushBounded state.heartbeats record state.limits.maxAcknowledgementHistory }

def recordTerminalDelivery (record : AckRecord) : BrokerState :=
  { state with
    terminalDeliveryCount := saturatingAdd state.terminalDeliveryCount 1
    terminalDeliveries :=
      pushBounded state.terminalDeliveries record state.limits.maxTerminalHistory }

def pushFault (fault : FaultKind) : BrokerState × Except FakeBrokerError Unit :=
  let targetLen := match fault with
    | .publish _ => state.publishFaults.length
    | .receive => state.receiveFaults
    | .ack => state.ackFaults
    | .nack => state.nackFaults
    | .heartbeat => state.heartbeatFaults
  if state.limits.maxScriptedFaults.val ≤ targetLen then
    (state, .error (capacityError (utf8 "fake broker fault-script capacity was reached")))
  else
    (match fault with
      | .publish fault => { state with publishFaults := state.publishFaults ++ [fault] }
      | .receive => { state with receiveFaults := state.receiveFaults + 1 }
      | .ack => { state with ackFaults := state.ackFaults + 1 }
      | .nack => { state with nackFaults := state.nackFaults + 1 }
      | .heartbeat => { state with heartbeatFaults := state.heartbeatFaults + 1 }, .ok ())

def validateMessage (message : SerializedMessage) : Except FakeBrokerError Unit :=
  if state.limits.maxMessageBytes.val < message.len then
    .error ⟨.payloadTooLarge, utf8 "fake broker payload exceeds the configured byte limit"⟩
  else .ok ()

def validateDeliveryCapacity : Except FakeBrokerError Unit :=
  if state.limits.maxPendingDeliveries.val ≤ saturatingAdd state.queue.length state.inFlight then
    .error (capacityError (utf8 "fake broker pending-delivery capacity was reached"))
  else if state.limits.maxCatalogEntries.val ≤ state.catalog.length then
    .error (capacityError (utf8 "fake broker duplicate catalog capacity was reached"))
  else .ok ()

def enqueueLocked (message : SerializedMessage) (availableAt : SystemTime) :
    BrokerState × Except FakeBrokerError FakeDeliveryId :=
  match state.validateMessage message with
  | .error error => (state, .error error)
  | .ok () =>
    match state.validateDeliveryCapacity with
    | .error error => (state, .error error)
    | .ok () =>
      let id := state.nextId
      if hnext : id.val + 1 < 2 ^ 64 then
        ({ state with
            nextId := ⟨id.val + 1, hnext⟩
            catalog := OrderedTable.insert id message state.catalog
            queue := state.queue ++ [{ id, message, attempt := 1, availableAt }] },
          .ok id)
      else
        (state, .error ⟨.identifierExhausted,
          utf8 "fake broker delivery identifier space is exhausted"⟩)

def enqueue (message : SerializedMessage) (now : SystemTime) :
    BrokerState × Except FakeBrokerError FakeDeliveryId :=
  state.enqueueLocked message now

def enqueueDelayed (message : SerializedMessage) (delay : Duration) (now : SystemTime) :
    BrokerState × Except FakeBrokerError FakeDeliveryId :=
  match checkedAdd now delay with
  | none =>
    (state, .error ⟨.delayOverflow, utf8 "fake delivery delay exceeds the SystemTime range"⟩)
  | some availableAt => state.enqueueLocked message availableAt

def injectDuplicate (source : FakeDeliveryId) (now : SystemTime) :
    BrokerState × Except FakeBrokerError FakeDeliveryId :=
  match OrderedTable.get source state.catalog with
  | none =>
    (state, .error ⟨.unknownDelivery, utf8 "cannot duplicate an unknown fake delivery"⟩)
  | some message => state.enqueueLocked message now

/-- The end of `FakeBroker::publish`, where the message reaches the broker. -/
def publishApplied (message : SerializedMessage) (now : SystemTime) (outcome : PublishOutcome) :
    BrokerState × Except FakeBrokerError PublishOutcome :=
  match state.enqueueLocked message now with
  | (state, .error error) => (state, .error error)
  | (state, .ok _) => (state.recordPublished message, .ok outcome)

def publish (message : SerializedMessage) (now : SystemTime) :
    BrokerState × Except FakeBrokerError PublishOutcome :=
  if !state.connected then (state, .error disconnectedError)
  else
    match state.validateMessage message with
    | .error error => (state, .error error)
    | .ok () =>
      -- the fault is consumed even when the message is then refused
      let popped := { state with publishFaults := state.publishFaults.tail }
      match state.publishFaults.head? with
      | some .error =>
        (popped, .error ⟨.injected, utf8 "fake broker publish fault was injected"⟩)
      | some (.outcomeUnknown .notApplied) => (popped, .ok .outcomeUnknown)
      | some (.outcomeUnknown .applied) => popped.publishApplied message now .outcomeUnknown
      | none => popped.publishApplied message now .confirmed

/-- The failure of a settlement, with the injected fault that it consumes. -/
def settlementFailure (operation : AckOperation) : BrokerState × Option FakeBrokerError :=
  let injected : FakeBrokerError :=
    ⟨.injected, utf8 "fake broker acknowledgement fault was injected"⟩
  if state.connected then
    match operation with
    | .ack =>
      ({ state with ackFaults := state.ackFaults - 1 },
        if state.ackFaults = 0 then none else some injected)
    | .nack =>
      ({ state with nackFaults := state.nackFaults - 1 },
        if state.nackFaults = 0 then none else some injected)
    | .heartbeat => (state, none)
  else (state, some disconnectedError)

/-- An owner is done with its delivery, which is recorded. -/
def release (record : AckRecord) : BrokerState :=
  ({ state with inFlight := state.inFlight - 1 } : BrokerState).recordAcknowledgement record

/-- The delivery goes to the end of the queue, for another attempt. -/
def requeue (queued : QueuedDelivery) (now : SystemTime) : BrokerState :=
  { state with queue := state.queue ++ [redelivery queued now] }

def completeDelivery (queued : QueuedDelivery) (event : AckEvent) (now : SystemTime) :
    BrokerState × Except AckError Unit :=
  match state.settlementFailure event.operation with
  | (state, some _) =>
    ((state.release ⟨queued.id, queued.attempt, .failed event.operation⟩).requeue queued now,
      .error ⟨event.operation, utf8 "fake broker acknowledgement failed"⟩)
  | (state, none) =>
    let record := ⟨queued.id, queued.attempt, event⟩
    let released := state.release record
    (match event with
      | .nacked .retryable | .nacked (.retryAfter _) | .nacked .shutdown =>
        released.requeue queued now
      | .nacked .permanent | .nacked .consumerRejected => released.recordTerminalDelivery record
      | .acked | .failed _ => released, .ok ())

def heartbeatDelivery (queued : QueuedDelivery) : BrokerState × Except AckError Unit :=
  let (popped, failure) :=
    if state.connected then
      ({ state with heartbeatFaults := state.heartbeatFaults - 1 },
        if state.heartbeatFaults = 0 then none
        else some (FakeBrokerError.mk .injected (utf8 "fake broker heartbeat fault was injected")))
    else (state, some disconnectedError)
  let event := if failure.isSome then HeartbeatEvent.failed else .renewed
  (popped.recordHeartbeat ⟨queued.id, queued.attempt, event⟩,
    match failure with
    | some _ => .error ⟨.heartbeat, utf8 "fake broker delivery heartbeat failed"⟩
    | none => .ok ())

def abandonDelivery (queued : QueuedDelivery) (now : SystemTime) : BrokerState :=
  (state.release ⟨queued.id, queued.attempt, .nacked .shutdown⟩).requeue queued now

end BrokerState

/-! ## Owners of a delivery -/

structure FakeDelivery where
  message : SerializedMessage
  attempt : ℕ
  brokerMetadata : MessageMetadata
  id : FakeDeliveryId
  queued : QueuedDelivery
  settled : Bool

structure FakeAcknowledger where
  queued : QueuedDelivery
  completed : Bool

def FakeDelivery.new (queued : QueuedDelivery) : Except FakeBrokerError FakeDelivery :=
  match MessageMetadata.new.insertText (utf8 "plenora.testkit.delivery_id")
      (decimal queued.id.val) with
  | .error _ => .error
      ⟨.invalidBrokerMetadata, utf8 "fake broker could not construct delivery metadata"⟩
  | .ok (brokerMetadata, _) => .ok
      { message := queued.message, attempt := queued.attempt, brokerMetadata, id := queued.id,
        queued, settled := false }

def BrokerState.dequeue (state : BrokerState) (now : SystemTime) :
    BrokerState × Except FakeBrokerError (Option FakeDelivery) :=
  if !state.connected then (state, .error disconnectedError)
  else if state.receiveFaults ≠ 0 then
    ({ state with receiveFaults := state.receiveFaults - 1 },
      .error ⟨.injected, utf8 "fake broker receive fault was injected"⟩)
  else
    match state.queue.find? (·.availableAt ≤ now) with
    | none => (state, .ok none)
    | some queued =>
      ({ state with
          queue := state.queue.eraseP (·.availableAt ≤ now)
          inFlight := saturatingAdd state.inFlight 1 },
        (FakeDelivery.new queued).map some)

inductive Settlement
  | ack
  | nack (reason : NackReason)
  deriving DecidableEq, Repr

/-- The event that the acknowledger hands to the broker. -/
def Settlement.event : Settlement → AckEvent
  | .ack => .acked
  | .nack reason => .nacked reason

def FakeDelivery.drop (delivery : FakeDelivery) (state : BrokerState) (now : SystemTime) :
    BrokerState :=
  if delivery.settled then state else state.abandonDelivery delivery.queued now

def FakeAcknowledger.drop (acknowledger : FakeAcknowledger) (state : BrokerState)
    (now : SystemTime) : BrokerState :=
  if acknowledger.completed then state else state.abandonDelivery acknowledger.queued now

/-- `FakeDelivery::into_delivery`, which drops what remains of the fake delivery. -/
def FakeDelivery.intoDelivery (delivery : FakeDelivery) (state : BrokerState) (now : SystemTime) :
    BrokerState × FakeAcknowledger :=
  (({ delivery with settled := true } : FakeDelivery).drop state now,
    { queued := delivery.queued, completed := false })

/-- `FakeAcknowledger::ack` and `FakeAcknowledger::nack`, to their end. -/
def FakeAcknowledger.settle (acknowledger : FakeAcknowledger) (settlement : Settlement)
    (state : BrokerState) (now : SystemTime) : BrokerState × Except AckError Unit :=
  let completed : FakeAcknowledger := { acknowledger with completed := true }
  let (state, result) := state.completeDelivery completed.queued settlement.event now
  (completed.drop state now, result)

inductive Owner
  | fakeDelivery (delivery : FakeDelivery)
  | acknowledger (acknowledger : FakeAcknowledger)

namespace Owner

def queued : Owner → QueuedDelivery
  | .fakeDelivery delivery => delivery.queued
  | .acknowledger inner => inner.queued

/-- The owner has given its delivery away. -/
def done : Owner → Bool
  | .fakeDelivery delivery => delivery.settled
  | .acknowledger inner => inner.completed

def drop (owner : Owner) (state : BrokerState) (now : SystemTime) : BrokerState :=
  match owner with
  | .fakeDelivery delivery => delivery.drop state now
  | .acknowledger inner => inner.drop state now

/-- The body of the future that `ack` or `nack` of either type returns. -/
def settle (owner : Owner) (settlement : Settlement) (state : BrokerState) (now : SystemTime) :
    BrokerState × Except AckError Unit :=
  match owner with
  | .fakeDelivery delivery =>
    let (state, inner) := delivery.intoDelivery state now
    inner.settle settlement state now
  | .acknowledger inner => inner.settle settlement state now

end Owner

/-- Somebody holds an owner that still has its delivery, or the future of the call that
took it and was not polled yet. -/
structure Handle where
  owner : Owner
  call : Option Settlement
  live : owner.done = false

/-! ## A broker, its clock and its callers -/

/-- The broker, its clock and all handles, which are named by their position. -/
structure System where
  broker : BrokerState
  clock : SystemTime
  handles : List (Option Handle) := []

inductive Action
  | enqueue (message : SerializedMessage)
  | enqueueDelayed (message : SerializedMessage) (delay : Duration)
  | injectDuplicate (source : FakeDeliveryId)
  | publish (message : SerializedMessage)
  | dequeue
  | intoDelivery (i : ℕ)
  | settle (i : ℕ) (settlement : Settlement)
  | poll (i : ℕ)
  | drop (i : ℕ)
  | heartbeat (i : ℕ)
  | disconnect
  | reconnect
  | setClock (now : SystemTime)
  | pushFault (fault : FaultKind)

/-- What callers observe. A call of `ack` or `nack` reports whether it succeeded. -/
inductive Event
  | enqueued (id : FakeDeliveryId) (now : SystemTime) (delay : Duration)
  | dequeued (id : FakeDeliveryId) (now : SystemTime)
  | completed (id : FakeDeliveryId) (settlement : Settlement) (accepted : Bool) (now : SystemTime)
  | abandoned (id : FakeDeliveryId) (now : SystemTime)
  deriving DecidableEq

namespace System

variable (s : System)

def start (limits : FakeBrokerLimits) (clock : SystemTime) : System where
  broker := { limits }
  clock := clock

/-- The delivery that a call enqueued, if it did: `publish` does not return it. -/
def enqueuedBy (broker : BrokerState) (delay : Duration) : System × List Event :=
  ({ s with broker },
    if broker.nextId = s.broker.nextId then []
    else [.enqueued s.broker.nextId s.clock delay])

/-- One call on the broker or on a handle. -/
def step : Action → Option (System × List Event)
  | .enqueue message => some (s.enqueuedBy (s.broker.enqueue message s.clock).1 0)
  | .enqueueDelayed message delay =>
    some (s.enqueuedBy (s.broker.enqueueDelayed message delay s.clock).1 delay)
  | .injectDuplicate source => some (s.enqueuedBy (s.broker.injectDuplicate source s.clock).1 0)
  | .publish message => some (s.enqueuedBy (s.broker.publish message s.clock).1 0)
  | .dequeue =>
    match s.broker.dequeue s.clock with
    | (broker, .ok (some delivery)) =>
      if hlive : delivery.settled = false then
        some ({ s with
            broker
            handles := s.handles ++ [some ⟨.fakeDelivery delivery, none, hlive⟩] },
          [.dequeued delivery.id s.clock])
      else some ({ s with broker }, [.dequeued delivery.id s.clock])
    | (broker, _) => some ({ s with broker }, [])
  | .intoDelivery i =>
    match s.handles[i]?.join with
    | some ⟨.fakeDelivery delivery, none, _⟩ =>
      let into := delivery.intoDelivery s.broker s.clock
      some ({ s with
          broker := into.1
          handles := s.handles.set i (some ⟨.acknowledger into.2, none, rfl⟩) }, [])
    | _ => none
  | .settle i settlement =>
    match s.handles[i]?.join with
    | some ⟨owner, none, hlive⟩ =>
      some ({ s with handles := s.handles.set i (some ⟨owner, some settlement, hlive⟩) }, [])
    | _ => none
  | .poll i =>
    match s.handles[i]?.join with
    | some ⟨owner, some settlement, _⟩ =>
      let (broker, result) := owner.settle settlement s.broker s.clock
      some ({ s with broker, handles := s.handles.set i none },
        [.completed owner.queued.id settlement result.isOk s.clock])
    | _ => none
  | .drop i =>
    match s.handles[i]?.join with
    | some handle =>
      some ({ s with
          broker := handle.owner.drop s.broker s.clock
          handles := s.handles.set i none },
        [.abandoned handle.owner.queued.id s.clock])
    | none => none
  | .heartbeat i =>
    match s.handles[i]?.join with
    | some ⟨.acknowledger acknowledger, none, _⟩ =>
      some ({ s with broker := (s.broker.heartbeatDelivery acknowledger.queued).1 }, [])
    | _ => none
  | .disconnect => some ({ s with broker := { s.broker with connected := false } }, [])
  | .reconnect => some ({ s with broker := { s.broker with connected := true } }, [])
  | .setClock now => some ({ s with clock := now }, [])
  | .pushFault fault => some ({ s with broker := (s.broker.pushFault fault).1 }, [])

end System

/-- Every order of calls on one broker. -/
def machine : Transition.Machine System Action Event where
  step := System.step

end PlenoraRuntime.Testkit
