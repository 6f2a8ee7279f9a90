import PlenoraRuntime.Messaging.Additions
import PlenoraRuntime.Messaging.Delivery
import PlenoraRuntime.Nats.Headers

/-!
# Deliveries from JetStream

`convert_delivery` turns a raw JetStream message into a `Delivery`, with what the broker
knows about it as six headers of its own, or terminates it. What the broker answers to
an acknowledgement is part of the message.
-/

namespace PlenoraRuntime.Nats

open Messaging List

/-! ## JetStream messages -/

inductive AckKind
  | ack
  | nak (delay : Option Duration)
  | progress
  | next
  | term
  deriving DecidableEq

/-- What the broker answers to the acknowledgements of a message: whether they arrive. -/
structure Acker where
  ackWith : AckKind → Bool
  doubleAck : Bool

/-- What the reply subject of a message tells. -/
structure Info where
  stream : Text
  consumer : Text
  streamSequence : Fin (2 ^ 64)
  consumerSequence : Fin (2 ^ 64)
  delivered : ℤ
  pending : Fin (2 ^ 64)

/-- `jetstream::Message`, without `info` when the reply subject cannot be read. -/
structure JetStreamMessage where
  subject : Text
  payload : Bytes
  headers : Option HeaderMap
  info : Option Info
  acker : Acker

/-! ## Acknowledgements -/

structure NatsAcknowledger where
  acker : Acker
  shutdownNakDelay : Duration

namespace NatsAcknowledger

variable (acknowledger : NatsAcknowledger)

def ack : Except AckError Unit :=
  if acknowledger.acker.doubleAck then .ok ()
  else .error ⟨.ack, utf8 "JetStream positive acknowledgement failed"⟩

/-- How `nack` tells the broker. -/
def kind : NackReason → AckKind
  | .retryable => .nak none
  | .retryAfter delay => .nak (some delay)
  | .shutdown => .nak (some acknowledger.shutdownNakDelay)
  | .permanent | .consumerRejected => .term

def nack (reason : NackReason) : Except AckError Unit :=
  if acknowledger.acker.ackWith (acknowledger.kind reason) then .ok ()
  else .error ⟨.nack, utf8 "JetStream negative acknowledgement failed"⟩

def deliveryAcknowledger : DeliveryAcknowledger where
  ack := acknowledger.ack
  nack := acknowledger.nack

end NatsAcknowledger

/-! ## What the broker knows about a delivery -/

structure DeliveryFacts where
  attempt : Fin (2 ^ 32)
  stream : Text
  consumer : Text
  streamSequence : Fin (2 ^ 64)
  consumerSequence : Fin (2 ^ 64)
  pending : Fin (2 ^ 64)

def malformed (message : Text) (hasSource : Bool) : NatsAdapterError :=
  { category := .protocol, operation := .receive, message, hasSource }

def deliveryFacts (message : JetStreamMessage) : Except NatsAdapterError DeliveryFacts :=
  match message.info with
  | none => .error (malformed (utf8 "JetStream delivery metadata is invalid") true)
  | some info =>
    if h : 0 ≤ info.delivered ∧ info.delivered < 2 ^ 32 then
      .ok
        { attempt := ⟨info.delivered.toNat, by omega⟩
          stream := info.stream
          consumer := info.consumer
          streamSequence := info.streamSequence
          consumerSequence := info.consumerSequence
          pending := info.pending }
    else
      .error (malformed
        (utf8 "JetStream delivery attempt is outside the supported range") true)

def insertText (metadata : MessageMetadata) (key value : Text) :
    Except NatsAdapterError MessageMetadata :=
  metadata.insertWith (fun _ => malformed (utf8 "broker metadata key is invalid") true) key value

def brokerMetadata (subject : Text) (facts : DeliveryFacts) :
    Except NatsAdapterError MessageMetadata := do
  let metadata ← insertText .new (utf8 "plenora.nats.subject") subject
  let metadata ← insertText metadata (utf8 "plenora.nats.stream") facts.stream
  let metadata ← insertText metadata (utf8 "plenora.nats.consumer") facts.consumer
  let metadata ← insertText metadata (utf8 "plenora.nats.stream_sequence")
    (decimal facts.streamSequence)
  let metadata ← insertText metadata (utf8 "plenora.nats.consumer_sequence")
    (decimal facts.consumerSequence)
  let metadata ← insertText metadata (utf8 "plenora.nats.pending") (decimal facts.pending)
  .ok metadata

/-! ## Conversion -/

inductive ConvertedDelivery
  | accepted (delivery : Delivery)
  | rejected (rejection : NatsAdapterError)

/-- `reject_delivery`: the message is terminated. -/
def rejectDelivery (acker : Acker) (rejection : NatsAdapterError) :
    Except NatsAdapterError ConvertedDelivery :=
  if acker.ackWith .term then .ok (.rejected rejection)
  else .error
    { category := .broker
      operation := .receive
      message := utf8 "malformed JetStream delivery could not be terminated"
      hasSource := true }

def convertDelivery (message : JetStreamMessage) (shutdownNakDelay : Duration)
    (maxPayloadBytes : ℕ) (heartbeat : Option DeliveryHeartbeatConfig) :
    Except NatsAdapterError ConvertedDelivery :=
  match deliveryFacts message with
  | .error rejection => rejectDelivery message.acker rejection
  | .ok facts =>
    if maxPayloadBytes < message.payload.length then
      rejectDelivery message.acker
        (malformed (utf8 "JetStream delivery exceeds the configured payload limit") false)
    else match decode message.headers with
      | .error rejection => rejectDelivery message.acker rejection
      | .ok (contentType, headers) =>
        match brokerMetadata message.subject facts with
        | .error rejection => rejectDelivery message.acker rejection
        | .ok brokerMetadata =>
          let acknowledger : NatsAcknowledger := { acker := message.acker, shutdownNakDelay }
          .ok <| .accepted
            { message := { contentType, bytes := message.payload, headers }
              attempt := facts.attempt
              brokerMetadata
              heartbeat
              acknowledger := acknowledger.deliveryAcknowledger }

/-! ## The six headers of the broker -/

/-- What `broker_metadata` holds, in key order. -/
def brokerHeaders (subject : Text) (facts : DeliveryFacts) : List (Text × Bytes) :=
  [(utf8 "plenora.nats.consumer", facts.consumer),
    (utf8 "plenora.nats.consumer_sequence", decimal facts.consumerSequence),
    (utf8 "plenora.nats.pending", decimal facts.pending),
    (utf8 "plenora.nats.stream", facts.stream),
    (utf8 "plenora.nats.stream_sequence", decimal facts.streamSequence),
    (utf8 "plenora.nats.subject", subject)]

theorem length_decimal_u64 (n : Fin (2 ^ 64)) : (decimal n).length ≤ 20 :=
  length_decimal_le 20 (by decide) (n.isLt.trans (by decide))

/-- The headers in the order they are inserted. -/
def insertedHeaders (subject : Text) (facts : DeliveryFacts) : List (Text × Bytes) :=
  [(utf8 "plenora.nats.subject", subject),
    (utf8 "plenora.nats.stream", facts.stream),
    (utf8 "plenora.nats.consumer", facts.consumer),
    (utf8 "plenora.nats.stream_sequence", decimal facts.streamSequence),
    (utf8 "plenora.nats.consumer_sequence", decimal facts.consumerSequence),
    (utf8 "plenora.nats.pending", decimal facts.pending)]

theorem brokerMetadata_eq (subject : Text) (facts : DeliveryFacts) :
    brokerMetadata subject facts =
      (MessageMetadata.new.insertAll (insertedHeaders subject facts)).mapError
        fun _ => malformed (utf8 "broker metadata key is invalid") true := by
  simp only [insertedHeaders, MessageMetadata.mapError_insertAll_cons]
  rfl

variable {facts : DeliveryFacts} {subject : Text}

theorem entries_of_insertAll {metadata}
    (h : MessageMetadata.new.insertAll (insertedHeaders subject facts) = .ok metadata) :
    metadata.entries = brokerHeaders subject facts := by
  simp only [insertedHeaders, MessageMetadata.insertAll_cons_eq_ok_iff,
    MessageMetadata.map_insert_eq_ok_iff] at h
  obtain ⟨m₁, h₁, m₂, h₂, m₃, h₃, m₄, h₄, m₅, h₅, m₆, h₆, hlast⟩ := h
  cases hlast
  rw [h₆, h₅, h₄, h₃, h₂, h₁]
  rfl

/-- The names of subjects, streams and consumers are short enough for their headers. -/
theorem exists_brokerMetadata (hsubject : subject.length ≤ 255)
    (hstream : facts.stream.length ≤ 255) (hcons : facts.consumer.length ≤ 255) :
    ∃ metadata, brokerMetadata subject facts = .ok metadata ∧
      metadata.entries = brokerHeaders subject facts := by
  have hseq := length_decimal_u64 facts.streamSequence
  have hconsumerSequence := length_decimal_u64 facts.consumerSequence
  have hpend := length_decimal_u64 facts.pending
  have hkeys : ∀ header ∈ insertedHeaders subject facts, validateKey header.1 = .ok () := by
    simp only [insertedHeaders, forall_mem_cons]
    exact ⟨by decide, by decide, by decide, by decide, by decide, by decide, by simp⟩
  have hvalues : ∀ header ∈ insertedHeaders subject facts, header.2.length ≤ 255 := by
    simp only [insertedHeaders, forall_mem_cons]
    exact ⟨hsubject, hstream, hcons, by omega, by omega, by omega, by simp⟩
  have hbytes : ∀ bytes ∈ (insertedHeaders subject facts).map headerBytes, bytes ≤ 128 + 255 := by
    intro bytes hbytes
    obtain ⟨header, hheader, rfl⟩ := mem_map.mp hbytes
    exact Nat.add_le_add (length_le_of_validateKey (hkeys header hheader)) (hvalues header hheader)
  have hsum : ((insertedHeaders subject facts).map headerBytes).sum ≤ 6 * (128 + 255) :=
    sum_le_card_nsmul _ _ hbytes
  have hroom : MessageMetadata.new.Room (insertedHeaders subject facts) := by
    have hents : 0 + 6 ≤ maxMetadataEntries := by decide
    have htotal : 6 * (128 + 255) ≤ maxMetadataTotalBytes := by decide
    have hnew : MessageMetadata.new.size = 0 := rfl
    exact .of_spare hents (by omega)
  have hnodup : ((insertedHeaders subject facts).map Prod.fst).Nodup := by
    simp only [insertedHeaders, map_cons]
    decide
  obtain ⟨metadata, hmeta⟩ := (MessageMetadata.exists_insertAll_iff hnodup).mpr
    ⟨fun header hheader => ⟨hkeys header hheader,
      validateValue_eq_ok_iff.mpr ((hvalues header hheader).trans (by decide))⟩, hroom⟩
  refine ⟨metadata, ?_, entries_of_insertAll hmeta⟩
  rw [brokerMetadata_eq, hmeta]
  rfl

theorem exists_convertDelivery {message contentType headers} {shutdownNakDelay : Duration}
    {maxPayloadBytes : ℕ} {heartbeat} (hfacts : deliveryFacts message = .ok facts)
    (hpayload : message.payload.length ≤ maxPayloadBytes)
    (hheaders : decode message.headers = .ok (contentType, headers))
    (hsubject : message.subject.length ≤ 255) (hstream : facts.stream.length ≤ 255)
    (hcons : facts.consumer.length ≤ 255) :
    ∃ delivery, convertDelivery message shutdownNakDelay maxPayloadBytes heartbeat =
        .ok (.accepted delivery) ∧
      delivery.message = { contentType, bytes := message.payload, headers } ∧
      delivery.attempt = facts.attempt ∧
      delivery.brokerMetadata.entries = brokerHeaders message.subject facts := by
  obtain ⟨metadata, hmeta, hents⟩ := exists_brokerMetadata hsubject hstream hcons
  simp only [convertDelivery, hfacts, Nat.not_lt.mpr hpayload, hheaders, hmeta]
  exact ⟨_, rfl, rfl, rfl, hents⟩

end PlenoraRuntime.Nats
