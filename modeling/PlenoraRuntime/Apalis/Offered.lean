import PlenoraRuntime.Apalis.Bridge
import PlenoraRuntime.Nats.Consumer
import PlenoraRuntime.Nats.RoundTrip

/-!
# Which deliveries are offered to the worker

The bridge adds the broker's headers to those of the message before it offers the
message to the worker. A message whose own headers are within the bounds can still lack
the room for six more: then the merge fails, and the delivery is terminated without
having been offered. `offered_iff_room` says which deliveries that happens to.
-/

namespace PlenoraRuntime.Apalis

open Messaging Worker Nats

section service

variable {T D E : Type*} {service : BrokerDeliveryService T D E} {delivery : Delivery}
  {decoded : DecodedWorkerMessage T}

/-- The broker's headers are merged exactly when there is room for them. -/
theorem exists_combinedMetadata_iff :
    (∃ merged, combinedMetadata delivery = .ok merged) ↔
      delivery.message.headers.Room delivery.brokerMetadata.entries := by
  have hport := delivery.brokerMetadata.portable
  have hvalid : ∀ header ∈ delivery.brokerMetadata.entries,
      validateKey header.1 = .ok () ∧ validateValue header.1 header.2 = .ok () :=
    fun header hheader => ⟨hport.keys header hheader, hport.values header hheader⟩
  exact (MessageMetadata.exists_insertAll_iff hport.sorted.nodup).trans
    (and_iff_right hvalid)

theorem get_combinedMetadata {merged : MessageMetadata}
    (h : combinedMetadata delivery = .ok merged) (key : Text) :
    merged.get key = (delivery.brokerMetadata.get key).or (delivery.message.headers.get key) :=
  MessageMetadata.get_insertAll delivery.brokerMetadata.portable.sorted.nodup h key

/-- With room for the broker's headers, the message is offered under all of them. -/
theorem execute_of_room (cancellation : ℕ) (hdecode : service.decode delivery.message = .ok decoded)
    (hroom : delivery.message.headers.Room delivery.brokerMetadata.entries) :
    ∃ merged rest, combinedMetadata delivery = .ok merged ∧
      (service.execute delivery cancellation).1 =
        .execute
          { context := .fromIdentity decoded.identity delivery.attempt merged service.shutdown
              cancellation
            message := decoded.message } :: rest := by
  obtain ⟨merged, hmerged⟩ := exists_combinedMetadata_iff.mpr hroom
  simp only [BrokerDeliveryService.execute, hdecode, hmerged]
  exact ⟨merged, _, rfl, rfl⟩

theorem events_rejectMetadata (error : MetadataKeyError) :
    (rejectMetadata (T := T) (D := D) (E := E) delivery error).1 =
      [.nack .consumerRejected (delivery.acknowledger.nack .consumerRejected)] := by
  unfold rejectMetadata rejectWith
  cases delivery.acknowledger.nack .consumerRejected <;> rfl

/-- Without it, the delivery is terminated. -/
theorem execute_of_no_room (cancellation : ℕ)
    (hdecode : service.decode delivery.message = .ok decoded)
    (hroom : ¬ delivery.message.headers.Room delivery.brokerMetadata.entries) :
    (service.execute delivery cancellation).1 =
      [.nack .consumerRejected (delivery.acknowledger.nack .consumerRejected)] := by
  cases hmerged : combinedMetadata delivery with
  | ok merged => exact absurd (exists_combinedMetadata_iff.mp ⟨merged, hmerged⟩) hroom
  | error error =>
    simp only [BrokerDeliveryService.execute, hdecode, hmerged]
    exact events_rejectMetadata error

/-- A delivery of a message that the decoder accepts is offered to the worker, under the
headers of the message and the broker's, exactly when there is room for the broker's; any
other is terminated without having been offered. -/
theorem offered_iff_room (service : BrokerDeliveryService T D E) (cancellation : ℕ)
    {message : JetStreamMessage} {facts : DeliveryFacts} {contentType : Text}
    {headers : MessageMetadata} (shutdownNakDelay : Duration) {maxPayloadBytes : ℕ}
    (heartbeat : Option DeliveryHeartbeatConfig)
    (hfacts : deliveryFacts message = .ok facts)
    (hpayload : message.payload.length ≤ maxPayloadBytes)
    (hheaders : Nats.decode message.headers = .ok (contentType, headers))
    (hsubject : message.subject.length ≤ 255) (hstream : facts.stream.length ≤ 255)
    (hconsumer : facts.consumer.length ≤ 255)
    (hdecode : service.decode { contentType, bytes := message.payload, headers } = .ok decoded) :
    ∃ delivery, convertDelivery message shutdownNakDelay maxPayloadBytes heartbeat =
        .ok (.accepted delivery) ∧
      (headers.Room (brokerHeaders message.subject facts) → ∃ merged rest,
        (∀ key, merged.get key =
          (OrderedTable.get key (brokerHeaders message.subject facts)).or (headers.get key)) ∧
        (service.execute delivery cancellation).1 =
          .execute
            { context := .fromIdentity decoded.identity facts.attempt merged service.shutdown
                cancellation
              message := decoded.message } :: rest) ∧
      (¬ headers.Room (brokerHeaders message.subject facts) →
        (service.execute delivery cancellation).1 =
          [.nack .consumerRejected (delivery.acknowledger.nack .consumerRejected)]) := by
  obtain ⟨delivery, hdelivery, hmessage, hattempt, hbroker⟩ :=
    exists_convertDelivery hfacts hpayload hheaders hsubject hstream hconsumer
  have hown : delivery.message.headers = headers := by rw [hmessage]
  rw [← hmessage] at hdecode
  rw [← hbroker, ← hown]
  refine ⟨delivery, hdelivery, fun hroom => ?_, execute_of_no_room cancellation hdecode⟩
  obtain ⟨merged, rest, hmerged, hevents⟩ := execute_of_room cancellation hdecode hroom
  exact ⟨merged, rest, get_combinedMetadata hmerged, hattempt ▸ hevents⟩

end service

namespace Sample

/-- A service that accepts every message and completes it. -/
def service : BrokerDeliveryService Unit Unit Unit where
  decode _ := .ok { identity := ⟨⟨0⟩, ⟨0⟩, none⟩, message := () }
  worker _ := { result := .ok () }
  shutdown := 0
  deadLetterSink := none
  now := 0

def subject : Text := utf8 "orders.created"

def message (headers : Option HeaderMap) : JetStreamMessage where
  subject := subject
  payload := []
  headers := headers
  info := some
    { stream := utf8 "ORDERS"
      consumer := utf8 "worker"
      streamSequence := 7
      consumerSequence := 5
      delivered := 1
      pending := 0 }
  acker := { ackWith := fun _ => true, doubleAck := true }

def facts : DeliveryFacts where
  attempt := 1
  stream := utf8 "ORDERS"
  consumer := utf8 "worker"
  streamSequence := 7
  consumerSequence := 5
  pending := 0

end Sample

theorem Sample.deliveryFacts_message (headers : Option HeaderMap) :
    deliveryFacts (Sample.message headers) = .ok Sample.facts :=
  rfl

/-- A message is offered with its own headers; the subject it had before is replaced. -/
theorem offered_with_headers : ∃ headers delivery job rest,
    Nats.encode defaultContentType Messaging.Sample.headers = .ok headers ∧
      convertDelivery (Sample.message (some headers)) 0 0 none = .ok (.accepted delivery) ∧
      (Sample.service.execute delivery 0).1 = .execute job :: rest ∧
      job.context.metadata.get (utf8 "app.tenant") = some (utf8 "north") ∧
      job.context.metadata.get (utf8 "plenora.nats.subject") = some Sample.subject := by
  obtain ⟨headers, hencode, hround⟩ := exists_round_trip Messaging.Sample.headers
    (⟨by decide, by decide⟩ : Encodable defaultContentType)
  obtain ⟨delivery, hdelivery, hoffered, -⟩ := offered_iff_room Sample.service 0 0 none
    (Sample.deliveryFacts_message (some headers)) (Nat.le_refl 0) (hround headers (.refl _))
    (by decide : Sample.subject.length ≤ 255) (by decide) (by decide) rfl
  have hroom : Messaging.Sample.headers.Room (brokerHeaders Sample.subject Sample.facts) :=
    .of_spare (by decide +kernel) (by decide +kernel)
  obtain ⟨merged, rest, hmerged, hevents⟩ := hoffered hroom
  have hmerged : ∀ key, merged.get key = (OrderedTable.get key
      (brokerHeaders Sample.subject Sample.facts)).or (Messaging.Sample.headers.get key) := hmerged
  refine ⟨headers, delivery, _, rest, hencode, hdelivery, hevents, ?_, ?_⟩ <;>
    exact (hmerged _).trans (by decide +kernel)

/-- A message with as many headers as there may be is published, delivered and decoded,
and terminated without having been offered. -/
theorem full_headers_rejected : ∃ headers delivery decoded,
    Nats.encode defaultContentType Messaging.Sample.fullHeaders = .ok headers ∧
      convertDelivery (Sample.message (some headers)) 0 0 none = .ok (.accepted delivery) ∧
      delivery.message.headers = Messaging.Sample.fullHeaders ∧
      Sample.service.decode delivery.message = .ok decoded ∧
      (Sample.service.execute delivery 0).1 =
        [.nack .consumerRejected (delivery.acknowledger.nack .consumerRejected)] := by
  obtain ⟨headers, hencode, hround⟩ := exists_round_trip Messaging.Sample.fullHeaders
    (⟨by decide, by decide⟩ : Encodable defaultContentType)
  obtain ⟨delivery, hdelivery, hmessage, -, hbroker⟩ := exists_convertDelivery
    (Sample.deliveryFacts_message (some headers)) (Nat.le_refl 0)
    (hround headers (.refl _)) (by decide : Sample.subject.length ≤ 255) (by decide) (by decide)
  have hown : delivery.message.headers = Messaging.Sample.fullHeaders := by rw [hmessage]
  refine ⟨headers, delivery, _, hencode, hdelivery, hown, rfl, execute_of_no_room 0 rfl ?_⟩
  have hfull : ¬ Messaging.Sample.fullHeaders.entries.length +
      ((brokerHeaders Sample.subject Sample.facts).filter fun header =>
        !Messaging.Sample.fullHeaders.containsKey header.1).length ≤ maxMetadataEntries := by
    decide +kernel
  rw [hown, hbroker]
  exact fun hroom => hfull hroom.entries

end PlenoraRuntime.Apalis
