import PlenoraRuntime.Messaging.Additions
import PlenoraRuntime.Messaging.Delivery

/-!
# Dead letters through a producer

Every `MessageProducer` is a `DeadLetterSink`: it publishes the message with up to four
headers about its failure. How `to_rfc3339` writes an instant is a parameter.

Like any headers that are added to a message, these need room among its own, so a message
within its bounds need not be publishable as a dead letter: `dead_letter_published_iff`
says which are.
-/

namespace PlenoraRuntime.Messaging

open List Option

def messageIdMetadataKey : Text := utf8 "plenora.message.id"

def deadLetterIdMetadataKey : Text := utf8 "plenora.dead_letter.id"

def deadLetterReasonMetadataKey : Text := utf8 "plenora.dead_letter.reason"

def deadLetterAttemptsMetadataKey : Text := utf8 "plenora.dead_letter.attempts"

def deadLetterFailedAtMetadataKey : Text := utf8 "plenora.dead_letter.failed_at"

/-- `insert_text`, with `metadata_error` for its errors. -/
def insertDeadLetterText (metadata : MessageMetadata) (key value : Text) :
    Except DeadLetterPublishError MessageMetadata :=
  metadata.insertWith (fun _ => ⟨.metadata⟩) key value

section publication

variable {P : Type*} (toRfc3339 : UtcDateTime → Text)

def deadLetterMessage (deadLetter : DeadLetter) :
    Except DeadLetterPublishError SerializedMessage :=
  match deadLetter.message.headers.getText messageIdMetadataKey with
  | .error _ => .error ⟨.metadata⟩
  | .ok messageId => do
      let metadata ← match messageId with
        | none => .ok deadLetter.message.headers
        | some messageId =>
          insertDeadLetterText deadLetter.message.headers deadLetterIdMetadataKey
            (messageId ++ utf8 ".dlq")
      let metadata ← insertDeadLetterText metadata deadLetterReasonMetadataKey deadLetter.reason
      let metadata ← insertDeadLetterText metadata deadLetterAttemptsMetadataKey
        (decimal deadLetter.attempts)
      let metadata ← insertDeadLetterText metadata deadLetterFailedAtMetadataKey
        (toRfc3339 deadLetter.failedAt)
      .ok { deadLetter.message with headers := metadata }

/-- `publish_dead_letter` of a producer: the messages it is called with, and the result. -/
def publishDeadLetter (producer : SerializedMessage → PublishResult P) (deadLetter : DeadLetter) :
    List SerializedMessage × PublishResult DeadLetterPublishError :=
  match deadLetterMessage toRfc3339 deadLetter with
  | .error error => ([], .error error)
  | .ok message => ([message], (producer message).mapError fun _ => ⟨.publication⟩)

/-! ## The headers of a dead letter -/

/-- The headers that are added, in order. -/
def deadLetterHeaders (messageId : Option Text) (reason : Text) (attempts : ℕ)
    (failedAt : UtcDateTime) : List (Text × Bytes) :=
  (messageId.map fun messageId => (deadLetterIdMetadataKey, messageId ++ utf8 ".dlq")).toList ++
    [(deadLetterReasonMetadataKey, reason),
      (deadLetterAttemptsMetadataKey, decimal attempts),
      (deadLetterFailedAtMetadataKey, toRfc3339 failedAt)]

variable {toRfc3339} {message : SerializedMessage} {messageId : Option Text}

theorem deadLetterMessage_eq {deadLetter : DeadLetter}
    (hid : deadLetter.message.headers.getText messageIdMetadataKey = .ok messageId) :
    deadLetterMessage toRfc3339 deadLetter =
      ((deadLetter.message.headers.insertAll (deadLetterHeaders toRfc3339 messageId
        deadLetter.reason deadLetter.attempts deadLetter.failedAt)).mapError
          fun _ => ⟨.metadata⟩).map fun headers => { deadLetter.message with headers } := by
  simp only [deadLetterMessage, hid, deadLetterHeaders]
  cases messageId with
  | none =>
    simp only [map_none, toList_none, nil_append,
      MessageMetadata.mapError_insertAll_cons, Guard.map_bind]
    rfl
  | some messageId =>
    simp only [map_some, toList_some, cons_append, nil_append,
      MessageMetadata.mapError_insertAll_cons, Guard.map_bind]
    rfl

theorem nodup_deadLetterHeaders (messageId : Option Text) (reason : Text) (attempts : ℕ)
    (failedAt : UtcDateTime) :
    ((deadLetterHeaders toRfc3339 messageId reason attempts failedAt).map Prod.fst).Nodup := by
  cases messageId with
  | none =>
    simp only [deadLetterHeaders, map_none, toList_none, nil_append, map_cons]
    decide
  | some messageId =>
    simp only [deadLetterHeaders, map_some, toList_some, cons_append, nil_append, map_cons]
    decide

/-- The only header whose value can be too long is the identifier. -/
theorem valid_deadLetterHeaders_iff {reason : Text} {attempts : ℕ} {failedAt : UtcDateTime}
    (hreason : reason.length ≤ maxMetadataValueBytes)
    (hatts : (decimal attempts).length ≤ maxMetadataValueBytes)
    (hfailedAt : (toRfc3339 failedAt).length ≤ maxMetadataValueBytes) :
    (∀ header ∈ deadLetterHeaders toRfc3339 messageId reason attempts failedAt,
      validateKey header.1 = .ok () ∧ validateValue header.1 header.2 = .ok ()) ↔
        ∀ id ∈ messageId, (id ++ utf8 ".dlq").length ≤ maxMetadataValueBytes := by
  have hrest : ∀ header ∈ [(deadLetterReasonMetadataKey, reason),
      (deadLetterAttemptsMetadataKey, decimal attempts),
      (deadLetterFailedAtMetadataKey, toRfc3339 failedAt)],
      validateKey header.1 = .ok () ∧ validateValue header.1 header.2 = .ok () := by
    simp only [forall_mem_cons, validateValue_eq_ok_iff]
    exact ⟨⟨by decide, hreason⟩, ⟨by decide, hatts⟩, ⟨by decide, hfailedAt⟩, by simp⟩
  have hkey : validateKey deadLetterIdMetadataKey = .ok () := by decide
  cases messageId with
  | none => exact iff_of_true hrest (by simp)
  | some messageId =>
    simp only [deadLetterHeaders, map_some, toList_some, cons_append,
      nil_append]
    rw [forall_mem_cons, and_iff_left hrest, and_iff_right hkey, validateValue_eq_ok_iff]
    simp

end publication

/-- A message can be published as a dead letter exactly when its identifier leaves four
bytes for the suffix and there is room for the headers. The producer is then called with
a message that differs in these headers only; otherwise it is not called. -/
theorem dead_letter_published_iff {P : Type*} (toRfc3339 : UtcDateTime → Text)
    (producer : SerializedMessage → PublishResult P) (message : SerializedMessage)
    (attempts : Fin (2 ^ 32)) (failedAt : UtcDateTime) {messageId : Option Text}
    (hformat : (toRfc3339 failedAt).length ≤ maxMetadataValueBytes)
    (hid : message.headers.getText messageIdMetadataKey = .ok messageId) :
    let reason := utf8 "handler_failed"
    let added := deadLetterHeaders toRfc3339 messageId reason attempts failedAt
    let fits := (∀ id ∈ messageId, (id ++ utf8 ".dlq").length ≤ maxMetadataValueBytes) ∧
      message.headers.Room added
    let answer := publishDeadLetter toRfc3339 producer { message, reason, attempts, failedAt }
    (fits → ∃ published,
      answer = ([published], (producer published).mapError fun _ => ⟨.publication⟩) ∧
        published.bytes = message.bytes ∧ published.contentType = message.contentType ∧
        ∀ key, published.headers.get key =
          (OrderedTable.get key added).or (message.headers.get key)) ∧
      (¬ fits → answer = ([], .error ⟨.metadata⟩)) := by
  intro reason added fits answer
  have hattempts : (decimal attempts).length ≤ maxMetadataValueBytes :=
    (length_decimal_le 10 (by decide) (attempts.isLt.trans (by decide))).trans (by decide)
  -- The headers can be added exactly if they fit.
  have hfits : (∃ headers, message.headers.insertAll added = .ok headers) ↔ fits :=
    (MessageMetadata.exists_insertAll_iff (nodup_deadLetterHeaders ..)).trans
      (and_congr_left' (valid_deadLetterHeaders_iff (by decide) hattempts hformat))
  have hmessage : deadLetterMessage toRfc3339 { message, reason, attempts, failedAt } =
      ((message.headers.insertAll added).mapError fun _ => ⟨.metadata⟩).map fun headers =>
        { message with headers } := deadLetterMessage_eq hid
  rw [← hfits]
  constructor
  · rintro ⟨headers, hheaders⟩
    rw [hheaders] at hmessage
    refine ⟨{ message with headers }, ?_, rfl, rfl, ?_⟩
    · simp only [answer, publishDeadLetter, hmessage]
      rfl
    · exact MessageMetadata.get_insertAll (nodup_deadLetterHeaders ..) hheaders
  · intro hnone
    cases hheaders : message.headers.insertAll added with
    | ok headers => exact absurd ⟨headers, hheaders⟩ hnone
    | error error =>
      rw [hheaders] at hmessage
      simp only [answer, publishDeadLetter, hmessage]
      rfl

/-- A message is published with its own headers; the reason it had before is replaced. -/
theorem dead_letter_published_with_headers :
    let message : SerializedMessage :=
      { contentType := utf8 "text/plain", bytes := [1, 2], headers := Sample.headers }
    ∃ published,
      publishDeadLetter (fun _ => utf8 "1970-01-01T00:00:00+00:00")
          (fun _ => (.ok .confirmed : PublishResult Unit))
          { message, reason := utf8 "handler_failed", attempts := 3, failedAt := 0 } =
        ([published], .ok .confirmed) ∧
      published.bytes = [1, 2] ∧
      published.headers.get (utf8 "app.tenant") = some (utf8 "north") ∧
      published.headers.get deadLetterIdMetadataKey = some (utf8 "m-1.dlq") ∧
      published.headers.get deadLetterReasonMetadataKey = some (utf8 "handler_failed") := by
  intro message
  have hid : message.headers.getText messageIdMetadataKey = .ok (some (utf8 "m-1")) := by
    decide +kernel
  obtain ⟨hfits, -⟩ := dead_letter_published_iff (fun _ => utf8 "1970-01-01T00:00:00+00:00")
    (fun _ => (.ok .confirmed : PublishResult Unit)) message 3 0 (by decide) hid
  obtain ⟨published, hanswer, hbytes, -, hheaders⟩ :=
    hfits ⟨by decide +kernel, .of_spare (by decide +kernel) (by decide +kernel)⟩
  refine ⟨published, hanswer, hbytes, ?_, ?_, ?_⟩ <;>
    exact (hheaders _).trans (by decide +kernel)

/-- A message with as many headers as there may be is not. -/
theorem full_headers_not_dead_lettered :
    publishDeadLetter (fun _ => utf8 "1970-01-01T00:00:00+00:00")
        (fun _ => (.ok .confirmed : PublishResult Unit))
        { message := { SerializedMessage.new (utf8 "text/plain") [] with
            headers := Sample.fullHeaders }
          reason := utf8 "handler_failed"
          attempts := 1
          failedAt := 0 } = ([], .error ⟨.metadata⟩) := by
  decide +kernel

end PlenoraRuntime.Messaging
