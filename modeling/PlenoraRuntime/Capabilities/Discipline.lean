import PlenoraRuntime.Capabilities.Dispatcher

/-!
# Admission before the adapter, conformity before the sink

`Admitted` and `Conforms` state what has to hold before the adapter is invoked and before
a result is published. The calls of a dispatch that respect them, and what they come to, are
described from the inside out:

* **`Completion`** after the adapter has answered,
* **`Course`** after it was invoked, and
* **`Protocol`** for the whole dispatch.

The dispatcher follows the protocol (`handle_protocol`), and what is claimed of its calls
holds of every dispatch that does.
-/

namespace PlenoraRuntime.Capabilities

open Messaging Worker List

/-! ## The protocol -/

section protocol

variable (parseFromRfc3339 : Text → Option OffsetDateTime) (dispatcher : CapabilityDispatcher)
  (now : SystemTime) (context : WorkerContext) (request : CapabilityRequest)
  (registration : CapabilityRegistration) (expected : Option CapabilityPayload)
  (response : CapabilityResponse) (result : CapabilityResult)

/-- The deadline of a request, if it has one, is a UTC instant that is not over. -/
def Timely : Prop :=
  ∀ value, request.input.headers.get executionDeadlineMetadataKey = some value →
    isUtf8 value = true ∧
      ∃ deadline, parseFromRfc3339 value = some ⟨deadline, 0⟩ ∧ now ≤ deadline

structure Admitted : Prop where
  bounded : request.input.len ≤ dispatcher.config.maxPayloadBytes
  registered : dispatcher.registry.registration request.capability = some registration
  discovered : ∀ discovery, registration.discovery = some discovery → discovery.Admits request
  timely : Timely parseFromRfc3339 now request

structure Conforms : Prop where
  bounded : result.message.len ≤ dispatcher.config.maxPayloadBytes
  contract : ∀ payload, expected = some payload → result.outputContract = payload.contract
  contentType : ∀ payload, expected = some payload →
    result.message.contentType ∈ payload.contentTypes

/-- The sink is handed a result that carries what the adapter answered, and answers this. -/
structure Publishes (answer : Option (PublishResult CapabilityResultPublishError)) : Prop where
  conforms : Conforms dispatcher expected result
  carries : ∃ output, response.intoParts = some (result.outputContract, output) ∧
    result.message.bytes = output.bytes
  handed : ∃ sink, dispatcher.resultSink = some sink ∧ answer = sink result

/-- An adapter answered without an output, and none was advertised. -/
def Acknowledged : Prop :=
  response.output = none ∧ expected = none

/-- The error is the dispatcher's own, and says this of the remote effect. -/
structure CapabilityDispatchError.Reports (error : CapabilityDispatchError)
    (effect : CapabilityRemoteEffect) : Prop where
  category : error.category ≠ .handler
  effect : error.remoteEffect = effect

inductive Completion : List Event → Option (Except CapabilityDispatchError Unit) → Prop
  | acknowledged (h : Acknowledged expected response) : Completion [] (some (.ok ()))
  | refused (h : ¬ Acknowledged expected response) {error : CapabilityDispatchError}
      (herror : error.Reports .unknown) :
      Completion [] (some (.error error))
  | confirmed {result : CapabilityResult}
      (hpub : Publishes dispatcher expected response result (some (.ok .confirmed))) :
      Completion [.publish result (some (.ok .confirmed))] (some (.ok ()))
  | unconfirmed (h : ¬ Acknowledged expected response) {result answer}
      (hpub : Publishes dispatcher expected response result (some answer))
      (hans : answer ≠ .ok .confirmed) {error : CapabilityDispatchError}
      (herror : error.Reports .unknown) :
      Completion [.publish result (some answer)] (some (.error error))
  | unanswered (h : ¬ Acknowledged expected response) {result}
      (hpub : Publishes dispatcher expected response result none) :
      Completion [.publish result none] none

/-- The error of a dispatch whose adapter failed. -/
def CapabilityRegistration.handlerError (registration : CapabilityRegistration)
    (request : CapabilityRequest) (failure : CapabilityFailure) : CapabilityDispatchError :=
  .handler request.capability request.operation
    (registration.discovery.isSome && failure.publicError.isNone) failure

def CapabilityRegistration.Answers (registration : CapabilityRegistration)
    (context : WorkerContext) (request : CapabilityRequest)
    (answer : Except CapabilityFailure CapabilityResponse) : Prop :=
  ∃ elapses, registration.handler context request = .completes elapses answer

inductive Course : List Event → Option (Except CapabilityDispatchError Unit) → Prop
  | lost : Course [] none
  | overdue :
      Course [.cancel context.cancellation .timeout]
        (some (.error (.deadlineExceeded request.capability request.operation true)))
  | failed {failure : CapabilityFailure}
      (hans : registration.Answers context request (.error failure)) :
      Course [.answer (.error failure)]
        (some (.error (registration.handlerError request failure)))
  | answered {response events returned}
      (hans : registration.Answers context request (.ok response))
      (h : Completion dispatcher (registration.expectedOutput request) response events
        returned) :
      Course (.answer (.ok response) :: events) returned

inductive Protocol : List Event → Option (Except CapabilityDispatchError Unit) → Prop
  | refused {error : CapabilityDispatchError} (herror : error.Reports .notStarted) :
      Protocol [] (some (.error error))
  | invoked {registration : CapabilityRegistration}
      (hadm : Admitted parseFromRfc3339 dispatcher now request registration)
      {events : List Event} {returned : Option (Except CapabilityDispatchError Unit)}
      (hcourse : Course dispatcher context request registration events returned) :
      Protocol (.invoke request.capability context request :: events) returned

end protocol

/-! ## The dispatcher follows it -/

variable {parseFromRfc3339 : Text → Option OffsetDateTime} {registration : CapabilityRegistration}
  {expected : Option CapabilityPayload} {dispatcher : CapabilityDispatcher}
  {error : CapabilityDispatchError} {response : CapabilityResponse} {request : CapabilityRequest}
  {result : CapabilityResult} {context : WorkerContext} {now : SystemTime}

section dispatcher

variable {deadline : SystemTime} {remaining : Option Duration} {outputContract : ContractId}
  {output : SerializedMessage} {capability : CapabilityId} {operation : OperationName}
  {operationVersion : OperationVersion} {correlationId : CorrelationId} {headers : MessageMetadata}
  {key : Text}

theorem getText_eq_ok_some {value} (h : headers.getText key = .ok (some value)) :
    headers.get key = some value ∧ isUtf8 value = true := by
  unfold MessageMetadata.getText at h
  split at h
  case h_1 => cases h
  case h_2 stored hstored =>
    unfold fromUtf8 at h
    split at h
    case isTrue hutf8 =>
      obtain rfl : stored = value := Option.some.inj (Except.ok.inj h)
      exact ⟨hstored, hutf8⟩
    case isFalse => cases h

theorem getText_eq_ok_none (h : headers.getText key = .ok none) : headers.get key = none := by
  unfold MessageMetadata.getText at h
  split at h
  case h_1 hnone => exact hnone
  case h_2 =>
    unfold fromUtf8 at h
    split at h <;> cases h

theorem timely_of_none (h : requestDeadline parseFromRfc3339 request = .ok none) :
    Timely parseFromRfc3339 now request := by
  unfold requestDeadline at h
  split at h
  case h_1 => cases h
  case h_2 htext =>
    intro value hvalue
    rw [getText_eq_ok_none htext] at hvalue
    cases hvalue
  case h_3 =>
    split at h
    · cases h
    · split at h <;> cases h

theorem requestDeadline_eq_ok_some_iff :
    requestDeadline parseFromRfc3339 request = .ok (some deadline) ↔
      ∃ value, request.input.headers.get executionDeadlineMetadataKey = some value ∧
        isUtf8 value = true ∧ parseFromRfc3339 value = some ⟨deadline, 0⟩ := by
  constructor
  · intro h
    unfold requestDeadline at h
    split at h
    case h_1 => cases h
    case h_2 => cases h
    case h_3 text htext =>
      obtain ⟨hget, hutf8⟩ := getText_eq_ok_some htext
      split at h
      case h_1 => cases h
      case h_2 parsed hparsed =>
        obtain ⟨instant, localMinusUtc⟩ := parsed
        rw [Guard.ite_error_eq_ok] at h
        obtain ⟨hutc, hdeadline⟩ := h
        obtain rfl : localMinusUtc = 0 := not_not.mp hutc
        obtain rfl : instant = deadline := Option.some.inj (Except.ok.inj hdeadline)
        exact ⟨text, hget, hutf8, hparsed⟩
  · rintro ⟨value, hget, hutf8, hparse⟩
    have htext : request.input.headers.getText executionDeadlineMetadataKey =
        .ok (some value) := by
      simp [MessageMetadata.getText, hget, fromUtf8, hutf8]
      rfl
    simp [requestDeadline, htext, hparse]

theorem timely_of_some (h : requestDeadline parseFromRfc3339 request = .ok (some deadline))
    (hnow : now ≤ deadline) : Timely parseFromRfc3339 now request := by
  obtain ⟨text, hget, hutf8, hparse⟩ := requestDeadline_eq_ok_some_iff.mp h
  intro value hvalue
  obtain rfl : text = value := Option.some.inj (hget.symm.trans hvalue)
  exact ⟨hutf8, deadline, hparse, hnow⟩

theorem le_of_durationSince {instant earlier : ℤ} {elapsed : ℕ}
    (h : durationSince instant earlier = some elapsed) : earlier ≤ instant := by
  unfold durationSince at h
  split at h
  case isTrue hle => exact hle
  case isFalse => cases h

theorem admission_admitted
    (h : dispatcher.admission parseFromRfc3339 now request = .ok (registration, remaining)) :
    Admitted parseFromRfc3339 dispatcher now request registration := by
  simp only [CapabilityDispatcher.admission, Guard.ite_error_eq_ok] at h
  obtain ⟨hbound, h⟩ := h
  split at h
  case h_1 => cases h
  case h_2 found hfound =>
    split at h
    case h_1 => cases h
    case h_2 hvalid =>
      have hdisc : ∀ discovery, found.discovery = some discovery →
          discovery.Admits request := by
        intro discovery hdiscovery
        rw [hdiscovery] at hvalid
        exact discovery.validateRequest_eq_ok_iff.mp hvalid
      -- Only a deadline that has not passed is left to look at.
      split at h
      case h_1 => cases h
      case h_2 hdeadline =>
        cases h
        exact ⟨Nat.le_of_not_lt hbound, hfound, hdisc, timely_of_none hdeadline⟩
      case h_3 deadline hdeadline =>
        split at h
        case h_1 => cases h
        case h_2 left hleft =>
          cases h
          exact ⟨Nat.le_of_not_lt hbound, hfound, hdisc,
            timely_of_some hdeadline (le_of_durationSince hleft)⟩

theorem admission_not_started
    (h : dispatcher.admission parseFromRfc3339 now request = .error error) :
    error.Reports .notStarted := by
  unfold CapabilityDispatcher.admission at h
  dsimp only at h
  -- Each check that fails returns an error of the dispatcher's own.
  repeat' split at h
  all_goals
    cases h
    try exact ⟨nofun, rfl⟩

/-- A result keeps the output it is made of; only the headers change. -/
theorem CapabilityResult.new_spec
    (h : CapabilityResult.new operation operationVersion outputContract correlationId output =
      .ok result) :
    result.outputContract = outputContract ∧ result.message.bytes = output.bytes ∧
      result.message.contentType = output.contentType := by
  unfold CapabilityResult.new at h
  split at h
  case h_1 => cases h
  case h_2 =>
    cases h
    exact ⟨rfl, rfl, rfl⟩

theorem publishes_of_checkOutput {sink}
    (hparts : response.intoParts = some (outputContract, output))
    (hcheck : dispatcher.checkOutput expected outputContract output = .ok ())
    (hres : CapabilityResult.new operation operationVersion outputContract correlationId
      output = .ok result)
    (hsink : dispatcher.resultSink = some sink) :
    Publishes dispatcher expected response result (sink result) := by
  obtain ⟨hcontr, hbytes, htype⟩ := CapabilityResult.new_spec hres
  simp only [CapabilityDispatcher.checkOutput, Guard.ite_error_eq_ok] at hcheck
  obtain ⟨hbound, hcheck⟩ := hcheck
  have hlen : result.message.len = output.len := congrArg List.length hbytes
  refine ⟨⟨hlen ▸ Nat.le_of_not_lt hbound, ?_, ?_⟩, ⟨output, hcontr ▸ hparts, hbytes⟩,
    sink, hsink, rfl⟩
  · rintro payload rfl
    simp only [Guard.ite_error_eq_ok] at hcheck
    rw [hcontr]
    exact (not_not.mp hcheck.1).symm
  · rintro payload rfl
    simp only [Guard.ite_error_eq_ok, Bool.not_eq_true', Bool.not_eq_false] at hcheck
    rw [htype]
    exact CapabilityPayload.supportsContentType_iff.mp hcheck.2.1

theorem publishResult_completion (hack : ¬ Acknowledged expected response)
    (hpub : ∀ sink, dispatcher.resultSink = some sink →
      Publishes dispatcher expected response result (sink result)) :
    Completion dispatcher expected response
      (dispatcher.publishResult capability operation result).1
      (dispatcher.publishResult capability operation result).2 := by
  unfold CapabilityDispatcher.publishResult
  split
  case h_1 => exact .refused hack ⟨nofun, rfl⟩
  case h_2 sink hsink =>
    have hpub := hpub sink hsink
    generalize sink result = answer at hpub ⊢
    cases answer with
    | none => exact .unanswered hack hpub
    | some answer =>
      rcases answer with failure | _ | _
      · exact .unconfirmed hack hpub (by nofun) ⟨nofun, rfl⟩
      · exact .confirmed hpub
      · exact .unconfirmed hack hpub (by nofun) ⟨nofun, rfl⟩

theorem completeResponse_completion :
    let completed := dispatcher.completeResponse capability operation operationVersion
      correlationId expected response
    Completion dispatcher expected response completed.1 completed.2 := by
  unfold CapabilityDispatcher.completeResponse
  split
  case h_1 hparts =>
    have houtput := CapabilityResponse.intoParts_eq_none_iff.mp hparts
    cases expected with
    | none => exact .acknowledged ⟨houtput, rfl⟩
    | some payload => exact .refused (by rintro ⟨-, hnone⟩; cases hnone) ⟨nofun, rfl⟩
  case h_2 outputContract output hparts =>
    have hack : ¬ Acknowledged expected response := by
      rintro ⟨houtput, -⟩
      rw [CapabilityResponse.intoParts_eq_none_iff.mpr houtput] at hparts
      cases hparts
    split
    case h_1 => exact .refused hack ⟨nofun, rfl⟩
    case h_2 hcheck =>
      split
      case h_1 => exact .refused hack ⟨nofun, rfl⟩
      case h_2 result hres =>
        exact publishResult_completion hack fun sink hsink =>
          publishes_of_checkOutput hparts hcheck hres hsink

/-- What is awaited of an invocation that completes is its own answer. -/
theorem Invocation.completes_of_awaited {remaining : Option Duration} {invocation : Invocation}
    {answer} (h : remaining.elim invocation.await invocation.timeout = .completed answer) :
    ∃ elapses, invocation = .completes elapses answer := by
  cases remaining with
  | none =>
    cases invocation with
    | completes elapses =>
      cases h
      exact ⟨elapses, rfl⟩
    | panics | stalls => cases h
  | some remaining =>
    cases invocation with
    | completes elapses =>
      simp only [Option.elim_some, Invocation.timeout] at h
      split at h <;> cases h
      exact ⟨elapses, rfl⟩
    | panics =>
      simp only [Option.elim_some, Invocation.timeout] at h
      split at h <;> cases h
    | stalls => cases h

theorem handle_protocol (parseFromRfc3339 : Text → Option OffsetDateTime)
    (dispatcher : CapabilityDispatcher) (now : SystemTime) (context : WorkerContext)
    (request : CapabilityRequest) :
    let handled := dispatcher.handle parseFromRfc3339 now context request
    Protocol parseFromRfc3339 dispatcher now context request handled.1 handled.2 := by
  unfold CapabilityDispatcher.handle
  dsimp only
  split
  case h_1 error herror => exact .refused (admission_not_started herror)
  case h_2 registration remaining hadm =>
    have hadmitted := admission_admitted hadm
    split
    case h_1 => exact .invoked hadmitted .lost
    case h_2 => exact .invoked hadmitted .overdue
    case h_3 failure hans =>
      exact .invoked hadmitted (.failed (Invocation.completes_of_awaited hans))
    case h_4 response hans =>
      exact .invoked hadmitted
        (.answered (Invocation.completes_of_awaited hans) completeResponse_completion)

end dispatcher

/-! ## What the protocol says -/

def Event.invokes : Event → Bool
  | .invoke .. => true
  | _ => false

def Event.publishes : Event → Bool
  | .publish .. => true
  | _ => false

def CapabilityDispatcher.advertisedOutput (dispatcher : CapabilityDispatcher)
    (request : CapabilityRequest) : Option CapabilityPayload :=
  (dispatcher.registry.registration request.capability).bind fun registration =>
    registration.expectedOutput request

section protocol

variable {events : List Event} {returned : Option (Except CapabilityDispatchError Unit)}
  {answer : Option (PublishResult CapabilityResultPublishError)}

section completion

variable (h : Completion dispatcher expected response events returned)
include h

theorem Completion.countP :
    events.countP Event.invokes = 0 ∧ events.countP Event.publishes ≤ 1 := by
  cases h <;> simp [Event.invokes, Event.publishes]

theorem Completion.ok_iff :
    returned = some (.ok ()) ↔
      Acknowledged expected response ∨
        ∃ result, .publish result (some (.ok .confirmed)) ∈ events := by
  cases h with
  | acknowledged h | refused h | unanswered h hpub => simp [h]
  | confirmed hpub => simp
  | unconfirmed h hpub hans => simp [h, Ne.symm hans]

theorem Completion.not_answer (result : Except CapabilityFailure CapabilityResponse) :
    .answer result ∉ events := by
  cases h <;> simp

end completion

section course

variable (h : Course dispatcher context request registration events returned)
include h

theorem Course.countP : events.countP Event.invokes = 0 ∧ events.countP Event.publishes ≤ 1 := by
  cases h with
  | lost | overdue | failed => exact ⟨rfl, Nat.zero_le _⟩
  | answered hans hcomp =>
    exact hcomp.countP

theorem Course.not_invoke (adapter : CapabilityId) (context' : WorkerContext)
    (request' : CapabilityRequest) : .invoke adapter context' request' ∉ events := by
  intro hmem
  exact countP_eq_zero.mp h.countP.1 _ hmem rfl

theorem Course.publishes (hmem : .publish result answer ∈ events) :
    ∃ response, .answer (.ok response) ∈ events ∧
      Publishes dispatcher (registration.expectedOutput request) response result answer := by
  cases h with
  | lost | overdue | failed => simp at hmem
  | @answered response _ _ hans hcomp =>
    refine ⟨response, mem_cons_self, ?_⟩
    cases hcomp <;> simp at hmem <;> obtain ⟨rfl, rfl⟩ := hmem <;> assumption

/-- What the adapter answered is what the registered adapter answers. -/
theorem Course.answers {answer} (hmem : .answer answer ∈ events) :
    registration.Answers context request answer := by
  cases h with
  | lost | overdue => simp at hmem
  | failed hans =>
    cases mem_singleton.mp hmem
    exact hans
  | answered hans hcomp =>
    cases (mem_cons.mp hmem).resolve_right (hcomp.not_answer _)
    exact hans

theorem Course.ok_iff :
    returned = some (.ok ()) ↔
      (∃ response, .answer (.ok response) ∈ events ∧
        Acknowledged (registration.expectedOutput request) response) ∨
      ∃ result, .publish result (some (.ok .confirmed)) ∈ events := by
  cases h with
  | lost | overdue | failed => simp
  | answered hans hcomp => simp [hcomp.ok_iff, hcomp.not_answer]

/-- Past the invocation, an error is the adapter's own or leaves the effect unknown. -/
theorem Course.of_error (hret : returned = some (.error error)) :
    (error.Reports .unknown ∧ ∀ failure, .answer (.error failure) ∉ events) ∨
      ∃ failure, events = [.answer (.error failure)] ∧
        error = registration.handlerError request failure := by
  cases h with
  | lost => cases hret
  | overdue =>
    cases hret
    exact .inl ⟨⟨nofun, rfl⟩, by simp⟩
  | @failed failure hans =>
    cases hret
    exact .inr ⟨failure, rfl, rfl⟩
  | answered hans hcomp =>
    cases hcomp with
    | acknowledged | confirmed | unanswered => cases hret
    | refused _ herror | unconfirmed _ _ _ herror =>
      cases hret
      exact .inl ⟨herror, by simp⟩

end course

/-- What a document that admits the request lists for it is what is expected. -/
theorem expectedOutput_of_discovered {discovery}
    (hdisc : registration.discovery = some discovery) {operation}
    (hmem : operation ∈ discovery.operations) (hname : operation.name = request.operation)
    (hver : operation.version = request.operationVersion) :
    registration.expectedOutput request = some operation.output := by
  unfold CapabilityRegistration.expectedOutput
  rw [hdisc, Option.bind_some,
    CapabilityDiscovery.operation_eq_some_iff.mpr ⟨hmem, hname, hver⟩, Option.map_some]

theorem Admitted.advertisedOutput
    (h : Admitted parseFromRfc3339 dispatcher now request registration) :
    dispatcher.advertisedOutput request = registration.expectedOutput request := by
  unfold CapabilityDispatcher.advertisedOutput
  rw [h.registered, Option.bind_some]

section follows

variable (h : Protocol parseFromRfc3339 dispatcher now context request events returned)
include h

theorem Protocol.countP : events.countP Event.invokes ≤ 1 ∧ events.countP Event.publishes ≤ 1 := by
  cases h with
  | refused => exact ⟨Nat.zero_le _, Nat.zero_le _⟩
  | invoked hadm hcourse =>
    rw [countP_cons_of_pos rfl, hcourse.countP.1]
    exact ⟨Nat.le_refl _, hcourse.countP.2⟩

theorem Protocol.of_invoke {adapter context' request'}
    (hmem : .invoke adapter context' request' ∈ events) :
    adapter = request.capability ∧ context' = context ∧ request' = request ∧
      ∃ registration, Admitted parseFromRfc3339 dispatcher now request registration := by
  cases h with
  | refused => simp at hmem
  | @invoked registration hadm _ _ hcourse =>
    rcases mem_cons.mp hmem with heq | hlater
    · obtain ⟨rfl, rfl, rfl⟩ := Event.invoke.inj heq
      exact ⟨rfl, rfl, rfl, registration, hadm⟩
    · exact absurd hlater (hcourse.not_invoke _ _ _)

theorem Protocol.of_answer {answer} (hmem : .answer answer ∈ events) :
    ∃ registration, Admitted parseFromRfc3339 dispatcher now request registration ∧
      registration.Answers context request answer := by
  cases h with
  | refused => simp at hmem
  | @invoked registration hadm _ _ hcourse =>
    have hlater := (mem_cons.mp hmem).resolve_left nofun
    exact ⟨registration, hadm, hcourse.answers hlater⟩

theorem Protocol.of_publish (hmem : .publish result answer ∈ events) :
    ∃ registration, Admitted parseFromRfc3339 dispatcher now request registration ∧
      ∃ response, .answer (.ok response) ∈ events ∧
        Publishes dispatcher (registration.expectedOutput request) response result answer := by
  cases h with
  | refused => simp at hmem
  | @invoked registration hadm _ _ hcourse =>
    have hlater := (mem_cons.mp hmem).resolve_left nofun
    obtain ⟨response, hanswer, hpub⟩ := hcourse.publishes hlater
    exact ⟨registration, hadm, response, mem_cons_of_mem _ hanswer, hpub⟩

theorem Protocol.ok_iff :
    returned = some (.ok ()) ↔
      (∃ response, .answer (.ok response) ∈ events ∧
        Acknowledged (dispatcher.advertisedOutput request) response) ∨
      ∃ result, .publish result (some (.ok .confirmed)) ∈ events := by
  cases h with
  | refused => simp
  | invoked hadm hcourse =>
    rw [hcourse.ok_iff, hadm.advertisedOutput]
    simp

theorem Protocol.of_error (hret : returned = some (.error error)) :
    (error.category ≠ .handler ∧ ∀ failure, .answer (.error failure) ∉ events) ∨
      ∃ registration failure,
        Admitted parseFromRfc3339 dispatcher now request registration ∧
        (∀ other, .answer (.error other) ∈ events ↔ other = failure) ∧
        error = registration.handlerError request failure := by
  cases h with
  | refused herror =>
    cases hret
    exact .inl ⟨herror.category, by simp⟩
  | @invoked registration hadm _ _ hcourse =>
    rcases hcourse.of_error hret with ⟨herror, hanswers⟩ | ⟨failure, rfl, heq⟩
    · exact .inl ⟨herror.category, by simpa using hanswers⟩
    · exact .inr ⟨registration, failure, hadm, by simp, heq⟩

theorem Protocol.effect_iff (hret : returned = some (.error error))
    (hhandler : error.category ≠ .handler) :
    error.remoteEffect = .notStarted ↔ events.countP Event.invokes = 0 := by
  cases h with
  | refused herror =>
    cases hret
    simp [herror.effect]
  | invoked hadm hcourse =>
    rcases hcourse.of_error hret with ⟨herror, -⟩ | ⟨failure, -, rfl⟩
    · rw [herror.effect, countP_cons_of_pos rfl]
      simp
    · exact absurd rfl hhandler

end follows

end protocol

/-! ## Main result -/

/-- Whatever the registry, the clock, the adapter and the sink do, a dispatch invokes the
adapter registered for the capability at most once, and only for a request that is within
the bound, that the discovery document admits and whose deadline is a UTC instant not
before now. The answer it acts on is that adapter's. It publishes at most one result, to the
sink it was given: what the adapter answered, of a size within the bound and with the
contract and content type that discovery lists. It returns `Ok` exactly when the adapter
answered without output and none was advertised, or the publication was confirmed, and
the effect of an error that is not the adapter's own is `NotStarted` exactly when the
adapter was not invoked. -/
theorem dispatch_discipline (parseFromRfc3339 : Text → Option OffsetDateTime)
    (dispatcher : CapabilityDispatcher) (now : SystemTime) (context : WorkerContext)
    (request : CapabilityRequest) :
    let events := (dispatcher.handle parseFromRfc3339 now context request).1
    let returned := (dispatcher.handle parseFromRfc3339 now context request).2
    events.countP Event.invokes ≤ 1 ∧
    (∀ adapter context' request', .invoke adapter context' request' ∈ events →
      adapter = request.capability ∧ context' = context ∧ request' = request ∧
      request.input.len ≤ dispatcher.config.maxPayloadBytes ∧
      (∃ registration,
        dispatcher.registry.registration request.capability = some registration ∧
        ∀ discovery, registration.discovery = some discovery → discovery.Admits request) ∧
      Timely parseFromRfc3339 now request) ∧
    (∀ answer, .answer answer ∈ events → ∃ registration,
      dispatcher.registry.registration request.capability = some registration ∧
      registration.Answers context request answer) ∧
    events.countP Event.publishes ≤ 1 ∧
    (∀ result answer, .publish result answer ∈ events →
      (∃ sink, dispatcher.resultSink = some sink ∧ answer = sink result) ∧
      (∃ response output, .answer (.ok response) ∈ events ∧
        response.intoParts = some (result.outputContract, output) ∧
        result.message.bytes = output.bytes) ∧
      result.message.len ≤ dispatcher.config.maxPayloadBytes ∧
      ∀ registration discovery,
        dispatcher.registry.registration request.capability = some registration →
        registration.discovery = some discovery →
        ∃ operation ∈ discovery.operations, operation.name = request.operation ∧
          operation.version = request.operationVersion ∧
          result.outputContract = operation.output.contract ∧
          result.message.contentType ∈ operation.output.contentTypes) ∧
    (returned = some (.ok ()) ↔
      (∃ response, .answer (.ok response) ∈ events ∧ response.output = none ∧
        dispatcher.advertisedOutput request = none) ∨
      ∃ result, .publish result (some (.ok .confirmed)) ∈ events) ∧
    (∀ error, returned = some (.error error) → error.category ≠ .handler →
      (error.remoteEffect = .notStarted ↔ events.countP Event.invokes = 0)) := by
  intro events returned
  have hprotocol : Protocol parseFromRfc3339 dispatcher now context request events returned :=
    handle_protocol parseFromRfc3339 dispatcher now context request
  refine ⟨hprotocol.countP.1, ?_, ?_, hprotocol.countP.2, ?_, hprotocol.ok_iff, ?_⟩
  · -- The adapter is invoked for admitted requests only.
    intro adapter context' request' hmem
    obtain ⟨hadapter, hcontext, hrequest, registration, hadmitted⟩ := hprotocol.of_invoke hmem
    exact ⟨hadapter, hcontext, hrequest, hadmitted.bounded,
      ⟨registration, hadmitted.registered, hadmitted.discovered⟩, hadmitted.timely⟩
  · -- The answer is the registered adapter's.
    intro answer hmem
    obtain ⟨registration, hadmitted, hanswers⟩ := hprotocol.of_answer hmem
    exact ⟨registration, hadmitted.registered, hanswers⟩
  · -- What is published conforms to the document that admitted the request.
    intro result answer hmem
    obtain ⟨registration, hadmitted, response, hanswer, hconforms, ⟨output, hcarries⟩, hsink⟩ :=
      hprotocol.of_publish hmem
    refine ⟨hsink, ⟨response, output, hanswer, hcarries⟩, hconforms.bounded, ?_⟩
    intro registration' discovery hregistered hdiscovery
    obtain rfl : registration' = registration :=
      Option.some.inj (hregistered.symm.trans hadmitted.registered)
    obtain ⟨operation, hoperation, hname, hversion, -⟩ :=
      hadmitted.discovered discovery hdiscovery
    have hexpected := expectedOutput_of_discovered hdiscovery hoperation hname hversion
    exact ⟨operation, hoperation, hname, hversion, hconforms.contract _ hexpected,
      hconforms.contentType _ hexpected⟩
  · intro error hreturned hhandler
    exact hprotocol.effect_iff hreturned hhandler

end PlenoraRuntime.Capabilities
