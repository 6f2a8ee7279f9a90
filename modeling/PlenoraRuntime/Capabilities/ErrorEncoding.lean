import PlenoraRuntime.Capabilities.PublicError
import PlenoraRuntime.Core.Json
import PlenoraRuntime.Foundation.Guard

/-!
# The encoding of public errors

After `PlenoraError::new` an error takes a code, a provider, an execution identifier and
structured details, in any order and any number of times. Each call checks its own
argument, and only `with_details` checks the size of the whole.

No call can make an error too large to encode. The details take at most half of the
bound, and every other field is a short text of which an escaped byte takes six bytes at
most: `length_encode_le` adds them up, and stays below 300 000 bytes.
-/

namespace PlenoraRuntime.Capabilities

open List

/-! ## Limits -/

def maxErrorBytes : ℕ := 512 * 1024

def maxDetailsBytes : ℕ := 256 * 1024

def maxDetailsDepth : ℕ := 8

def maxDetailsCollectionItems : ℕ := 128

def maxDetailsStringBytes : ℕ := 4096

def maxDetailsNodes : ℕ := 2048

def maxCodeBytes : ℕ := 64

def maxProviderBytes : ℕ := 64

def maxExecutionIdBytes : ℕ := 128

/-! ## Details -/

/-- The checks of `validate_detail_value` on a node alone. -/
def detailFits : Json → Bool
  | .object members => members.length ≤ maxDetailsCollectionItems
  | .array items => items.length ≤ maxDetailsCollectionItems
  | .string value => value.length ≤ maxDetailsStringBytes
  | .null | .bool _ | .number _ => true

/-- `validate_detail_value`, with the number of nodes that it leaves in its counter. -/
def validateDetailValue (value : Json) (depth nodes : ℕ) : Except PlenoraErrorValidationError ℕ :=
  Json.visit maxDetailsDepth maxDetailsNodes detailFits ⟨.invalidDetails⟩ value depth nodes

def validateDetails (details : List (Text × Json)) : Except PlenoraErrorValidationError Unit :=
  if maxDetailsBytes < (Json.encode (.object details)).length then .error ⟨.detailsTooLarge⟩
  else match validateDetailValue (.object details) 1 0 with
    | .error error => .error error
    | .ok _ => .ok ()

theorem validateDetails_nil : validateDetails [] = .ok () := by decide

variable {details : List (Text × Json)}

theorem length_encode_of_validateDetails (h : validateDetails details = .ok ()) :
    (Json.encode (.object details)).length ≤ maxDetailsBytes := by
  unfold validateDetails at h
  split at h
  case isTrue => cases h
  case isFalse hsize => exact Nat.le_of_not_lt hsize

variable {failure : PlenoraErrorValidationError}

/-- Details are refused for their own size or shape. -/
theorem kind_of_validateDetails (h : validateDetails details = .error failure) :
    failure.kind = .detailsTooLarge ∨ failure.kind = .invalidDetails := by
  unfold validateDetails at h
  split at h
  case isTrue =>
    cases h
    exact .inl rfl
  case isFalse =>
    split at h
    case h_1 found hfound =>
      cases h
      rw [Json.visit_error hfound]
      exact .inr rfl
    case h_2 => cases h

/-! ## The other fields -/

def isCode (value : Text) : Bool :=
  2 ≤ value.length && value.length ≤ maxCodeBytes && value.head?.any isAsciiUppercase &&
    (value.drop 1).all fun byte => isAsciiUppercase byte || isAsciiDigit byte || byte == 95

def isProvider (value : Text) : Bool :=
  1 ≤ value.length && value.length ≤ maxProviderBytes && value.head?.any isAsciiLowercase &&
    (value.drop 1).all fun byte =>
      isAsciiLowercase byte || isAsciiDigit byte || byte == 95 || byte == 45

/-- The check of `with_execution_id`. -/
def isExecutionId (value : Text) : Bool :=
  !(value.isEmpty || maxExecutionIdBytes < value.length)

/-- `PlenoraError`, with the fields that the `with_*` calls set. -/
structure FullPlenoraError extends PlenoraError where
  code : Option Text
  provider : Option Text
  executionId : Option Text
  details : List (Text × Json)
  codeValid : code.all isCode = true
  providerValid : provider.all isProvider = true
  executionIdValid : executionId.all isExecutionId = true
  detailsValid : validateDetails details = .ok ()

/-! ## The encoding -/

def PlenoraErrorCategory.wireName : PlenoraErrorCategory → Text
  | .invalidPlan => utf8 "invalid_plan"
  | .invalidConfiguration => utf8 "invalid_configuration"
  | .schema => utf8 "schema"
  | .dataMapping => utf8 "data_mapping"
  | .crs => utf8 "crs"
  | .unsupported => utf8 "unsupported"
  | .notFound => utf8 "not_found"
  | .conflict => utf8 "conflict"
  | .concurrentModification => utf8 "concurrent_modification"
  | .authentication => utf8 "authentication"
  | .authorization => utf8 "authorization"
  | .timeout => utf8 "timeout"
  | .cancelled => utf8 "cancelled"
  | .resourceLimit => utf8 "resource_limit"
  | .io => utf8 "io"
  | .protocol => utf8 "protocol"
  | .transient => utf8 "transient"
  | .execution => utf8 "execution"
  | .internal => utf8 "internal"

def PlenoraErrorPhase.wireName : PlenoraErrorPhase → Text
  | .validate => utf8 "validate"
  | .connect => utf8 "connect"
  | .probe => utf8 "probe"
  | .prepare => utf8 "prepare"
  | .read => utf8 "read"
  | .write => utf8 "write"
  | .finalize => utf8 "finalize"
  | .commit => utf8 "commit"
  | .rollback => utf8 "rollback"
  | .cleanup => utf8 "cleanup"

def PlenoraErrorRemoteEffect.wireName : PlenoraErrorRemoteEffect → Text
  | .none => utf8 "none"
  | .rolledBack => utf8 "rolled_back"
  | .partially => utf8 "partial"
  | .committed => utf8 "committed"
  | .unknown => utf8 "unknown"

/-- A retry advice as it is serialized, tagged with its kind. -/
def PlenoraErrorRetry.toJson : PlenoraErrorRetry → Json
  | .never => .object [(utf8 "kind", .string (utf8 "never"))]
  | .quarantine => .object [(utf8 "kind", .string (utf8 "quarantine"))]
  | .safe => .object [(utf8 "kind", .string (utf8 "safe"))]
  | .requiresIdempotencyKey =>
    .object [(utf8 "kind", .string (utf8 "requires_idempotency_key"))]
  | .requiresRecovery => .object [(utf8 "kind", .string (utf8 "requires_recovery"))]
  | .after delayMs =>
    .object [(utf8 "kind", .string (utf8 "after")),
      (utf8 "delay_ms", .number (decimal delayMs.toNat))]

/-- A field that is skipped when it is not set. -/
def optionalMember (key : Text) : Option Text → List (Text × Json)
  | none => []
  | some value => [(key, .string value)]

namespace FullPlenoraError

variable (error : FullPlenoraError)

def detailsMember : List (Text × Json) :=
  if error.details.isEmpty then [] else [(utf8 "details", .object error.details)]

/-- The members of an error in the order in which they are serialized. -/
def members : List (Text × Json) :=
  [(utf8 "category", .string error.category.wireName), (utf8 "phase", .string error.phase.wireName),
      (utf8 "remote_effect", .string error.remoteEffect.wireName),
      (utf8 "retry", error.retry.toJson)] ++
    optionalMember (utf8 "code") error.code ++ optionalMember (utf8 "provider") error.provider ++
    optionalMember (utf8 "execution_id") error.executionId ++
    [(utf8 "message", .string error.message)] ++ error.detailsMember

/-- `PlenoraError::to_json`. -/
def toJson : Except PlenoraErrorValidationError Bytes :=
  let encoded := Json.encode (.object error.members)
  if maxErrorBytes < encoded.length then .error ⟨.errorTooLarge⟩ else .ok encoded

def withCode (code : Text) : Except PlenoraErrorValidationError FullPlenoraError :=
  if hcode : isCode code = true then .ok { error with code := some code, codeValid := hcode }
  else .error ⟨.invalidCode⟩

def withProvider (provider : Text) : Except PlenoraErrorValidationError FullPlenoraError :=
  if hprovider : isProvider provider = true then
    .ok { error with provider := some provider, providerValid := hprovider }
  else .error ⟨.invalidProvider⟩

def withExecutionId (executionId : Text) : Except PlenoraErrorValidationError FullPlenoraError :=
  if hexec : isExecutionId executionId = true then
    .ok { error with executionId := some executionId, executionIdValid := hexec }
  else .error ⟨.invalidExecutionId⟩

def withDetails (details : List (Text × Json)) :
    Except PlenoraErrorValidationError FullPlenoraError :=
  match hdetails : validateDetails details with
  | .error failure => .error failure
  | .ok () =>
    let error := { error with details := details, detailsValid := hdetails }
    match error.toJson with
    | .error failure => .error failure
    | .ok _ => .ok error

end FullPlenoraError

/-! ## Sizes -/

variable {message : Text}

section sizes

theorem length_categoryName_le (category : PlenoraErrorCategory) :
    category.wireName.length ≤ 23 := by
  cases category <;> decide +kernel

theorem length_phaseName_le (phase : PlenoraErrorPhase) : phase.wireName.length ≤ 8 := by
  cases phase <;> decide +kernel

theorem length_effectName_le (effect : PlenoraErrorRemoteEffect) : effect.wireName.length ≤ 11 := by
  cases effect <;> decide +kernel

variable {value : Text}

theorem length_of_isCode (h : isCode value = true) : value.length ≤ 64 := by
  simp only [isCode, Bool.and_eq_true, decide_eq_true_eq] at h
  exact h.1.1.2

theorem length_of_isProvider (h : isProvider value = true) : value.length ≤ 64 := by
  simp only [isProvider, Bool.and_eq_true, decide_eq_true_eq] at h
  exact h.1.1.2

theorem length_of_isExecutionId (h : isExecutionId value = true) : value.length ≤ 128 := by
  simp only [isExecutionId, Bool.not_eq_true', Bool.or_eq_false_iff, decide_eq_false_iff_not] at h
  exact Nat.le_of_not_lt h.2

theorem length_of_validateMessage (h : validateMessage message = .ok ()) :
    message.length ≤ 2048 := by
  unfold validateMessage at h
  split at h
  case isTrue => cases h
  case isFalse hlen =>
    simp only [Bool.or_eq_true, decide_eq_true_eq, not_or, not_lt] at hlen
    exact hlen.2

variable {keyBound bound : ℕ} {key : Text}

theorem memberSize_string_le (hkey : key.length ≤ keyBound) (hvalue : value.length ≤ bound) :
    Json.memberSize (key, .string value) ≤ 6 * keyBound + 6 * bound + 6 := by
  have hquotedKey := Json.length_quote_le key
  have hquoted := Json.length_quote_le value
  rw [Json.memberSize_mk, Json.encode]
  omega

theorem memberSize_optional_le {valid : Text → Bool} (hkey : key.length ≤ keyBound)
    (hbound : ∀ value, valid value = true → value.length ≤ bound) {value : Option Text}
    (hvalue : value.all valid = true) :
    ((optionalMember key value).map Json.memberSize).sum ≤ 6 * keyBound + 6 * bound + 6 := by
  cases value with
  | none => exact Nat.zero_le _
  | some value =>
    exact memberSize_string_le hkey (hbound value hvalue)

theorem length_encode_retry_le (retry : PlenoraErrorRetry) :
    (Json.encode retry.toJson).length ≤ 200 := by
  cases retry with
  | never | quarantine | safe | requiresIdempotencyKey | requiresRecovery => decide +kernel
  | after delayMs =>
    have hdigits : (decimal delayMs.toNat).length ≤ 20 :=
      length_decimal_le 20 (by decide) (delayMs.toNat_lt.trans (by decide))
    have hkind : Json.memberSize (utf8 "kind", .string (utf8 "after")) = 15 := by decide +kernel
    have hkey : (Json.quote (utf8 "delay_ms")).length = 10 := by decide +kernel
    refine (Json.length_encode_object_le _).trans ?_
    rw [map_cons, map_singleton, sum_cons, sum_singleton, hkind, Json.memberSize_mk, Json.encode]
    omega

namespace FullPlenoraError

variable (error : FullPlenoraError)

theorem memberSize_details_le :
    (error.detailsMember.map Json.memberSize).sum ≤ maxDetailsBytes + 11 := by
  unfold detailsMember
  split
  case isTrue => exact Nat.zero_le _
  case isFalse =>
    have hkey : (Json.quote (utf8 "details")).length = 9 := by decide +kernel
    have hvalue := length_encode_of_validateDetails error.detailsValid
    rw [map_singleton, sum_singleton, Json.memberSize_mk]
    omega

/-- The fields of an error take what the details may take, and little more. -/
theorem length_encode_le :
    (Json.encode (.object error.members)).length ≤ maxDetailsBytes + 20000 := by
  have hcategoryKey : (utf8 "category").length ≤ 8 := by decide +kernel
  have hphaseKey : (utf8 "phase").length ≤ 5 := by decide +kernel
  have heffectKey : (utf8 "remote_effect").length ≤ 13 := by decide +kernel
  have hretryKey : (Json.quote (utf8 "retry")).length = 7 := by decide +kernel
  have hcodeKey : (utf8 "code").length ≤ 4 := by decide +kernel
  have hproviderKey : (utf8 "provider").length ≤ 8 := by decide +kernel
  have hexecutionIdKey : (utf8 "execution_id").length ≤ 12 := by decide +kernel
  have hmessageKey : (utf8 "message").length ≤ 7 := by decide +kernel
  have hcategory := memberSize_string_le hcategoryKey (length_categoryName_le error.category)
  have hphase := memberSize_string_le hphaseKey (length_phaseName_le error.phase)
  have heff := memberSize_string_le heffectKey (length_effectName_le error.remoteEffect)
  have hretry := length_encode_retry_le error.retry
  have hcode := memberSize_optional_le hcodeKey (fun _ => length_of_isCode) error.codeValid
  have hprovider := memberSize_optional_le hproviderKey (fun _ => length_of_isProvider)
    error.providerValid
  have hexec := memberSize_optional_le hexecutionIdKey
    (fun _ => length_of_isExecutionId) error.executionIdValid
  have hmsg := memberSize_string_le hmessageKey (length_of_validateMessage error.messageValid)
  have hdetails := error.memberSize_details_le
  refine (Json.length_encode_object_le _).trans ?_
  simp only [members, map_append, sum_append, map_cons, map_nil, sum_cons, sum_nil,
    Json.memberSize_mk (utf8 "retry")]
  omega

/-- No error is too large to encode. -/
theorem toJson_eq_ok : error.toJson = .ok (Json.encode (.object error.members)) := by
  have hsize := error.length_encode_le
  refine if_neg (Nat.not_lt.mpr (hsize.trans ?_))
  decide

end FullPlenoraError

end sizes

/-! ## Building errors -/

/-- `PlenoraError::new`, which sets no other field. -/
def FullPlenoraError.new (category : PlenoraErrorCategory) (phase : PlenoraErrorPhase)
    (remoteEffect : PlenoraErrorRemoteEffect) (retry : PlenoraErrorRetry) (message : Text) :
    Except PlenoraErrorValidationError FullPlenoraError :=
  match PlenoraError.new category phase remoteEffect retry message with
  | .error failure => .error failure
  | .ok error =>
    .ok
      { error with
        code := none
        provider := none
        executionId := none
        details := []
        codeValid := rfl
        providerValid := rfl
        executionIdValid := rfl
        detailsValid := validateDetails_nil }

inductive WithCall
  | code (code : Text)
  | provider (provider : Text)
  | executionId (executionId : Text)
  | details (details : List (Text × Json))

def FullPlenoraError.call (error : FullPlenoraError) :
    WithCall → Except PlenoraErrorValidationError FullPlenoraError
  | .code code => error.withCode code
  | .provider provider => error.withProvider provider
  | .executionId executionId => error.withExecutionId executionId
  | .details details => error.withDetails details

/-- `PlenoraError::new`, and then the calls, each on what the one before returned. -/
def FullPlenoraError.build (category : PlenoraErrorCategory) (phase : PlenoraErrorPhase)
    (remoteEffect : PlenoraErrorRemoteEffect) (retry : PlenoraErrorRetry) (message : Text)
    (calls : List WithCall) : Except PlenoraErrorValidationError FullPlenoraError :=
  match FullPlenoraError.new category phase remoteEffect retry message with
  | .error failure => .error failure
  | .ok error => calls.foldlM FullPlenoraError.call error

variable {retry : PlenoraErrorRetry}

section build

variable {error next : FullPlenoraError} {category : PlenoraErrorCategory}
  {phase : PlenoraErrorPhase} {remoteEffect : PlenoraErrorRemoteEffect}

theorem withDetails_eq_ok_iff :
    error.withDetails details = .ok next ↔
      ∃ hdetails : validateDetails details = .ok (),
        next = { error with details := details, detailsValid := hdetails } := by
  unfold FullPlenoraError.withDetails
  split
  case h_1 failure hinvalid => simp [hinvalid]
  case h_2 hdetails => simp [FullPlenoraError.toJson_eq_ok, hdetails, eq_comm]

/-- What `with_details` returns besides a new error comes from the details alone. -/
theorem withDetails_eq_error (h : error.withDetails details = .error failure) :
    validateDetails details = .error failure := by
  unfold FullPlenoraError.withDetails at h
  split at h
  case h_1 other hinvalid => exact hinvalid.trans (congrArg Except.error (Except.error.inj h))
  case h_2 => simp [FullPlenoraError.toJson_eq_ok] at h

/-- A call leaves the fields of `PlenoraError::new` as they are. -/
theorem toPlenoraError_of_call {call : WithCall} (h : error.call call = .ok next) :
    next.toPlenoraError = error.toPlenoraError := by
  cases call with
  | code code =>
    simp only [FullPlenoraError.call, FullPlenoraError.withCode] at h
    split at h
    · cases h
      rfl
    · cases h
  | provider provider =>
    simp only [FullPlenoraError.call, FullPlenoraError.withProvider] at h
    split at h
    · cases h
      rfl
    · cases h
  | executionId executionId =>
    simp only [FullPlenoraError.call, FullPlenoraError.withExecutionId] at h
    split at h
    · cases h
      rfl
    · cases h
  | details details =>
    obtain ⟨hdetails, rfl⟩ := withDetails_eq_ok_iff.mp h
    rfl

/-- An error keeps the effect and the advice that it was created with. -/
theorem build_spec {calls : List WithCall}
    (h : FullPlenoraError.build category phase remoteEffect retry message calls = .ok error) :
    error.remoteEffect = remoteEffect ∧ error.retry = retry := by
  unfold FullPlenoraError.build at h
  split at h
  case h_1 => cases h
  case h_2 first hfirst =>
    have hsame : error.toPlenoraError = first.toPlenoraError :=
      Guard.foldlM_inv (P := fun last => last.toPlenoraError = first.toPlenoraError)
        (fun _ _ _ _ hpre hcall => (toPlenoraError_of_call hcall).trans hpre) rfl h
    rw [hsame]
    unfold FullPlenoraError.new at hfirst
    split at hfirst
    case h_1 => cases hfirst
    case h_2 created hcreated =>
      cases hfirst
      exact PlenoraError.new_spec hcreated

end build

/-! ## Main result -/

/-- A retry advice is short enough, and cautious if the effect is unknown. -/
theorem validateRetry_eq_ok_iff {effect : PlenoraErrorRemoteEffect} :
    validateRetry effect retry = .ok () ↔
      retry.isTooLong = false ∧ (effect = .unknown → retry.isCautious = true) := by
  simp only [validateRetry, Guard.ite_error_eq_ok, Bool.not_eq_true, not_and, Bool.not_eq_eq_eq_not,
    Bool.not_true, Bool.not_eq_false, and_true]

/-- Every error that is created and then added to, in whatever order and however often, can be
encoded within the bound; it is never too large. If its effect is unknown it does not allow
an automatic retry, and it never asks for a delay of more than a day. -/
theorem public_errors_can_be_encoded (category : PlenoraErrorCategory) (phase : PlenoraErrorPhase)
    (remoteEffect : PlenoraErrorRemoteEffect) (retry : PlenoraErrorRetry) (message : Text)
    (calls : List WithCall) (error : FullPlenoraError)
    (hbuilt : FullPlenoraError.build category phase remoteEffect retry message calls = .ok error) :
    (∃ encoded, error.toJson = .ok encoded ∧ encoded.length ≤ 524288) ∧
      (∀ details, error.withDetails details ≠ .error ⟨.errorTooLarge⟩) ∧
      (error.remoteEffect = remoteEffect ∧ error.retry = retry) ∧
      (remoteEffect = .unknown →
        retry = .never ∨ retry = .quarantine ∨ retry = .requiresRecovery) ∧
      ∀ delayMs, retry = .after delayMs → delayMs.toNat ≤ 86400000 := by
  obtain ⟨heffect, hretry⟩ := build_spec hbuilt
  have hvalid := validateRetry_eq_ok_iff.mp error.retryValid
  rw [heffect, hretry] at hvalid
  refine ⟨⟨_, error.toJson_eq_ok, error.length_encode_le.trans (by decide)⟩, ?_,
    ⟨heffect, hretry⟩, ?_, ?_⟩
  · intro details htooLarge
    -- The size of the whole is the one check that cannot fail.
    rcases kind_of_validateDetails (withDetails_eq_error htooLarge) with hkind | hkind
    · cases hkind
    · cases hkind
  · intro hunknown
    have hcautious := hvalid.2 hunknown
    cases retry with
    | never => exact .inl rfl
    | quarantine => exact .inr (.inl rfl)
    | requiresRecovery => exact .inr (.inr rfl)
    | safe | requiresIdempotencyKey | after delayMs => cases hcautious
  · rintro delayMs rfl
    have hdelay : ¬ maxRetryDelayMs < delayMs := of_decide_eq_false hvalid.1
    exact UInt64.le_iff_toNat_le.mp (UInt64.not_lt.mp hdelay)

/-- Calls in no particular order, two of them repeated. -/
def Sample.withCalls : List WithCall :=
  [.code (utf8 "IO_WRITE"), .details [(utf8 "free", .number [48])], .executionId (utf8 "run-7"),
    .code (utf8 "IO_FULL"), .details []]

theorem public_errors_can_be_encoded_twice :
    ∃ error,
      FullPlenoraError.build .io .write .none (.after 1000) (utf8 "device is full")
        Sample.withCalls = .ok error ∧
      (∃ encoded, error.toJson = .ok encoded ∧ encoded.length ≤ 524288) ∧
      ∀ details, error.withDetails details ≠ .error ⟨.errorTooLarge⟩ := by
  have hok : (FullPlenoraError.build .io .write .none (.after 1000) (utf8 "device is full")
      Sample.withCalls).isOk = true := by
    decide +kernel
  cases hbuilt : FullPlenoraError.build .io .write .none (.after 1000) (utf8 "device is full")
      Sample.withCalls with
  | error failure =>
    rw [hbuilt] at hok
    cases hok
  | ok error =>
    have hencoded := public_errors_can_be_encoded _ _ _ _ _ _ error hbuilt
    exact ⟨error, rfl, hencoded.1, hencoded.2.1⟩

end PlenoraRuntime.Capabilities
