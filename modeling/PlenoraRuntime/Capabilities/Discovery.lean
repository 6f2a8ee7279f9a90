import PlenoraRuntime.Capabilities.Identifier
import PlenoraRuntime.Foundation.Guard
import PlenoraRuntime.Foundation.Keyed
import PlenoraRuntime.Messaging.Message

/-!
# Requests and the discovery documents that admit them

A discovery document lists the operations of a component. `validateRequest` compares
a request with the operation it names; `Admits` says what the comparison is for, and
`validateRequest_eq_ok_iff` that it decides exactly this.
-/

namespace PlenoraRuntime.Capabilities

open Messaging

/-! ## Requests -/

def executionDeadlineMetadataKey : Text := utf8 "plenora.execution.deadline"

def idempotencyKeyMetadataKey : Text := utf8 "plenora.execution.idempotency_key"

structure CapabilityRequest where
  capability : CapabilityId
  operation : OperationName
  operationVersion : OperationVersion
  inputContract : ContractId
  input : SerializedMessage
  deriving DecidableEq

/-! ## Discovery documents -/

/-- The first fourteen kinds are those of `from_json`, the last five those of
`runtime_capability`. -/
inductive CapabilityDiscoveryErrorKind
  | documentTooLarge
  | invalidJson
  | duplicateJsonMember
  | unsupportedSchemaVersion
  | invalidComponent
  | invalidComponentVersion
  | missingInterfaces
  | tooManyInterfaces
  | invalidInterface
  | duplicateInterface
  | tooManyOperations
  | invalidOperation
  | duplicateOperation
  | invalidAttributes
  | missingRuntimeInterface
  | duplicateRuntimeInterface
  | unsupportedRuntimeBinding
  | missingRuntimeArtifact
  | invalidRuntimeCapability
  deriving DecidableEq, Repr

inductive CapabilitySurface
  | rust
  | cli
  | pythonSdk
  | runtime
  deriving DecidableEq, Repr

inductive CapabilityStatus
  | available
  | unavailable
  | experimental
  | deprecated
  deriving DecidableEq, Repr

structure CapabilityControls where
  cancellation : Bool
  deadline : Bool
  idempotencyKey : Bool
  deriving DecidableEq, Repr

structure CapabilityPayload where
  contract : ContractId
  contentTypes : List Text
  deriving DecidableEq

def CapabilityPayload.supportsContentType (payload : CapabilityPayload) (contentType : Text) :
    Bool :=
  payload.contentTypes.any (· == contentType)

structure CapabilityOperation where
  name : OperationName
  version : OperationVersion
  status : CapabilityStatus
  surfaces : List CapabilitySurface
  input : CapabilityPayload
  output : CapabilityPayload
  controls : CapabilityControls
  deriving DecidableEq

namespace CapabilityOperation

variable (operation : CapabilityOperation)

def key : OperationName × OperationVersion :=
  (operation.name, operation.version)

def supportsSurface (surface : CapabilitySurface) : Bool :=
  operation.surfaces.contains surface

end CapabilityOperation

structure CapabilityInterface where
  kind : CapabilitySurface
  contract : ContractId
  version : UInt16
  artifact : Option Text
  deriving DecidableEq

/-- A discovery document, by its interfaces and its operations: each name and version
once. -/
structure CapabilityDiscovery where
  interfaces : List CapabilityInterface
  operations : List CapabilityOperation
  nodup : (operations.map CapabilityOperation.key).Nodup

inductive CapabilityRequestRejection
  | unknownOperation
  | operationVersionMismatch
  | operationUnavailable
  | runtimeSurfaceUnsupported
  | inputContractMismatch
  | inputContentTypeMismatch
  | deadlineUnsupported
  | idempotencyKeyUnsupported
  | invalidDeadline
  deriving DecidableEq, Repr

/-- The checks of `validate_request` once the operation is known. -/
def CapabilityOperation.validateRequest (operation : CapabilityOperation)
    (request : CapabilityRequest) : Except CapabilityRequestRejection Unit :=
  if operation.status ≠ .available then .error .operationUnavailable
  else if !operation.supportsSurface .runtime then .error .runtimeSurfaceUnsupported
  else if operation.input.contract ≠ request.inputContract then .error .inputContractMismatch
  else if !operation.input.supportsContentType request.input.contentType then
    .error .inputContentTypeMismatch
  else if request.input.headers.containsKey executionDeadlineMetadataKey &&
      !operation.controls.deadline then
    .error .deadlineUnsupported
  else if request.input.headers.containsKey idempotencyKeyMetadataKey &&
      !operation.controls.idempotencyKey then
    .error .idempotencyKeyUnsupported
  else .ok ()

namespace CapabilityDiscovery

variable (discovery : CapabilityDiscovery)

def operation (operation : OperationName) (version : OperationVersion) :
    Option CapabilityOperation :=
  Keyed.lookup CapabilityOperation.key (operation, version) discovery.operations

def validateRequest (request : CapabilityRequest) : Except CapabilityRequestRejection Unit :=
  match discovery.operation request.operation request.operationVersion with
  | some operation => operation.validateRequest request
  | none =>
    if discovery.operations.any (·.name == request.operation) then
      .error .operationVersionMismatch
    else .error .unknownOperation

end CapabilityDiscovery

/-! ## What the checks decide -/

/-- The operation takes the request: it is available at run time, accepts the input as it
is, and supports the controls that the request uses. -/
structure CapabilityOperation.Admits (operation : CapabilityOperation)
    (request : CapabilityRequest) : Prop where
  available : operation.status = .available
  runtime : .runtime ∈ operation.surfaces
  contract : operation.input.contract = request.inputContract
  contentType : request.input.contentType ∈ operation.input.contentTypes
  deadline : request.input.headers.containsKey executionDeadlineMetadataKey = true →
    operation.controls.deadline = true
  idempotencyKey : request.input.headers.containsKey idempotencyKeyMetadataKey = true →
    operation.controls.idempotencyKey = true

def CapabilityDiscovery.Admits (discovery : CapabilityDiscovery) (request : CapabilityRequest) :
    Prop :=
  ∃ operation ∈ discovery.operations, operation.name = request.operation ∧
    operation.version = request.operationVersion ∧ operation.Admits request

theorem CapabilityPayload.supportsContentType_iff {payload : CapabilityPayload} {contentType} :
    payload.supportsContentType contentType = true ↔ contentType ∈ payload.contentTypes := by
  simp [supportsContentType]

variable {operation : CapabilityOperation}

theorem CapabilityOperation.supportsSurface_iff {surface} :
    operation.supportsSurface surface = true ↔ surface ∈ operation.surfaces := by
  simp [supportsSurface]

variable {request : CapabilityRequest}

theorem CapabilityOperation.validateRequest_eq_ok_iff :
    operation.validateRequest request = .ok () ↔ operation.Admits request := by
  simp only [validateRequest, Guard.ite_error_eq_ok, Bool.not_eq_true', Bool.not_eq_false,
    supportsSurface_iff, CapabilityPayload.supportsContentType_iff, not_not, Bool.and_eq_true,
    not_and, and_true]
  constructor
  · rintro ⟨havail, hrt, hcontr, htype, hdeadline, hidempotencyKey⟩
    exact ⟨havail, hrt, hcontr, htype, hdeadline, hidempotencyKey⟩
  · rintro ⟨havail, hrt, hcontr, htype, hdeadline, hidempotencyKey⟩
    exact ⟨havail, hrt, hcontr, htype, hdeadline, hidempotencyKey⟩

variable {discovery : CapabilityDiscovery}

theorem CapabilityDiscovery.operation_eq_some_iff {name version} :
    discovery.operation name version = some operation ↔
      operation ∈ discovery.operations ∧ operation.name = name ∧ operation.version = version := by
  constructor
  · intro h
    obtain ⟨hname, hver⟩ := Prod.ext_iff.mp (Keyed.key_of_lookup h)
    exact ⟨Keyed.mem_of_lookup h, hname, hver⟩
  · rintro ⟨hmem, rfl, rfl⟩
    exact Keyed.lookup_of_mem discovery.nodup hmem

theorem CapabilityDiscovery.validateRequest_eq_ok_iff :
    discovery.validateRequest request = .ok () ↔ discovery.Admits request := by
  constructor
  · intro h
    unfold validateRequest at h
    split at h
    case h_1 operation hop =>
      obtain ⟨hmem, hname, hver⟩ := operation_eq_some_iff.mp hop
      exact ⟨operation, hmem, hname, hver, operation.validateRequest_eq_ok_iff.mp h⟩
    case h_2 => split at h <;> cases h
  · rintro ⟨operation, hmem, hname, hver, hadmits⟩
    unfold validateRequest
    rw [operation_eq_some_iff.mpr ⟨hmem, hname, hver⟩]
    exact operation.validateRequest_eq_ok_iff.mpr hadmits

end PlenoraRuntime.Capabilities
