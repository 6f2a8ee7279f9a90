import PlenoraRuntime.Core.Text
import PlenoraRuntime.Foundation.Guard

/-!
# Identities of capabilities, operations and contracts

Each identity is a validated text, and its validity is a field: the constructors of the
source are the functions below, and nothing else builds one.
-/

namespace PlenoraRuntime.Capabilities

open List

/-! ## Capabilities and operations -/

def maxCapabilityNameBytes : ℕ := 128

def maxOperationNameBytes : ℕ := 128

inductive CapabilityIdentifierField
  | capability
  | version
  | operation
  deriving DecidableEq, Repr

inductive CapabilityIdentifierErrorKind
  | empty
  | tooLong
  | missingNamespace
  | emptySegment
  | invalidCharacter
  | invalidSegmentBoundary
  | zeroVersion
  deriving DecidableEq, Repr

structure CapabilityIdentifierError where
  field : CapabilityIdentifierField
  kind : CapabilityIdentifierErrorKind
  deriving DecidableEq, Repr

def isPortableByte (value : UInt8) : Bool :=
  isAsciiLowercase value || isAsciiDigit value || value == 45 || value == 95

/-- The body of the loop of `validate_name`. -/
def validateSegment (field : CapabilityIdentifierField) (segment : Text) :
    Except CapabilityIdentifierError Unit :=
  if segment.isEmpty then .error ⟨field, .emptySegment⟩
  else if !segment.all isPortableByte then .error ⟨field, .invalidCharacter⟩
  else if !segment.head?.any isAsciiAlphanumeric || !segment.getLast?.any isAsciiAlphanumeric then
    .error ⟨field, .invalidSegmentBoundary⟩
  else .ok ()

def validateName (value : Text) (field : CapabilityIdentifierField) (maxBytes : ℕ)
    (namespaceRequired : Bool) : Except CapabilityIdentifierError Unit :=
  if value.isEmpty then .error ⟨field, .empty⟩
  else if maxBytes < value.length then .error ⟨field, .tooLong⟩
  else if namespaceRequired && !value.contains 46 then .error ⟨field, .missingNamespace⟩
  else (value.splitOn 46).forM (validateSegment field)

variable {value : Text} {field : CapabilityIdentifierField} {namespaceRequired : Bool}
  {maxBytes : ℕ}

/-- A valid name is ASCII: the characters of its segments, and the dots between. -/
theorem ascii_of_validateName (h : validateName value field maxBytes namespaceRequired = .ok ()) :
    ∀ byte ∈ value, byte < 128 := by
  simp only [validateName, Guard.ite_error_eq_ok, Guard.forM_eq_ok_iff, validateSegment] at h
  obtain ⟨-, -, -, hsegs⟩ := h
  intro byte hbyte
  have hvalue : [46].intercalate (value.splitOn 46) = value := intercalate_splitOn 46
  rcases mem_intercalate (hvalue ▸ hbyte) with rfl | ⟨segment, hseg, hbyte⟩
  · decide
  · obtain ⟨-, hport, -⟩ := hsegs segment hseg
    simp only [Bool.not_eq_true, Bool.not_eq_false', all_eq_true, isPortableByte,
      Bool.or_eq_true, beq_iff_eq] at hport
    rcases hport byte hbyte with ((hletter | hdigit) | rfl) | rfl
    · exact lt_of_isAsciiLowercase hletter
    · exact lt_of_isAsciiDigit hdigit
    · decide
    · decide

theorem length_le_of_validateName
    (h : validateName value field maxBytes namespaceRequired = .ok ()) :
    value.length ≤ maxBytes := by
  simp only [validateName, Guard.ite_error_eq_ok] at h
  exact Nat.le_of_not_lt h.2.1

structure CapabilityId where
  name : Text
  version : UInt16
  valid : validateName name .capability maxCapabilityNameBytes true = .ok ()
  positive : version ≠ 0
  deriving DecidableEq

def CapabilityId.new (name : Text) (version : UInt16) :
    Except CapabilityIdentifierError CapabilityId :=
  match hvalid : validateName name .capability maxCapabilityNameBytes true with
  | .error error => .error error
  | .ok () =>
    if hzero : version = 0 then .error ⟨.version, .zeroVersion⟩
    else .ok ⟨name, version, hvalid, hzero⟩

variable {name : Text}

theorem CapabilityId.new_eq_ok_iff {version capability} :
    CapabilityId.new name version = .ok capability ↔
      capability.name = name ∧ capability.version = version := by
  constructor
  · intro h
    unfold CapabilityId.new at h
    split at h
    · cases h
    split at h
    · cases h
    cases h
    exact ⟨rfl, rfl⟩
  · rintro ⟨rfl, rfl⟩
    unfold CapabilityId.new
    split
    case h_1 error herror => rw [capability.valid] at herror; cases herror
    rw [dif_neg capability.positive]

structure OperationName where
  value : Text
  valid : validateName value .operation maxOperationNameBytes true = .ok ()
  deriving DecidableEq

def OperationName.new (value : Text) : Except CapabilityIdentifierError OperationName :=
  match hvalid : validateName value .operation maxOperationNameBytes true with
  | .error error => .error error
  | .ok () => .ok ⟨value, hvalid⟩

theorem OperationName.new_eq_ok_iff {operation} :
    OperationName.new value = .ok operation ↔ operation.value = value := by
  constructor
  · intro h
    unfold OperationName.new at h
    split at h
    · cases h
    cases h
    rfl
  · rintro rfl
    unfold OperationName.new
    split
    case h_1 error herror => rw [operation.valid] at herror; cases herror
    rfl

/-- `OperationVersion`: a positive `u16`. -/
structure OperationVersion where
  value : UInt16
  positive : value ≠ 0
  deriving DecidableEq

/-- `OperationVersion::new`; `none` is `OperationVersionError`. -/
def OperationVersion.new (value : UInt16) : Option OperationVersion :=
  if hzero : value = 0 then none else some ⟨value, hzero⟩

theorem OperationVersion.new_eq_some_iff {value version} :
    OperationVersion.new value = some version ↔ version.value = value := by
  unfold OperationVersion.new
  constructor
  · intro h
    split at h
    · cases h
    cases h
    rfl
  · rintro rfl
    rw [dif_neg version.positive]

/-! ## Contracts -/

def maxContractIdBytes : ℕ := 128

inductive ContractIdentifierErrorKind
  | empty
  | tooLong
  | invalidPrefix
  | invalidCharacter
  | missingVersion
  | invalidVersion
  deriving DecidableEq, Repr

structure ContractIdentifierError where
  kind : ContractIdentifierErrorKind
  deriving DecidableEq, Repr

def isContractByte (byte : UInt8) : Bool :=
  isAsciiLowercase byte || isAsciiDigit byte || byte == 45

/-- The version of a contract: digits without a leading zero. -/
def isContractVersion : Text → Bool
  | [] => false
  | first :: digits => 49 ≤ first && first ≤ 57 && digits.all isAsciiDigit

def validateContractId (value : Text) : Except ContractIdentifierError Unit :=
  if value.isEmpty then .error ⟨.empty⟩
  else if maxContractIdBytes < value.length then .error ⟨.tooLong⟩
  else match stripPrefix (utf8 "plenora-") value with
    | none => .error ⟨.invalidPrefix⟩
    | some unversioned =>
      match rsplitOnce (utf8 "-v") unversioned with
      | none => .error ⟨.missingVersion⟩
      | some (name, version) =>
        if name.isEmpty || !name.all isContractByte then .error ⟨.invalidCharacter⟩
        else if !isContractVersion version then .error ⟨.invalidVersion⟩
        else .ok ()

theorem length_le_of_validateContractId (h : validateContractId value = .ok ()) :
    value.length ≤ maxContractIdBytes := by
  simp only [validateContractId, Guard.ite_error_eq_ok] at h
  exact Nat.le_of_not_lt h.2.1

theorem ascii_of_contractName (h : name.all isContractByte = true) : ∀ byte ∈ name, byte < 128 := by
  simp only [all_eq_true, isContractByte, Bool.or_eq_true, beq_iff_eq] at h
  intro byte hbyte
  rcases h byte hbyte with (hletter | hdigit) | rfl
  · exact lt_of_isAsciiLowercase hletter
  · exact lt_of_isAsciiDigit hdigit
  · decide

theorem digits_of_isContractVersion {version} (h : isContractVersion version = true) :
    ∀ byte ∈ version, isAsciiDigit byte = true := by
  cases version with
  | nil => exact forall_mem_nil _
  | cons first digits =>
    simp only [isContractVersion, Bool.and_eq_true, decide_eq_true_eq, all_eq_true] at h
    refine forall_mem_cons.mpr ⟨?_, h.2⟩
    simp only [isAsciiDigit, Bool.and_eq_true, decide_eq_true_eq]
    exact ⟨UInt8.le_trans (by decide) h.1.1, h.1.2⟩

/-- A valid contract identifier is ASCII: its fixed parts, its name and its version. -/
theorem ascii_of_validateContractId (h : validateContractId value = .ok ()) :
    ∀ byte ∈ value, byte < 128 := by
  simp only [validateContractId, Guard.ite_error_eq_ok] at h
  obtain ⟨-, -, h⟩ := h
  split at h
  · cases h
  case h_2 unversioned hunversioned =>
    split at h
    · cases h
    case h_2 name version hver =>
      simp only [Guard.ite_error_eq_ok, Bool.or_eq_true, Bool.not_eq_true', not_or,
        Bool.not_eq_false] at h
      obtain ⟨⟨-, hname⟩, hnumber, -⟩ := h
      rw [eq_append_of_stripPrefix hunversioned, eq_append_of_rsplitOnce hver]
      simp only [forall_mem_append]
      exact ⟨by decide +kernel, ⟨ascii_of_contractName hname, by decide +kernel⟩,
        fun byte hbyte => lt_of_isAsciiDigit (digits_of_isContractVersion hnumber byte hbyte)⟩

structure ContractId where
  value : Text
  valid : validateContractId value = .ok ()
  deriving DecidableEq

def ContractId.new (value : Text) : Except ContractIdentifierError ContractId :=
  match hvalid : validateContractId value with
  | .error error => .error error
  | .ok () => .ok ⟨value, hvalid⟩

theorem ContractId.new_eq_ok_iff {contract} :
    ContractId.new value = .ok contract ↔ contract.value = value := by
  constructor
  · intro h
    unfold ContractId.new at h
    split at h
    · cases h
    cases h
    rfl
  · rintro rfl
    unfold ContractId.new
    split
    case h_1 error herror => rw [contract.valid] at herror; cases herror
    rfl

end PlenoraRuntime.Capabilities
