import Mathlib.Data.List.Dedup
import PlenoraRuntime.Capabilities.Discovery
import PlenoraRuntime.Core.Json

/-!
# Reading discovery documents

`CapabilityDiscovery::from_json` reads a document in three passes. The first goes over the
members of all objects and refuses one that is repeated, the second is the derived
deserialization into plain records, and the third, `try_from_raw`, checks the records one
by one.

The parser and the derived deserialization are not code of this repository, so they are
given by what they make of the bytes (`Serde`). What is assumed of them is their
documented behaviour: the records have the kinds and surfaces that the JSON value names,
a struct being read from an object by the names of its fields or from an array by their
positions, and a variant from its name. The rest is as the source has it: each record has
its `try_from`, and an accepted document is made of accepted records in the order of the
document (`tryFromRaw_spec`).

The checks look at one record at a time. None compares the surfaces of an operation with
the interfaces of the document, so a document may offer an operation on a surface that it
does not have: an accepted document is consistent exactly when its JSON value is.
-/

namespace PlenoraRuntime.Capabilities

open List

/-! ## Limits -/

def maxCapabilityDiscoveryBytes : ℕ := 256 * 1024

def maxDiscoveredInterfaces : ℕ := 16

def maxDiscoveredOperations : ℕ := 256

def maxCapabilityAttributesBytes : ℕ := 16 * 1024

def maxComponentBytes : ℕ := 71

def maxComponentVersionBytes : ℕ := 128

def maxArtifactBytes : ℕ := 128

def maxReasonBytes : ℕ := 512

def maxContentTypes : ℕ := 16

def maxContentTypeBytes : ℕ := 128

def maxAttributeDepth : ℕ := 8

def maxAttributeNodes : ℕ := 1024

def maxAttributeCollectionItems : ℕ := 64

def maxAttributeKeyBytes : ℕ := 64

def maxAttributeStringBytes : ℕ := 512

/-! ## Lexers -/

def isComponent (value : Text) : Bool :=
  match stripPrefix (utf8 "plenora-") value with
  | none => false
  | some name =>
    value.length ≤ maxComponentBytes && (2 ≤ name.length && name.length ≤ 63) &&
      name.head?.any isAsciiLowercase &&
      (name.drop 1).all fun byte => isAsciiLowercase byte || isAsciiDigit byte || byte == 45

/-- The text before the first `-` or `+`, and the one after it if there is any. -/
def splitVersionSuffix (value : Text) : Text × Option Text :=
  match value.findIdx? fun byte => byte == 45 || byte == 43 with
  | none => (value, none)
  | some index => (value.take index, some (value.drop (index + 1)))

/-- The check of `is_component_version` on what follows the core. -/
def isVersionSuffix (suffix : Text) : Bool :=
  !suffix.isEmpty && suffix.all fun byte => isAsciiAlphanumeric byte || byte == 46 || byte == 45

/-- The check of `is_component_version` on a part of the core. -/
def isVersionPart (part : Text) : Bool :=
  !part.isEmpty && part.all isAsciiDigit && (part == [48] || part.head? != some 48)

def isComponentVersion (value : Text) : Bool :=
  if value.isEmpty || maxComponentVersionBytes < value.length then false
  else
    let (core, suffix) := splitVersionSuffix value
    if suffix.any (!isVersionSuffix ·) then false
    else
      let parts := core.splitOn 46
      parts.length == 3 && parts.all isVersionPart

def isContentTypeByte (byte : UInt8) : Bool :=
  isAsciiAlphanumeric byte || (utf8 "!#$&^_.+-").contains byte

def isContentType (value : Text) : Bool :=
  if value.isEmpty || maxContentTypeBytes < value.length then false
  else match splitOnce 47 value with
    | none => false
    | some (kind, subtype) =>
      !kind.isEmpty && !subtype.isEmpty && !subtype.contains 47 && kind.all isContentTypeByte &&
        subtype.all isContentTypeByte

/-! ## Records as they are read -/

inductive CapabilitySideEffect
  | none
  | locally
  | remote
  deriving DecidableEq, Repr

structure RawInterface where
  kind : CapabilitySurface
  contract : Text
  version : UInt64
  artifact : Option Text

structure RawPayload where
  contract : Text
  contentTypes : List Text

structure RawOperation where
  id : Text
  version : UInt64
  status : CapabilityStatus
  reason : Option Text
  surfaces : List CapabilitySurface
  input : RawPayload
  output : RawPayload
  sideEffect : CapabilitySideEffect
  controls : CapabilityControls
  attributes : List (Text × Json)

structure RawDiscovery where
  schemaVersion : UInt16
  component : Text
  componentVersion : Text
  interfaces : List RawInterface
  operations : List RawOperation

/-- `u16::try_from`, for a `u64`. -/
def u16OfU64 (value : UInt64) : Option UInt16 :=
  if value.toNat < 2 ^ 16 then some (UInt16.ofNat value.toNat) else none

/-! ## Interfaces and payloads -/

def CapabilityInterface.tryFrom (raw : RawInterface) :
    Except CapabilityDiscoveryErrorKind CapabilityInterface :=
  match (u16OfU64 raw.version).filter (0 < ·), ContractId.new raw.contract with
  | some version, .ok contract =>
    if raw.artifact.any fun value => value.isEmpty || maxArtifactBytes < value.length then
      .error .invalidInterface
    else .ok { kind := raw.kind, contract, version, artifact := raw.artifact }
  | _, _ => .error .invalidInterface

/-- The body of the loop of `CapabilityPayload::try_from`. -/
def pushContentType (contentTypes : List Text) (contentType : Text) :
    Except CapabilityDiscoveryErrorKind (List Text) :=
  if !isContentType contentType || contentTypes.any (· == contentType) then
    .error .invalidOperation
  else .ok (contentTypes ++ [contentType])

def CapabilityPayload.tryFrom (raw : RawPayload) :
    Except CapabilityDiscoveryErrorKind CapabilityPayload :=
  if raw.contentTypes.isEmpty || maxContentTypes < raw.contentTypes.length then
    .error .invalidOperation
  else match ContractId.new raw.contract with
    | .error _ => .error .invalidOperation
    | .ok contract =>
      match raw.contentTypes.foldlM pushContentType [] with
      | .error error => .error error
      | .ok contentTypes => .ok { contract, contentTypes }

/-! ## Attributes -/

/-- The checks of `validate_attribute_value` on a node alone. -/
def attributeFits : Json → Bool
  | .object members =>
    members.length ≤ maxAttributeCollectionItems &&
      members.all fun member => member.1.length ≤ maxAttributeKeyBytes
  | .array items => items.length ≤ maxAttributeCollectionItems
  | .string value => value.length ≤ maxAttributeStringBytes
  | .null | .bool _ | .number _ => true

/-- `validate_attribute_value`, with the number of nodes that it leaves in its counter. -/
def validateAttributeValue (value : Json) (depth nodes : ℕ) :
    Except CapabilityDiscoveryErrorKind ℕ :=
  Json.visit maxAttributeDepth maxAttributeNodes attributeFits .invalidAttributes value depth nodes

def validateAttributes (attributes : List (Text × Json)) :
    Except CapabilityDiscoveryErrorKind Unit :=
  if maxCapabilityAttributesBytes < (Json.encode (.object attributes)).length ||
      maxAttributeCollectionItems < attributes.length then
    .error .invalidAttributes
  else match validateAttributeValue (.object attributes) 0 0 with
    | .error error => .error error
    | .ok _ => .ok ()

/-- The surface that a member of `plenora.surface_side_effects` names. -/
def surfaceNamed (name : Text) : Option CapabilitySurface :=
  if name = utf8 "rust" then some .rust
  else if name = utf8 "cli" then some .cli
  else if name = utf8 "python_sdk" then some .pythonSdk
  else if name = utf8 "runtime" then some .runtime
  else none

/-- The value names an effect beyond the base. -/
def isStricter : CapabilitySideEffect → Json → Bool
  | .none, .string effect => effect == utf8 "local" || effect == utf8 "remote"
  | .locally, .string effect => effect == utf8 "remote"
  | _, _ => false

/-- The body of the loop of `validate_surface_effects`. -/
def validateSurfaceEffect (surfaces : List CapabilitySurface) (base : CapabilitySideEffect)
    (member : Text × Json) : Except CapabilityDiscoveryErrorKind Unit :=
  match surfaceNamed member.1 with
  | none => .error .invalidOperation
  | some surface =>
    if !surfaces.contains surface || !isStricter base member.2 then .error .invalidOperation
    else .ok ()

def validateSurfaceEffects (attributes : List (Text × Json)) (surfaces : List CapabilitySurface)
    (base : CapabilitySideEffect) : Except CapabilityDiscoveryErrorKind Unit :=
  match Keyed.lookup Prod.fst (utf8 "plenora.surface_side_effects") attributes with
  | none => .ok ()
  | some (_, .object effects) => effects.forM (validateSurfaceEffect surfaces base)
  | some (_, _) => .error .invalidOperation

/-! ## Operations -/

/-- `CapabilityOperation`, with the fields that no request is compared with. -/
structure DiscoveredOperation extends CapabilityOperation where
  reason : Option Text
  sideEffect : CapabilitySideEffect
  attributes : List (Text × Json)

namespace RawOperation

variable (raw : RawOperation)

/-- The version of `CapabilityOperation::try_from`. -/
def operationVersion : Except CapabilityDiscoveryErrorKind OperationVersion :=
  match (u16OfU64 raw.version).bind OperationVersion.new with
  | none => .error .invalidOperation
  | some version => .ok version

/-- The checks of `CapabilityOperation::try_from` between the version and the payloads. -/
def validate : Except CapabilityDiscoveryErrorKind Unit :=
  if raw.surfaces.isEmpty || 4 < raw.surfaces.length then .error .invalidOperation
  else if raw.surfaces.dedup.length != raw.surfaces.length ||
      (raw.reason.any fun reason => reason.isEmpty || maxReasonBytes < reason.length) ||
      (raw.status == .unavailable && raw.reason.isNone) then
    .error .invalidOperation
  else do
    validateAttributes raw.attributes
    validateSurfaceEffects raw.attributes raw.surfaces.dedup raw.sideEffect

end RawOperation

/-- `CapabilityOperation::try_from`. -/
def DiscoveredOperation.tryFrom (raw : RawOperation) :
    Except CapabilityDiscoveryErrorKind DiscoveredOperation := do
  let name ← (OperationName.new raw.id).mapError fun _ => .invalidOperation
  let version ← raw.operationVersion
  raw.validate
  let input ← CapabilityPayload.tryFrom raw.input
  let output ← CapabilityPayload.tryFrom raw.output
  .ok
    { name, version, input, output
      status := raw.status
      reason := raw.reason
      surfaces := raw.surfaces.dedup
      sideEffect := raw.sideEffect
      controls := raw.controls
      attributes := raw.attributes }

/-! ## Documents -/

/-- `CapabilityDiscovery`, with the fields that no request is compared with. -/
structure DiscoveryDocument where
  component : Text
  componentVersion : Text
  interfaces : List CapabilityInterface
  operations : List DiscoveredOperation
  nodup : (operations.map fun operation => operation.key).Nodup

/-- The part of a document that requests are compared with. -/
def DiscoveryDocument.discovery (document : DiscoveryDocument) : CapabilityDiscovery where
  interfaces := document.interfaces
  operations := document.operations.map DiscoveredOperation.toCapabilityOperation
  nodup := by
    rw [List.map_map]
    exact document.nodup

/-- The body of the loop of `try_from_raw` over the interfaces. -/
def pushInterface (interfaces : List CapabilityInterface) (raw : RawInterface) :
    Except CapabilityDiscoveryErrorKind (List CapabilityInterface) := do
  let interface ← CapabilityInterface.tryFrom raw
  if interfaces.contains interface then .error .duplicateInterface
  else .ok (interfaces ++ [interface])

abbrev DistinctOperations :=
  { operations : List DiscoveredOperation //
    (operations.map fun operation => operation.key).Nodup }

/-- The body of the loop of `try_from_raw` over the operations. -/
def insertOperation (operations : DistinctOperations) (raw : RawOperation) :
    Except CapabilityDiscoveryErrorKind DistinctOperations := do
  let operation ← DiscoveredOperation.tryFrom raw
  if hnew : operation.key ∉ operations.val.map fun operation => operation.key then
    .ok ⟨operations.val ++ [operation], by
      rw [List.map_append, List.map_singleton]
      exact List.nodup_append_comm.mp (List.nodup_cons.mpr ⟨hnew, operations.property⟩)⟩
  else .error .duplicateOperation

/-- `CapabilityDiscovery::try_from_raw`. -/
def DiscoveryDocument.tryFromRaw (raw : RawDiscovery) :
    Except CapabilityDiscoveryErrorKind DiscoveryDocument :=
  if raw.schemaVersion != 2 then .error .unsupportedSchemaVersion
  else if !isComponent raw.component then .error .invalidComponent
  else if !isComponentVersion raw.componentVersion then .error .invalidComponentVersion
  else if raw.interfaces.isEmpty then .error .missingInterfaces
  else if maxDiscoveredInterfaces < raw.interfaces.length then .error .tooManyInterfaces
  else if maxDiscoveredOperations < raw.operations.length then .error .tooManyOperations
  else do
    let interfaces ← raw.interfaces.foldlM pushInterface []
    let operations ← raw.operations.foldlM insertOperation ⟨[], List.nodup_nil⟩
    .ok
      { component := raw.component
        componentVersion := raw.componentVersion
        interfaces
        operations := operations.val
        nodup := operations.property }

/-! ## Bytes -/

/-- What the parser tells the visitor about the structure of a text. -/
inductive JsonEvent
  | beginObject
  | key (key : Text)
  | endObject
  | beginArray
  | endArray
  | scalar

/-- `UniqueJson`, by the keys it has seen in the objects that are open: none when one is
repeated. -/
def uniqueJson (opened : List (List Text)) : JsonEvent → Option (List (List Text))
  | .beginObject => some ([] :: opened)
  | .key key =>
    match opened with
    | [] => some []
    | keys :: outer => if keys.contains key then none else some ((key :: keys) :: outer)
  | .endObject => some opened.tail
  | .beginArray | .endArray | .scalar => some opened

mutual

def jsonEvents : Json → List JsonEvent
  | .object members => [.beginObject] ++ memberEvents members ++ [.endObject]
  | .array items => [.beginArray] ++ itemEvents items ++ [.endArray]
  | .null | .bool _ | .number _ | .string _ => [.scalar]

def itemEvents : List Json → List JsonEvent
  | [] => []
  | item :: rest => jsonEvents item ++ itemEvents rest

def memberEvents : List (Text × Json) → List JsonEvent
  | [] => []
  | (key, value) :: rest => .key key :: jsonEvents value ++ memberEvents rest

end

/-- The field of a struct that is written as an object or as an array. -/
def structField (name : Text) (position : ℕ) : Json → Option Json
  | .object members => (Keyed.lookup Prod.fst name members).map Prod.snd
  | .array items => items[position]?
  | _ => none

/-- A variant without fields is written as its name, or as an object with its name alone. -/
def variantName : Json → Option Text
  | .string name | .object [(name, .null)] => some name
  | _ => none

def fieldItems (name : Text) (position : ℕ) (value : Json) : List Json :=
  match structField name position value with
  | some (.array items) => items
  | _ => []

def interfaceKinds (value : Json) : List Text :=
  (fieldItems (utf8 "interfaces") 3 value).filterMap fun interface =>
    (structField (utf8 "kind") 0 interface).bind variantName

def operationSurfaces (value : Json) : List Text :=
  (fieldItems (utf8 "operations") 4 value).flatMap fun operation =>
    (fieldItems (utf8 "surfaces") 4 operation).filterMap variantName

def CapabilitySurface.name : CapabilitySurface → Text
  | .rust => utf8 "rust"
  | .cli => utf8 "cli"
  | .pythonSdk => utf8 "python_sdk"
  | .runtime => utf8 "runtime"

/-- What `serde_json` and the derived deserialization make of bytes. -/
structure Serde where
  /-- The events up to the end of the text or to where it is malformed, and the value if the
  text is a complete one. -/
  parse : Bytes → List JsonEvent × Option Json
  deserialize : Bytes → Option RawDiscovery
  whole : ∀ {bytes value}, (parse bytes).2 = some value → (parse bytes).1 = jsonEvents value
  reads : ∀ {bytes value raw}, (parse bytes).2 = some value → deserialize bytes = some raw →
    interfaceKinds value = (raw.interfaces.map (·.kind)).map CapabilitySurface.name ∧
      operationSurfaces value = (raw.operations.flatMap (·.surfaces)).map CapabilitySurface.name

/-- `CapabilityDiscovery::from_json`. -/
def DiscoveryDocument.fromJson (serde : Serde) (bytes : Bytes) :
    Except CapabilityDiscoveryErrorKind DiscoveryDocument :=
  if maxCapabilityDiscoveryBytes < bytes.length then .error .documentTooLarge
  else match (serde.parse bytes).1.foldlM uniqueJson [] with
    | none => .error .duplicateJsonMember
    | some _ =>
      if (serde.parse bytes).2.isNone then .error .invalidJson
      else match serde.deserialize bytes with
        | none => .error .invalidJson
        | some raw => DiscoveryDocument.tryFromRaw raw

/-! ## Accepted documents -/

variable {document : DiscoveryDocument}

section accepted

variable {raw : RawOperation} {operation : DiscoveredOperation}

/-- An accepted operation has the fields that were read, checked one after the other. -/
theorem tryFrom_operation_spec (h : DiscoveredOperation.tryFrom raw = .ok operation) :
    OperationName.new raw.id = .ok operation.name ∧
      raw.operationVersion = .ok operation.version ∧ raw.validate = .ok () ∧
      CapabilityPayload.tryFrom raw.input = .ok operation.input ∧
      CapabilityPayload.tryFrom raw.output = .ok operation.output ∧
      operation.surfaces = raw.surfaces.dedup := by
  obtain ⟨name, hname, h⟩ := Guard.bind_eq_ok.mp h
  obtain ⟨version, hver, h⟩ := Guard.bind_eq_ok.mp h
  obtain ⟨_, hvalid, h⟩ := Guard.bind_eq_ok.mp h
  obtain ⟨input, hinput, h⟩ := Guard.bind_eq_ok.mp h
  obtain ⟨output, houtput, h⟩ := Guard.bind_eq_ok.mp h
  cases h
  exact ⟨Guard.mapError_eq_ok.mp hname, hver, hvalid, hinput, houtput, rfl⟩

/-- An operation is accepted when each of its fields is. -/
theorem exists_tryFrom_operation {name version input output}
    (hname : OperationName.new raw.id = .ok name) (hver : raw.operationVersion = .ok version)
    (hvalid : raw.validate = .ok ()) (hinput : CapabilityPayload.tryFrom raw.input = .ok input)
    (houtput : CapabilityPayload.tryFrom raw.output = .ok output) :
    ∃ operation, DiscoveredOperation.tryFrom raw = .ok operation :=
  ⟨_, Guard.bind_eq_ok.mpr ⟨name, Guard.mapError_eq_ok.mpr hname,
    Guard.bind_eq_ok.mpr ⟨version, hver, Guard.bind_eq_ok.mpr ⟨(), hvalid,
      Guard.bind_eq_ok.mpr ⟨input, hinput, Guard.bind_eq_ok.mpr ⟨output, houtput, rfl⟩⟩⟩⟩⟩⟩

theorem kind_of_tryFrom {raw interface} (h : CapabilityInterface.tryFrom raw = .ok interface) :
    interface.kind = raw.kind := by
  unfold CapabilityInterface.tryFrom at h
  split at h
  case h_1 =>
    obtain ⟨-, heq⟩ := Guard.ite_error_eq_ok.mp h
    cases heq
    rfl
  case h_2 => cases h

theorem kinds_of_interfaces {raws : List RawInterface} {interfaces}
    (h : raws.foldlM pushInterface [] = .ok interfaces) :
    interfaces.map (·.kind) = raws.map (·.kind) := by
  refine Guard.foldlM_seen (P := fun seen interfaces =>
    interfaces.map (·.kind) = seen.map (·.kind))
    (fun seen raw interfaces next hseen hpush => ?_) rfl h
  obtain ⟨interface, hinterface, hnew⟩ := Guard.bind_eq_ok.mp hpush
  obtain ⟨-, heq⟩ := Guard.ite_error_eq_ok.mp hnew
  cases heq
  rw [map_append, map_append, hseen, map_singleton, map_singleton,
    kind_of_tryFrom hinterface]

theorem surfaces_of_operations {raws : List RawOperation} {operations}
    (h : raws.foldlM insertOperation ⟨[], nodup_nil⟩ = .ok operations) :
    operations.val.map (·.surfaces) = raws.map (·.surfaces.dedup) := by
  refine Guard.foldlM_seen (P := fun seen (operations : DistinctOperations) =>
    operations.val.map (·.surfaces) = seen.map (·.surfaces.dedup))
    (fun seen raw operations next hseen hinsert => ?_) rfl h
  obtain ⟨operation, hop, hnew⟩ := Guard.bind_eq_ok.mp hinsert
  split at hnew
  case isTrue =>
    cases hnew
    rw [map_append, map_append, hseen, map_singleton, map_singleton,
      (tryFrom_operation_spec hop).2.2.2.2.2]
  case isFalse => cases hnew

theorem tryFromRaw_spec {raw} (h : DiscoveryDocument.tryFromRaw raw = .ok document) :
    document.interfaces.map (·.kind) = raw.interfaces.map (·.kind) ∧
      document.operations.map (·.surfaces) = raw.operations.map (·.surfaces.dedup) := by
  simp only [DiscoveryDocument.tryFromRaw, Guard.ite_error_eq_ok] at h
  obtain ⟨-, -, -, -, -, -, h⟩ := h
  obtain ⟨interfaces, hinterfaces, h⟩ := Guard.bind_eq_ok.mp h
  obtain ⟨operations, hops, h⟩ := Guard.bind_eq_ok.mp h
  cases h
  exact ⟨kinds_of_interfaces hinterfaces, surfaces_of_operations hops⟩

/-- A document is accepted when the records that are read from it are. -/
theorem tryFromRaw_of_fromJson {serde bytes}
    (h : DiscoveryDocument.fromJson serde bytes = .ok document) :
    ∃ raw, serde.deserialize bytes = some raw ∧
      DiscoveryDocument.tryFromRaw raw = .ok document := by
  obtain ⟨-, h⟩ := Guard.ite_error_eq_ok.mp h
  split at h
  case h_1 => cases h
  case h_2 =>
    obtain ⟨-, h⟩ := Guard.ite_error_eq_ok.mp h
    split at h
    case h_1 => cases h
    case h_2 raw hread => exact ⟨raw, hread, h⟩

end accepted

/-! ## Main result -/

/-- Every surface that an operation names is the kind of a listed interface. -/
def DiscoveryDocument.ListsSurfaces (document : DiscoveryDocument) : Prop :=
  ∀ operation ∈ document.operations, ∀ surface ∈ operation.surfaces,
    ∃ interface ∈ document.interfaces, interface.kind = surface

def DiscoveryDocument.HasRuntime (document : DiscoveryDocument) : Prop :=
  ∃ interface ∈ document.interfaces, interface.kind = .runtime

theorem surfaceNamed_name (surface : CapabilitySurface) :
    surfaceNamed surface.name = some surface := by
  cases surface <;> decide +kernel

theorem CapabilitySurface.name_injective : Function.Injective CapabilitySurface.name := by
  intro first second hname
  have hsame := surfaceNamed_name first
  rw [hname, surfaceNamed_name] at hsame
  exact (Option.some.inj hsame).symm

theorem listsSurfaces_iff {raw : RawDiscovery}
    (hinterfaces : document.interfaces.map (·.kind) = raw.interfaces.map (·.kind))
    (hops : document.operations.map (·.surfaces) = raw.operations.map (·.surfaces.dedup)) :
    document.ListsSurfaces ↔
      raw.operations.flatMap (·.surfaces) ⊆ raw.interfaces.map (·.kind) := by
  have hlists (p : List CapabilitySurface → Prop) :
      (∀ operation ∈ document.operations, p operation.surfaces) ↔
        ∀ operation ∈ raw.operations, p operation.surfaces.dedup := by
    rw [← forall_mem_map, hops, forall_mem_map]
  unfold DiscoveryDocument.ListsSurfaces
  simp only [← mem_map, hinterfaces]
  rw [hlists fun surfaces => ∀ surface ∈ surfaces, surface ∈ raw.interfaces.map (·.kind)]
  simp only [mem_dedup, List.subset_def, mem_flatMap, forall_exists_index, and_imp]
  exact ⟨fun h _ operation hop hsurface => h operation hop _ hsurface,
    fun h operation hop _ hsurface => h operation hop hsurface⟩

/-- A request that a document admits at run time is for an operation on the runtime surface. -/
theorem DiscoveryDocument.ListsSurfaces.hasRuntime (hlists : document.ListsSurfaces) {request}
    (hadm : document.discovery.validateRequest request = .ok ()) :
    document.HasRuntime := by
  obtain ⟨operation, hmem, -, -, hadmits⟩ :=
    CapabilityDiscovery.validateRequest_eq_ok_iff.mp hadm
  obtain ⟨discovered, hdisc, rfl⟩ := mem_map.mp hmem
  exact hlists discovered hdisc .runtime hadmits.runtime

namespace Sample

/-- A document of one interface, of the given kind, and one operation at run time. -/
def rawDiscovery (kind : CapabilitySurface) : RawDiscovery where
  schemaVersion := 2
  component := utf8 "plenora-rest"
  componentVersion := utf8 "1.0.0"
  interfaces := [⟨kind, utf8 "plenora-rest-cli-v1", 1, none⟩]
  operations :=
    [{ id := utf8 "rest.fetch"
       version := 1
       status := .available
       reason := none
       surfaces := [.runtime]
       input := ⟨utf8 "plenora-rest-request-v1", [utf8 "application/json"]⟩
       output := ⟨utf8 "plenora-rest-response-v1", [utf8 "application/json"]⟩
       sideEffect := .none
       controls := ⟨false, false, false⟩
       attributes := [] }]

def documentRequest : CapabilityRequest where
  capability := ⟨utf8 "plenora.rest", 1, by decide +kernel, by decide⟩
  operation := ⟨utf8 "rest.fetch", by decide +kernel⟩
  operationVersion := ⟨1, by decide⟩
  inputContract := ⟨utf8 "plenora-rest-request-v1", by decide +kernel⟩
  input := .new (utf8 "application/json") []

/-- The document admits the request, and has no interface of the runtime. -/
def admitsWithoutRuntime (document : DiscoveryDocument) : Bool :=
  (document.discovery.validateRequest documentRequest).isOk &&
    document.interfaces.all fun interface => interface.kind != .runtime

def member (key : String) (value : Json) : Text × Json := (utf8 key, value)

def string (value : String) : Json := .string (utf8 value)

def payload (contract : String) : Json :=
  .object [member "contract" (string contract),
    member "content_types" (.array [string "application/json"])]

def json (kind : CapabilitySurface) : Json :=
  .object
    [member "schema_version" (.number (utf8 "2")), member "component" (string "plenora-rest"),
      member "component_version" (string "1.0.0"),
      member "interfaces" (.array [.object
        [member "kind" (.string kind.name), member "contract" (string "plenora-rest-cli-v1"),
          member "version" (.number (utf8 "1"))]]),
      member "operations" (.array [.object
        [member "id" (string "rest.fetch"), member "version" (.number (utf8 "1")),
          member "status" (string "available"), member "surfaces" (.array [string "runtime"]),
          member "input" (payload "plenora-rest-request-v1"),
          member "output" (payload "plenora-rest-response-v1"),
          member "side_effect" (string "none"),
          member "controls" (.object [member "cancellation" (.bool false),
            member "deadline" (.bool false), member "idempotency_key" (.bool false)])]])]

def bytes (kind : CapabilitySurface) : Bytes := (json kind).encode

def serde (kind : CapabilitySurface) : Serde where
  parse text := if text = bytes kind then (jsonEvents (json kind), some (json kind)) else ([], none)
  deserialize text := if text = bytes kind then some (rawDiscovery kind) else none
  whole {text value} h := by
    split_ifs at h ⊢
    cases h
    rfl
  reads {text value raw} h hread := by
    split_ifs at h hread
    cases h
    cases hread
    cases kind <;> decide +kernel

theorem parse_bytes (kind : CapabilitySurface) :
    ((serde kind).parse (bytes kind)).2 = some (json kind) := by
  simp [serde]

end Sample

/-- A document whose only interface is the command line offers an operation at run time: it is
accepted, and a request for the operation is admitted. -/
theorem runtime_operation_without_interface :
    ∃ document,
      DiscoveryDocument.fromJson (Sample.serde .cli) (Sample.bytes .cli) = .ok document ∧
      document.discovery.validateRequest Sample.documentRequest = .ok () ∧
      ¬ document.HasRuntime ∧ ¬ document.ListsSurfaces := by
  have hread : ((DiscoveryDocument.fromJson (Sample.serde .cli) (Sample.bytes .cli)).toOption.any
      Sample.admitsWithoutRuntime) = true := by
    decide +kernel
  cases haccepted : DiscoveryDocument.fromJson (Sample.serde .cli) (Sample.bytes .cli) with
  | error failure =>
    rw [haccepted] at hread
    cases hread
  | ok document =>
    rw [haccepted] at hread
    have hboth : Sample.admitsWithoutRuntime document = true := hread
    rw [Sample.admitsWithoutRuntime, Bool.and_eq_true, List.all_eq_true] at hboth
    obtain ⟨hisOk, hkinds⟩ := hboth
    have hadmitted : document.discovery.validateRequest Sample.documentRequest = .ok () := by
      cases hresult : document.discovery.validateRequest Sample.documentRequest with
      | error rejection =>
        rw [hresult] at hisOk
        cases hisOk
      | ok => rfl
    have hruntime : ¬ document.HasRuntime := by
      rintro ⟨interface, hmem, hkind⟩
      exact absurd hkind (bne_iff_ne.mp (hkinds interface hmem))
    exact ⟨document, rfl, hadmitted, hruntime, fun hlists => hruntime (hlists.hasRuntime hadmitted)⟩

/-- The operations of an accepted document name only kinds of its interfaces, and requests are
only admitted by a document with an interface of the runtime, if and only if the surfaces in
the JSON value that its bytes hold are all among the kinds there. -/
theorem operations_name_listed_interfaces_iff (serde : Serde) (bytes : Bytes) (value : Json)
    (document : DiscoveryDocument) (hvalue : (serde.parse bytes).2 = some value)
    (haccepted : DiscoveryDocument.fromJson serde bytes = .ok document) :
    (document.ListsSurfaces ∧
      ∀ request, document.discovery.validateRequest request = .ok () → document.HasRuntime) ↔
    operationSurfaces value ⊆ interfaceKinds value := by
  obtain ⟨raw, hread, hraw⟩ := tryFromRaw_of_fromJson haccepted
  obtain ⟨hinterfaces, hoperations⟩ := tryFromRaw_spec hraw
  obtain ⟨hkinds, hsurfaces⟩ := serde.reads hvalue hread
  rw [hkinds, hsurfaces, List.map_subset_iff _ CapabilitySurface.name_injective,
    ← listsSurfaces_iff hinterfaces hoperations]
  constructor
  · intro h
    exact h.1
  · intro hlists
    exact ⟨hlists, fun request hadmitted => hlists.hasRuntime hadmitted⟩

theorem operations_name_listed_interfaces_iff_runtime :
    ∃ document,
      DiscoveryDocument.fromJson (Sample.serde .runtime) (Sample.bytes .runtime) = .ok document ∧
      document.ListsSurfaces ∧
      ∀ request, document.discovery.validateRequest request = .ok () → document.HasRuntime := by
  have hok : (DiscoveryDocument.fromJson (Sample.serde .runtime) (Sample.bytes .runtime)).isOk =
      true := by
    decide +kernel
  have hlists : operationSurfaces (Sample.json .runtime) ⊆
      interfaceKinds (Sample.json .runtime) := by
    decide +kernel
  cases haccepted : DiscoveryDocument.fromJson (Sample.serde .runtime) (Sample.bytes .runtime) with
  | error failure =>
    rw [haccepted] at hok
    cases hok
  | ok document =>
    exact ⟨document, rfl,
      (operations_name_listed_interfaces_iff _ _ _ document (Sample.parse_bytes _)
        haccepted).mpr hlists⟩

end PlenoraRuntime.Capabilities
