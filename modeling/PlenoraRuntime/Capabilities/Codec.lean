import PlenoraRuntime.Capabilities.Discovery
import PlenoraRuntime.Messaging.Additions

/-!
# Requests as messages

`CapabilityMessageCodec` keeps the routing of a request in five reserved headers of its
message. `decode` reads versions more generously than `encode` writes them, so a message
it accepts need not be the one the request is encoded to; but what `encode` writes never
takes more room, and decodes to the same request.
-/

namespace PlenoraRuntime.Capabilities

open Messaging List

/-! ## The codec -/

def capabilityNameMetadataKey : Text := utf8 "plenora.capability.name"

def capabilityVersionMetadataKey : Text := utf8 "plenora.capability.version"

def capabilityOperationMetadataKey : Text := utf8 "plenora.capability.operation"

def operationVersionMetadataKey : Text := utf8 "plenora.operation.version"

def inputContractMetadataKey : Text := utf8 "plenora.input.contract"

/-- The five reserved keys, in the order of the codec. -/
def routingKeys : List Text :=
  [capabilityNameMetadataKey, capabilityVersionMetadataKey, capabilityOperationMetadataKey,
    operationVersionMetadataKey, inputContractMetadataKey]

inductive CapabilityMessageCodecError
  | missing (key : Text)
  | invalidEncoding (key : Text)
  | invalidVersion (key : Text)
  | identifier (error : CapabilityIdentifierError)
  | contract (error : ContractIdentifierError)
  | metadata (error : MetadataKeyError)
  deriving DecidableEq

namespace CapabilityMessageCodec

def routingHeaders (request : CapabilityRequest) : List (Text × Bytes) :=
  [(capabilityNameMetadataKey, request.capability.name),
    (capabilityVersionMetadataKey, decimal request.capability.version.toNat),
    (capabilityOperationMetadataKey, request.operation.value),
    (operationVersionMetadataKey, decimal request.operationVersion.value.toNat),
    (inputContractMetadataKey, request.inputContract.value)]

/-- `encode`: inserts the five headers one after the other. -/
def encode (request : CapabilityRequest) :
    Except CapabilityMessageCodecError SerializedMessage :=
  match request.input.headers.insertAll (routingHeaders request) with
  | .error error => .error (.metadata error)
  | .ok headers => .ok { request.input with headers }

def requiredText (message : SerializedMessage) (key : Text) :
    Except CapabilityMessageCodecError Text :=
  match message.headers.getText key with
  | .error _ => .error (.invalidEncoding key)
  | .ok none => .error (.missing key)
  | .ok (some text) => .ok text

def okOr {ε α : Type*} (value : Option α) (error : ε) : Except ε α :=
  match value with
  | none => .error error
  | some value => .ok value

def decode (message : SerializedMessage) :
    Except CapabilityMessageCodecError CapabilityRequest := do
  let name ← requiredText message capabilityNameMetadataKey
  let versionText ← requiredText message capabilityVersionMetadataKey
  let version ← okOr (parseU16 versionText) (.invalidVersion capabilityVersionMetadataKey)
  let operation ← requiredText message capabilityOperationMetadataKey
  let operationVersionText ← requiredText message operationVersionMetadataKey
  let operationVersion ← okOr ((parseU16 operationVersionText).bind OperationVersion.new)
    (.invalidVersion operationVersionMetadataKey)
  let inputContract ← requiredText message inputContractMetadataKey
  let capability ← (CapabilityId.new name version).mapError .identifier
  let operation ← (OperationName.new operation).mapError .identifier
  let inputContract ← (ContractId.new inputContract).mapError .contract
  let input := { message with headers := message.headers.removeAll routingKeys }
  .ok { capability, operation, operationVersion, inputContract, input }

/-! ## What `decode` accepts -/

variable {message : SerializedMessage} {request : CapabilityRequest} {text : Text}

theorem requiredText_eq_ok_iff {key : Text} :
    requiredText message key = .ok text ↔
      message.headers.get key = some text ∧ isUtf8 text = true := by
  unfold requiredText MessageMetadata.getText
  cases message.headers.get key with
  | none => simp
  | some value =>
    by_cases hutf8 : isUtf8 value = true
    · simp only [fromUtf8, hutf8]
      constructor
      · rintro h
        cases h
        exact ⟨rfl, hutf8⟩
      · rintro ⟨h, -⟩
        cases h
        rfl
    · simp only [fromUtf8, hutf8, ↓reduceIte, Except.map, reduceCtorEq, false_iff, not_and]
      rintro h
      cases h
      exact hutf8

theorem okOr_eq_ok_iff {ε α : Type*} {value : Option α} {error : ε} {a : α} :
    okOr value error = .ok a ↔ value = some a := by
  cases value <;> simp [okOr]

/-- The headers carry the routing of a request. -/
structure Routes (headers : MessageMetadata) (request : CapabilityRequest) : Prop where
  name : headers.get capabilityNameMetadataKey = some request.capability.name
  version : ∃ text, headers.get capabilityVersionMetadataKey = some text ∧
    parseU16 text = some request.capability.version
  operation : headers.get capabilityOperationMetadataKey = some request.operation.value
  operationVersion : ∃ text, headers.get operationVersionMetadataKey = some text ∧
    parseU16 text = some request.operationVersion.value
  contract : headers.get inputContractMetadataKey = some request.inputContract.value

theorem isUtf8_of_parseU16 {n : UInt16} (h : parseU16 text = some n) : isUtf8 text = true := by
  refine isUtf8_of_ascii fun byte hbyte => ?_
  rcases mem_withoutPlus hbyte with rfl | hdigit
  · decide
  · exact lt_of_isAsciiDigit ((of_parseU16 h).2 byte hdigit)

theorem decode_eq_ok_iff : decode message = .ok request ↔
    Routes message.headers request ∧
      request.input = { message with headers := message.headers.removeAll routingKeys } := by
  simp only [decode, bind, Guard.bind_eq_ok, requiredText_eq_ok_iff, okOr_eq_ok_iff,
    Guard.mapError_eq_ok, CapabilityId.new_eq_ok_iff, OperationName.new_eq_ok_iff,
    ContractId.new_eq_ok_iff, Option.bind_eq_some_iff, OperationVersion.new_eq_some_iff]
  constructor
  · rintro ⟨name, ⟨hname, -⟩, text, ⟨htext, -⟩, version, hver, operation, ⟨hop, -⟩,
      text', ⟨htext', -⟩, operationVersion, ⟨number, hnumber, rfl⟩, contract, ⟨hcontr, -⟩,
      capability, ⟨rfl, rfl⟩, operationName, rfl, contractId, rfl, h⟩
    cases h
    exact ⟨⟨hname, ⟨text, htext, hver⟩, hop, ⟨text', htext', hnumber⟩, hcontr⟩, rfl⟩
  · rintro ⟨hroutes, hinput⟩
    obtain ⟨text, htext, hver⟩ := hroutes.version
    obtain ⟨text', htext', hnumber⟩ := hroutes.operationVersion
    refine ⟨_, ⟨hroutes.name, isUtf8_of_ascii (ascii_of_validateName request.capability.valid)⟩,
      text, ⟨htext, isUtf8_of_parseU16 hver⟩, _, hver,
      _, ⟨hroutes.operation, isUtf8_of_ascii (ascii_of_validateName request.operation.valid)⟩,
      text', ⟨htext', isUtf8_of_parseU16 hnumber⟩, request.operationVersion, ⟨_, hnumber, rfl⟩,
      _, ⟨hroutes.contract,
        isUtf8_of_ascii (ascii_of_validateContractId request.inputContract.valid)⟩,
      request.capability, ⟨rfl, rfl⟩, request.operation, rfl, request.inputContract, rfl, ?_⟩
    rw [← hinput]

/-! ## From a request to a message and back -/

theorem nodup_routingKeys : routingKeys.Nodup := by decide

theorem nodup_routingHeaders (request : CapabilityRequest) :
    ((routingHeaders request).map Prod.fst).Nodup :=
  nodup_routingKeys

theorem encode_eq_ok_iff : encode request = .ok message ↔
    ∃ headers, request.input.headers.insertAll (routingHeaders request) = .ok headers ∧
      message = { request.input with headers } := by
  unfold encode
  cases request.input.headers.insertAll (routingHeaders request) <;> simp [eq_comm]

/-- The headers that `encode` writes are the routing headers over those of the input. -/
theorem get_of_encode (h : encode request = .ok message) (key : Text) :
    message.headers.get key =
      (OrderedTable.get key (routingHeaders request)).or (request.input.headers.get key) := by
  obtain ⟨headers, hheaders, rfl⟩ := encode_eq_ok_iff.mp h
  exact MessageMetadata.get_insertAll (nodup_routingHeaders request) hheaders key

theorem routes_of_encode (h : encode request = .ok message) : Routes message.headers request where
  name := get_of_encode h _
  version := ⟨_, get_of_encode h _, parseU16_decimal _⟩
  operation := get_of_encode h _
  operationVersion := ⟨_, get_of_encode h _, parseU16_decimal _⟩
  contract := get_of_encode h _

/-- A request without headers under the reserved keys. -/
def withoutRouting (request : CapabilityRequest) : CapabilityRequest :=
  { request with
    input := { request.input with headers := request.input.headers.removeAll routingKeys } }

theorem decode_of_encode (h : encode request = .ok message) :
    decode message = .ok (withoutRouting request) := by
  have hroutes := routes_of_encode h
  have hheaders : message.headers.removeAll routingKeys =
      request.input.headers.removeAll routingKeys := by
    refine MessageMetadata.eq_of_get fun key => ?_
    rw [MessageMetadata.get_removeAll, MessageMetadata.get_removeAll, get_of_encode h]
    by_cases hkey : key ∈ routingKeys
    · rw [if_pos hkey, if_pos hkey]
    · have hnone : OrderedTable.get key (routingHeaders request) = none :=
        OrderedTable.get_eq_none_iff.mpr hkey
      rw [if_neg hkey, if_neg hkey, hnone, Option.none_or]
  obtain ⟨headers, -, rfl⟩ := encode_eq_ok_iff.mp h
  refine decode_eq_ok_iff.mpr ⟨⟨hroutes.name, hroutes.version, hroutes.operation,
    hroutes.operationVersion, hroutes.contract⟩, ?_⟩
  rw [hheaders]
  rfl

/-! ## From a message to a request and back -/

theorem valid_routingHeaders (request : CapabilityRequest) :
    ∀ header ∈ routingHeaders request,
      validateKey header.1 = .ok () ∧ validateValue header.1 header.2 = .ok () := by
  have hnumber : ∀ n : UInt16, (decimal n.toNat).length ≤ maxMetadataValueBytes := fun n =>
    (length_decimal_le 5 (by decide) (n.toNat_lt.trans (by decide))).trans (by decide)
  simp only [routingHeaders, forall_mem_cons, validateValue_eq_ok_iff]
  exact ⟨
    ⟨by decide, (length_le_of_validateName request.capability.valid).trans (by decide)⟩,
    ⟨by decide, hnumber _⟩,
    ⟨by decide, (length_le_of_validateName request.operation.valid).trans (by decide)⟩,
    ⟨by decide, hnumber _⟩,
    ⟨by decide, (length_le_of_validateContractId request.inputContract.valid).trans (by decide)⟩,
    by simp⟩

/-- The routing headers fit where those they were decoded from were. -/
theorem room_of_decode (h : decode message = .ok request) :
    request.input.headers.Room (routingHeaders request) := by
  obtain ⟨hroutes, hinput⟩ := decode_eq_ok_iff.mp h
  obtain ⟨text, htext, hver⟩ := hroutes.version
  obtain ⟨text', htext', hnumber⟩ := hroutes.operationVersion
  let removed : List (Text × Bytes) :=
    [(capabilityNameMetadataKey, request.capability.name), (capabilityVersionMetadataKey, text),
      (capabilityOperationMetadataKey, request.operation.value),
      (operationVersionMetadataKey, text'),
      (inputContractMetadataKey, request.inputContract.value)]
  have hgone : ∀ header ∈ removed, message.headers.get header.1 = some header.2 := by
    simp only [removed, forall_mem_cons]
    exact ⟨hroutes.name, htext, hroutes.operation, htext', hroutes.contract, by simp⟩
  have hperm : message.headers.entries.Perm (removed ++ request.input.headers.entries) := by
    rw [hinput]
    exact MessageMetadata.perm_removeAll nodup_routingKeys hgone
  have hcount := message.headers.portable.count
  have htotal := message.headers.portable.total
  have hversionLength := (of_parseU16 hver).1
  have hnumberLength := (of_parseU16 hnumber).1
  rw [hperm.length_eq, length_append] at hcount
  rw [(hperm.map headerBytes).sum_eq, map_append, sum_append] at htotal
  refine .of_spare ((Nat.add_comm ..).trans_le hcount) ((Nat.add_comm ..).trans_le ?_)
  refine (Nat.add_le_add_right ?_ _).trans htotal
  simp only [routingHeaders, removed, map_cons, map_nil, sum_cons, headerBytes]
  omega

theorem exists_encode_of_decode (h : decode message = .ok request) :
    ∃ again, encode request = .ok again ∧ decode again = .ok request := by
  obtain ⟨headers, hheaders⟩ :=
    (MessageMetadata.exists_insertAll_iff (nodup_routingHeaders request)).mpr
      ⟨valid_routingHeaders request, room_of_decode h⟩
  have hencode := encode_eq_ok_iff.mpr ⟨headers, hheaders, rfl⟩
  refine ⟨_, hencode, (decode_of_encode hencode).trans ?_⟩
  -- Nothing is under the reserved keys any more.
  obtain ⟨-, hinput⟩ := decode_eq_ok_iff.mp h
  have hsame : request.input.headers.removeAll routingKeys = request.input.headers := by
    refine MessageMetadata.eq_of_get fun key => ?_
    rw [hinput, MessageMetadata.get_removeAll, MessageMetadata.get_removeAll]
    by_cases hkey : key ∈ routingKeys
    · simp only [if_pos hkey]
    · simp only [if_neg hkey]
  rw [withoutRouting, hsame]

end CapabilityMessageCodec

/-- Decoding what a request is encoded to gives the request back, less the headers under
the reserved keys; and what a message decodes to is encoded, and decodes to itself. -/
theorem capability_codec_round_trip :
    (∀ request message, CapabilityMessageCodec.encode request = .ok message →
      ∃ decoded, CapabilityMessageCodec.decode message = .ok decoded ∧
        decoded.capability = request.capability ∧ decoded.operation = request.operation ∧
        decoded.operationVersion = request.operationVersion ∧
        decoded.inputContract = request.inputContract ∧
        decoded.input.contentType = request.input.contentType ∧
        decoded.input.bytes = request.input.bytes ∧
        ∀ key, decoded.input.headers.get key =
          if key ∈ routingKeys then none else request.input.headers.get key) ∧
      ∀ message request, CapabilityMessageCodec.decode message = .ok request →
        ∃ again, CapabilityMessageCodec.encode request = .ok again ∧
          CapabilityMessageCodec.decode again = .ok request :=
  ⟨fun _ _ hencode => ⟨_, CapabilityMessageCodec.decode_of_encode hencode, rfl, rfl, rfl, rfl,
    rfl, rfl, MessageMetadata.get_removeAll routingKeys⟩,
    fun _ _ => CapabilityMessageCodec.exists_encode_of_decode⟩

/-- A message whose versions are not written as `encode` writes them. -/
def Sample.routed : SerializedMessage where
  contentType := utf8 "application/json"
  headers :=
    { entries :=
        [(capabilityNameMetadataKey, utf8 "plenora.rest"),
          (capabilityOperationMetadataKey, utf8 "rest.fetch"),
          (capabilityVersionMetadataKey, utf8 "007"),
          (inputContractMetadataKey, utf8 "plenora-rest-request-v1"),
          (operationVersionMetadataKey, utf8 "+1")]
      portable :=
        { sorted := by unfold OrderedTable.Sorted; decide +kernel
          keys := by decide +kernel
          values := by decide +kernel
          count := by decide +kernel
          total := by decide +kernel } }
  bytes := []

theorem capability_codec_reads_padded_versions :
    ∃ request, CapabilityMessageCodec.decode Sample.routed = .ok request ∧
      request.capability.version = 7 ∧
      ∃ again, CapabilityMessageCodec.encode request = .ok again ∧
        CapabilityMessageCodec.decode again = .ok request := by
  have hdecodes : (CapabilityMessageCodec.decode Sample.routed).toOption.isSome = true := by
    decide +kernel
  have hversion : ((CapabilityMessageCodec.decode Sample.routed).toOption.map
      fun request => request.capability.version) = some 7 := by decide +kernel
  cases hdecode : CapabilityMessageCodec.decode Sample.routed with
  | error error => simp [hdecode, Except.toOption] at hdecodes
  | ok request =>
    simp only [hdecode, Except.toOption, Option.map_some, Option.some.injEq] at hversion
    exact ⟨request, rfl, hversion, capability_codec_round_trip.2 _ _ hdecode⟩

end PlenoraRuntime.Capabilities
