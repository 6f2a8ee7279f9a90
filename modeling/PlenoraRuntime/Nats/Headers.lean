import PlenoraRuntime.Foundation.Base64
import PlenoraRuntime.Foundation.Guard
import PlenoraRuntime.Messaging.Metadata

/-!
# Metadata in NATS headers

`encode` writes the content type and every header of a message into the headers of a
NATS message, all of them in base64; `decode` reads them back and checks the bounds on
the encoded form before it decodes anything.

A `HeaderMap` is a map that keeps the case of its names and lists several values under
each. It is iterated in the order of `entries`, which is any order.
-/

namespace PlenoraRuntime.Nats

open Messaging

/-! ## Errors -/

inductive NatsErrorCategory
  | configuration
  | connection
  | infrastructure
  | protocol
  | broker
  deriving DecidableEq, Repr

inductive NatsOperation
  | connect
  | reconnect
  | drain
  | probe
  | bind
  | publish
  | receive
  | metadata
  deriving DecidableEq, Repr

structure NatsAdapterError where
  category : NatsErrorCategory
  operation : NatsOperation
  message : Text
  hasSource : Bool
  deriving DecidableEq

def protocol (message : Text) : NatsAdapterError :=
  { category := .protocol, operation := .metadata, message, hasSource := true }

def protocolLimit (message : Text) : NatsAdapterError :=
  { category := .protocol, operation := .metadata, message, hasSource := false }

/-! ## Header maps -/

structure HeaderMap where
  entries : List (Text × List Text)
  nodup : (entries.map Prod.fst).Nodup

namespace HeaderMap

def new : HeaderMap where
  entries := []
  nodup := List.nodup_nil

/-- `HeaderMap::insert`: the value becomes the only one under its name. -/
def insert (headers : HeaderMap) (name value : Text) : HeaderMap :=
  if hold : name ∈ headers.entries.map Prod.fst then
    { entries := Keyed.replace Prod.fst name (name, [value]) headers.entries
      nodup := by
        rw [Keyed.map_key_replace (by rfl : (name, [value]).1 = name)]
        exact headers.nodup }
  else
    { entries := headers.entries ++ [(name, [value])]
      nodup := by
        rw [List.map_append, List.map_singleton, ← List.concat_eq_append]
        exact headers.nodup.concat hold }

end HeaderMap

/-- `HeaderName::from_str` accepts the name: visible ASCII without the colon. -/
def isHeaderName (name : Text) : Bool :=
  name.all fun byte => 33 ≤ byte && byte ≤ 126 && byte != 58

/-- `HeaderValue::from_str` accepts the value: it stays on its line. -/
def isHeaderValue (value : Text) : Bool :=
  value.all fun byte => byte != 13 && byte != 10

def insertHeader (headers : HeaderMap) (name value : Text) : Except NatsAdapterError HeaderMap :=
  if !isHeaderName name then
    .error (protocol (utf8 "metadata header name cannot be represented"))
  else if !isHeaderValue value then
    .error (protocol (utf8 "metadata header value cannot be represented"))
  else .ok (headers.insert name value)

/-! ## Encoding -/

def metadataPrefix : Text := utf8 "Plenora-Meta-"

def contentTypeName : Text := utf8 "Plenora-Content-Type-B64"

def maxContentTypeBytes : ℕ := maxMetadataKeyBytes

def encode (contentType : Text) (metadata : MessageMetadata) :
    Except NatsAdapterError HeaderMap :=
  if maxContentTypeBytes < contentType.length then
    .error (protocolLimit (utf8 "content type exceeds the configured byte limit"))
  else do
    let headers ← insertHeader .new contentTypeName (Base64.encode contentType)
    metadata.entries.foldlM
      (fun headers entry =>
        insertHeader headers (metadataPrefix ++ Base64.encode entry.1) (Base64.encode entry.2))
      headers

/-! ## Decoding -/

def base64NoPadEncodedLimit (decodedLimit : ℕ) : ℕ :=
  let completeGroups := decodedLimit / 3
  let remainder := decodedLimit % 3
  saturatingAdd (saturatingMul completeGroups 4) <| match remainder with
    | 0 => 0
    | 1 => 2
    | _ => 3

def decodedLenUpperBound (encodedLen : ℕ) : ℕ :=
  saturatingMul encodedLen 3 / 4

def maxEncodedContentTypeBytes : ℕ := base64NoPadEncodedLimit maxContentTypeBytes

def maxEncodedMetadataKeyBytes : ℕ := base64NoPadEncodedLimit maxMetadataKeyBytes

def maxEncodedMetadataValueBytes : ℕ := base64NoPadEncodedLimit maxMetadataValueBytes

/-- `strip_prefix_ignore_ascii_case`. A pattern of ASCII ends where a character does. -/
def stripPrefixIgnoreAsciiCase (value pattern : Text) : Option Text :=
  if eqIgnoreAsciiCase (value.take pattern.length) pattern then some (value.drop pattern.length)
  else none

/-- What `decode` has read so far. -/
structure Decoding where
  contentType : Text
  metadata : MessageMetadata
  metadataEntries : ℕ
  metadataDecodedBytes : ℕ

def defaultContentType : Text := utf8 "application/octet-stream"

namespace Decoding

def initial : Decoding where
  contentType := defaultContentType
  metadata := .new
  metadataEntries := 0
  metadataDecodedBytes := 0

/-- The content type under its own name. -/
def readContentType (state : Decoding) (value : Text) : Except NatsAdapterError Decoding :=
  if maxEncodedContentTypeBytes < value.length then
    .error (protocolLimit (utf8 "encoded content type exceeds the configured byte limit"))
  else match Base64.decode value with
    | none => .error (protocol (utf8 "invalid encoded content type"))
    | some bytes =>
      match fromUtf8 bytes with
      | .error _ => .error (protocol (utf8 "content type is not UTF-8"))
      | .ok contentType => .ok { state with contentType }

/-- A header of the message, once the bounds on its encoded form are met. -/
def insertEntry (state : Decoding) (encodedKey value : Text) : Except NatsAdapterError Decoding :=
  match Base64.decode encodedKey with
  | none => .error (protocol (utf8 "invalid encoded metadata key"))
  | some key =>
    match fromUtf8 key with
    | .error _ => .error (protocol (utf8 "metadata key is not UTF-8"))
    | .ok key =>
      match Base64.decode value with
      | none => .error (protocol (utf8 "invalid encoded metadata value"))
      | some value =>
        match state.metadata.insert key value with
        | .error _ => .error (protocol (utf8 "invalid decoded metadata key"))
        | .ok (metadata, _) => .ok { state with metadata }

/-- A header of the message, under its encoded key. -/
def readEntry (state : Decoding) (encodedKey value : Text) : Except NatsAdapterError Decoding :=
  let metadataEntries := saturatingAdd state.metadataEntries 1
  if maxMetadataEntries < metadataEntries then
    .error (protocolLimit (utf8 "encoded metadata exceeds the configured entry limit"))
  else if maxEncodedMetadataKeyBytes < encodedKey.length then
    .error (protocolLimit (utf8 "encoded metadata key exceeds the configured byte limit"))
  else if maxEncodedMetadataValueBytes < value.length then
    .error (protocolLimit (utf8 "encoded metadata value exceeds the configured byte limit"))
  else
    let entryDecodedBytes :=
      saturatingAdd (decodedLenUpperBound encodedKey.length) (decodedLenUpperBound value.length)
    let metadataDecodedBytes := saturatingAdd state.metadataDecodedBytes entryDecodedBytes
    if maxMetadataTotalBytes < metadataDecodedBytes then
      .error (protocolLimit (utf8 "encoded metadata exceeds the configured total byte limit"))
    else { state with metadataEntries, metadataDecodedBytes }.insertEntry encodedKey value

/-- One turn of the loop of `decode`. -/
def read (state : Decoding) (entry : Text × List Text) : Except NatsAdapterError Decoding :=
  match entry.2 with
  | [] => .ok state
  | value :: _ =>
    if eqIgnoreAsciiCase entry.1 contentTypeName then state.readContentType value
    else match stripPrefixIgnoreAsciiCase entry.1 metadataPrefix with
      | none => .ok state
      | some encodedKey => state.readEntry encodedKey value

end Decoding

def decode (headers : Option HeaderMap) : Except NatsAdapterError (Text × MessageMetadata) :=
  match headers with
  | none => .ok (defaultContentType, .new)
  | some headers =>
    (headers.entries.foldlM Decoding.read .initial).map fun state =>
      (state.contentType, state.metadata)

end PlenoraRuntime.Nats
