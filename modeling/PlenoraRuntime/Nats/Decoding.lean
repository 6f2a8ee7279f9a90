import PlenoraRuntime.Messaging.Additions
import PlenoraRuntime.Nats.Headers

/-!
# Decoding headers in any order

A `HeaderMap` is a hash map, so `decode` meets the headers in an order nobody chose. What
each header gives is what `decode` makes of it alone (`contentTypeOf`, `headerOf`). `Decoded`
describes the state of the loop by the headers met so far: one step keeps it
(`Decoded.read`), and a step that fails names a `Fault` of the headers as a whole, which do
not depend on the order.
-/

namespace PlenoraRuntime.Nats

open Messaging List Option

/-! ## Lengths -/

theorem maxEncodedContentTypeBytes_eq :
    maxEncodedContentTypeBytes = Base64.encodedLength maxContentTypeBytes := by
  decide

theorem maxEncodedMetadataKeyBytes_eq :
    maxEncodedMetadataKeyBytes = Base64.encodedLength maxMetadataKeyBytes := by
  decide

theorem maxEncodedMetadataValueBytes_eq :
    maxEncodedMetadataValueBytes = Base64.encodedLength maxMetadataValueBytes := by
  decide

/-- The estimate is exact on what the encoder writes. -/
theorem decodedLenUpperBound_encode {bytes : Bytes} (h : bytes.length ≤ maxMetadataValueBytes) :
    decodedLenUpperBound (Base64.encode bytes).length = bytes.length := by
  have hmax : maxMetadataValueBytes = 8192 := rfl
  have hword : Word.maxValue usizeBits = 2 ^ 64 - 1 := rfl
  rw [Base64.length_encode, decodedLenUpperBound, saturatingMul, Word.saturatingMul,
    Base64.encodedLength]
  split <;> omega

theorem isUtf8_of_validateKey {key} (h : validateKey key = .ok ()) : isUtf8 key = true := by
  simp only [validateKey, Guard.ite_error_eq_ok] at h
  obtain ⟨-, -, -, hbytes, -⟩ := h
  simp only [Bool.not_eq_true, Bool.not_eq_false', List.all_eq_true] at hbytes
  refine isUtf8_of_ascii fun byte hbyte => ?_
  have hascii : ∀ byte : Fin 256, isMetadataKeyByte (UInt8.ofNat byte) = true →
      UInt8.ofNat byte < 128 := by
    decide +kernel
  have hthis := hascii ⟨byte.toNat, byte.toNat_lt⟩
  rw [UInt8.ofNat_toNat] at hthis
  exact hthis (hbytes byte hbyte)

/-! ## What a header gives -/

def encodedContentType (entry : Text × List Text) : Option Text :=
  if eqIgnoreAsciiCase entry.1 contentTypeName then entry.2.head? else none

def encodedPair (entry : Text × List Text) : Option (Text × Text) :=
  if eqIgnoreAsciiCase entry.1 contentTypeName then none
  else (stripPrefixIgnoreAsciiCase entry.1 metadataPrefix).bind fun key =>
    entry.2.head?.map fun value => (key, value)

def contentTypeOf (entry : Text × List Text) : Option Text :=
  if (encodedContentType entry).isSome then
    (Decoding.initial.read entry).toOption.map Decoding.contentType
  else none

def headerOf (entry : Text × List Text) : Option (Text × Bytes) :=
  (Decoding.initial.read entry).toOption.bind fun alone => alone.metadata.entries.head?

/-- The bounds on one encoded pair. -/
def fits (pair : Text × Text) : Bool :=
  pair.1.length ≤ maxEncodedMetadataKeyBytes && pair.2.length ≤ maxEncodedMetadataValueBytes

/-- The bytes that a pair may decode to. -/
def pairBytes (pair : Text × Text) : ℕ :=
  decodedLenUpperBound pair.1.length + decodedLenUpperBound pair.2.length

def tooManyEntries : NatsAdapterError :=
  protocolLimit (utf8 "encoded metadata exceeds the configured entry limit")

def tooManyBytes : NatsAdapterError :=
  protocolLimit (utf8 "encoded metadata exceeds the configured total byte limit")

/-- What is wrong with headers: one that cannot be decoded even alone, too many headers of
the message, or too many bytes in those that are within their own bounds. -/
inductive Fault (entries : List (Text × List Text)) : NatsAdapterError → Prop
  | own {entry : Text × List Text} {error : NatsAdapterError} (mem : entry ∈ entries)
      (alone : Decoding.initial.read entry = .error error) : Fault entries error
  | entries (h : maxMetadataEntries < (entries.filterMap encodedPair).length) :
      Fault entries tooManyEntries
  | bytes (h : maxMetadataTotalBytes <
        (((entries.filterMap encodedPair).filter fits).map pairBytes).sum) :
      Fault entries tooManyBytes

/-! ## One header, whatever came before -/

/-- A content type that `encode` accepts. -/
def Encodable (contentType : Text) : Prop :=
  contentType.length ≤ maxContentTypeBytes ∧ isUtf8 contentType = true

/-- The checks of `insert` on a header alone. -/
def ValidHeader (header : Text × Bytes) : Prop :=
  validateKey header.1 = .ok () ∧ validateValue header.1 header.2 = .ok ()

/-- The pair that `encode` writes for a header. -/
def encodedHeader (header : Text × Bytes) : Text × Text :=
  (Base64.encode header.1, Base64.encode header.2)

variable {header : Text × Bytes}

theorem fits_encodedHeader (h : ValidHeader header) : fits (encodedHeader header) = true := by
  simp only [fits, encodedHeader, Bool.and_eq_true, decide_eq_true_eq, Base64.length_encode,
    maxEncodedMetadataKeyBytes_eq, maxEncodedMetadataValueBytes_eq, Base64.encodedLength_le_iff]
  exact ⟨length_le_of_validateKey h.1, validateValue_eq_ok_iff.mp h.2⟩

theorem pairBytes_encodedHeader (h : ValidHeader header) :
    pairBytes (encodedHeader header) = headerBytes header := by
  rw [pairBytes, encodedHeader,
    decodedLenUpperBound_encode ((length_le_of_validateKey h.1).trans (by decide)),
    decodedLenUpperBound_encode (validateValue_eq_ok_iff.mp h.2)]
  rfl

namespace Decoding

variable {state next other : Decoding} {entry : Text × List Text} {encodedKey value : Text}
  {error : NatsAdapterError}

theorem read_contentType (state : Decoding) (h : encodedContentType entry = some value) :
    state.read entry = state.readContentType value := by
  unfold encodedContentType at h
  split at h
  case isTrue hname =>
    rw [head?_eq_some_iff] at h
    obtain ⟨_, hvalues⟩ := h
    simp [read, hvalues, hname]
  case isFalse => cases h

theorem read_pair (state : Decoding) (h : encodedPair entry = some (encodedKey, value)) :
    state.read entry = state.readEntry encodedKey value := by
  unfold encodedPair at h
  split at h
  · cases h
  case isFalse hname =>
    obtain ⟨key, hkey, h⟩ := bind_eq_some_iff.mp h
    obtain ⟨first, hfirst, heq⟩ := map_eq_some_iff.mp h
    cases heq
    obtain ⟨_, hvalues⟩ := head?_eq_some_iff.mp hfirst
    simp [read, hvalues, hname, hkey]

theorem read_nothing (state : Decoding) (hname : encodedContentType entry = none)
    (hpair : encodedPair entry = none) : state.read entry = .ok state := by
  unfold read
  unfold encodedContentType at hname
  unfold encodedPair at hpair
  cases hvalues : entry.2 with
  | nil => rfl
  | cons first rest =>
    split at hname
    · rw [hvalues] at hname
      cases hname
    case isFalse hother =>
      rw [if_neg hother, hvalues] at hpair
      cases hstrip : stripPrefixIgnoreAsciiCase entry.1 metadataPrefix with
      | none => simp [hother]
      | some key =>
        rw [hstrip] at hpair
        cases hpair

theorem encodedPair_of_contentType (h : encodedContentType entry = some value) :
    encodedPair entry = none := by
  unfold encodedContentType at h
  split at h
  case isTrue hname => exact if_pos hname
  case isFalse => cases h

/-- Reading a content type does not look at what was read before. -/
theorem readContentType_cases (value : Text) :
    (∃ contentType, Encodable contentType ∧
      ∀ state : Decoding, state.readContentType value = .ok { state with contentType }) ∨
      ∃ error, ∀ state : Decoding, state.readContentType value = .error error := by
  simp only [readContentType]
  by_cases hlen : maxEncodedContentTypeBytes < value.length
  · exact .inr ⟨_, fun _ => if_pos hlen⟩
  simp only [if_neg hlen]
  cases hbytes : Base64.decode value with
  | none => exact .inr ⟨_, fun _ => rfl⟩
  | some bytes =>
    by_cases hutf8 : isUtf8 bytes = true
    · -- The text is the encoding of the bytes, so its length bounds theirs.
      obtain rfl := Base64.decode_eq_some_iff.mp hbytes
      rw [maxEncodedContentTypeBytes_eq, Base64.length_encode, Nat.not_lt,
        Base64.encodedLength_le_iff] at hlen
      exact .inl ⟨bytes, ⟨hlen, hutf8⟩, fun _ => by simp [fromUtf8, hutf8]⟩
    · exact .inr ⟨_, fun _ => by simp only [fromUtf8, hutf8]; rfl⟩

/-! ### Pairs -/

/-- A valid header is inserted where there is room for it. -/
theorem insertEntry_encodedHeader (state : Decoding) (h : ValidHeader header)
    (hents : state.metadata.entries.length < maxMetadataEntries)
    (hbytes : state.metadata.size + headerBytes header ≤ maxMetadataTotalBytes) :
    ∃ metadata : MessageMetadata,
      metadata.entries = OrderedTable.insert header.1 header.2 state.metadata.entries ∧
      state.insertEntry (encodedHeader header).1 (encodedHeader header).2 =
        .ok { state with metadata } := by
  have hroom : state.metadata.entries.length +
      (if state.metadata.containsKey header.1 then 0 else 1) ≤ maxMetadataEntries := by
    split <;> omega
  obtain ⟨merged, hmerged⟩ := MessageMetadata.exists_insert_iff.mpr
    ⟨h, hroom, hbytes.trans (Nat.le_add_right ..)⟩
  have hadded := MessageMetadata.map_insert_eq_ok_iff.mp hmerged
  have hinsert := MessageMetadata.insert_eq_ok_iff.mpr ⟨hadded, rfl⟩
  refine ⟨merged, hadded, ?_⟩
  simp only [insertEntry, encodedHeader, Base64.decode_encode, fromUtf8,
    isUtf8_of_validateKey h.1, ↓reduceIte, hinsert]

/-- A pair encodes a valid header, or it is refused for a reason of its own. -/
theorem insertEntry_cases (encodedKey value : Text) :
    (∃ header, (encodedKey, value) = encodedHeader header ∧ ValidHeader header) ∨
      ∃ error, ∀ state : Decoding, state.insertEntry encodedKey value = .error error := by
  simp only [insertEntry]
  cases hkey : Base64.decode encodedKey with
  | none => exact .inr ⟨_, fun _ => rfl⟩
  | some key =>
    by_cases hutf8 : isUtf8 key = true
    case neg => exact .inr ⟨_, fun _ => by simp only [fromUtf8, hutf8]; rfl⟩
    cases hbytes : Base64.decode value with
    | none => exact .inr ⟨_, fun _ => by simp only [fromUtf8, hutf8]; rfl⟩
    | some bytes =>
      by_cases hvalid : ValidHeader (key, bytes)
      · refine .inl ⟨(key, bytes), ?_, hvalid⟩
        rw [encodedHeader, ← Base64.decode_eq_some_iff.mp hkey,
          ← Base64.decode_eq_some_iff.mp hbytes]
      · refine .inr ⟨protocol (utf8 "invalid decoded metadata key"), fun state => ?_⟩
        simp only [fromUtf8, hutf8, ↓reduceIte]
        split
        case h_1 => rfl
        case h_2 metadata _ hinsert =>
          have hmem : (key, bytes) ∈ metadata.entries :=
            (MessageMetadata.insert_eq_ok_iff.mp hinsert).1 ▸ OrderedTable.mem_insert_self ..
          exact absurd ⟨metadata.portable.keys _ hmem, metadata.portable.values _ hmem⟩ hvalid

theorem decodedLenUpperBound_le (n : ℕ) : decodedLenUpperBound n ≤ n := by
  have hmul : saturatingMul n 3 ≤ n * 3 := Nat.min_le_left ..
  unfold decodedLenUpperBound
  omega

theorem pairBytes_le_of_fits {pair} (h : fits pair = true) :
    pairBytes pair ≤ maxMetadataTotalBytes := by
  simp only [fits, Bool.and_eq_true, decide_eq_true_eq] at h
  have hkey := (decodedLenUpperBound_le pair.1.length).trans h.1
  have hvalue := (decodedLenUpperBound_le pair.2.length).trans h.2
  exact (Nat.add_le_add hkey hvalue).trans (by decide)

/-- What the loop keeps of the totals: they are within the limits, and the message metadata
takes no more. -/
structure Bounded (state : Decoding) : Prop where
  entries : state.metadataEntries ≤ maxMetadataEntries
  bytes : state.metadataDecodedBytes ≤ maxMetadataTotalBytes
  count : state.metadata.entries.length ≤ state.metadataEntries
  size : state.metadata.size ≤ state.metadataDecodedBytes

theorem bounded_initial : initial.Bounded where
  entries := Nat.zero_le _
  bytes := Nat.zero_le _
  count := Nat.le_refl _
  size := Nat.le_refl _

/-- The fault of a pair that does not fit. -/
def tooLong (encodedKey : Text) : NatsAdapterError :=
  if maxEncodedMetadataKeyBytes < encodedKey.length then
    protocolLimit (utf8 "encoded metadata key exceeds the configured byte limit")
  else
    protocolLimit (utf8 "encoded metadata value exceeds the configured byte limit")

/-- Within the limits no total saturates. -/
theorem readEntry_eq (hstate : state.Bounded) (encodedKey value : Text) :
    state.readEntry encodedKey value =
      if maxMetadataEntries < state.metadataEntries + 1 then .error tooManyEntries
      else if fits (encodedKey, value) = false then .error (tooLong encodedKey)
      else if maxMetadataTotalBytes <
          state.metadataDecodedBytes + pairBytes (encodedKey, value) then .error tooManyBytes
      else
        { state with
          metadataEntries := state.metadataEntries + 1
          metadataDecodedBytes :=
            state.metadataDecodedBytes + pairBytes (encodedKey, value) }.insertEntry
              encodedKey value := by
  have hquarter : ∀ n, decodedLenUpperBound n ≤ usizeMax / 4 :=
    fun n => Nat.div_le_div_right (Nat.min_le_right ..)
  have hkey := hquarter encodedKey.length
  have hvalue := hquarter value.length
  have hbytes := hstate.bytes
  have hmax : maxMetadataTotalBytes ≤ usizeMax / 4 := by decide
  have hcount : saturatingAdd state.metadataEntries 1 = state.metadataEntries + 1 :=
    saturatingAdd_eq (Nat.le_trans (Nat.succ_le_succ hstate.entries) (by decide))
  have hpair : saturatingAdd (decodedLenUpperBound encodedKey.length)
      (decodedLenUpperBound value.length) = pairBytes (encodedKey, value) :=
    saturatingAdd_eq (by omega)
  have htotal : saturatingAdd state.metadataDecodedBytes (pairBytes (encodedKey, value)) =
      state.metadataDecodedBytes + pairBytes (encodedKey, value) :=
    saturatingAdd_eq (by simp only [pairBytes]; omega)
  simp only [readEntry, hcount, hpair, htotal, tooLong, fits, Bool.and_eq_false_iff,
    decide_eq_false_iff_not]
  split_ifs <;> first | rfl | omega

/-- A header has been read: it is stored and the totals have grown. -/
structure Added (state next : Decoding) (header : Text × Bytes) : Prop where
  contentType : next.contentType = state.contentType
  metadata : next.metadata.entries =
    OrderedTable.insert header.1 header.2 state.metadata.entries
  entries : next.metadataEntries = state.metadataEntries + 1
  bytes : next.metadataDecodedBytes = state.metadataDecodedBytes + headerBytes header

theorem Added.bounded (h : Added state next header) (hstate : state.Bounded)
    (hents : state.metadataEntries < maxMetadataEntries)
    (hbytes : state.metadataDecodedBytes + headerBytes header ≤ maxMetadataTotalBytes) :
    next.Bounded where
  entries := h.entries ▸ hents
  bytes := h.bytes ▸ hbytes
  count := by
    have hcount := hstate.count
    have hlen : next.metadata.entries.length = _ := h.metadata ▸ state.metadata.length_insert
    rw [hlen, h.entries]
    split <;> omega
  size := by
    have hold := hstate.size
    have hnew : _ = _ + headerBytes header := MessageMetadata.size_insert h.metadata
    rw [h.bytes]
    omega

/-- A valid header is read where there is room for it. -/
theorem readEntry_encodedHeader (hstate : state.Bounded) (h : ValidHeader header)
    (hents : state.metadataEntries < maxMetadataEntries)
    (hbytes : state.metadataDecodedBytes + headerBytes header ≤ maxMetadataTotalBytes) :
    ∃ next, state.readEntry (encodedHeader header).1 (encodedHeader header).2 = .ok next ∧
      Added state next header := by
  have hfits : fits ((encodedHeader header).1, (encodedHeader header).2) = true :=
    fits_encodedHeader h
  have hpair : pairBytes ((encodedHeader header).1, (encodedHeader header).2) = _ :=
    pairBytes_encodedHeader h
  have hcount := hstate.count
  have hsize := hstate.size
  rw [readEntry_eq hstate, hfits, hpair, if_neg (by omega), if_neg (by simp), if_neg (by omega)]
  obtain ⟨metadata, hmeta, hinsert⟩ := insertEntry_encodedHeader
    { state with
      metadataEntries := state.metadataEntries + 1
      metadataDecodedBytes := state.metadataDecodedBytes + headerBytes header } h
    (Nat.lt_of_le_of_lt hcount hents) ((Nat.add_le_add_right hsize _).trans hbytes)
  exact ⟨_, hinsert, ⟨rfl, hmeta, rfl, rfl⟩⟩

/-- What reading a pair does, and what alone can go wrong. -/
theorem readEntry_cases (hstate : state.Bounded) (encodedKey value : Text) :
    (∃ header next, (encodedKey, value) = encodedHeader header ∧ ValidHeader header ∧
      state.readEntry encodedKey value = .ok next ∧ Added state next header ∧ next.Bounded) ∨
      ∃ error, state.readEntry encodedKey value = .error error ∧
        (initial.readEntry encodedKey value = .error error ∨
          (error = tooManyEntries ∧ maxMetadataEntries ≤ state.metadataEntries) ∨
          error = tooManyBytes ∧ fits (encodedKey, value) = true ∧ maxMetadataTotalBytes <
            state.metadataDecodedBytes + pairBytes (encodedKey, value)) := by
  have hnow := readEntry_eq hstate encodedKey value
  have halone := readEntry_eq bounded_initial encodedKey value
  by_cases hents : maxMetadataEntries < state.metadataEntries + 1
  case pos =>
    exact .inr ⟨_, hnow.trans (if_pos hents), .inr (.inl ⟨rfl, Nat.le_of_lt_succ hents⟩)⟩
  rw [if_neg hents] at hnow
  cases hfits : fits (encodedKey, value)
  case false => exact .inr ⟨_, hnow.trans (if_pos hfits), .inl (halone.trans (if_pos hfits))⟩
  rw [hfits] at hnow halone
  by_cases hbytes : maxMetadataTotalBytes <
    state.metadataDecodedBytes + pairBytes (encodedKey, value)
  case pos => exact .inr ⟨_, hnow.trans (if_pos hbytes), .inr (.inr ⟨rfl, rfl, hbytes⟩)⟩
  rcases insertEntry_cases encodedKey value with ⟨header, hpair, h⟩ | ⟨error, herror⟩
  · have hroom := Nat.lt_of_succ_le (Nat.le_of_not_lt hents)
    rw [hpair, pairBytes_encodedHeader h, not_lt] at hbytes
    obtain ⟨rfl, rfl⟩ := Prod.mk.inj hpair
    obtain ⟨next, hnext, hadded⟩ := readEntry_encodedHeader hstate h hroom hbytes
    exact .inl ⟨header, next, rfl, h, hnext, hadded, hadded.bounded hstate hroom hbytes⟩
  · have hfirst : ¬ maxMetadataTotalBytes <
        initial.metadataDecodedBytes + pairBytes (encodedKey, value) :=
      ((Nat.zero_add _).trans_le (pairBytes_le_of_fits hfits)).not_gt
    refine .inr ⟨error, hnow.trans ?_, .inl (halone.trans ?_)⟩
    · rw [if_neg hbytes]
      exact herror _
    · rw [if_neg hfirst]
      exact herror _

/-- What a header gives alone, when it has a valid header of the message. -/
theorem headerOf_pair (hpair : encodedPair entry = some (encodedHeader header))
    (h : ValidHeader header) : (∃ alone, initial.read entry = .ok alone) ∧
      headerOf entry = some header := by
  have htotal := pairBytes_encodedHeader h ▸ pairBytes_le_of_fits (fits_encodedHeader h)
  obtain ⟨alone, halone, hadded⟩ := readEntry_encodedHeader bounded_initial h
    (by decide) ((Nat.zero_add _).trans_le htotal)
  have hread : initial.read entry = .ok alone := (read_pair _ hpair).trans halone
  refine ⟨⟨alone, hread⟩, ?_⟩
  rw [headerOf, hread]
  exact congrArg List.head? hadded.metadata

end Decoding

/-! ## The headers met so far -/

/-- The last content type that headers give, in the order they are met. -/
def lastContentType (entries : List (Text × List Text)) : Text :=
  (entries.filterMap contentTypeOf).getLast?.getD defaultContentType

/-- The last value that headers give under a key. -/
def lastValue (key : Text) (entries : List (Text × List Text)) : Option Bytes :=
  ((entries.filterMap headerOf).filter fun header => header.1 == key).getLast?.map Prod.snd

/-- The state of the loop after some headers. -/
structure Decoded (seen : List (Text × List Text)) (state : Decoding) : Prop where
  bounded : state.Bounded
  alone : ∀ entry ∈ seen, ∀ error, Decoding.initial.read entry ≠ .error error
  entries : state.metadataEntries = (seen.filterMap encodedPair).length
  bytes : state.metadataDecodedBytes =
    (((seen.filterMap encodedPair).filter fits).map pairBytes).sum
  contentType : state.contentType = lastContentType seen
  value : ∀ key, state.metadata.get key = lastValue key seen

theorem decoded_initial : Decoded [] .initial where
  bounded := Decoding.bounded_initial
  alone := by simp
  entries := rfl
  bytes := rfl
  contentType := rfl
  value := fun _ => rfl

variable {entry : Text × List Text}

/-- Of elements that are all the same, each is the last. -/
theorem getLast?_eq_some_iff_mem {α : Type*} {l : List α} (hsame : ∀ a ∈ l, ∀ b ∈ l, a = b)
    {a : α} : l.getLast? = some a ↔ a ∈ l := by
  refine ⟨mem_of_getLast?, fun ha => ?_⟩
  have hne := ne_nil_of_mem ha
  rw [getLast?_eq_some_getLast hne, hsame _ (getLast_mem hne) a ha]

section last

variable {seen : List (Text × List Text)} {key : Text}

theorem lastContentType_snoc :
    lastContentType (seen ++ [entry]) = (contentTypeOf entry).getD (lastContentType seen) := by
  unfold lastContentType
  cases h : contentTypeOf entry <;> simp [h]

theorem lastValue_snoc_none (h : headerOf entry = none) :
    lastValue key (seen ++ [entry]) = lastValue key seen := by
  simp [lastValue, h]

theorem lastValue_snoc {header} (h : headerOf entry = some header) :
    lastValue key (seen ++ [entry]) =
      if key = header.1 then some header.2 else lastValue key seen := by
  unfold lastValue
  rw [filterMap_append, filterMap_cons_some h, filterMap_nil, filter_append,
    filter_singleton]
  by_cases hkey : key = header.1
  · rw [if_pos hkey, hkey, beq_self_eq_true, cond_true, getLast?_concat, map_some]
  · rw [if_neg hkey, beq_eq_false_iff_ne.mpr (Ne.symm hkey), cond_false, append_nil]

end last

namespace Decoded

variable {seen : List (Text × List Text)} {entry : Text × List Text} {state next alone : Decoding}

theorem alone_snoc (h : Decoded seen state) (halone : Decoding.initial.read entry = .ok alone) :
    ∀ other ∈ seen ++ [entry], ∀ error, Decoding.initial.read other ≠ .error error := by
  exact forall_mem_append.mpr ⟨h.alone, by simp [halone]⟩

theorem readNothing (h : Decoded seen state) (hname : encodedContentType entry = none)
    (hpair : encodedPair entry = none) : Decoded (seen ++ [entry]) state := by
  have halone := Decoding.initial.read_nothing hname hpair
  have htype : contentTypeOf entry = none := by simp [contentTypeOf, hname]
  have hheader : headerOf entry = none := by
    rw [headerOf, halone]
    rfl
  exact
    { bounded := h.bounded
      alone := h.alone_snoc halone
      entries := by simp [hpair, h.entries]
      bytes := by simp [hpair, h.bytes]
      contentType := by rw [lastContentType_snoc, htype, h.contentType]; rfl
      value := fun key => by rw [lastValue_snoc_none hheader, h.value] }

theorem readContentType (h : Decoded seen state) {value contentType}
    (hname : encodedContentType entry = some value)
    (hread : ∀ state : Decoding, state.readContentType value = .ok { state with contentType }) :
    Decoded (seen ++ [entry]) { state with contentType } := by
  have hpair := Decoding.encodedPair_of_contentType hname
  have halone := (Decoding.initial.read_contentType hname).trans (hread _)
  have htype : contentTypeOf entry = some contentType := by
    simp [contentTypeOf, hname, halone, Except.toOption]
  have hheader : headerOf entry = none := by
    rw [headerOf, halone]
    rfl
  exact
    { bounded := ⟨h.bounded.entries, h.bounded.bytes, h.bounded.count, h.bounded.size⟩
      alone := h.alone_snoc halone
      entries := by simp [hpair, h.entries]
      bytes := by simp [hpair, h.bytes]
      contentType := by rw [lastContentType_snoc, htype]; rfl
      value := fun key => by rw [lastValue_snoc_none hheader, ← h.value] }

theorem readPair (h : Decoded seen state) {header}
    (hpair : encodedPair entry = some (encodedHeader header)) (hvalid : ValidHeader header)
    (hadded : Decoding.Added state next header) (hbound : next.Bounded) :
    Decoded (seen ++ [entry]) next := by
  have hname : encodedContentType entry = none := by
    rw [eq_none_iff_forall_not_mem]
    intro value hvalue
    rw [Decoding.encodedPair_of_contentType hvalue] at hpair
    cases hpair
  have htype : contentTypeOf entry = none := by simp [contentTypeOf, hname]
  obtain ⟨⟨alone, halone⟩, hheader⟩ := Decoding.headerOf_pair hpair hvalid
  have hfits := fits_encodedHeader hvalid
  have hbytes := pairBytes_encodedHeader hvalid
  exact
    { bounded := hbound
      alone := h.alone_snoc halone
      entries := by simp [hpair, hadded.entries, h.entries]
      bytes := by simp [hpair, hfits, hbytes, hadded.bytes, h.bytes]
      contentType := by
        rw [lastContentType_snoc, htype, hadded.contentType, h.contentType]
        rfl
      value := fun key => by
        rw [MessageMetadata.get_insert hadded.metadata, lastValue_snoc hheader, h.value] }

/-- One turn of the loop goes on, or the headers have a fault of its error. -/
theorem read (h : Decoded seen state) (entry : Text × List Text) (rest : List (Text × List Text)) :
    (∃ next, state.read entry = .ok next ∧ Decoded (seen ++ [entry]) next) ∨
      ∃ error, state.read entry = .error error ∧ Fault (seen ++ entry :: rest) error := by
  have hmem : entry ∈ seen ++ entry :: rest := mem_append_right _ mem_cons_self
  cases hname : encodedContentType entry with
  | some value =>
    have hread := fun state : Decoding => state.read_contentType hname
    rcases Decoding.readContentType_cases value with ⟨contentType, -, hok⟩ | ⟨error, herror⟩
    · exact .inl ⟨_, (hread state).trans (hok state), h.readContentType hname hok⟩
    · exact .inr ⟨error, (hread state).trans (herror state),
        .own hmem ((hread _).trans (herror _))⟩
  | none =>
    cases hpair : encodedPair entry with
    | none => exact .inl ⟨state, state.read_nothing hname hpair, h.readNothing hname hpair⟩
    | some pair =>
      have hread := fun state : Decoding => state.read_pair hpair
      rw [hread]
      rcases Decoding.readEntry_cases h.bounded pair.1 pair.2 with
        ⟨header, next, hsame, hvalid, hnext, hadded, hbound⟩ | ⟨error, herror, hfault⟩
      · exact .inl ⟨next, hnext, h.readPair (hsame ▸ hpair) hvalid hadded hbound⟩
      · refine .inr ⟨error, herror, ?_⟩
        rcases hfault with halone | ⟨rfl, hents⟩ | ⟨rfl, hfits, hbytes⟩
        · exact .own hmem ((hread _).trans halone)
        · refine .entries ?_
          rw [filterMap_append, filterMap_cons_some hpair, length_append,
            length_cons, ← h.entries]
          omega
        · refine .bytes ?_
          rw [filterMap_append, filterMap_cons_some hpair, filter_append,
            filter_cons_of_pos hfits, map_append, map_cons, sum_append,
            sum_cons, ← h.bytes]
          omega

theorem not_fault (h : Decoded seen state) (error : NatsAdapterError) : ¬ Fault seen error := by
  intro hfault
  have hents := h.bounded.entries
  have hbytes := h.bounded.bytes
  cases hfault with
  | own hmem halone => exact h.alone _ hmem _ halone
  | entries hcount =>
    rw [← h.entries] at hcount
    omega
  | bytes htotal =>
    rw [← h.bytes] at htotal
    omega

end Decoded

/-- Headers without a fault decode to the last content type and the last values; others to
the error of a fault. -/
theorem decode_cases (headers : HeaderMap) :
    (∃ metadata, decode (some headers) = .ok (lastContentType headers.entries, metadata) ∧
      (∀ key, metadata.get key = lastValue key headers.entries) ∧
        ∀ error, ¬ Fault headers.entries error) ∨
      ∃ error, decode (some headers) = .error error ∧ Fault headers.entries error := by
  have hstep : ∀ seen entry state next, Decoded seen state →
      Decoding.read state entry = .ok next → Decoded (seen ++ [entry]) next := by
    intro seen entry state next h hread
    rcases h.read entry [] with ⟨other, hother, hdec⟩ | ⟨error, herror, _⟩
    · rw [hread] at hother
      cases hother
      exact hdec
    · rw [hread] at herror
      cases herror
  rcases Guard.foldlM_cases hstep decoded_initial headers.entries with
    ⟨last, hlast, hdec⟩ | ⟨seen, entry, rest, state, error, hsplit, h, hread, herror⟩
  · refine .inl ⟨last.metadata, ?_, hdec.value, hdec.not_fault⟩
    rw [decode, hlast, ← hdec.contentType]
    rfl
  · refine .inr ⟨error, by rw [decode, herror]; rfl, ?_⟩
    rcases h.read entry rest with ⟨next, hnext, _⟩ | ⟨other, hother, hfault⟩
    · rw [hread] at hnext
      cases hnext
    · rw [hread] at hother
      cases hother
      rwa [hsplit]

variable {headers : HeaderMap} {result : Text × MessageMetadata}

theorem of_decode_ok (h : decode (some headers) = .ok result) :
    result.1 = lastContentType headers.entries ∧
      (∀ key, result.2.get key = lastValue key headers.entries) ∧
        ∀ error, ¬ Fault headers.entries error := by
  rcases decode_cases headers with ⟨metadata, hdecode, hlast⟩ | ⟨error, herror, _⟩
  · rw [h] at hdecode
    cases hdecode
    exact ⟨rfl, hlast⟩
  · rw [h] at herror
    cases herror

theorem of_decode_error {error} (h : decode (some headers) = .error error) :
    Fault headers.entries error := by
  rcases decode_cases headers with ⟨metadata, hdecode, _⟩ | ⟨other, hother, hfault⟩
  · rw [h] at hdecode
    cases hdecode
  · rw [h] at hother
    cases hother
    exact hfault

theorem decode_fails_iff (headers : HeaderMap) :
    (∃ error, decode (some headers) = .error error) ↔ ∃ error, Fault headers.entries error := by
  constructor
  · rintro ⟨error, h⟩
    exact ⟨error, of_decode_error h⟩
  · rintro ⟨error, hfault⟩
    cases hdecode : decode (some headers) with
    | error other => exact ⟨other, rfl⟩
    | ok result => exact absurd hfault ((of_decode_ok hdecode).2.2 error)

end PlenoraRuntime.Nats
