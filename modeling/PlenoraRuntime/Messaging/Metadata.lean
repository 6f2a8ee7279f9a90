import Mathlib.Algebra.Order.BigOperators.Group.List
import Mathlib.Algebra.Order.Ring.Nat
import PlenoraRuntime.Core.Text
import PlenoraRuntime.Core.Time
import PlenoraRuntime.Foundation.Guard
import PlenoraRuntime.Foundation.OrderedTable

/-!
# Message metadata

Namespaced headers in key order. `MessageMetadata` can only be built by `new`,
`insert` and `remove`, and its last field is what these maintain: every key and
value is within its own bound, and the whole is within the bounds on entries and
bytes.
-/

namespace PlenoraRuntime.Messaging

open List OrderedTable

def maxMetadataEntries : ℕ := 64

def maxMetadataKeyBytes : ℕ := 128

def maxMetadataValueBytes : ℕ := 8192

def maxMetadataTotalBytes : ℕ := 32768

inductive MetadataKeyErrorKind
  | missingNamespace
  | emptySegment
  | invalidCharacter
  | keyTooLong
  | valueTooLarge
  | entryCapacityExceeded
  | totalBytesExceeded
  deriving DecidableEq, Repr

structure MetadataKeyError where
  key : Text
  kind : MetadataKeyErrorKind
  deriving DecidableEq

/-- A byte of the portable metadata alphabet, `[A-Za-z0-9._-]`. -/
def isMetadataKeyByte (byte : UInt8) : Bool :=
  (48 ≤ byte && byte ≤ 57) || (65 ≤ byte && byte ≤ 90) || (97 ≤ byte && byte ≤ 122) ||
    byte == 46 || byte == 45 || byte == 95

def validateKey (key : Text) : Except MetadataKeyError Unit :=
  if maxMetadataKeyBytes < key.length then .error ⟨key, .keyTooLong⟩
  else if !key.contains 46 then .error ⟨key, .missingNamespace⟩
  else if (key.splitOn 46).any List.isEmpty then .error ⟨key, .emptySegment⟩
  else if !key.all isMetadataKeyByte then .error ⟨key, .invalidCharacter⟩
  else .ok ()

def validateValue (key : Text) (value : Bytes) : Except MetadataKeyError Unit :=
  if maxMetadataValueBytes < value.length then .error ⟨key, .valueTooLarge⟩ else .ok ()

variable {key : Text}

theorem length_le_of_validateKey (h : validateKey key = .ok ()) :
    key.length ≤ maxMetadataKeyBytes := by
  rw [validateKey, Guard.ite_error_eq_ok] at h
  exact Nat.le_of_not_lt h.1

variable {value : Bytes}

theorem validateValue_eq_ok_iff :
    validateValue key value = .ok () ↔ value.length ≤ maxMetadataValueBytes := by
  rw [validateValue, Guard.ite_error_eq_ok, Nat.not_lt]
  exact and_iff_left rfl

def headerBytes (header : Text × Bytes) : ℕ :=
  header.1.length + header.2.length

/-- What inserting headers one by one maintains. -/
structure Portable (entries : List (Text × Bytes)) : Prop where
  sorted : OrderedTable.Sorted entries
  keys : ∀ header ∈ entries, validateKey header.1 = .ok ()
  values : ∀ header ∈ entries, validateValue header.1 header.2 = .ok ()
  count : entries.length ≤ maxMetadataEntries
  total : (entries.map headerBytes).sum ≤ maxMetadataTotalBytes

structure MessageMetadata where
  entries : List (Text × Bytes)
  portable : Portable entries
  deriving DecidableEq

namespace MessageMetadata

def new : MessageMetadata where
  entries := []
  portable := ⟨List.Pairwise.nil, by simp, by simp, by simp, by simp⟩

variable (metadata : MessageMetadata)

def get (key : Text) : Option Bytes :=
  OrderedTable.get key metadata.entries

def getText (key : Text) : Except Utf8Error (Option Text) :=
  match metadata.get key with
  | none => .ok none
  | some value => (fromUtf8 value).map some

def containsKey (key : Text) : Bool :=
  (metadata.get key).isSome

/-- The bytes that all headers take, as `insert` adds them up. -/
def currentBytes : ℕ :=
  metadata.entries.foldl
    (fun total header => saturatingAdd (saturatingAdd total header.1.length) header.2.length) 0

/-- The bytes that all headers take once `key` carries `value`. -/
def resultingBytes (key : Text) (value : Bytes) : ℕ :=
  let replacedBytes := match metadata.get key with
    | none => 0
    | some stored => saturatingAdd key.length stored.length
  saturatingAdd (saturatingAdd (metadata.currentBytes - replacedBytes) key.length) value.length

end MessageMetadata

/-! ## Bounds survive an insertion and a removal -/

section bounds

variable {entries : List (Text × Bytes)} {metadata : MessageMetadata}

theorem foldl_headerBytes (total : ℕ) (h : total + (entries.map headerBytes).sum ≤ usizeMax) :
    entries.foldl
        (fun total header => saturatingAdd (saturatingAdd total header.1.length) header.2.length)
        total =
      total + (entries.map headerBytes).sum := by
  induction entries generalizing total with
  | nil => rfl
  | cons header rest ih =>
    simp only [map_cons, sum_cons, headerBytes] at h ⊢
    have hkey : saturatingAdd total header.1.length = total + header.1.length :=
      saturatingAdd_eq (by omega)
    have hvalue : saturatingAdd (total + header.1.length) header.2.length =
        total + header.1.length + header.2.length := saturatingAdd_eq (by omega)
    rw [foldl_cons, hkey, ih _ (by omega)]
    omega

theorem maxMetadataTotalBytes_lt_usizeMax : maxMetadataTotalBytes < usizeMax := by decide

theorem MessageMetadata.currentBytes_eq (metadata : MessageMetadata) :
    metadata.currentBytes = (metadata.entries.map headerBytes).sum := by
  have htotal := metadata.portable.total
  have hmax := maxMetadataTotalBytes_lt_usizeMax
  unfold MessageMetadata.currentBytes
  rw [foldl_headerBytes 0 (by omega), Nat.zero_add]

theorem headerBytes_le_sum (h : OrderedTable.get key entries = some value) :
    headerBytes (key, value) ≤ (entries.map headerBytes).sum := by
  obtain ⟨⟨stored, _⟩, hlookup, rfl⟩ := Option.map_eq_some_iff.mp h
  obtain rfl : stored = key := Keyed.key_of_lookup hlookup
  exact single_le_sum (fun _ _ => Nat.zero_le _) _
    (mem_map_of_mem (Keyed.mem_of_lookup hlookup))

/-- What `insert` compares with the bound is what the headers will take. -/
theorem MessageMetadata.resultingBytes_eq (metadata : MessageMetadata) :
    metadata.resultingBytes key value =
      min ((OrderedTable.insert key value metadata.entries).map headerBytes).sum usizeMax := by
  have hmax := maxMetadataTotalBytes_lt_usizeMax
  have htotal := metadata.portable.total
  have hsum := sum_insert headerBytes metadata.portable.sorted (k := key) (a := value)
  let replaced := match metadata.get key with
    | none => 0
    | some stored => saturatingAdd key.length stored.length
  have hrepl : replaced = ((OrderedTable.get key metadata.entries).map fun old =>
      headerBytes (key, old)).getD 0 := by
    simp only [replaced, MessageMetadata.get]
    cases hget : OrderedTable.get key metadata.entries with
    | none => rfl
    | some stored =>
      have hstored := headerBytes_le_sum hget
      simp only [headerBytes] at hstored
      exact saturatingAdd_eq (by omega)
  have hheld : replaced ≤ (metadata.entries.map headerBytes).sum := by
    rw [hrepl]
    cases hget : OrderedTable.get key metadata.entries with
    | none => exact Nat.zero_le _
    | some stored => exact headerBytes_le_sum hget
  have hres : metadata.resultingBytes key value =
      min (min (metadata.currentBytes - replaced + key.length) usizeMax + value.length)
        usizeMax := rfl
  rw [hres, currentBytes_eq]
  rw [← hrepl] at hsum
  simp only [headerBytes] at hsum
  omega

theorem MessageMetadata.sum_insert_le
    (h : ¬ maxMetadataTotalBytes < metadata.resultingBytes key value) :
    ((OrderedTable.insert key value metadata.entries).map headerBytes).sum ≤
      maxMetadataTotalBytes := by
  have hmax := maxMetadataTotalBytes_lt_usizeMax
  rw [resultingBytes_eq] at h
  omega

theorem MessageMetadata.length_insert (metadata : MessageMetadata) :
    (OrderedTable.insert key value metadata.entries).length =
      metadata.entries.length + if metadata.containsKey key then 0 else 1 := by
  have hsum := sum_insert (fun _ => 1) metadata.portable.sorted (k := key) (a := value)
  simp only [containsKey, MessageMetadata.get]
  rcases Option.eq_none_or_eq_some (OrderedTable.get key metadata.entries) with hget | ⟨_, hget⟩
  · simpa [hget] using hsum
  · simpa [hget] using hsum

/-- One more header keeps the bounds if it meets its own and the whole stays within. -/
theorem Portable.insert (h : Portable entries) (hkey : validateKey key = .ok ())
    (hvalue : validateValue key value = .ok ())
    (hcount : (OrderedTable.insert key value entries).length ≤ maxMetadataEntries)
    (htotal : ((OrderedTable.insert key value entries).map headerBytes).sum ≤
      maxMetadataTotalBytes) :
    Portable (OrderedTable.insert key value entries) where
  sorted := h.sorted.insert
  keys := by
    intro header hheader
    rcases mem_insert hheader with rfl | hold
    · exact hkey
    · exact h.keys header hold
  values := by
    intro header hheader
    rcases mem_insert hheader with rfl | hold
    · exact hvalue
    · exact h.values header hold
  count := hcount
  total := htotal

theorem MessageMetadata.length_insert_le
    (h : ¬ (metadata.containsKey key = false ∧ maxMetadataEntries ≤ metadata.entries.length)) :
    (OrderedTable.insert key value metadata.entries).length ≤ maxMetadataEntries := by
  have hpre := metadata.portable.count
  rw [length_insert]
  split
  case isTrue => exact hpre
  case isFalse hnew =>
    rw [Bool.not_eq_true] at hnew
    have hroom := Nat.lt_of_not_le fun hfull => h ⟨hnew, hfull⟩
    omega

/-- Leaving headers out keeps every bound. -/
theorem Portable.sublist {rest : List (Text × Bytes)} (h : Portable entries)
    (hrest : rest.Sublist entries) : Portable rest where
  sorted := h.sorted.sublist hrest
  keys := fun header hheader => h.keys header (hrest.subset hheader)
  values := fun header hheader => h.values header (hrest.subset hheader)
  count := hrest.length_le.trans h.count
  total := ((hrest.map headerBytes).sum_le_sum fun _ _ => Nat.zero_le _).trans h.total

end bounds

namespace MessageMetadata

/-- `MessageMetadata::insert`: the metadata with the header, and the value it replaces. -/
def insert (metadata : MessageMetadata) (key : Text) (value : Bytes) :
    Except MetadataKeyError (MessageMetadata × Option Bytes) :=
  match hkey : validateKey key with
  | .error error => .error error
  | .ok () =>
    match hvalue : validateValue key value with
    | .error error => .error error
    | .ok () =>
      if hcount : metadata.containsKey key = false ∧
          maxMetadataEntries ≤ metadata.entries.length then
        .error ⟨key, .entryCapacityExceeded⟩
      else if htotal : maxMetadataTotalBytes < metadata.resultingBytes key value then
        .error ⟨key, .totalBytesExceeded⟩
      else
        .ok (⟨OrderedTable.insert key value metadata.entries,
          metadata.portable.insert hkey hvalue (length_insert_le hcount) (sum_insert_le htotal)⟩,
          metadata.get key)

theorem eq_of_mem_iff {metadata other : MessageMetadata}
    (h : ∀ header, header ∈ metadata.entries ↔ header ∈ other.entries) : metadata = other := by
  have hents := metadata.portable.sorted.eq_of_mem_iff other.portable.sorted h
  exact (MessageMetadata.mk.injEq ..).mpr hents

/-- A header is inserted exactly when the headers it leads to are within all bounds. -/
theorem insert_eq_ok_iff {metadata result : MessageMetadata} {key : Text} {value : Bytes}
    {old : Option Bytes} :
    metadata.insert key value = .ok (result, old) ↔
      result.entries = OrderedTable.insert key value metadata.entries ∧
        old = metadata.get key := by
  have hself := OrderedTable.mem_insert_self key value metadata.entries
  constructor
  · intro h
    unfold insert at h
    split at h
    · cases h
    split at h
    · cases h
    split at h
    · cases h
    split at h
    · cases h
    cases h
    exact ⟨rfl, rfl⟩
  · rintro ⟨hents, rfl⟩
    have hport := hents ▸ result.portable
    have hkey := hport.keys _ hself
    have hvalue := hport.values _ hself
    -- The result is portable, so no bound is exceeded on the way to it.
    have hcount : ¬ (metadata.containsKey key = false ∧
        maxMetadataEntries ≤ metadata.entries.length) := by
      rintro ⟨hnew, hfull⟩
      have hlen := hport.count
      rw [length_insert, hnew] at hlen
      exact absurd hlen (by simp only [Bool.false_eq_true, ↓reduceIte]; omega)
    have htotal : ¬ maxMetadataTotalBytes < metadata.resultingBytes key value := by
      have hsum := hport.total
      rw [resultingBytes_eq]
      omega
    unfold insert
    split
    case h_1 error herror => rw [hkey] at herror; cases herror
    split
    case h_1 error herror => rw [hvalue] at herror; cases herror
    rw [dif_neg hcount, dif_neg htotal]
    congr
    exact hents.symm

/-- `MessageMetadata::insert_text`: a text is inserted as its bytes. -/
def insertText (metadata : MessageMetadata) (key value : Text) :
    Except MetadataKeyError (MessageMetadata × Option Bytes) :=
  metadata.insert key value

/-- `MessageMetadata::remove`: the metadata without the header, and its value. -/
def remove (metadata : MessageMetadata) (key : Text) : MessageMetadata × Option Bytes :=
  (⟨OrderedTable.erase key metadata.entries, metadata.portable.sublist List.eraseP_sublist⟩,
    metadata.get key)

end MessageMetadata

end PlenoraRuntime.Messaging
