import PlenoraRuntime.Messaging.Metadata

/-!
# Adding headers to a message

Adapters add headers of their own to those a message has, one after the other. Each
insertion checks the bounds, so whether all of them succeed is a matter of how much room
there is on the way: `Room` counts the new keys, and the bytes after each insertion less
those that were replaced.
-/

namespace PlenoraRuntime.Messaging

open List OrderedTable

variable {metadata merged : MessageMetadata} {key : Text} {value : Bytes}
  {added : List (Text × Bytes)}

namespace MessageMetadata

/-- The bytes that the header under a key takes. -/
def bytesUnder (metadata : MessageMetadata) (key : Text) : ℕ :=
  ((metadata.get key).map fun value => headerBytes (key, value)).getD 0

def size (metadata : MessageMetadata) : ℕ :=
  (metadata.entries.map headerBytes).sum

def insertAll (metadata : MessageMetadata) (added : List (Text × Bytes)) :
    Except MetadataKeyError MessageMetadata :=
  added.foldlM (fun metadata entry => (metadata.insert entry.1 entry.2).map Prod.fst) metadata

/-- Inserts a header, with an error of the caller's for that of `insert`. -/
def insertWith {ε : Type*} (wrap : MetadataKeyError → ε) (metadata : MessageMetadata) (key : Text)
    (value : Bytes) : Except ε MessageMetadata :=
  match metadata.insert key value with
  | .error error => .error (wrap error)
  | .ok (metadata, _) => .ok metadata

/-- The headers fit in one after the other. -/
structure Room (metadata : MessageMetadata) (added : List (Text × Bytes)) : Prop where
  entries : metadata.entries.length +
    (added.filter fun header => !metadata.containsKey header.1).length ≤ maxMetadataEntries
  bytes : ∀ n, metadata.size + ((added.take n).map headerBytes).sum ≤
    maxMetadataTotalBytes + ((added.take n).map fun header => metadata.bytesUnder header.1).sum

theorem size_le (metadata : MessageMetadata) : metadata.size ≤ maxMetadataTotalBytes :=
  metadata.portable.total

/-- There is room for headers that would fit even if all their keys were new. -/
theorem Room.of_spare (hents : metadata.entries.length + added.length ≤ maxMetadataEntries)
    (hbytes : metadata.size + (added.map headerBytes).sum ≤ maxMetadataTotalBytes) :
    metadata.Room added where
  entries := (Nat.add_le_add_left (length_filter_le ..) _).trans hents
  bytes := by
    intro n
    have hfirst : ((added.take n).map headerBytes).sum ≤ (added.map headerBytes).sum :=
      ((take_sublist n added).map headerBytes).sum_le_sum fun _ _ => Nat.zero_le _
    omega

/-! ## One header -/

section insert

variable (h : merged.entries = OrderedTable.insert key value metadata.entries) {other : Text}

include h

theorem size_insert :
    merged.size + metadata.bytesUnder key = metadata.size + headerBytes (key, value) := by
  rw [size, h]
  exact sum_insert headerBytes metadata.portable.sorted

theorem get_insert (other : Text) :
    merged.get other = if other = key then some value else metadata.get other := by
  rw [MessageMetadata.get, h, OrderedTable.get_insert]
  rfl

theorem containsKey_insert (hne : other ≠ key) :
    merged.containsKey other = metadata.containsKey other := by
  rw [containsKey, get_insert h, if_neg hne, containsKey]

theorem bytesUnder_insert (hne : other ≠ key) :
    merged.bytesUnder other = metadata.bytesUnder other := by
  rw [bytesUnder, get_insert h, if_neg hne, bytesUnder]

end insert

theorem map_insert_eq_ok_iff : (metadata.insert key value).map Prod.fst = .ok merged ↔
    merged.entries = OrderedTable.insert key value metadata.entries := by
  constructor
  · intro h
    cases hinsert : metadata.insert key value with
    | error error => rw [hinsert] at h; cases h
    | ok result =>
      rw [hinsert] at h
      cases h
      exact (insert_eq_ok_iff.mp hinsert).1
  · intro h
    rw [insert_eq_ok_iff.mpr ⟨h, rfl⟩]
    rfl

/-- When a header can be inserted. -/
theorem exists_insert_iff :
    (∃ merged, (metadata.insert key value).map Prod.fst = .ok merged) ↔
      (validateKey key = .ok () ∧ validateValue key value = .ok ()) ∧
        metadata.entries.length + (if metadata.containsKey key then 0 else 1) ≤
            maxMetadataEntries ∧
          metadata.size + headerBytes (key, value) ≤
            maxMetadataTotalBytes + metadata.bytesUnder key := by
  have hlen : (OrderedTable.insert key value metadata.entries).length = _ :=
    metadata.length_insert
  have hself := OrderedTable.mem_insert_self key value metadata.entries
  constructor
  · rintro ⟨merged, h⟩
    rw [map_insert_eq_ok_iff] at h
    have hport := merged.portable
    have hcount := hport.count
    have htotal : merged.size ≤ maxMetadataTotalBytes := hport.total
    have hsize := size_insert h
    rw [h] at hcount
    exact ⟨⟨hport.keys _ (h ▸ hself), hport.values _ (h ▸ hself)⟩, by omega, by omega⟩
  · rintro ⟨⟨hkey, hvalue⟩, hcount, htotal⟩
    have hsum : ((OrderedTable.insert key value metadata.entries).map headerBytes).sum +
        metadata.bytesUnder key = metadata.size + headerBytes (key, value) :=
      sum_insert headerBytes metadata.portable.sorted
    refine ⟨⟨_, metadata.portable.insert hkey hvalue ?_ ?_⟩, map_insert_eq_ok_iff.mpr rfl⟩
    · omega
    · omega

/-! ## All of them -/

theorem insertAll_cons (header : Text × Bytes) (rest : List (Text × Bytes)) :
    metadata.insertAll (header :: rest) =
      ((metadata.insert header.1 header.2).map Prod.fst).bind fun next => next.insertAll rest :=
  foldlM_cons

/-- Inserting headers in a row, each with an error of the caller's. -/
theorem mapError_insertAll_cons {ε : Type*} (wrap : MetadataKeyError → ε) (header : Text × Bytes)
    (rest : List (Text × Bytes)) :
    (metadata.insertAll (header :: rest)).mapError wrap =
      (metadata.insertWith wrap header.1 header.2).bind fun next =>
        (next.insertAll rest).mapError wrap := by
  rw [insertAll_cons, insertWith]
  cases metadata.insert header.1 header.2 <;> rfl

variable {rest : List (Text × Bytes)} {header : Text × Bytes}

theorem insertAll_cons_eq_ok_iff :
    metadata.insertAll (header :: rest) = .ok merged ↔
      ∃ next, (metadata.insert header.1 header.2).map Prod.fst = .ok next ∧
        next.insertAll rest = .ok merged := by
  rw [insertAll_cons]
  cases (metadata.insert header.1 header.2).map Prod.fst <;> simp [Except.bind]

/-- Once a header is in, there is room for the rest if there was for all. -/
theorem room_cons_iff (hnew : header.1 ∉ rest.map Prod.fst)
    (h : merged.entries = OrderedTable.insert header.1 header.2 metadata.entries) :
    metadata.Room (header :: rest) ↔ merged.Room rest := by
  have hne : ∀ other ∈ rest, other.1 ≠ header.1 := fun other hother heq =>
    hnew (heq ▸ mem_map_of_mem hother)
  -- No other key changes, and neither does what it replaces.
  have hfilter : (rest.filter fun other => !merged.containsKey other.1) =
      rest.filter fun other => !metadata.containsKey other.1 :=
    filter_congr fun other hother => by rw [containsKey_insert h (hne other hother)]
  have hrepl : ∀ n, ((rest.take n).map fun other => merged.bytesUnder other.1) =
      (rest.take n).map fun other => metadata.bytesUnder other.1 := fun n =>
    map_congr_left fun other hother =>
      bytesUnder_insert h (hne other (mem_of_mem_take hother))
  have hlen : merged.entries.length = _ := h ▸ metadata.length_insert
  have hcount : metadata.entries.length +
      ((header :: rest).filter fun other => !metadata.containsKey other.1).length =
        merged.entries.length + (rest.filter fun other => !merged.containsKey other.1).length := by
    rw [hlen, hfilter, filter_cons]
    cases metadata.containsKey header.1 with
    | true => simp
    | false => simp; omega
  have hsize : merged.size + metadata.bytesUnder header.1 = metadata.size + headerBytes header :=
    size_insert h
  constructor
  · intro hroom
    refine ⟨hcount ▸ hroom.entries, fun n => ?_⟩
    have hbytes := hroom.bytes (n + 1)
    simp only [take_succ_cons, map_cons, sum_cons] at hbytes
    rw [hrepl]
    omega
  · intro hroom
    refine ⟨hcount ▸ hroom.entries, fun n => ?_⟩
    cases n with
    | zero => simpa using metadata.size_le
    | succ n =>
      have hbytes := hroom.bytes n
      rw [hrepl] at hbytes
      simp only [take_succ_cons, map_cons, sum_cons]
      omega

theorem Room.head (h : metadata.Room (header :: rest)) :
    metadata.entries.length + (if metadata.containsKey header.1 then 0 else 1) ≤
        maxMetadataEntries ∧
      metadata.size + headerBytes header ≤
        maxMetadataTotalBytes + metadata.bytesUnder header.1 := by
  have hents := h.entries
  have hbytes := h.bytes 1
  rw [filter_cons] at hents
  constructor
  · cases hcontains : metadata.containsKey header.1 with
    | true => exact metadata.portable.count
    | false =>
      simp only [hcontains, Bool.not_false, ↓reduceIte, length_cons] at hents
      simp only [Bool.false_eq_true, ↓reduceIte]
      omega
  · simpa using hbytes

/-- Headers with different keys are all inserted exactly when each is within its own
bounds and there is room for them. -/
theorem exists_insertAll_iff (hnodup : (added.map Prod.fst).Nodup) :
    (∃ merged, metadata.insertAll added = .ok merged) ↔
      (∀ header ∈ added, validateKey header.1 = .ok () ∧
        validateValue header.1 header.2 = .ok ()) ∧ metadata.Room added := by
  induction added generalizing metadata with
  | nil =>
    have hroom : metadata.Room [] := ⟨metadata.portable.count, fun n => by
      simpa using metadata.size_le⟩
    exact iff_of_true ⟨metadata, rfl⟩ ⟨by simp, hroom⟩
  | cons header rest ih =>
    rw [map_cons, nodup_cons] at hnodup
    obtain ⟨hnew, hnodup⟩ := hnodup
    rw [forall_mem_cons]
    constructor
    · rintro ⟨merged, h⟩
      obtain ⟨next, hnext, hrest⟩ := insertAll_cons_eq_ok_iff.mp h
      obtain ⟨hvalid, hroom⟩ := (ih hnodup).mp ⟨merged, hrest⟩
      exact ⟨⟨(exists_insert_iff.mp ⟨next, hnext⟩).1, hvalid⟩,
        (room_cons_iff hnew (map_insert_eq_ok_iff.mp hnext)).mpr hroom⟩
    · rintro ⟨⟨hheader, hvalid⟩, hroom⟩
      obtain ⟨next, hnext⟩ := exists_insert_iff.mpr ⟨hheader, hroom.head⟩
      have hrest := (room_cons_iff hnew (map_insert_eq_ok_iff.mp hnext)).mp hroom
      obtain ⟨merged, hmerged⟩ := (ih hnodup).mpr ⟨hvalid, hrest⟩
      exact ⟨merged, insertAll_cons_eq_ok_iff.mpr ⟨next, hnext, hmerged⟩⟩

/-- The headers that were added are there, and under other keys those that were there
before. -/
theorem get_insertAll (hnodup : (added.map Prod.fst).Nodup)
    (h : metadata.insertAll added = .ok merged) (other : Text) :
    merged.get other = (OrderedTable.get other added).or (metadata.get other) := by
  induction added generalizing metadata with
  | nil =>
    cases h
    rfl
  | cons header rest ih =>
    rw [map_cons, nodup_cons] at hnodup
    obtain ⟨next, hnext, hrest⟩ := insertAll_cons_eq_ok_iff.mp h
    rw [ih hnodup.2 hrest, get_insert (map_insert_eq_ok_iff.mp hnext), get_cons]
    by_cases hkey : other = header.1
    · rw [if_pos hkey, if_pos hkey, hkey, get_eq_none_iff.mpr hnodup.1]
      rfl
    · rw [if_neg hkey, if_neg hkey]

/-! ## Taking headers out -/

theorem eq_of_get {other : MessageMetadata} (h : ∀ key, metadata.get key = other.get key) :
    metadata = other := by
  refine eq_of_mem_iff fun header => ?_
  rw [← get_eq_some_iff metadata.portable.sorted.nodup,
    ← get_eq_some_iff other.portable.sorted.nodup]
  exact iff_of_eq (congrArg (· = some header.2) (h header.1))

/-- Takes the headers under the keys out, one after the other. -/
def removeAll (metadata : MessageMetadata) (keys : List Text) : MessageMetadata :=
  keys.foldl (fun metadata key => (metadata.remove key).1) metadata

theorem get_remove (other : Text) :
    (metadata.remove key).1.get other = if other = key then none else metadata.get other :=
  get_erase metadata.portable.sorted.nodup

theorem get_removeAll (keys : List Text) (other : Text) :
    (metadata.removeAll keys).get other = if other ∈ keys then none else metadata.get other := by
  induction keys generalizing metadata with
  | nil => simp [removeAll]
  | cons key rest ih =>
    have hrest : (metadata.removeAll (key :: rest)).get other =
        if other ∈ rest then none else (metadata.remove key).1.get other := ih
    rw [hrest, get_remove]
    by_cases hkey : other = key <;> by_cases hmem : other ∈ rest <;> simp [hmem]

/-- What is there without the headers, and the headers, are all there was. -/
theorem perm_removeAll {removed : List (Text × Bytes)} (hnodup : (removed.map Prod.fst).Nodup)
    (h : ∀ header ∈ removed, metadata.get header.1 = some header.2) :
    metadata.entries.Perm (removed ++ (metadata.removeAll (removed.map Prod.fst)).entries) := by
  induction removed generalizing metadata with
  | nil => exact .refl _
  | cons header rest ih =>
    rw [map_cons, nodup_cons] at hnodup
    rw [forall_mem_cons] at h
    have hfirst : metadata.entries.Perm (header :: (metadata.remove header.1).1.entries) :=
      perm_erase h.1
    have hrest : ∀ other ∈ rest, (metadata.remove header.1).1.get other.1 = some other.2 := by
      intro other hother
      have hne : other.1 ≠ header.1 := fun heq =>
        hnodup.1 (heq ▸ mem_map_of_mem hother)
      rw [get_remove, if_neg hne]
      exact h.2 other hother
    exact hfirst.trans ((ih hnodup.2 hrest).cons header)

end MessageMetadata

/-- A header of the application, the identifier of the message, and two headers of an
earlier delivery that are written again. -/
def Sample.headers : MessageMetadata where
  entries :=
    [(utf8 "app.tenant", utf8 "north"), (utf8 "plenora.dead_letter.reason", utf8 "old"),
      (utf8 "plenora.message.id", utf8 "m-1"), (utf8 "plenora.nats.subject", utf8 "old")]
  portable :=
    { sorted := by unfold OrderedTable.Sorted; decide +kernel
      keys := by decide +kernel
      values := by decide +kernel
      count := by decide +kernel
      total := by decide +kernel }

/-- Headers without a value, as many as there may be. -/
def Sample.fullHeaders : MessageMetadata where
  entries := (List.range 64).map fun i =>
    ([97, 46, UInt8.ofNat (97 + i / 8), UInt8.ofNat (97 + i % 8)], [])
  portable :=
    { sorted := by unfold OrderedTable.Sorted; decide +kernel
      keys := by decide +kernel
      values := by decide +kernel
      count := by decide +kernel
      total := by decide +kernel }

end PlenoraRuntime.Messaging
