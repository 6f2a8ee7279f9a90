import PlenoraRuntime.Messaging.Additions

/-!
# The bounds on message metadata are exact

`MessageMetadata` carries its bounds, so no sequence of calls can leave them. What
remains to be said is that `insert` refuses nothing it could have stored: it decides
from running totals, with the bytes of the replaced value taken off, and these are the
totals of the map it would build.
-/

namespace PlenoraRuntime.Messaging

/-- A key with a namespace: two or more non-empty segments over the portable alphabet. -/
structure NamespacedKey (key : Text) : Prop where
  separator : 46 ∈ key
  segments : ∀ segment ∈ key.splitOn 46, segment ≠ []
  alphabet : ∀ byte ∈ key, isMetadataKeyByte byte = true

/-- All bounds on a map of headers. -/
structure WithinBounds (entries : List (Text × Bytes)) : Prop where
  count : entries.length ≤ maxMetadataEntries
  keys : ∀ header ∈ entries, header.1.length ≤ maxMetadataKeyBytes ∧ NamespacedKey header.1
  values : ∀ header ∈ entries, header.2.length ≤ maxMetadataValueBytes
  total : (entries.map fun header => header.1.length + header.2.length).sum ≤
    maxMetadataTotalBytes

theorem validateKey_eq_ok_iff {key : Text} :
    validateKey key = .ok () ↔ key.length ≤ maxMetadataKeyBytes ∧ NamespacedKey key := by
  simp only [validateKey, Guard.ite_error_eq_ok, Nat.not_lt]
  refine and_congr_right fun _ => ⟨?_, fun h => ⟨?_, ?_, ?_⟩⟩
  · rintro ⟨hseparator, hsegs, halph⟩
    refine ⟨by simpa using hseparator, fun segment hseg hempty => hsegs ?_,
      by simpa using halph⟩
    exact List.any_eq_true.mpr ⟨segment, hseg, by simp [hempty]⟩
  · simpa using h.separator
  · rw [List.any_eq_true]
    rintro ⟨segment, hseg, hempty⟩
    exact h.segments segment hseg (List.isEmpty_iff.mp hempty)
  · simpa using h.alphabet

/-- Portable headers are the sorted tables within all bounds. -/
theorem portable_iff {entries : List (Text × Bytes)} :
    Portable entries ↔ OrderedTable.Sorted entries ∧ WithinBounds entries := by
  constructor
  · intro h
    exact ⟨h.sorted, h.count,
      fun header hheader => validateKey_eq_ok_iff.mp (h.keys header hheader),
      fun header hheader => validateValue_eq_ok_iff.mp (h.values header hheader), h.total⟩
  · rintro ⟨hsorted, h⟩
    exact ⟨hsorted, fun header hheader => validateKey_eq_ok_iff.mpr (h.keys header hheader),
      fun header hheader => validateValue_eq_ok_iff.mpr (h.values header hheader), h.count,
      h.total⟩

namespace MessageMetadata

inductive Call
  | insert (key : Text) (value : Bytes)
  | insertText (key value : Text)
  | remove (key : Text)

/-- The map that a call leaves behind. An insertion writes as its very last step, so a
refused one leaves the map it found. -/
def perform (metadata : MessageMetadata) : Call → MessageMetadata
  | .insert key value =>
    match metadata.insert key value with
    | .ok (changed, _) => changed
    | .error _ => metadata
  | .insertText key value =>
    match metadata.insertText key value with
    | .ok (changed, _) => changed
    | .error _ => metadata
  | .remove key => (metadata.remove key).1

/-- An insertion succeeds exactly when its result is within all bounds. -/
theorem isOk_insert_iff {metadata : MessageMetadata} {key : Text} {value : Bytes} :
    (∃ changed old, metadata.insert key value = .ok (changed, old)) ↔
      WithinBounds (OrderedTable.insert key value metadata.entries) := by
  constructor
  · rintro ⟨changed, old, h⟩
    rw [← (insert_eq_ok_iff.mp h).1]
    exact (portable_iff.mp changed.portable).2
  · intro h
    have hport : Portable (OrderedTable.insert key value metadata.entries) :=
      portable_iff.mpr ⟨metadata.portable.sorted.insert, h⟩
    exact ⟨⟨_, hport⟩, metadata.get key, insert_eq_ok_iff.mpr ⟨rfl, rfl⟩⟩

end MessageMetadata

/-- Whatever calls were made, the map is within all bounds; an insertion succeeds exactly
when the map with the key set to the value is within all bounds, it then makes that map,
and otherwise it leaves the map as it was. -/
theorem metadata_bounds_exact (calls : List MessageMetadata.Call) :
    let metadata := calls.foldl MessageMetadata.perform .new
    WithinBounds metadata.entries ∧
      ∀ key value,
        ((∃ changed old, metadata.insert key value = .ok (changed, old)) ↔
          WithinBounds (OrderedTable.insert key value metadata.entries)) ∧
        (∀ changed old, metadata.insert key value = .ok (changed, old) →
          metadata.perform (.insert key value) = changed ∧ old = metadata.get key ∧
            changed.entries = OrderedTable.insert key value metadata.entries ∧
            ∀ other, changed.get other = if other = key then some value else metadata.get other) ∧
        ∀ error, metadata.insert key value = .error error →
          metadata.perform (.insert key value) = metadata := by
  intro metadata
  refine ⟨(portable_iff.mp metadata.portable).2, fun key value =>
    ⟨MessageMetadata.isOk_insert_iff, fun changed old h => ?_, fun error h => ?_⟩⟩
  · obtain ⟨hentries, hold⟩ := MessageMetadata.insert_eq_ok_iff.mp h
    refine ⟨by simp only [MessageMetadata.perform, h], hold, hentries, fun other => ?_⟩
    rw [MessageMetadata.get_insert hentries]
  · simp only [MessageMetadata.perform, h]

end PlenoraRuntime.Messaging
