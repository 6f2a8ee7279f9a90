import Mathlib.Algebra.Group.Action.Defs
import PlenoraRuntime.Messaging.Bounds

/-!
# Trace context in message metadata

A propagator writes the fields of a W3C trace context through an injector, which only
lets it call `set` and tells it nothing back: what a propagator does to the metadata is
the list of its calls. The injector keeps the first error. `inject_context` lets it
write to scratch metadata and replaces the caller's as its last step.

`Injected` is what the calls so far have left in the scratch metadata; one call keeps it
(`Injected.set`), and `injected_setAll` is the run lemma.
-/

namespace PlenoraRuntime.Observability

open List Option OrderedTable

open Messaging (MessageMetadata)

def traceparentMetadataKey : Text := utf8 "plenora.trace.traceparent"

def tracestateMetadataKey : Text := utf8 "plenora.trace.tracestate"

def traceparentField : Text := utf8 "traceparent"

def tracestateField : Text := utf8 "tracestate"

def maxPropagationValueLen : ℕ := 512

inductive PropagationErrorKind
  | unsupportedField
  | invalidValue
  | invalidUtf8
  | metadata
  | invalidCorrelationId
  deriving DecidableEq, Repr

structure PropagationError where
  kind : PropagationErrorKind
  field : Text
  deriving DecidableEq

def metadataKey (field : Text) : Option Text :=
  if eqIgnoreAsciiCase field traceparentField then some traceparentMetadataKey
  else if eqIgnoreAsciiCase field tracestateField then some tracestateMetadataKey
  else none

def validPropagationValue (value : Text) : Bool :=
  !value.isEmpty && value.length ≤ maxPropagationValueLen &&
    value.all fun byte => 0x20 ≤ byte && byte ≤ 0x7e

/-! ## The injector -/

structure MessageMetadataInjector where
  metadata : MessageMetadata
  error : Option PropagationError

namespace MessageMetadataInjector

def new (metadata : MessageMetadata) : MessageMetadataInjector where
  metadata
  error := none

def finish (injector : MessageMetadataInjector) : Except PropagationError Unit :=
  match injector.error with
  | none => .ok ()
  | some error => .error error

/-- `reject`: the first error stays. -/
def reject (injector : MessageMetadataInjector) (error : PropagationError) :
    MessageMetadataInjector :=
  if injector.error.isNone then { injector with error := some error } else injector

def set (injector : MessageMetadataInjector) (key value : Text) : MessageMetadataInjector :=
  if injector.error.isSome then injector
  else match metadataKey key with
    | none => injector.reject ⟨.unsupportedField, utf8 "unsupported"⟩
    | some metadataKey =>
      if !validPropagationValue value then injector.reject ⟨.invalidValue, key⟩
      else match injector.metadata.insertText metadataKey value with
        | .error _ => injector.reject ⟨.metadata, key⟩
        | .ok (metadata, _) => { injector with metadata }

/-- A propagator's calls, one after the other. -/
def setAll (injector : MessageMetadataInjector) (calls : List (Text × Text)) :
    MessageMetadataInjector :=
  calls.foldl (fun injector call => injector.set call.1 call.2) injector

end MessageMetadataInjector

def copyField (source destination : MessageMetadata) (key : Text) :
    Except PropagationError MessageMetadata :=
  match source.get key with
  | none => .ok destination
  | some value => destination.insertWith (fun _ => ⟨.metadata, key⟩) key value

/-- `inject_transactionally`: the metadata afterwards, and the answer. -/
def injectTransactionally (metadata : MessageMetadata) (calls : List (Text × Text)) :
    MessageMetadata × Except PropagationError Unit :=
  let injector := (MessageMetadataInjector.new .new).setAll calls
  let outcome := do
    injector.finish
    let staged := (metadata.remove traceparentMetadataKey).1
    let staged := (staged.remove tracestateMetadataKey).1
    let staged ← copyField injector.metadata staged traceparentMetadataKey
    copyField injector.metadata staged tracestateMetadataKey
  match outcome with
  | .error error => (metadata, .error error)
  | .ok staged => (staged, .ok ())

/-! ## The extractor -/

def readField (metadata : MessageMetadata) (metadataKey field : Text) :
    Except PropagationError (Option Text) :=
  match metadata.getText metadataKey with
  | .error _ => .error ⟨.invalidUtf8, field⟩
  | .ok value =>
    if value.any fun value => !validPropagationValue value then .error ⟨.invalidValue, field⟩
    else .ok value

structure MessageMetadataExtractor where
  traceparent : Option Text
  tracestate : Option Text

namespace MessageMetadataExtractor

def new (metadata : MessageMetadata) : Except PropagationError MessageMetadataExtractor := do
  let traceparent ← readField metadata traceparentMetadataKey traceparentField
  let tracestate ← readField metadata tracestateMetadataKey tracestateField
  return ⟨traceparent, tracestate⟩

def get (extractor : MessageMetadataExtractor) (key : Text) : Option Text :=
  if eqIgnoreAsciiCase key traceparentField then extractor.traceparent
  else if eqIgnoreAsciiCase key tracestateField then extractor.tracestate
  else none

def keys (extractor : MessageMetadataExtractor) : List Text :=
  (if extractor.traceparent.isSome then [traceparentField] else []) ++
    if extractor.tracestate.isSome then [tracestateField] else []

end MessageMetadataExtractor

/-! ## Contexts -/

/-- `TextMapPropagator`, which belongs to the application: the calls it makes to inject a
context, and the context it makes of another one and the extracted fields. -/
structure TextMapPropagator (Context : Type*) where
  injectContext : Context → List (Text × Text)
  extractWithContext : Context → MessageMetadataExtractor → Context

section contexts

variable {Context : Type*} (propagator : TextMapPropagator Context)

/-- `inject_context`: the metadata afterwards, and the answer. -/
def injectContext (context : Context) (metadata : MessageMetadata) :
    MessageMetadata × Except PropagationError Unit :=
  injectTransactionally metadata (propagator.injectContext context)

/-- `extract_context`, over the context that `Context::new` makes. -/
def extractContext (empty : Context) (metadata : MessageMetadata) :
    Except PropagationError Context :=
  (MessageMetadataExtractor.new metadata).map (propagator.extractWithContext empty)

end contexts

/-! ## The two fields -/

inductive TraceField
  | traceparent
  | tracestate
  deriving DecidableEq

namespace TraceField

/-- The name propagators know a field by. -/
def name : TraceField → Text
  | .traceparent => traceparentField
  | .tracestate => tracestateField

def key : TraceField → Text
  | .traceparent => traceparentMetadataKey
  | .tracestate => tracestateMetadataKey

variable {field other : TraceField}

theorem key_injective (h : field.key = other.key) : field = other := by
  revert h
  cases field <;> cases other <;> decide +kernel

theorem validateKey_key (field : TraceField) : Messaging.validateKey field.key = .ok () := by
  cases field <;> decide +kernel

theorem length_key_le (field : TraceField) : field.key.length ≤ 32 := by
  cases field <;> decide +kernel

theorem lower_name_ne :
    traceparentField.map toAsciiLowercase ≠ tracestateField.map toAsciiLowercase := by
  decide +kernel

/-- A name is that of at most one field. -/
theorem eq_of_name {name} (hfield : eqIgnoreAsciiCase name field.name = true)
    (hother : eqIgnoreAsciiCase name other.name = true) : field = other := by
  have hsame : field.name.map toAsciiLowercase = other.name.map toAsciiLowercase :=
    (eq_of_beq hfield).symm.trans (eq_of_beq hother)
  cases field <;> cases other
  case traceparent.traceparent => rfl
  case traceparent.tracestate => exact absurd hsame lower_name_ne
  case tracestate.traceparent => exact absurd hsame.symm lower_name_ne
  case tracestate.tracestate => rfl

theorem not_traceparent {name} (h : eqIgnoreAsciiCase name tracestateField = true) :
    ¬ eqIgnoreAsciiCase name traceparentField = true := by
  intro hparent
  have hsame : TraceField.traceparent = .tracestate := eq_of_name hparent h
  cases hsame

end TraceField

theorem metadataKey_eq_some_iff {name key} :
    metadataKey name = some key ↔
      ∃ field : TraceField, eqIgnoreAsciiCase name field.name = true ∧ key = field.key := by
  constructor
  · intro h
    unfold metadataKey at h
    split at h
    case isTrue hparent => exact ⟨.traceparent, hparent, (Option.some.inj h).symm⟩
    split at h
    case isTrue hstate => exact ⟨.tracestate, hstate, (Option.some.inj h).symm⟩
    cases h
  · rintro ⟨field, hname, rfl⟩
    cases field with
    | traceparent => exact if_pos hname
    | tracestate => exact (if_neg (TraceField.not_traceparent hname)).trans (if_pos hname)

/-- The last value that the calls set for a field, in whatever letter case they name it. -/
def lastSet (field : TraceField) (calls : List (Text × Text)) : Option Text :=
  ((calls.filter fun call => eqIgnoreAsciiCase call.1 field.name).getLast?).map Prod.snd

theorem lastSet_snoc (field : TraceField) (calls : List (Text × Text)) (call : Text × Text) :
    lastSet field (calls ++ [call]) =
      if eqIgnoreAsciiCase call.1 field.name then some call.2 else lastSet field calls := by
  unfold lastSet
  rw [filter_append, filter_singleton]
  cases eqIgnoreAsciiCase call.1 field.name with
  | true => rw [cond_true, getLast?_concat, map_some, if_pos rfl]
  | false => rw [cond_false, append_nil, if_neg Bool.false_ne_true]

variable {calls : List (Text × Text)} {value : Text}

theorem mem_of_lastSet {field} (h : lastSet field calls = some value) :
    ∃ call ∈ calls, call.2 = value := by
  obtain ⟨call, hlast, hvalue⟩ := map_eq_some_iff.mp h
  exact ⟨call, (mem_filter.mp (mem_of_getLast? hlast)).1, hvalue⟩

/-- The headers that the calls ask for. -/
def traceHeaders (calls : List (Text × Text)) : List (Text × Bytes) :=
  ((lastSet .traceparent calls).map (traceparentMetadataKey, ·)).toList ++
    ((lastSet .tracestate calls).map (tracestateMetadataKey, ·)).toList

/-! ## What the calls leave in the scratch metadata -/

/-- The calls have set trace fields to valid values, and the last ones are stored. -/
structure Injected (calls : List (Text × Text)) (scratch : MessageMetadata) : Prop where
  valid : ∀ call ∈ calls, (metadataKey call.1).isSome ∧ validPropagationValue call.2 = true
  fields : ∀ field : TraceField, scratch.get field.key = lastSet field calls
  others : ∀ key, key ∉ [traceparentMetadataKey, tracestateMetadataKey] → scratch.get key = none

theorem TraceField.mem_keys {key} :
    key ∈ [traceparentMetadataKey, tracestateMetadataKey] ↔
      ∃ field : TraceField, key = field.key := by
  rw [mem_pair]
  constructor
  · rintro (rfl | rfl)
    · exact ⟨.traceparent, rfl⟩
    · exact ⟨.tracestate, rfl⟩
  · rintro ⟨field, rfl⟩
    cases field
    · exact .inl rfl
    · exact .inr rfl

theorem injected_nil : Injected [] .new where
  valid := by simp
  fields := fun _ => rfl
  others := fun _ _ => rfl

section injector

variable {injector : MessageMetadataInjector} {key : Text} {scratch : MessageMetadata}

theorem MessageMetadataInjector.error_reject (error : PropagationError) :
    (injector.reject error).error ≠ none := by
  unfold reject
  split
  · exact some_ne_none _
  case isFalse hsome =>
    intro hnone
    rw [hnone] at hsome
    exact hsome rfl

/-- A call that leaves no error has stored its value. -/
theorem MessageMetadataInjector.of_set (h : (injector.set key value).error = none) :
    injector.error = none ∧ validPropagationValue value = true ∧
      ∃ field : TraceField, eqIgnoreAsciiCase key field.name = true ∧
        (injector.set key value).metadata.entries =
          OrderedTable.insert field.key value injector.metadata.entries := by
  unfold set at h ⊢
  split at h
  case isTrue hlatch =>
    rw [h] at hlatch
    cases hlatch
  case isFalse hlatch =>
  rw [if_neg hlatch]
  have hnone : injector.error = none := not_isSome_iff_eq_none.mp hlatch
  cases hkey : metadataKey key with
  | none =>
    rw [hkey] at h
    exact absurd h (error_reject _)
  | some stored =>
    obtain ⟨field, hname, rfl⟩ := metadataKey_eq_some_iff.mp hkey
    simp only [hkey] at h ⊢
    split at h
    · exact absurd h (error_reject _)
    case isFalse hvalid =>
    rw [if_neg hvalid]
    refine ⟨hnone, by simpa using hvalid, field, hname, ?_⟩
    cases hinsert : injector.metadata.insertText field.key value with
    | error error =>
      rw [hinsert] at h
      exact absurd h (error_reject _)
    | ok stored => exact (MessageMetadata.insert_eq_ok_iff.mp hinsert).1

theorem Injected.set (hinj : Injected calls injector.metadata)
    (h : (injector.set key value).error = none) :
    Injected (calls ++ [(key, value)]) (injector.set key value).metadata := by
  obtain ⟨_, hvalid, field, hname, hents⟩ := MessageMetadataInjector.of_set h
  have hkey : metadataKey key = some field.key := metadataKey_eq_some_iff.mpr ⟨field, hname, rfl⟩
  refine ⟨forall_mem_append.mpr ⟨hinj.valid, by simp [hkey, hvalid]⟩, fun other => ?_,
    fun other hother => ?_⟩
  · rw [MessageMetadata.get_insert hents, lastSet_snoc, hinj.fields]
    by_cases hsame : other = field
    · rw [if_pos (congrArg TraceField.key hsame), hsame, if_pos hname]
    · have hother : ¬ eqIgnoreAsciiCase key other.name = true := fun hother =>
        hsame (TraceField.eq_of_name hother hname)
      rw [if_neg fun heq => hsame (TraceField.key_injective heq), if_neg hother]
  · have hne : other ≠ field.key := fun heq =>
      hother (TraceField.mem_keys.mpr ⟨field, heq⟩)
    rw [MessageMetadata.get_insert hents, if_neg hne]
    exact hinj.others other hother

theorem MessageMetadataInjector.setAll_snoc (call : Text × Text) :
    injector.setAll (calls ++ [call]) = (injector.setAll calls).set call.1 call.2 := by
  rw [setAll, foldl_append]
  rfl

/-- Calls that leave no error have stored what they set. -/
theorem injected_setAll (h : ((MessageMetadataInjector.new .new).setAll calls).error = none) :
    Injected calls ((MessageMetadataInjector.new .new).setAll calls).metadata := by
  induction calls using List.reverseRecOn with
  | nil => exact injected_nil
  | append_singleton calls call ih =>
    rw [MessageMetadataInjector.setAll_snoc] at h ⊢
    exact (ih (MessageMetadataInjector.of_set h).1).set h

/-! Scratch metadata holds at most two short values, so it has room for every valid call. -/

theorem length_le_of_valid (h : validPropagationValue value = true) :
    value.length ≤ maxPropagationValueLen := by
  simp only [validPropagationValue, Bool.and_eq_true, decide_eq_true_eq] at h
  exact h.1.2

theorem Injected.header {header} (h : Injected calls scratch) (hheader : header ∈ scratch.entries) :
    header.1 ∈ [traceparentMetadataKey, tracestateMetadataKey] ∧
      Messaging.headerBytes header ≤ 32 + maxPropagationValueLen := by
  have hget : scratch.get header.1 = some header.2 :=
    (get_eq_some_iff scratch.portable.sorted.nodup).mpr hheader
  have hkey : header.1 ∈ [traceparentMetadataKey, tracestateMetadataKey] := by
    by_contra hother
    rw [h.others _ hother] at hget
    cases hget
  obtain ⟨field, hfield⟩ := TraceField.mem_keys.mp hkey
  rw [hfield, h.fields] at hget
  obtain ⟨call, hcall, hvalue⟩ := mem_of_lastSet hget
  have hlen := length_le_of_valid (h.valid call hcall).2
  have hshort := field.length_key_le
  rw [hvalue] at hlen
  rw [Messaging.headerBytes, hfield]
  exact ⟨hfield ▸ hkey, Nat.add_le_add hshort hlen⟩

theorem Injected.length_le (h : Injected calls scratch) : scratch.entries.length ≤ 2 := by
  have hsubset : scratch.entries.map Prod.fst ⊆
      [traceparentMetadataKey, tracestateMetadataKey] := by
    intro key hkey
    obtain ⟨header, hheader, rfl⟩ := List.mem_map.mp hkey
    exact (h.header hheader).1
  have hlen := (scratch.portable.sorted.nodup.subperm hsubset).length_le
  rwa [length_map] at hlen

theorem Injected.size_le (h : Injected calls scratch) :
    scratch.size ≤ 2 * (32 + maxPropagationValueLen) := by
  have hsum : scratch.size ≤ scratch.entries.length * (32 + maxPropagationValueLen) := by
    have hbound := sum_le_card_nsmul (scratch.entries.map Messaging.headerBytes)
      (32 + maxPropagationValueLen) fun bytes hbytes => by
        obtain ⟨header, hheader, rfl⟩ := List.mem_map.mp hbytes
        exact (h.header hheader).2
    rwa [length_map] at hbound
  exact hsum.trans (Nat.mul_le_mul_right _ h.length_le)

theorem Injected.error_set (h : Injected calls injector.metadata) (hnone : injector.error = none)
    (hkey : (metadataKey key).isSome) (hvalid : validPropagationValue value = true) :
    (injector.set key value).error = none := by
  obtain ⟨stored, hstored⟩ := isSome_iff_exists.mp hkey
  obtain ⟨field, _, rfl⟩ := metadataKey_eq_some_iff.mp hstored
  have hlen := length_le_of_valid hvalid
  have hshort := field.length_key_le
  have hents := h.length_le
  have hsize := h.size_le
  have hlimits : maxPropagationValueLen = 512 ∧ Messaging.maxMetadataValueBytes = 8192 ∧
      Messaging.maxMetadataEntries = 64 ∧ Messaging.maxMetadataTotalBytes = 32768 :=
    ⟨rfl, rfl, rfl, rfl⟩
  have hvalue : Messaging.validateValue field.key value = .ok () :=
    Messaging.validateValue_eq_ok_iff.mpr (by omega)
  have hroom : injector.metadata.entries.length +
      (if injector.metadata.containsKey field.key then 0 else 1) ≤
        Messaging.maxMetadataEntries := by
    split <;> omega
  have hbytes : injector.metadata.size + Messaging.headerBytes (field.key, value) ≤
      Messaging.maxMetadataTotalBytes + injector.metadata.bytesUnder field.key := by
    have hheader : Messaging.headerBytes (field.key, value) ≤ 32 + maxPropagationValueLen :=
      Nat.add_le_add hshort hlen
    omega
  obtain ⟨merged, hmerged⟩ := MessageMetadata.exists_insert_iff.mpr
    ⟨⟨field.validateKey_key, hvalue⟩, hroom, hbytes⟩
  have hinsert : injector.metadata.insertText field.key value =
      .ok (merged, injector.metadata.get field.key) :=
    MessageMetadata.insert_eq_ok_iff.mpr ⟨MessageMetadata.map_insert_eq_ok_iff.mp hmerged, rfl⟩
  simp [MessageMetadataInjector.set, hnone, hstored, hvalid, hinsert]

/-- The injector accepts calls exactly if each sets a trace field to a valid value. -/
theorem error_setAll_iff :
    ((MessageMetadataInjector.new .new).setAll calls).error = none ↔
      ∀ call ∈ calls, (metadataKey call.1).isSome ∧ validPropagationValue call.2 = true := by
  constructor
  · intro h
    exact (injected_setAll h).valid
  · intro h
    induction calls using List.reverseRecOn with
    | nil => rfl
    | append_singleton calls call ih =>
      have hnone := ih fun other hother => h other (mem_append_left _ hother)
      obtain ⟨hkey, hvalid⟩ := h call (mem_append_right _ mem_cons_self)
      rw [MessageMetadataInjector.setAll_snoc]
      exact (injected_setAll hnone).error_set hnone hkey hvalid

end injector

/-! ## Replacing the trace fields -/

section transaction

variable {metadata after : MessageMetadata}

theorem copyField_eq_ok_iff {source destination key} :
    copyField source destination key = .ok after ↔
      destination.insertAll ((source.get key).map (key, ·)).toList = .ok after := by
  rw [copyField]
  cases source.get key with
  | none =>
    constructor
    · intro h
      exact congrArg Except.ok (Except.ok.inj h)
    · intro h
      exact congrArg Except.ok (Except.ok.inj h)
  | some value =>
    have hinsert : (destination.insertAll [(key, value)]).mapError (fun _ => ⟨.metadata, key⟩) =
        destination.insertWith (fun _ => (⟨.metadata, key⟩ : PropagationError)) key value := by
      rw [MessageMetadata.mapError_insertAll_cons]
      cases destination.insertWith (fun _ => (⟨.metadata, key⟩ : PropagationError)) key value <;>
        rfl
    exact (iff_of_eq (congrArg (· = _) hinsert.symm)).trans Guard.mapError_eq_ok

theorem finish_eq_ok_iff {injector : MessageMetadataInjector} :
    injector.finish = .ok () ↔ injector.error = none := by
  unfold MessageMetadataInjector.finish
  cases injector.error <;> simp

def withoutTrace (metadata : MessageMetadata) : MessageMetadata :=
  metadata.removeAll [traceparentMetadataKey, tracestateMetadataKey]

/-- Injection succeeds when the calls are accepted and what they set can be added to the
other headers. -/
theorem injectTransactionally_eq_ok_iff :
    injectTransactionally metadata calls = (after, .ok ()) ↔
      (∀ call ∈ calls, (metadataKey call.1).isSome ∧ validPropagationValue call.2 = true) ∧
        (withoutTrace metadata).insertAll (traceHeaders calls) = .ok after := by
  let injector := (MessageMetadataInjector.new .new).setAll calls
  let outcome : Except PropagationError MessageMetadata := injector.finish.bind fun _ =>
    (copyField injector.metadata (withoutTrace metadata) traceparentMetadataKey).bind fun staged =>
      copyField injector.metadata staged tracestateMetadataKey
  have hinject : injectTransactionally metadata calls = (after, .ok ()) ↔ outcome = .ok after := by
    have hunfold : injectTransactionally metadata calls = match outcome with
        | .error error => (metadata, .error error)
        | .ok staged => (staged, .ok ()) := rfl
    rw [hunfold]
    cases outcome <;> simp
  have happend : ∀ first second : List (Text × Bytes),
      (withoutTrace metadata).insertAll (first ++ second) =
        ((withoutTrace metadata).insertAll first).bind fun staged => staged.insertAll second :=
    fun first second => foldlM_append
  rw [hinject, Guard.bind_eq_ok, ← error_setAll_iff]
  constructor
  · rintro ⟨_, hfinish, hcopied⟩
    have hnone := finish_eq_ok_iff.mp hfinish
    have hfields := (injected_setAll hnone).fields
    obtain ⟨staged, hparent, hstate⟩ := Guard.bind_eq_ok.mp hcopied
    refine ⟨hnone, ?_⟩
    rw [traceHeaders, happend, Guard.bind_eq_ok, ← hfields, ← hfields]
    exact ⟨staged, copyField_eq_ok_iff.mp hparent, copyField_eq_ok_iff.mp hstate⟩
  · rintro ⟨hnone, hadded⟩
    have hfields := (injected_setAll hnone).fields
    rw [traceHeaders, happend, Guard.bind_eq_ok, ← hfields, ← hfields] at hadded
    obtain ⟨staged, hparent, hstate⟩ := hadded
    exact ⟨(), finish_eq_ok_iff.mpr hnone, Guard.bind_eq_ok.mpr
      ⟨staged, copyField_eq_ok_iff.mpr hparent, copyField_eq_ok_iff.mpr hstate⟩⟩

theorem nodup_traceHeaders : ((traceHeaders calls).map Prod.fst).Nodup := by
  have hne : traceparentMetadataKey ≠ tracestateMetadataKey := by
    intro heq
    have hsame : TraceField.traceparent = .tracestate := TraceField.key_injective heq
    cases hsame
  unfold traceHeaders
  cases lastSet .traceparent calls <;> cases lastSet .tracestate calls <;> simp [hne]

theorem mem_traceHeaders {header} :
    header ∈ traceHeaders calls ↔
      ∃ field : TraceField, header.1 = field.key ∧ lastSet field calls = some header.2 := by
  unfold traceHeaders
  rw [mem_append, mem_toList, mem_toList, map_eq_some_iff,
    map_eq_some_iff]
  constructor
  · rintro (⟨value, hvalue, rfl⟩ | ⟨value, hvalue, rfl⟩)
    · exact ⟨.traceparent, rfl, hvalue⟩
    · exact ⟨.tracestate, rfl, hvalue⟩
  · rintro ⟨field, hkey, hvalue⟩
    cases field with
    | traceparent => exact .inl ⟨header.2, hvalue, Prod.ext hkey.symm rfl⟩
    | tracestate => exact .inr ⟨header.2, hvalue, Prod.ext hkey.symm rfl⟩

/-- Where the headers were added, each field has its last value. -/
theorem get_field (h : (withoutTrace metadata).insertAll (traceHeaders calls) = .ok after)
    (field : TraceField) : after.get field.key = lastSet field calls := by
  have habsent : (withoutTrace metadata).get field.key = none := by
    rw [withoutTrace, MessageMetadata.get_removeAll]
    exact if_pos (TraceField.mem_keys.mpr ⟨field, rfl⟩)
  rw [MessageMetadata.get_insertAll nodup_traceHeaders h, habsent, or_none]
  refine Option.ext fun value => ?_
  rw [get_eq_some_iff nodup_traceHeaders, mem_traceHeaders]
  constructor
  · rintro ⟨other, hkey, hvalue⟩
    rwa [TraceField.key_injective hkey]
  · intro hvalue
    exact ⟨field, rfl, hvalue⟩

theorem get_other (h : (withoutTrace metadata).insertAll (traceHeaders calls) = .ok after) {key}
    (hkey : key ∉ [traceparentMetadataKey, tracestateMetadataKey]) :
    after.get key = metadata.get key := by
  have habsent : OrderedTable.get key (traceHeaders calls) = none := by
    refine get_eq_none_iff.mpr fun hmem => hkey ?_
    obtain ⟨header, hheader, rfl⟩ := List.mem_map.mp hmem
    obtain ⟨field, hfield, _⟩ := mem_traceHeaders.mp hheader
    exact TraceField.mem_keys.mpr ⟨field, hfield⟩
  rw [MessageMetadata.get_insertAll nodup_traceHeaders h, habsent, none_or, withoutTrace,
    MessageMetadata.get_removeAll, if_neg hkey]

/-! ## Reading the trace fields -/

theorem isUtf8_of_valid (h : validPropagationValue value = true) : isUtf8 value = true := by
  refine isUtf8_of_ascii fun byte hbyte => ?_
  simp only [validPropagationValue, Bool.and_eq_true, List.all_eq_true, decide_eq_true_eq] at h
  exact UInt8.lt_of_le_of_lt (h.2 byte hbyte).2 (by decide)

theorem readField_of_valid {key} (field : Text)
    (h : ∀ value, metadata.get key = some value → validPropagationValue value = true) :
    readField metadata key field = .ok (metadata.get key) := by
  rw [readField, MessageMetadata.getText]
  cases hget : metadata.get key with
  | none => rfl
  | some value =>
    have hvalid := h value hget
    simp [fromUtf8, isUtf8_of_valid hvalid, hvalid, Except.map]

/-- The extractor reads what the calls set. -/
theorem new_extractor
    (hvalid : ∀ call ∈ calls, (metadataKey call.1).isSome ∧ validPropagationValue call.2 = true)
    (h : (withoutTrace metadata).insertAll (traceHeaders calls) = .ok after) :
    MessageMetadataExtractor.new after =
      .ok ⟨lastSet .traceparent calls, lastSet .tracestate calls⟩ := by
  have hread : ∀ field : TraceField, ∀ name,
      readField after field.key name = .ok (lastSet field calls) := by
    intro field name
    rw [← get_field h]
    refine readField_of_valid name fun value hvalue => ?_
    rw [get_field h] at hvalue
    obtain ⟨call, hcall, rfl⟩ := mem_of_lastSet hvalue
    exact (hvalid call hcall).2
  have hparent : readField after traceparentMetadataKey traceparentField = _ :=
    hread .traceparent _
  have hstate : readField after tracestateMetadataKey tracestateField = _ := hread .tracestate _
  rw [MessageMetadataExtractor.new, hparent, hstate]
  rfl

theorem extractor_get_eq_some_iff {name} :
    (⟨lastSet .traceparent calls, lastSet .tracestate calls⟩ : MessageMetadataExtractor).get name =
        some value ↔
      ∃ field : TraceField, eqIgnoreAsciiCase name field.name = true ∧
        lastSet field calls = some value := by
  constructor
  · intro h
    unfold MessageMetadataExtractor.get at h
    split at h
    case isTrue hparent => exact ⟨.traceparent, hparent, h⟩
    split at h
    case isTrue hstate => exact ⟨.tracestate, hstate, h⟩
    cases h
  · rintro ⟨field, hname, hvalue⟩
    cases field with
    | traceparent => exact (if_pos hname).trans hvalue
    | tracestate =>
      exact (if_neg (TraceField.not_traceparent hname)).trans ((if_pos hname).trans hvalue)

theorem mem_extractor_keys {name} :
    name ∈ (⟨lastSet .traceparent calls, lastSet .tracestate calls⟩ :
        MessageMetadataExtractor).keys ↔
      ∃ field : TraceField, name = field.name ∧ (lastSet field calls).isSome := by
  have hone : ∀ (present : Prop) [Decidable present] (field : Text),
      name ∈ (if present then [field] else []) ↔ name = field ∧ present := by
    intro present _ field
    by_cases hpres : present <;> simp [hpres]
  rw [MessageMetadataExtractor.keys, mem_append, hone, hone]
  constructor
  · rintro (hparent | hstate)
    · exact ⟨.traceparent, hparent⟩
    · exact ⟨.tracestate, hstate⟩
  · rintro ⟨field, h⟩
    cases field with
    | traceparent => exact .inl h
    | tracestate => exact .inr h

end transaction

/-! ## Injection as a whole -/

section injection

variable {Context : Type*} (propagator : TextMapPropagator Context) (context : Context)
  (metadata : MessageMetadata)

theorem injectContext_cases :
    (∃ error, injectContext propagator context metadata = (metadata, .error error)) ∨
      ∃ after, injectContext propagator context metadata = (after, .ok ()) := by
  unfold injectContext injectTransactionally
  dsimp only
  split
  case h_1 error _ => exact .inl ⟨error, rfl⟩
  case h_2 staged _ => exact .inr ⟨staged, rfl⟩

/-- A failed injection leaves the metadata as it was. A successful one changes only the
trace fields, each holds the last value the propagator set for it, and what is extracted
from the result is what the propagator set. -/
theorem injection_transactional (empty : Context) :
    let calls := propagator.injectContext context
    let after := (injectContext propagator context metadata).1
    let answer := (injectContext propagator context metadata).2
    (∀ error, answer = .error error → after = metadata) ∧
    (answer = .ok () →
      (∀ key, key ≠ traceparentMetadataKey → key ≠ tracestateMetadataKey →
        after.get key = metadata.get key) ∧
      after.get traceparentMetadataKey = lastSet .traceparent calls ∧
      after.get tracestateMetadataKey = lastSet .tracestate calls ∧
      ∃ extractor, MessageMetadataExtractor.new after = .ok extractor ∧
        extractContext propagator empty after =
          .ok (propagator.extractWithContext empty extractor) ∧
        (∀ name value, extractor.get name = some value ↔
          ∃ field : TraceField, eqIgnoreAsciiCase name field.name = true ∧
            lastSet field calls = some value) ∧
        ∀ name, name ∈ extractor.keys ↔
          ∃ field : TraceField, name = field.name ∧ (lastSet field calls).isSome) := by
  intro calls after answer
  rcases injectContext_cases propagator context metadata with ⟨error, h⟩ | ⟨changed, h⟩
  · -- A failed injection gives up the copy it has staged.
    have hafter : after = metadata := congrArg Prod.fst h
    have hanswer : answer = .error error := congrArg Prod.snd h
    refine ⟨fun _ _ => hafter, fun hok => ?_⟩
    rw [hanswer] at hok
    cases hok
  · -- A successful one has accepted every call of the propagator.
    obtain rfl : after = changed := congrArg Prod.fst h
    have hanswer : answer = .ok () := congrArg Prod.snd h
    obtain ⟨hvalid, hadded⟩ := injectTransactionally_eq_ok_iff.mp h
    refine ⟨fun error herror => ?_, fun _ => ⟨fun key hparent hstate => ?_,
      get_field hadded .traceparent, get_field hadded .tracestate, _,
      new_extractor hvalid hadded, ?_, fun name value => extractor_get_eq_some_iff,
      fun name => mem_extractor_keys⟩⟩
    · rw [hanswer] at herror
      cases herror
    · -- Only the two trace fields are written.
      exact get_other hadded (by simp [hparent, hstate])
    · -- What was validated on the way in is accepted on the way out.
      rw [extractContext, new_extractor hvalid hadded]
      rfl

end injection

end PlenoraRuntime.Observability
