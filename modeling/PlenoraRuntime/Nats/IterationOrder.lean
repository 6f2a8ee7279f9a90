import PlenoraRuntime.Nats.Decoding

/-!
# Headers that contradict each other

Names are compared without regard to case, so two headers can give the content type, or the
same header of the message; the last one met wins. And the first error met is returned.
-/

namespace PlenoraRuntime.Nats

open Messaging List Option

variable {headers : HeaderMap} {result : Text × MessageMetadata} {entry : Text × List Text}

/-- No two headers give different content types, or different values under one key. -/
structure Consistent (entries : List (Text × List Text)) : Prop where
  contentType : ∀ first ∈ entries, ∀ second ∈ entries, ∀ a b,
    contentTypeOf first = some a → contentTypeOf second = some b → a = b
  value : ∀ first ∈ entries, ∀ second ∈ entries, ∀ key a b,
    headerOf first = some (key, a) → headerOf second = some (key, b) → a = b

/-! ## Other orders -/

section orders

variable {entries other : List (Text × List Text)}

theorem Fault.perm {error : NatsAdapterError} (hperm : entries.Perm other)
    (h : Fault entries error) : Fault other error := by
  cases h with
  | own hmem halone => exact .own (hperm.mem_iff.mp hmem) halone
  | entries h => exact .entries ((hperm.filterMap encodedPair).length_eq ▸ h)
  | bytes h =>
    have hsum := (((hperm.filterMap encodedPair).filter fits).map pairBytes).sum_eq
    exact .bytes (hsum ▸ h)

/-- Of elements that are all the same, the last does not depend on the order. -/
theorem getLast?_eq_of_perm {α : Type*} {l l' : List α} (hperm : l.Perm l')
    (hsame : ∀ a ∈ l, ∀ b ∈ l, a = b) : l.getLast? = l'.getLast? := by
  have hsame' : ∀ a ∈ l', ∀ b ∈ l', a = b := fun a ha b hb =>
    hsame a (hperm.mem_iff.mpr ha) b (hperm.mem_iff.mpr hb)
  refine Option.ext fun a => ?_
  rw [getLast?_eq_some_iff_mem hsame, getLast?_eq_some_iff_mem hsame', hperm.mem_iff]

theorem Consistent.lastContentType_eq (h : Consistent entries) (hperm : entries.Perm other) :
    lastContentType entries = lastContentType other := by
  unfold lastContentType
  rw [getLast?_eq_of_perm (hperm.filterMap contentTypeOf) fun a ha b hb => ?_]
  obtain ⟨first, hfirst, ha⟩ := mem_filterMap.mp ha
  obtain ⟨second, hsecond, hb⟩ := mem_filterMap.mp hb
  exact h.contentType first hfirst second hsecond a b ha hb

theorem Consistent.lastValue_eq (h : Consistent entries) (hperm : entries.Perm other)
    (key : Text) : lastValue key entries = lastValue key other := by
  unfold lastValue
  rw [getLast?_eq_of_perm ((hperm.filterMap headerOf).filter _) fun a ha b hb => ?_]
  obtain ⟨ha, hakey⟩ := mem_filter.mp ha
  obtain ⟨hb, hbkey⟩ := mem_filter.mp hb
  obtain ⟨first, hfirst, ha⟩ := mem_filterMap.mp ha
  obtain ⟨second, hsecond, hb⟩ := mem_filterMap.mp hb
  have hkeys : a.1 = b.1 := (eq_of_beq hakey).trans (eq_of_beq hbkey).symm
  refine Prod.ext hkeys (h.value first hfirst second hsecond a.1 a.2 b.2 ha ?_)
  rw [hkeys]
  exact hb

end orders

/-- The headers with one of them met last. -/
theorem exists_meet_last (headers : HeaderMap) (h : entry ∈ headers.entries) :
    ∃ (reordered : HeaderMap) (before : List (Text × List Text)),
      reordered.entries.Perm headers.entries ∧ reordered.entries = before ++ [entry] := by
  have hperm : (headers.entries.erase entry ++ [entry]).Perm headers.entries :=
    perm_append_comm.trans (perm_cons_erase h).symm
  exact ⟨⟨_, (hperm.map Prod.fst).nodup_iff.mpr headers.nodup⟩, _, hperm, rfl⟩

/-- Headers that decode to the same in every order do not contradict each other. -/
theorem consistent_of_same (h : ∀ reordered : HeaderMap,
      reordered.entries.Perm headers.entries → decode (some reordered) = .ok result) :
    Consistent headers.entries := by
  have hres : ∀ entry ∈ headers.entries, ∃ before,
      result.1 = lastContentType (before ++ [entry]) ∧
        ∀ key, result.2.get key = lastValue key (before ++ [entry]) := by
    intro entry hentry
    obtain ⟨reordered, before, hperm, hsplit⟩ := exists_meet_last headers hentry
    obtain ⟨htype, hvalue, _⟩ := of_decode_ok (h reordered hperm)
    rw [hsplit] at htype hvalue
    exact ⟨before, htype, hvalue⟩
  have htype : ∀ entry ∈ headers.entries, ∀ contentType,
      contentTypeOf entry = some contentType → contentType = result.1 := by
    intro entry hentry contentType hgives
    obtain ⟨before, hlast, _⟩ := hres entry hentry
    rw [hlast, lastContentType_snoc, hgives]
    rfl
  have hvalue : ∀ entry ∈ headers.entries, ∀ header,
      headerOf entry = some header → result.2.get header.1 = some header.2 := by
    intro entry hentry header hgives
    obtain ⟨before, _, hlast⟩ := hres entry hentry
    rw [hlast, lastValue_snoc hgives, if_pos rfl]
  constructor
  · intro first hfirst second hsecond a b ha hb
    exact (htype first hfirst a ha).trans (htype second hsecond b hb).symm
  · intro first hfirst second hsecond key a b ha hb
    exact Option.some.inj ((hvalue first hfirst _ ha).symm.trans (hvalue second hsecond _ hb))

/-- Whether headers decode does not depend on the order they are met in. An error is that
of a fault of the headers, and if all faults have the same error, so have all orders.
Headers that decode do so to the same in every order exactly if no two of them contradict
each other. -/
theorem decode_any_order (headers : HeaderMap) :
    (∀ reordered : HeaderMap, reordered.entries.Perm headers.entries →
      ((∃ error, decode (some reordered) = .error error) ↔
        ∃ error, decode (some headers) = .error error)) ∧
    (∀ error, decode (some headers) = .error error →
      Fault headers.entries error ∧
        ((∀ fault, Fault headers.entries fault → fault = error) →
          ∀ reordered : HeaderMap, reordered.entries.Perm headers.entries →
            decode (some reordered) = .error error)) ∧
    ∀ result, decode (some headers) = .ok result →
      ((∀ reordered : HeaderMap, reordered.entries.Perm headers.entries →
          decode (some reordered) = .ok result) ↔
        Consistent headers.entries) := by
  refine ⟨fun reordered hperm => ?_, fun error herror => ⟨of_decode_error herror,
    fun hunique reordered hperm => ?_⟩,
    fun result hresult => ⟨consistent_of_same, fun h reordered hperm => ?_⟩⟩
  · rw [decode_fails_iff, decode_fails_iff]
    exact ⟨fun ⟨error, h⟩ => ⟨error, h.perm hperm⟩, fun ⟨error, h⟩ => ⟨error, h.perm hperm.symm⟩⟩
  · obtain ⟨other, hother⟩ := (decode_fails_iff reordered).mpr
      ⟨error, (of_decode_error herror).perm hperm.symm⟩
    rw [hother, hunique other ((of_decode_error hother).perm hperm)]
  · obtain ⟨hcontentType, hvalue, hnone⟩ := of_decode_ok hresult
    cases hother : decode (some reordered) with
    | error error => exact absurd ((of_decode_error hother).perm hperm) (hnone error)
    | ok other =>
      obtain ⟨hotherType, hotherValue, _⟩ := of_decode_ok hother
      have hsame : other = result := by
        refine Prod.ext ?_ (MessageMetadata.eq_of_get fun key => ?_)
        · rw [hotherType, hcontentType, h.lastContentType_eq hperm.symm]
        · rw [hotherValue, hvalue, h.lastValue_eq hperm.symm]
      rw [hsame]

/-- Two headers whose names differ in case give two content types, and of two headers with
a fault, either error can be the first. -/
theorem decode_depends_on_order :
    (∃ headers reordered : HeaderMap, reordered.entries.Perm headers.entries ∧
      decode (some headers) = .ok (utf8 "b", .new) ∧
        decode (some reordered) = .ok (utf8 "a", .new)) ∧
    ∃ headers reordered : HeaderMap, reordered.entries.Perm headers.entries ∧
      decode (some headers) = .error (protocol (utf8 "invalid encoded content type")) ∧
        decode (some reordered) = .error (protocol (utf8 "invalid encoded metadata key")) := by
  constructor
  · let upper : Text × List Text := (contentTypeName, [utf8 "YQ"])
    let lower : Text × List Text := (utf8 "plenora-content-type-b64", [utf8 "Yg"])
    exact ⟨⟨[upper, lower], by decide +kernel⟩, ⟨[lower, upper], by decide +kernel⟩, .swap ..,
      by decide +kernel, by decide +kernel⟩
  · let contentType : Text × List Text := (contentTypeName, [utf8 "!"])
    let header : Text × List Text := (metadataPrefix ++ utf8 "!", [utf8 ""])
    exact ⟨⟨[contentType, header], by decide +kernel⟩, ⟨[header, contentType], by decide +kernel⟩,
      .swap .., by decide +kernel, by decide +kernel⟩

end PlenoraRuntime.Nats
