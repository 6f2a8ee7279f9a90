import PlenoraRuntime.Nats.Decoding

/-!
# NATS headers round trip

What `encode` writes is one header for the content type and one for each header of the
message (`written`). Each of them gives back what it was written for, and the bounds on
the encoded form are the bounds on the decoded one, so they have no fault together
(`not_fault_written`) and decode to the message in any order.

A content type that `decode` returns is within the bound of `encode`, whatever the
headers were.
-/

namespace PlenoraRuntime.Nats

open Messaging List

/-! ## What `encode` writes -/

/-- The header of the content type, or of a header of the message. -/
def written (contentType : Text) : Option (Text × Bytes) → Text × List Text
  | none => (contentTypeName, [Base64.encode contentType])
  | some header => (metadataPrefix ++ Base64.encode header.1, [Base64.encode header.2])

/-- All that `encode` writes for a message. -/
def allWritten (contentType : Text) (metadata : MessageMetadata) : List (Text × List Text) :=
  (none :: metadata.entries.map some).map (written contentType)

theorem isHeaderName_encode (bytes : Bytes) : isHeaderName (Base64.encode bytes) = true := by
  have hsymbol : ∀ n < 64, (33 ≤ Base64.symbol n && Base64.symbol n ≤ 126 &&
      Base64.symbol n != 58) = true := by
    decide
  simp only [isHeaderName, Base64.encode, all_map, all_eq_true]
  exact fun n hn => hsymbol n (Base64.sextets_lt bytes n hn)

theorem isHeaderValue_of_isHeaderName {text} (h : isHeaderName text = true) :
    isHeaderValue text = true := by
  simp only [isHeaderName, isHeaderValue, all_eq_true, Bool.and_eq_true, bne_iff_ne] at h ⊢
  intro byte hbyte
  obtain ⟨⟨hlow, -⟩, -⟩ := h byte hbyte
  constructor <;> rintro rfl <;> exact absurd hlow (by decide)

theorem isHeaderName_append (first second : Text) :
    isHeaderName (first ++ second) = (isHeaderName first && isHeaderName second) :=
  all_append

theorem insertHeader_encode (headers : HeaderMap) {name} (bytes : Bytes)
    (hname : isHeaderName name = true) (hnew : name ∉ headers.entries.map Prod.fst) :
    ∃ next, insertHeader headers name (Base64.encode bytes) = .ok next ∧
      next.entries = headers.entries ++ [(name, [Base64.encode bytes])] := by
  have hvalue := isHeaderValue_of_isHeaderName (isHeaderName_encode bytes)
  refine ⟨headers.insert name (Base64.encode bytes), ?_, ?_⟩
  · simp [insertHeader, hname, hvalue]
  · simp only [HeaderMap.insert, hnew, ↓reduceDIte]

/-- The two kinds of names differ in more than their case. -/
theorem eqIgnoreAsciiCase_contentTypeName (text : Text) :
    eqIgnoreAsciiCase (metadataPrefix ++ text) contentTypeName = false := by
  rw [eqIgnoreAsciiCase, beq_eq_false_iff_ne, map_append]
  intro heq
  have htake := congrArg (List.take (metadataPrefix.map toAsciiLowercase).length) heq
  rw [take_left] at htake
  exact absurd htake (by decide)

variable {contentType : Text} {header : Text × Bytes}

theorem key_of_written {other}
    (h : (written contentType other).1 = (written contentType (some header)).1) :
    other.map Prod.fst = some header.1 := by
  cases other with
  | none =>
    have hname : contentTypeName = metadataPrefix ++ Base64.encode header.1 := h
    have hother := eqIgnoreAsciiCase_contentTypeName (Base64.encode header.1)
    rw [← hname, eqIgnoreAsciiCase] at hother
    cases hother
  | some other => rw [Option.map_some, Base64.encode_injective (append_cancel_left h)]

variable {metadata : MessageMetadata}

/-- A key comes up once in the headers of a message. -/
theorem key_notMem_seen {seen rest} (hsplit : metadata.entries = seen ++ header :: rest) :
    header.1 ∉ seen.map Prod.fst := by
  have hnodup := metadata.portable.sorted.nodup
  rw [hsplit, map_append] at hnodup
  intro hmem
  exact (nodup_append.mp hnodup).2.2 _ hmem _ mem_cons_self rfl

variable {headers : HeaderMap}

theorem insertHeader_written {seen rest} (hsplit : metadata.entries = seen ++ header :: rest)
    (hseen : headers.entries = (none :: seen.map some).map (written contentType)) :
    ∃ next, insertHeader headers (metadataPrefix ++ Base64.encode header.1)
        (Base64.encode header.2) = .ok next ∧
      next.entries = (none :: (seen ++ [header]).map some).map (written contentType) := by
  have hname : isHeaderName (metadataPrefix ++ Base64.encode header.1) = true := by
    rw [isHeaderName_append, isHeaderName_encode]
    decide
  have hnew : metadataPrefix ++ Base64.encode header.1 ∉ headers.entries.map Prod.fst := by
    rw [hseen]
    intro hmem
    obtain ⟨_, hwritten, hsame⟩ := mem_map.mp hmem
    obtain ⟨other, hother, rfl⟩ := mem_map.mp hwritten
    have hkey := key_of_written hsame
    rcases mem_cons.mp hother with rfl | hother
    · cases hkey
    · obtain ⟨other, hold, rfl⟩ := mem_map.mp hother
      exact key_notMem_seen hsplit (Option.some.inj hkey ▸ mem_map_of_mem hold)
  obtain ⟨next, hnext, hadded⟩ := insertHeader_encode headers header.2 hname hnew
  refine ⟨next, hnext, ?_⟩
  rw [hadded, hseen]
  simp [written]

/-- `encode` writes every header under a name of its own. -/
theorem encode_eq_ok (metadata : MessageMetadata)
    (hlen : contentType.length ≤ maxContentTypeBytes) :
    ∃ headers, encode contentType metadata = .ok headers ∧
      headers.entries = allWritten contentType metadata := by
  obtain ⟨first, hfirst, hents⟩ := insertHeader_encode .new contentType
    (by decide : isHeaderName contentTypeName = true) (by simp [HeaderMap.new])
  obtain ⟨headers, hheaders, hall⟩ := Guard.foldlM_of_step
    (fun headers entry =>
      insertHeader headers (metadataPrefix ++ Base64.encode entry.1) (Base64.encode entry.2))
    (fun seen headers => headers.entries = (none :: seen.map some).map (written contentType))
    (l := metadata.entries) hents
    (fun _ _ _ _ hsplit hseen => insertHeader_written hsplit hseen)
  refine ⟨headers, ?_, hall⟩
  rw [encode, if_neg (by omega)]
  simp only [hfirst]
  exact hheaders

/-! ## Reading it back -/

theorem stripPrefixIgnoreAsciiCase_append (pattern text : Text) :
    stripPrefixIgnoreAsciiCase (pattern ++ text) pattern = some text := by
  rw [stripPrefixIgnoreAsciiCase, take_left, drop_left, eqIgnoreAsciiCase,
    beq_self_eq_true, if_pos rfl]

theorem encodedContentType_written_none :
    encodedContentType (written contentType none) = some (Base64.encode contentType) := by
  have hname : eqIgnoreAsciiCase contentTypeName contentTypeName = true := beq_self_eq_true _
  simp [encodedContentType, written, hname]

theorem encodedPair_written_some :
    encodedPair (written contentType (some header)) = some (encodedHeader header) := by
  simp [encodedPair, written, eqIgnoreAsciiCase_contentTypeName,
    stripPrefixIgnoreAsciiCase_append, encodedHeader]

theorem read_written_none (h : Encodable contentType) :
    Decoding.initial.read (written contentType none) =
      .ok { Decoding.initial with contentType } := by
  have hbound : ¬ maxEncodedContentTypeBytes < (Base64.encode contentType).length := by
    rw [Base64.length_encode, Nat.not_lt]
    exact Base64.encodedLength_le_iff.mpr h.1
  rw [Decoding.read_contentType _ encodedContentType_written_none]
  simp [Decoding.readContentType, hbound, Base64.decode_encode, fromUtf8, h.2]

theorem validHeader_of_mem (h : header ∈ metadata.entries) : ValidHeader header :=
  ⟨metadata.portable.keys header h, metadata.portable.values header h⟩

section reading

variable (hperm : headers.entries.Perm (allWritten contentType metadata))
include hperm

theorem pairs_written :
    (headers.entries.filterMap encodedPair).Perm
      (metadata.entries.map encodedHeader) := by
  refine (hperm.filterMap encodedPair).trans (.of_eq ?_)
  have hnone : encodedPair (written contentType none) = none :=
    Decoding.encodedPair_of_contentType encodedContentType_written_none
  rw [allWritten, map_cons, filterMap_cons_none hnone, map_map, filterMap_map,
    ← filterMap_eq_map]
  exact filterMap_congr fun header _ => encodedPair_written_some

variable (h : Encodable contentType)
include h

theorem contentTypes_written : headers.entries.filterMap contentTypeOf = [contentType] := by
  refine perm_singleton.mp ((hperm.filterMap contentTypeOf).trans (.of_eq ?_))
  have hnone : contentTypeOf (written contentType none) = some contentType := by
    simp [contentTypeOf, encodedContentType_written_none, read_written_none h, Except.toOption]
  have hsome (header : Text × Bytes) :
      contentTypeOf (written contentType (some header)) = none := by
    simp [contentTypeOf, encodedContentType, written, eqIgnoreAsciiCase_contentTypeName]
  simp [allWritten, hnone, filterMap_map, Function.comp_def, hsome]

theorem headers_written : (headers.entries.filterMap headerOf).Perm metadata.entries := by
  refine (hperm.filterMap headerOf).trans (.of_eq ?_)
  have hnone : headerOf (written contentType none) = none := by
    rw [headerOf, read_written_none h]
    rfl
  rw [allWritten, map_cons, filterMap_cons_none hnone, map_map, filterMap_map]
  refine (filterMap_congr fun header hmem => ?_).trans filterMap_some
  exact (Decoding.headerOf_pair encodedPair_written_some (validHeader_of_mem hmem)).2

/-- What `encode` writes has no fault. -/
theorem not_fault_written (error : NatsAdapterError) : ¬ Fault headers.entries error := by
  have hpairs := pairs_written hperm
  rintro (⟨hmem, halone⟩ | hcount | htotal)
  · obtain ⟨source, hsource, rfl⟩ := mem_map.mp (hperm.mem_iff.mp hmem)
    rcases mem_cons.mp hsource with rfl | hsource
    · rw [read_written_none h] at halone
      cases halone
    · obtain ⟨header, hheader, rfl⟩ := mem_map.mp hsource
      obtain ⟨⟨alone, hread⟩, -⟩ :=
        Decoding.headerOf_pair encodedPair_written_some (validHeader_of_mem hheader)
      rw [hread] at halone
      cases halone
  · rw [hpairs.length_eq, length_map] at hcount
    exact absurd metadata.portable.count hcount.not_ge
  · have hfits : (metadata.entries.map encodedHeader).filter fits =
        metadata.entries.map encodedHeader := by
      simp only [filter_eq_self, forall_mem_map]
      exact fun header hmem => fits_encodedHeader (validHeader_of_mem hmem)
    have hsum : (metadata.entries.map encodedHeader).map pairBytes =
        metadata.entries.map headerBytes := by
      rw [map_map]
      exact map_congr_left fun header hmem =>
        pairBytes_encodedHeader (validHeader_of_mem hmem)
    rw [((hpairs.filter fits).map pairBytes).sum_eq, hfits, hsum] at htotal
    exact absurd metadata.portable.total htotal.not_ge

theorem lastValue_written (key : Text) : lastValue key headers.entries = metadata.get key := by
  have hheaders := headers_written hperm h
  have hnodup := metadata.portable.sorted.nodup
  refine Option.ext fun bytes => ?_
  rw [lastValue, Option.map_eq_some_iff, MessageMetadata.get, OrderedTable.get_eq_some_iff hnodup]
  have hmem : ∀ other, other ∈ (headers.entries.filterMap headerOf).filter (fun header =>
      header.1 == key) ↔ other ∈ metadata.entries ∧ other.1 = key := by
    simp [hheaders.mem_iff]
  constructor
  · rintro ⟨header, hlast, rfl⟩
    obtain ⟨hheader, rfl⟩ := (hmem header).mp (mem_of_getLast? hlast)
    exact hheader
  · intro hheader
    refine ⟨(key, bytes), (getLast?_eq_some_iff_mem fun a ha b hb => ?_).mpr
      ((hmem _).mpr ⟨hheader, rfl⟩), rfl⟩
    obtain ⟨ha, hakey⟩ := (hmem a).mp ha
    obtain ⟨hb, hbkey⟩ := (hmem b).mp hb
    exact inj_on_of_nodup_map hnodup ha hb (hakey.trans hbkey.symm)

end reading

/-- Whatever order they are read in, the headers of a message decode to the message. -/
theorem decode_allWritten (hperm : headers.entries.Perm (allWritten contentType metadata))
    (h : Encodable contentType) : decode (some headers) = .ok (contentType, metadata) := by
  cases hdecode : decode (some headers) with
  | error error => exact absurd (of_decode_error hdecode) (not_fault_written hperm h error)
  | ok result =>
    obtain ⟨hname, hvalue, -⟩ := of_decode_ok hdecode
    rw [lastContentType, contentTypes_written hperm h] at hname
    have hmeta : result.2 = metadata := MessageMetadata.eq_of_get fun key =>
      (hvalue key).trans (lastValue_written hperm h key)
    exact congrArg Except.ok (Prod.ext hname hmeta)

/-! ## What `decode` returns -/

theorem encodable_contentTypeOf {entry} (h : contentTypeOf entry = some contentType) :
    Encodable contentType := by
  unfold contentTypeOf at h
  cases hname : encodedContentType entry with
  | none => simp [hname] at h
  | some value =>
    rw [hname, Decoding.initial.read_contentType hname] at h
    rcases Decoding.readContentType_cases value with ⟨found, hfound, hok⟩ | ⟨error, herror⟩
    · rw [hok] at h
      cases h
      exact hfound
    · rw [herror] at h
      cases h

theorem encodable_of_decode {headers} (h : decode headers = .ok (contentType, metadata)) :
    Encodable contentType := by
  have hdefault : Encodable defaultContentType := ⟨by decide, by decide⟩
  cases headers with
  | none =>
    cases h
    exact hdefault
  | some headers =>
    obtain rfl : contentType = lastContentType headers.entries := (of_decode_ok h).1
    unfold lastContentType
    cases hlast : (headers.entries.filterMap contentTypeOf).getLast? with
    | none => exact hdefault
    | some found =>
      obtain ⟨entry, -, hentry⟩ := List.mem_filterMap.mp (mem_of_getLast? hlast)
      exact encodable_contentTypeOf hentry

/-! ## The round trip -/

theorem exists_round_trip (metadata : MessageMetadata) (h : Encodable contentType) :
    ∃ headers, encode contentType metadata = .ok headers ∧
      ∀ iterated : HeaderMap, iterated.entries.Perm headers.entries →
        decode (some iterated) = .ok (contentType, metadata) := by
  obtain ⟨headers, hencode, hents⟩ := encode_eq_ok metadata h.1
  exact ⟨headers, hencode, fun iterated hperm => decode_allWritten (hents ▸ hperm) h⟩

/-- A content type of at most 128 bytes and any metadata are encoded, and the headers
decode to them in whatever order they are iterated; and so does everything that `decode`
returns, whatever it was decoded from. -/
theorem headers_round_trip :
    (∀ contentType metadata, contentType.length ≤ maxContentTypeBytes →
      isUtf8 contentType = true →
        ∃ headers, encode contentType metadata = .ok headers ∧
          ∀ iterated : HeaderMap, iterated.entries.Perm headers.entries →
            decode (some iterated) = .ok (contentType, metadata)) ∧
      ∀ received contentType metadata, decode received = .ok (contentType, metadata) →
        ∃ headers, encode contentType metadata = .ok headers ∧
          ∀ iterated : HeaderMap, iterated.entries.Perm headers.entries →
            decode (some iterated) = .ok (contentType, metadata) :=
  ⟨fun _ metadata hlength hutf8 => exists_round_trip metadata ⟨hlength, hutf8⟩,
    fun _ _ metadata hdecode => exists_round_trip metadata (encodable_of_decode hdecode)⟩

/-- A content type at its bound and four headers, sent on after they were received. -/
theorem headers_round_trip_at_bound :
    let contentType : Text := List.replicate 128 97
    ∃ headers, encode contentType Sample.headers = .ok headers ∧
      decode (some headers) = .ok (contentType, Sample.headers) ∧
      ∃ again, encode contentType Sample.headers = .ok again ∧
        decode (some again) = .ok (contentType, Sample.headers) := by
  intro contentType
  obtain ⟨headers, hencode, hdecode⟩ :=
    headers_round_trip.1 contentType Sample.headers List.length_replicate.le (by decide +kernel)
  have hreceived := hdecode headers (.refl _)
  obtain ⟨again, hagain, hsame⟩ := headers_round_trip.2 (some headers) contentType _ hreceived
  exact ⟨headers, hencode, hreceived, again, hagain, hsame again (.refl _)⟩

end PlenoraRuntime.Nats
