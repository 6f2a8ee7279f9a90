import PlenoraRuntime.Capabilities.Document
import PlenoraRuntime.Foundation.Pattern

/-!
# The lexers and the patterns of the schema

`capabilities-v2.schema.json` gives the identifiers of a discovery document as regular
expressions, the source as hand-written lexers over bytes. The patterns are over
characters; all their letters are ASCII, so that a string matches a pattern exactly when
its bytes match the pattern of bytes (`utf8_mem_iff`).

The lexers split at a separator, the first or the last. In each pattern the part on one
side cannot contain the separator, so there is only one way to cut a word, and the lexer
finds it. Four lexers are their patterns. The fifth, for operation names, is a different
language: it lets a segment begin with a digit, and does not let it end in `-` or `_`.
-/

namespace PlenoraRuntime.Capabilities

open Pattern RegularExpression List
open Option hiding or_assoc

/-! ## Bytes and characters -/

def byteOf (letter : Char) : UInt8 :=
  UInt8.ofNat letter.val.toNat

/-- A property of bytes is checked on each of them. -/
instance instDecidableForallByte (p : UInt8 → Prop) [DecidablePred p] :
    Decidable (∀ byte, p byte) :=
  decidable_of_iff (∀ n < 256, p (UInt8.ofNat n))
    ⟨fun h byte => byte.ofNat_toNat ▸ h byte.toNat byte.toNat_lt, fun h _ _ => h _⟩

theorem utf8_injective : Function.Injective utf8 := by
  intro first second h
  exact String.toByteArray_inj.mp (ByteArray.ext (Array.ext' h))

theorem utf8_ofList_of_ascii {word} (h : ∀ letter ∈ word, letter.val.toNat ≤ 127) :
    utf8 (String.ofList word) = word.map byteOf := by
  have henc : utf8 (String.ofList word) = word.flatMap String.utf8EncodeChar := by
    simp [utf8, List.utf8Encode]
  rw [henc]
  clear henc
  induction word with
  | nil => rfl
  | cons letter rest ih =>
    obtain ⟨hletter, hrest⟩ := forall_mem_cons.mp h
    have hone : String.utf8EncodeChar letter = [byteOf letter] := if_pos hletter
    rw [flatMap_cons, hone, ih hrest, map_cons, singleton_append]

/-- The letters of the pattern are ASCII. -/
def IsAscii (p : RegularExpression Char) : Prop :=
  ∀ letter ∈ alphabet p, letter.val.toNat ≤ 127

instance instDecidableIsAscii (p : RegularExpression Char) : Decidable (IsAscii p) :=
  decidableBAll (fun letter : Char => letter.val.toNat ≤ 127) (alphabet p)

variable {p : RegularExpression Char}

theorem IsAscii.mul {q} (hp : IsAscii p) (hq : IsAscii q) :
    IsAscii (p * q) := by
  exact forall_mem_append.mpr ⟨hp, hq⟩

theorem IsAscii.oneTo (hp : IsAscii p) (n : ℕ) : IsAscii (oneTo n p) :=
  hp.mul fun letter hletter => hp letter (alphabet_upTo hletter)

/-- The bytes of a string match an ASCII pattern when its characters do. -/
theorem utf8_mem_iff (hascii : IsAscii p) (value : String) :
    utf8 value ∈ (p.map byteOf).matches' ↔ value.toList ∈ p.matches' := by
  have hbytes : ∀ word ∈ p.matches', utf8 (String.ofList word) = word.map byteOf :=
    fun word hword => utf8_ofList_of_ascii fun letter hletter =>
      hascii letter (mem_alphabet hword hletter)
  rw [Pattern.mem_map]
  constructor
  · rintro ⟨word, hword, heq⟩
    have hsame : String.ofList word = value := utf8_injective ((hbytes word hword).trans heq)
    rw [← hsame, String.toList_ofList]
    exact hword
  · intro hmem
    refine ⟨value.toList, hmem, ?_⟩
    rw [← hbytes value.toList hmem, String.ofList_toList]

/-! ## Patterns -/

namespace Schema

def range (first last : Char) : List Char :=
  (List.range' first.toNat (last.toNat + 1 - first.toNat)).map Char.ofNat

/-- `[a-z0-9-]`. -/
def nameLetters : List Char :=
  range 'a' 'z' ++ range '0' '9' ++ ['-']

/-- `[1-9][0-9]*`. -/
def positive : RegularExpression Char :=
  oneOf (range '1' '9') * (oneOf (range '0' '9')).star

/-- `^plenora-[a-z][a-z0-9-]{1,62}$`. -/
def component : RegularExpression Char :=
  literal "plenora-".toList * (oneOf (range 'a' 'z') * oneTo 62 (oneOf nameLetters))

/-- `0|[1-9][0-9]*`. -/
def versionPart : RegularExpression Char :=
  char '0' + positive

/-- `[-+][0-9A-Za-z.-]+`. -/
def versionSuffix : RegularExpression Char :=
  oneOf ['-', '+'] *
    oneOrMore (oneOf (range '0' '9' ++ range 'A' 'Z' ++ range 'a' 'z' ++ ['.', '-']))

/-- `^(0|[1-9][0-9]*)\.(0|[1-9][0-9]*)\.(0|[1-9][0-9]*)([-+][0-9A-Za-z.-]+)?$`. -/
def componentVersion : RegularExpression Char :=
  versionPart * (char '.' * (versionPart * (char '.' * (versionPart * optional versionSuffix))))

/-- `^plenora-[a-z0-9-]+-v[1-9][0-9]*$`. -/
def contractId : RegularExpression Char :=
  literal "plenora-".toList * (oneOrMore (oneOf nameLetters) * (literal "-v".toList * positive))

/-- `[A-Za-z0-9!#$&^_.+-]`. -/
def contentTypeLetters : List Char :=
  range 'A' 'Z' ++ range 'a' 'z' ++ range '0' '9' ++ "!#$&^_.+-".toList

/-- `^[A-Za-z0-9!#$&^_.+-]+/[A-Za-z0-9!#$&^_.+-]+$`. -/
def contentType : RegularExpression Char :=
  oneOrMore (oneOf contentTypeLetters) * (char '/' * oneOrMore (oneOf contentTypeLetters))

/-- `[a-z0-9_-]`. -/
def idLetters : List Char :=
  range 'a' 'z' ++ range '0' '9' ++ ['_', '-']

/-- `^[a-z][a-z0-9_-]*(\.[a-z][a-z0-9_-]*)+$`. -/
def operationId : RegularExpression Char :=
  separated '.' (oneOf (range 'a' 'z') * (oneOf idLetters).star)

end Schema

/-! ## Character classes -/

theorem byteOf_ofNat {n : ℕ} (h : n ≤ 127) : byteOf (Char.ofNat n) = UInt8.ofNat n := by
  have hvalid : n.isValidChar := .inl (by omega)
  rw [Char.ofNat, dif_pos hvalid]
  rfl

theorem mem_range_iff {first last : Char} (hlast : last.toNat ≤ 127) (byte : UInt8) :
    byte ∈ (Schema.range first last).map byteOf ↔
      first.toNat ≤ byte.toNat ∧ byte.toNat ≤ last.toNat := by
  rw [Schema.range, List.map_map, List.mem_map]
  simp only [mem_range'_1, Function.comp_apply]
  constructor
  · rintro ⟨n, hn, rfl⟩
    rw [byteOf_ofNat (by omega), UInt8.toNat_ofNat']
    omega
  · rintro ⟨hfirst, hle⟩
    exact ⟨byte.toNat, by omega, by rw [byteOf_ofNat (by omega), UInt8.ofNat_toNat]⟩

theorem lowercase_iff (byte : UInt8) :
    byte ∈ (Schema.range 'a' 'z').map byteOf ↔ isAsciiLowercase byte = true := by
  rw [mem_range_iff (by decide)]
  simp [isAsciiLowercase, UInt8.le_iff_toNat_le]

theorem digit_iff (byte : UInt8) :
    byte ∈ (Schema.range '0' '9').map byteOf ↔ isAsciiDigit byte = true := by
  rw [mem_range_iff (by decide)]
  simp [isAsciiDigit, UInt8.le_iff_toNat_le]

theorem uppercase_iff (byte : UInt8) :
    byte ∈ (Schema.range 'A' 'Z').map byteOf ↔ isAsciiUppercase byte = true := by
  rw [mem_range_iff (by decide)]
  simp [isAsciiUppercase, UInt8.le_iff_toNat_le]

theorem nonzero_iff (byte : UInt8) :
    byte ∈ (Schema.range '1' '9').map byteOf ↔ 49 ≤ byte ∧ byte ≤ 57 := by
  rw [mem_range_iff (by decide)]
  simp [UInt8.le_iff_toNat_le]

theorem alphanumeric_iff (byte : UInt8) :
    isAsciiAlphanumeric byte = true ↔
      isAsciiLowercase byte = true ∨ isAsciiUppercase byte = true ∨ isAsciiDigit byte = true := by
  simp only [isAsciiAlphanumeric, isAsciiUppercase, Bool.or_eq_true, or_assoc]

theorem nameLetters_iff (byte : UInt8) :
    byte ∈ Schema.nameLetters.map byteOf ↔ isContractByte byte = true := by
  have hdash : byteOf '-' = 45 := by decide
  simp only [Schema.nameLetters, map_append, mem_append, lowercase_iff, digit_iff,
    map_singleton, mem_singleton, hdash, isContractByte, Bool.or_eq_true, beq_iff_eq]

theorem versionSuffixLetters_iff (byte : UInt8) :
    byte ∈ (Schema.range '0' '9' ++ Schema.range 'A' 'Z' ++ Schema.range 'a' 'z' ++
      ['.', '-']).map byteOf ↔ (isAsciiAlphanumeric byte || byte == 46 || byte == 45) = true := by
  have hdot : byteOf '.' = 46 := by decide
  have hdash : byteOf '-' = 45 := by decide
  simp only [map_append, mem_append, lowercase_iff, digit_iff, uppercase_iff, map_cons, map_nil,
    mem_cons, not_mem_nil, alphanumeric_iff, Bool.or_eq_true, beq_iff_eq]
  tauto

theorem contentTypeLetters_iff (byte : UInt8) :
    byte ∈ Schema.contentTypeLetters.map byteOf ↔ isContentTypeByte byte = true := by
  have hother : "!#$&^_.+-".toList.map byteOf = utf8 "!#$&^_.+-" := by decide +kernel
  simp only [Schema.contentTypeLetters, map_append, mem_append, lowercase_iff, digit_iff,
    uppercase_iff, isContentTypeByte, alphanumeric_iff, Bool.or_eq_true, contains_iff_mem]
  tauto

theorem idLetters_iff (byte : UInt8) :
    byte ∈ Schema.idLetters.map byteOf ↔ isPortableByte byte = true := by
  have hunderscore : byteOf '_' = 95 := by decide
  have hdash : byteOf '-' = 45 := by decide
  simp only [Schema.idLetters, map_append, mem_append, lowercase_iff, digit_iff, map_cons, map_nil,
    mem_cons, not_mem_nil, isPortableByte, Bool.or_eq_true, beq_iff_eq]
  tauto

/-! ## Components -/

theorem plenora_bytes : "plenora-".toList.map byteOf = utf8 "plenora-" := by decide +kernel

theorem isComponent_iff (value : Text) :
    isComponent value = true ↔
      value ∈ (Schema.component.map byteOf).matches' ∧ value.length ≤ 71 := by
  rw [Schema.component, map_mul, map_literal, plenora_bytes, map_mul, map_oneOf, map_oneTo,
    map_oneOf, mem_literal_mul]
  simp only [mem_oneOf_mul, lowercase_iff, mem_oneTo_oneOf (show 1 ≤ 62 by decide),
    nameLetters_iff]
  constructor
  · intro h
    unfold isComponent at h
    split at h
    case h_1 => cases h
    case h_2 name hname =>
      simp only [Bool.and_eq_true, decide_eq_true_eq, List.all_eq_true] at h
      obtain ⟨⟨⟨hlen, hmin, hmax⟩, hfirst⟩, hrest⟩ := h
      refine ⟨⟨name, ?_, eq_append_of_stripPrefix hname⟩, hlen⟩
      obtain ⟨first, rest, rfl⟩ := exists_cons_of_length_pos (Nat.lt_of_succ_lt hmin)
      rw [length_cons] at hmin hmax
      exact ⟨first, hfirst, rest, ⟨by omega, by omega, hrest⟩, rfl⟩
  · rintro ⟨⟨_, ⟨first, hfirst, rest, ⟨hmin, hmax, hrest⟩, rfl⟩, rfl⟩, hlen⟩
    simp only [isComponent, stripPrefix_append, Bool.and_eq_true, decide_eq_true_eq,
      List.all_eq_true, length_cons, head?_cons, drop_one]
    exact ⟨⟨⟨hlen, by omega, by omega⟩, hfirst⟩, hrest⟩

/-! ## Contracts -/

theorem exists_contractId_iff (value : Text) :
    (∃ contract, ContractId.new value = .ok contract) ↔ validateContractId value = .ok () := by
  refine ⟨fun ⟨contract, hcontr⟩ => ?_, fun hvalid =>
    ⟨⟨value, hvalid⟩, ContractId.new_eq_ok_iff.mpr rfl⟩⟩
  rw [← ContractId.new_eq_ok_iff.mp hcontr]
  exact contract.valid

theorem isContractVersion_iff (version : Text) :
    isContractVersion version = true ↔ version ∈ (Schema.positive.map byteOf).matches' := by
  rw [Schema.positive, map_mul, map_oneOf, map_star, map_oneOf, mem_oneOf_mul]
  simp only [nonzero_iff, mem_star_oneOf, digit_iff]
  cases version with
  | nil | cons first digits => simp [isContractVersion]

theorem validateContractId_iff (value : Text) :
    validateContractId value = .ok () ↔
      value ∈ (Schema.contractId.map byteOf).matches' ∧ value.length ≤ 128 := by
  have hdash : "-v".toList.map byteOf = 45 :: [118] := by decide +kernel
  have hpat : utf8 "-v" = 45 :: [118] := by decide +kernel
  rw [Schema.contractId, map_mul, map_literal, plenora_bytes, map_mul, map_oneOrMore, map_oneOf,
    map_mul, map_literal, hdash, mem_literal_mul]
  simp only [mem_mul, mem_oneOrMore_oneOf, nameLetters_iff, mem_literal, ← isContractVersion_iff,
    validateContractId, Guard.ite_error_eq_ok, hpat]
  constructor
  · rintro ⟨-, hlen, h⟩
    split at h
    case h_1 => cases h
    case h_2 unversioned hunversioned =>
      split at h
      case h_1 => cases h
      case h_2 name version hsplit =>
        simp only [Guard.ite_error_eq_ok, Bool.or_eq_true, Bool.not_eq_true', not_or,
          Bool.not_eq_false, List.isEmpty_iff, List.all_eq_true] at h
        refine ⟨⟨unversioned, ?_, eq_append_of_stripPrefix hunversioned⟩, Nat.le_of_not_lt hlen⟩
        refine ⟨name, h.1, _, ⟨_, rfl, version, h.2.1, rfl⟩, ?_⟩
        rw [eq_append_of_rsplitOnce hsplit, append_assoc]
  · rintro ⟨⟨_, ⟨name, hname, _, ⟨_, rfl, version, hver, rfl⟩, rfl⟩, rfl⟩, hlen⟩
    -- Digits follow the pattern, so it does not begin again after it.
    have hlast : (45 : UInt8) ∉ [118] ++ version := by
      rw [singleton_append, mem_cons, not_or]
      refine ⟨by decide, fun hmem => ?_⟩
      exact absurd (digits_of_isContractVersion hver 45 hmem) (by decide)
    have hsplit : rsplitOnce (45 :: [118]) (name ++ (45 :: [118] ++ version)) =
        some (name, version) := rsplitOnce_append hlast name
    refine ⟨by simp, Nat.not_lt.mpr hlen, ?_⟩
    simp only [stripPrefix_append, hsplit, Guard.ite_error_eq_ok, Bool.or_eq_true,
      List.isEmpty_iff, Bool.not_eq_true', not_or, Bool.not_eq_false, List.all_eq_true]
    exact ⟨hname, hver, trivial⟩

/-! ## Content types -/

theorem isContentType_iff (value : Text) :
    isContentType value = true ↔
      value ∈ (Schema.contentType.map byteOf).matches' ∧ value.length ≤ 128 := by
  have hslash : byteOf '/' = 47 := by decide
  have hfree : ∀ part : Text, (∀ byte ∈ part, isContentTypeByte byte = true) → 47 ∉ part :=
    fun part hpart hmem => absurd (hpart 47 hmem) (by decide +kernel)
  rw [Schema.contentType, map_mul, map_oneOrMore, map_mul, map_char, hslash, map_oneOrMore,
    map_oneOf]
  simp only [mem_mul, mem_oneOrMore_oneOf, contentTypeLetters_iff]
  constructor
  · intro h
    unfold isContentType at h
    split at h
    case isTrue => cases h
    case isFalse hlen =>
      simp only [Bool.or_eq_true, decide_eq_true_eq, not_or, not_lt] at hlen
      split at h
      case h_1 => cases h
      case h_2 kind subtype hsplit =>
        simp only [Bool.and_eq_true, Bool.not_eq_true', isEmpty_eq_false_iff,
          List.all_eq_true] at h
        obtain ⟨⟨⟨⟨hkindNe, hsubtypeNe⟩, -⟩, hkind⟩, hsub⟩ := h
        exact ⟨⟨kind, ⟨hkindNe, hkind⟩, _, ⟨_, rfl, subtype, ⟨hsubtypeNe, hsub⟩, rfl⟩,
          (splitOnce_eq_some_iff.mp hsplit).1.symm⟩, hlen.2⟩
  · rintro ⟨⟨kind, ⟨hkindNe, hkind⟩, _, ⟨_, rfl, subtype, ⟨hsubtypeNe, hsub⟩, rfl⟩, rfl⟩,
      hlen⟩
    -- The kind has no slash, so the value is split right after it.
    have hsplit : splitOnce 47 (kind ++ ([47] ++ subtype)) = some (kind, subtype) :=
      splitOnce_eq_some_iff.mpr ⟨rfl, hfree kind hkind⟩
    have hbounds : ¬ ((kind ++ ([47] ++ subtype)).isEmpty ||
        maxContentTypeBytes < (kind ++ ([47] ++ subtype)).length) = true := by
      simp only [Bool.or_eq_true, decide_eq_true_eq, not_or, not_lt]
      exact ⟨by simp, hlen⟩
    unfold isContentType
    rw [if_neg hbounds]
    simp only [hsplit, Bool.and_eq_true, Bool.not_eq_true', isEmpty_eq_false_iff,
      List.all_eq_true]
    exact ⟨⟨⟨⟨hkindNe, hsubtypeNe⟩, by simpa using hfree subtype hsub⟩, hkind⟩, hsub⟩

/-! ## Versions -/

def startsSuffix (byte : UInt8) : Bool :=
  byte == 45 || byte == 43

variable {core : Text}

theorem splitVersionSuffix_core (h : ∀ byte ∈ core, startsSuffix byte = false) :
    splitVersionSuffix core = (core, none) := by
  have hnone : core.findIdx? (fun byte => byte == 45 || byte == 43) = none :=
    findIdx?_eq_none_iff.mpr h
  rw [splitVersionSuffix, hnone]

theorem splitVersionSuffix_append (h : ∀ byte ∈ core, startsSuffix byte = false) {start}
    (hstart : startsSuffix start = true) (suffix : Text) :
    splitVersionSuffix (core ++ start :: suffix) = (core, some suffix) := by
  have hfound : (core ++ start :: suffix).findIdx? (fun byte => byte == 45 || byte == 43) =
      some core.length := by
    have hnone : core.findIdx? (fun byte => byte == 45 || byte == 43) = none :=
      findIdx?_eq_none_iff.mpr h
    have hfirst : (start == 45 || start == 43) = true := hstart
    rw [findIdx?_append, hnone, findIdx?_cons, if_pos hfirst]
    simp
  rw [splitVersionSuffix, hfound]
  simp

theorem isVersionPart_iff (part : Text) :
    isVersionPart part = true ↔ part ∈ (Schema.versionPart.map byteOf).matches' := by
  have hdigit : ∀ byte, isAsciiDigit byte = true ↔ byte = 48 ∨ 49 ≤ byte ∧ byte ≤ 57 := by
    decide +kernel
  have hnonzero : ∀ byte : UInt8, 49 ≤ byte ∧ byte ≤ 57 → byte ≠ 48 := by decide +kernel
  rw [Schema.versionPart, map_add, map_char, mem_add, mem_char, ← isContractVersion_iff]
  cases part with
  | nil => simp [isVersionPart, isContractVersion]
  | cons first rest =>
    simp only [isVersionPart, isContractVersion, isEmpty_cons, Bool.not_false,
      Bool.true_and, all_cons, head?_cons, Bool.and_eq_true, Bool.or_eq_true,
      beq_iff_eq, bne_iff_ne, ne_eq, Option.some.injEq, decide_eq_true_eq]
    constructor
    · rintro ⟨⟨hfirst, hrest⟩, hzero | hother⟩
      · exact .inl hzero
      · exact .inr ⟨((hdigit first).mp hfirst).resolve_left hother, hrest⟩
    · rintro (hzero | ⟨hfirst, hrest⟩)
      · obtain ⟨rfl, rfl⟩ := List.cons.inj hzero
        exact ⟨⟨by decide, rfl⟩, .inl rfl⟩
      · exact ⟨⟨(hdigit first).mpr (.inr hfirst), hrest⟩, .inr (hnonzero first hfirst)⟩

theorem versionPart_digits {part} (h : isVersionPart part = true) :
    ∀ byte ∈ part, isAsciiDigit byte = true := by
  simp only [isVersionPart, Bool.and_eq_true, List.all_eq_true] at h
  exact h.1.2

theorem mem_versionSuffix_iff (tail : Text) :
    tail ∈ (Schema.versionSuffix.map byteOf).matches' ↔
      ∃ start suffix, startsSuffix start = true ∧ isVersionSuffix suffix = true ∧
        tail = start :: suffix := by
  have hstart (start : UInt8) : start ∈ ['-', '+'].map byteOf ↔ startsSuffix start = true := by
    simp [startsSuffix, show byteOf '-' = 45 by decide, show byteOf '+' = 43 by decide]
  rw [Schema.versionSuffix, map_mul, map_oneOf, map_oneOrMore, map_oneOf, mem_oneOf_mul]
  simp only [hstart, mem_oneOrMore_oneOf, versionSuffixLetters_iff, isVersionSuffix,
    Bool.and_eq_true (!_), List.all_eq_true, Bool.not_eq_true', isEmpty_eq_false_iff,
    exists_and_left]

/-- What is split off begins where it was split off. -/
theorem eq_of_splitVersionSuffix {value suffix} (h : splitVersionSuffix value = (core, suffix)) :
    (suffix = none ∧ value = core) ∨
      ∃ start rest, suffix = some rest ∧ startsSuffix start = true ∧
        value = core ++ start :: rest := by
  unfold splitVersionSuffix at h
  split at h
  case h_1 =>
    cases h
    exact .inl ⟨rfl, rfl⟩
  case h_2 index hindex =>
    cases h
    obtain ⟨hlt, hstart, -⟩ := findIdx?_eq_some_iff_getElem.mp hindex
    refine .inr ⟨value[index], _, rfl, hstart, ?_⟩
    rw [getElem_cons_drop, take_append_drop]

/-- The three parts of a version are what lies between its dots. -/
theorem splitOn_version_iff :
    ((core.splitOn 46).length = 3 ∧ ∀ part ∈ core.splitOn 46, isVersionPart part = true) ↔
      ∃ major minor patch, isVersionPart major = true ∧ isVersionPart minor = true ∧
        isVersionPart patch = true ∧ core = major ++ 46 :: (minor ++ 46 :: patch) := by
  have hjoin (major minor patch : Text) : List.intercalate [46] [major, minor, patch] =
      major ++ 46 :: (minor ++ 46 :: patch) := by
    simp
  constructor
  · rintro ⟨hlen, hparts⟩
    obtain ⟨major, minor, patch, hsplit⟩ := length_eq_three.mp hlen
    have hcore : List.intercalate [46] (core.splitOn 46) = core := intercalate_splitOn 46
    rw [hsplit] at hparts hcore
    simp only [forall_mem_cons] at hparts
    exact ⟨major, minor, patch, hparts.1, hparts.2.1, hparts.2.2.1, by rw [← hcore, hjoin]⟩
  · rintro ⟨major, minor, patch, hmajor, hminor, hpatch, rfl⟩
    have hparts : ∀ part ∈ [major, minor, patch], isVersionPart part = true := by
      simp [hmajor, hminor, hpatch]
    have hfree : ∀ part ∈ [major, minor, patch], (46 : UInt8) ∉ part := by
      intro part hpart hdot
      exact absurd (versionPart_digits (hparts part hpart) 46 hdot) (by decide)
    rw [← hjoin, splitOn_intercalate 46 hfree (cons_ne_nil _ _)]
    exact ⟨rfl, hparts⟩

/-- The core of a version has no byte that begins a suffix. -/
theorem startsSuffix_of_core {major minor patch} (hmajor : isVersionPart major = true)
    (hminor : isVersionPart minor = true) (hpatch : isVersionPart patch = true) :
    ∀ byte ∈ major ++ 46 :: (minor ++ 46 :: patch), startsSuffix byte = false := by
  have hdigit : ∀ byte, isAsciiDigit byte = true → startsSuffix byte = false := by decide +kernel
  simp only [forall_mem_append, forall_mem_cons]
  exact ⟨fun byte hbyte => hdigit byte (versionPart_digits hmajor byte hbyte), rfl,
    fun byte hbyte => hdigit byte (versionPart_digits hminor byte hbyte), rfl,
    fun byte hbyte => hdigit byte (versionPart_digits hpatch byte hbyte)⟩

theorem mem_componentVersion_iff (value : Text) :
    value ∈ (Schema.componentVersion.map byteOf).matches' ↔
      ∃ core tail, ((core.splitOn 46).length = 3 ∧
          ∀ part ∈ core.splitOn 46, isVersionPart part = true) ∧
        (tail = [] ∨ ∃ start suffix, startsSuffix start = true ∧ isVersionSuffix suffix = true ∧
          tail = start :: suffix) ∧ value = core ++ tail := by
  have hdot : byteOf '.' = 46 := by decide
  simp only [splitOn_version_iff, ← mem_versionSuffix_iff]
  rw [Schema.componentVersion]
  simp only [map_mul, map_char, hdot, map_optional, mem_mul, ← isVersionPart_iff]
  constructor
  · rintro ⟨major, hmajor, _, ⟨_, rfl, _, ⟨minor, hminor, _, ⟨_, rfl, _, ⟨patch, hpatch, tail,
      htail, rfl⟩, rfl⟩, rfl⟩, rfl⟩, rfl⟩
    exact ⟨_, tail, ⟨major, minor, patch, hmajor, hminor, hpatch, rfl⟩, htail.symm, by simp⟩
  · rintro ⟨_, tail, ⟨major, minor, patch, hmajor, hminor, hpatch, rfl⟩, htail, rfl⟩
    exact ⟨major, hmajor, _, ⟨_, rfl, _, ⟨minor, hminor, _, ⟨_, rfl, _, ⟨patch, hpatch, tail,
      htail.symm, rfl⟩, rfl⟩, rfl⟩, rfl⟩, by simp⟩

theorem isComponentVersion_iff (value : Text) :
    isComponentVersion value = true ↔
      value ∈ (Schema.componentVersion.map byteOf).matches' ∧ value.length ≤ 128 := by
  rw [mem_componentVersion_iff]
  constructor
  · intro h
    unfold isComponentVersion at h
    split at h
    case isTrue => cases h
    case isFalse hlen =>
      simp only [Bool.or_eq_true, decide_eq_true_eq, not_or, not_lt] at hlen
      refine ⟨?_, hlen.2⟩
      cases hsplit : splitVersionSuffix value with
      | mk core suffix =>
        rw [hsplit] at h
        dsimp only at h
        split at h
        case isTrue => cases h
        case isFalse hsuffix =>
          rw [Bool.and_eq_true, beq_iff_eq, List.all_eq_true] at h
          -- Either there is a suffix, or the core is all there is.
          rcases eq_of_splitVersionSuffix hsplit with
            ⟨rfl, rfl⟩ | ⟨start, rest, rfl, hstart, rfl⟩
          · exact ⟨value, [], h, .inl rfl, (append_nil value).symm⟩
          · exact ⟨core, _, h, .inr ⟨start, rest, hstart, by simpa using hsuffix, rfl⟩, rfl⟩
  · rintro ⟨⟨core, tail, hcore, htail, rfl⟩, hlen⟩
    -- The value is split where it should be, as no byte of the core starts a suffix.
    have hfree : ∀ byte ∈ core, startsSuffix byte = false := by
      obtain ⟨major, minor, patch, hmajor, hminor, hpatch, rfl⟩ := splitOn_version_iff.mp hcore
      exact startsSuffix_of_core hmajor hminor hpatch
    have hne : core ≠ [] := by
      rintro rfl
      exact absurd hcore.1 (by decide)
    have hbounds : ¬ ((core ++ tail).isEmpty ||
        maxComponentVersionBytes < (core ++ tail).length) = true := by
      simp only [Bool.or_eq_true, decide_eq_true_eq, not_or, not_lt]
      exact ⟨by simp [hne], hlen⟩
    have hparts : ((core.splitOn 46).length == 3 && (core.splitOn 46).all isVersionPart) =
        true := by
      rw [Bool.and_eq_true, beq_iff_eq, List.all_eq_true]
      exact hcore
    unfold isComponentVersion
    rw [if_neg hbounds]
    rcases htail with rfl | ⟨start, suffix, hstart, hsuffix, rfl⟩
    · rw [append_nil, splitVersionSuffix_core hfree]
      exact hparts
    · rw [splitVersionSuffix_append hfree hstart]
      simpa [hsuffix] using hparts

/-! ## Operation names -/

/-- `[a-z0-9]([a-z0-9_-]*[a-z0-9])?`. -/
def nameSegment : RegularExpression Char :=
  oneOf (Schema.range 'a' 'z' ++ Schema.range '0' '9') *
    optional ((oneOf Schema.idLetters).star * oneOf (Schema.range 'a' 'z' ++ Schema.range '0' '9'))

/-- What `OperationName::new` accepts:
`^[a-z0-9]([a-z0-9_-]*[a-z0-9])?(\.[a-z0-9]([a-z0-9_-]*[a-z0-9])?)+$`. -/
def operationNamePattern : RegularExpression Char :=
  separated '.' nameSegment

structure IsSegment (segment : Text) : Prop where
  nonempty : segment ≠ []
  portable : ∀ byte ∈ segment, isPortableByte byte = true
  first : segment.head?.any isAsciiAlphanumeric = true
  last : segment.getLast?.any isAsciiAlphanumeric = true

variable {segment : Text}

theorem validateSegment_eq_ok_iff {field} :
    validateSegment field segment = .ok () ↔ IsSegment segment := by
  simp only [validateSegment, Guard.ite_error_eq_ok, List.isEmpty_iff, Bool.not_eq_true',
    Bool.not_eq_false, List.all_eq_true, Bool.or_eq_true, not_or, and_true]
  constructor
  · rintro ⟨hne, hport, hfirst, hlast⟩
    exact ⟨hne, hport, hfirst, hlast⟩
  · intro h
    exact ⟨h.nonempty, h.portable, h.first, h.last⟩

/-- The letters and digits are the bytes of a segment that are alphanumeric. -/
theorem letterOrDigit_iff (byte : UInt8) :
    byte ∈ (Schema.range 'a' 'z' ++ Schema.range '0' '9').map byteOf ↔
      isPortableByte byte = true ∧ isAsciiAlphanumeric byte = true := by
  rw [map_append, mem_append, lowercase_iff, digit_iff]
  revert byte
  decide +kernel

theorem mem_nameSegment_iff (segment : Text) :
    segment ∈ (nameSegment.map byteOf).matches' ↔ IsSegment segment := by
  rw [nameSegment, map_mul, map_optional, map_mul, map_star, map_oneOf, map_oneOf, mem_oneOf_mul]
  simp only [letterOrDigit_iff, mem_optional, mem_mul, mem_star_oneOf, mem_oneOf, idLetters_iff]
  constructor
  · rintro ⟨first, ⟨hport, hfirst⟩, rest,
      ⟨middle, hmiddle, _, ⟨last, ⟨hlastPortable, hlast⟩, rfl⟩, rfl⟩ | rfl, rfl⟩
    · refine ⟨cons_ne_nil _ _, ?_, hfirst, ?_⟩
      · simp only [forall_mem_cons, forall_mem_append]
        exact ⟨hport, hmiddle, hlastPortable, forall_mem_nil _⟩
      · rw [← cons_append, getLast?_concat]
        exact hlast
    · exact ⟨cons_ne_nil _ _, by simpa using hport, hfirst, hfirst⟩
  · rintro ⟨hne, hport, hfirst, hlast⟩
    obtain ⟨first, rest, rfl⟩ := exists_cons_of_ne_nil hne
    obtain ⟨hfirstPortable, hrest⟩ := forall_mem_cons.mp hport
    refine ⟨first, ⟨hfirstPortable, hfirst⟩, rest, ?_, rfl⟩
    rcases eq_nil_or_concat' rest with rfl | ⟨middle, last, rfl⟩
    · exact .inr rfl
    · obtain ⟨hmiddle, hlastPortable⟩ := forall_mem_append.mp hrest
      rw [← cons_append, getLast?_concat] at hlast
      exact .inl ⟨middle, hmiddle, [last],
        ⟨last, ⟨hlastPortable last mem_cons_self, hlast⟩, rfl⟩, rfl⟩

/-- A segment does not contain a dot. -/
theorem IsSegment.dot_notMem (h : IsSegment segment) : 46 ∉ segment :=
  fun hdot => absurd (h.portable 46 hdot) (by decide)

theorem mem_operationNamePattern_iff (value : Text) :
    value ∈ (operationNamePattern.map byteOf).matches' ↔
      46 ∈ value ∧ ∀ segment ∈ value.splitOn 46, IsSegment segment := by
  have hdot : byteOf '.' = 46 := by decide
  have hfree : ∀ part ∈ (nameSegment.map byteOf).matches', (46 : UInt8) ∉ part :=
    fun part hpart => ((mem_nameSegment_iff part).mp hpart).dot_notMem
  rw [operationNamePattern, map_separated, hdot, mem_separated_iff_splitOn hfree]
  simp only [mem_nameSegment_iff]

theorem validateName_operation_iff (value : Text) :
    validateName value .operation maxOperationNameBytes true = .ok () ↔
      value ∈ (operationNamePattern.map byteOf).matches' ∧ value.length ≤ 128 := by
  rw [mem_operationNamePattern_iff]
  simp only [validateName, Guard.ite_error_eq_ok, Guard.forM_eq_ok_iff,
    validateSegment_eq_ok_iff, Bool.true_and, Bool.not_eq_true', Bool.not_eq_false,
    List.isEmpty_iff, contains_iff_mem, not_lt]
  constructor
  · rintro ⟨-, hlen, hmem, hsegs⟩
    exact ⟨⟨hmem, hsegs⟩, hlen⟩
  · rintro ⟨⟨hmem, hsegs⟩, hlen⟩
    exact ⟨ne_nil_of_mem hmem, hlen, hmem, hsegs⟩

theorem exists_operationName_iff (value : Text) :
    (∃ name, OperationName.new value = .ok name) ↔
      validateName value .operation maxOperationNameBytes true = .ok () := by
  refine ⟨fun ⟨name, hname⟩ => ?_, fun hvalid =>
    ⟨⟨value, hvalid⟩, OperationName.new_eq_ok_iff.mpr rfl⟩⟩
  rw [← OperationName.new_eq_ok_iff.mp hname]
  exact name.valid

/-- The identifier of a descriptor is accepted when it is an operation name, whatever else the
descriptor says. -/
theorem exists_tryFrom_iff {raw operation} (h : DiscoveredOperation.tryFrom raw = .ok operation)
    (value : Text) :
    (∃ other, DiscoveredOperation.tryFrom { raw with id := value } = .ok other) ↔
      ∃ name, OperationName.new value = .ok name := by
  constructor
  · rintro ⟨other, hother⟩
    exact ⟨other.name, (tryFrom_operation_spec hother).1⟩
  · rintro ⟨name, hname⟩
    obtain ⟨-, hver, hvalid, hinput, houtput, -⟩ := tryFrom_operation_spec h
    exact exists_tryFrom_operation hname hver hvalid hinput houtput

/-- A segment of an operation id of the schema. -/
theorem mem_idSegment_iff (segment : Text) :
    segment ∈ ((oneOf (Schema.range 'a' 'z') * (oneOf Schema.idLetters).star).map
        byteOf).matches' ↔
      segment.head?.any isAsciiLowercase = true ∧
        ∀ byte ∈ segment, isPortableByte byte = true := by
  rw [map_mul, map_oneOf, map_star, map_oneOf, mem_oneOf_mul]
  simp only [lowercase_iff, mem_star_oneOf, idLetters_iff]
  constructor
  · rintro ⟨first, hfirst, rest, hrest, rfl⟩
    refine ⟨hfirst, forall_mem_cons.mpr ⟨?_, hrest⟩⟩
    simp [isPortableByte, hfirst]
  · rintro ⟨hfirst, hport⟩
    cases segment with
    | nil => cases hfirst
    | cons first rest =>
      exact ⟨first, hfirst, rest, (forall_mem_cons.mp hport).2, rfl⟩

theorem mem_operationId_iff (value : Text) :
    value ∈ (Schema.operationId.map byteOf).matches' ↔
      46 ∈ value ∧ ∀ segment ∈ value.splitOn 46, segment.head?.any isAsciiLowercase = true ∧
        ∀ byte ∈ segment, isPortableByte byte = true := by
  have hdot : byteOf '.' = 46 := by decide
  have hfree : ∀ part ∈ ((oneOf (Schema.range 'a' 'z') * (oneOf Schema.idLetters).star).map
      byteOf).matches', (46 : UInt8) ∉ part := fun part hpart hmem =>
    absurd (((mem_idSegment_iff part).mp hpart).2 46 hmem) (by decide)
  rw [Schema.operationId, map_separated, hdot, mem_separated_iff_splitOn hfree]
  simp only [mem_idSegment_iff]

/-- The segment begins with a digit, which the schema does not allow. -/
def beginsWithDigit (segment : Text) : Bool :=
  segment.head?.any isAsciiDigit

/-- The segment ends in `-` or `_`, which `OperationName::new` does not allow. -/
def endsInPunctuation (segment : Text) : Bool :=
  segment.getLast?.any fun byte => byte == 45 || byte == 95

/-- A byte of a segment is alphanumeric unless it is `-` or `_`. -/
theorem alphanumeric_of_portable : ∀ byte, isPortableByte byte = true →
    isAsciiAlphanumeric byte = !(byte == 45 || byte == 95) := by
  decide +kernel

/-- What begins a segment is a letter unless it is a digit. -/
theorem lowercase_of_portable : ∀ byte, isPortableByte byte = true →
    (isAsciiAlphanumeric byte = true ∧ isAsciiDigit byte = false ↔
      isAsciiLowercase byte = true) := by
  decide +kernel

/-- On a single segment the two rules differ at its ends only. -/
theorem isSegment_iff_idSegment (segment : Text) :
    (IsSegment segment ∧ beginsWithDigit segment = false) ↔
      ((segment.head?.any isAsciiLowercase = true ∧
          ∀ byte ∈ segment, isPortableByte byte = true) ∧
        endsInPunctuation segment = false) := by
  have hends (hne : segment ≠ []) (hport : ∀ byte ∈ segment, isPortableByte byte = true) :
      segment.getLast?.any isAsciiAlphanumeric = true ↔ endsInPunctuation segment = false := by
    rw [endsInPunctuation, getLast?_eq_some_getLast hne, any_some, any_some,
      alphanumeric_of_portable _ (hport _ (getLast_mem hne)), Bool.not_eq_true']
  constructor
  · rintro ⟨⟨hne, hport, hfirst, hlast⟩, hdigit⟩
    obtain ⟨first, rest, rfl⟩ := exists_cons_of_ne_nil hne
    exact ⟨⟨(lowercase_of_portable first (hport first mem_cons_self)).mp ⟨hfirst, hdigit⟩,
      hport⟩, (hends hne hport).mp hlast⟩
  · rintro ⟨⟨hlower, hport⟩, hpunctuation⟩
    cases segment with
    | nil => cases hlower
    | cons first rest =>
      obtain ⟨hfirst, hdigit⟩ :=
        (lowercase_of_portable first (hport first mem_cons_self)).mpr hlower
      have hne := cons_ne_nil first rest
      exact ⟨⟨hne, hport, hfirst, (hends hne hport).mpr hpunctuation⟩, hdigit⟩

/-! ## Main results -/

/-- The lexers accept exactly the strings that match the patterns of the schema and are short
enough. -/
theorem discovery_lexers_match_schema (value : String) :
    (isComponent (utf8 value) = true ↔
        value.toList ∈ Schema.component.matches' ∧ (utf8 value).length ≤ 71) ∧
      (isComponentVersion (utf8 value) = true ↔
        value.toList ∈ Schema.componentVersion.matches' ∧ (utf8 value).length ≤ 128) ∧
      ((∃ contract, ContractId.new (utf8 value) = .ok contract) ↔
        value.toList ∈ Schema.contractId.matches' ∧ (utf8 value).length ≤ 128) ∧
      (isContentType (utf8 value) = true ↔
        value.toList ∈ Schema.contentType.matches' ∧ (utf8 value).length ≤ 128) := by
  have hcomponent : IsAscii Schema.component :=
    IsAscii.mul (by decide +kernel) (IsAscii.mul (by decide +kernel)
      (IsAscii.oneTo (by decide +kernel) 62))
  have hcomponentVersion : IsAscii Schema.componentVersion := by decide +kernel
  have hcontractId : IsAscii Schema.contractId := by decide +kernel
  have hcontentType : IsAscii Schema.contentType := by decide +kernel
  refine ⟨?_, ?_, ?_, ?_⟩
  · rw [isComponent_iff, utf8_mem_iff hcomponent]
  · rw [isComponentVersion_iff, utf8_mem_iff hcomponentVersion]
  · rw [exists_contractId_iff, validateContractId_iff, utf8_mem_iff hcontractId]
  · rw [isContentType_iff, utf8_mem_iff hcontentType]

/-- `OperationName::new` accepts `1data.run`, which does not match the operation id pattern of
the schema, and rejects `data.run-`, which does. -/
theorem operation_names_differ_from_schema :
    (∃ name, OperationName.new (utf8 "1data.run") = .ok name) ∧
      "1data.run".toList ∉ Schema.operationId.matches' ∧
      (∀ name, OperationName.new (utf8 "data.run-") ≠ .ok name) ∧
      "data.run-".toList ∈ Schema.operationId.matches' := by
  have hascii : IsAscii Schema.operationId := by decide +kernel
  refine ⟨?_, ?_, ?_, ?_⟩
  · exact (exists_operationName_iff _).mpr (by decide +kernel)
  · rw [← utf8_mem_iff hascii, mem_operationId_iff]
    decide +kernel
  · rw [← not_exists, exists_operationName_iff]
    decide +kernel
  · rw [← utf8_mem_iff hascii, mem_operationId_iff]
    decide +kernel

/-- Up to 128 bytes, `OperationName::new` accepts exactly what matches its pattern, and so does
the identifier of an operation descriptor. The pattern is the one of the schema, except that
a segment may begin with a digit and must not end in `-` or `_`. -/
theorem operation_names_match_pattern (value : String) (hlength : (utf8 value).length ≤ 128) :
    ((∃ name, OperationName.new (utf8 value) = .ok name) ↔
        value.toList ∈ operationNamePattern.matches') ∧
      (∀ raw operation, DiscoveredOperation.tryFrom raw = .ok operation →
        ((∃ other, DiscoveredOperation.tryFrom { raw with id := utf8 value } = .ok other) ↔
          value.toList ∈ operationNamePattern.matches')) ∧
      ((value.toList ∈ operationNamePattern.matches' ∧
          ∀ segment ∈ (utf8 value).splitOn 46, beginsWithDigit segment = false) ↔
        (value.toList ∈ Schema.operationId.matches' ∧
          ∀ segment ∈ (utf8 value).splitOn 46, endsInPunctuation segment = false)) := by
  have hpattern : IsAscii operationNamePattern := by decide +kernel
  have hschema : IsAscii Schema.operationId := by decide +kernel
  have hname : (∃ name, OperationName.new (utf8 value) = .ok name) ↔
      value.toList ∈ operationNamePattern.matches' := by
    rw [exists_operationName_iff, validateName_operation_iff, utf8_mem_iff hpattern]
    exact and_iff_left hlength
  refine ⟨hname, fun raw operation haccepted => ?_, ?_⟩
  · rw [exists_tryFrom_iff haccepted, hname]
  · rw [← utf8_mem_iff hpattern, ← utf8_mem_iff hschema, mem_operationNamePattern_iff,
      mem_operationId_iff, and_assoc, and_assoc, ← forall₂_and, ← forall₂_and]
    simp only [isSegment_iff_idSegment]

/-- A name that begins with a digit is accepted. -/
theorem operation_names_match_pattern_digit :
    ∃ name, OperationName.new (utf8 "1data.run") = .ok name := by
  have hmatches : "1data.run".toList ∈ operationNamePattern.matches' := by decide +kernel
  exact (operation_names_match_pattern "1data.run" (by decide +kernel)).1.mpr hmatches

end PlenoraRuntime.Capabilities
