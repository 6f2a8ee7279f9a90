import Mathlib.Data.List.Basic
import Mathlib.Data.Nat.Digits.Lemmas

/-!
# Bytes, texts and identifiers

A `str` is its UTF-8 bytes, so that lengths, comparisons and lexers are those of
the source.

* **Numbers** are written as `to_string` does and read as `str::parse` does. What is written
  is read back, but a plus sign and leading zeros are read as well: `isPadded` tells these
  numerals apart (`decimal_eq_iff_of_parseU64`).
* **Parts** of a text are cut off at the first or the last occurrence of a pattern.
* **Identifiers** are numbers, in the order of the bytes they stand for.
-/

namespace PlenoraRuntime

open List Option

abbrev Bytes := List UInt8

/-- `str`, as its UTF-8 bytes. -/
abbrev Text := List UInt8

/-- The bytes of a text literal. -/
def utf8 (literal : String) : Text :=
  literal.toUTF8.data.toList

/-! ## ASCII -/

def isAsciiLowercase (byte : UInt8) : Bool :=
  97 ≤ byte && byte ≤ 122

def isAsciiUppercase (byte : UInt8) : Bool :=
  65 ≤ byte && byte ≤ 90

def isAsciiDigit (byte : UInt8) : Bool :=
  48 ≤ byte && byte ≤ 57

def isAsciiAlphanumeric (byte : UInt8) : Bool :=
  isAsciiLowercase byte || (65 ≤ byte && byte ≤ 90) || isAsciiDigit byte

variable {byte : UInt8}

theorem lt_of_isAsciiLowercase (h : isAsciiLowercase byte = true) : byte < 128 := by
  simp only [isAsciiLowercase, Bool.and_eq_true, decide_eq_true_eq] at h
  exact UInt8.lt_of_le_of_lt h.2 (by decide)

theorem lt_of_isAsciiDigit (h : isAsciiDigit byte = true) : byte < 128 := by
  simp only [isAsciiDigit, Bool.and_eq_true, decide_eq_true_eq] at h
  exact UInt8.lt_of_le_of_lt h.2 (by decide)

def toAsciiLowercase (byte : UInt8) : UInt8 :=
  if 65 ≤ byte && byte ≤ 90 then byte + 32 else byte

def eqIgnoreAsciiCase (first second : Text) : Bool :=
  first.map toAsciiLowercase == second.map toAsciiLowercase

/-- A number as `to_string` writes it. -/
def decimal (n : ℕ) : Text :=
  if n = 0 then [48] else (Nat.digits 10 n).reverse.map fun digit => UInt8.ofNat (48 + digit)

theorem length_decimal_le {n : ℕ} (width : ℕ) (hwidth : 0 < width) (h : n < 10 ^ width) :
    (decimal n).length ≤ width := by
  unfold decimal
  split
  · exact hwidth
  · rw [length_map, length_reverse]
    exact (Nat.digits_length_le_iff (by decide) n).mpr h

/-- The number that digits spell. -/
def digitsValue (digits : Text) : ℕ :=
  digits.foldl (fun n digit => 10 * n + (digit.toNat - 48)) 0

/-- The digits of a number, which may follow a plus sign. -/
def withoutPlus : Text → Text
  | [] => []
  | first :: rest => if first = 43 then rest else first :: rest

/-- `str::parse::<u16>`: a plus sign and leading zeros are accepted. -/
def parseU16 (text : Text) : Option UInt16 :=
  let digits := withoutPlus text
  if digits.isEmpty || !digits.all isAsciiDigit then none
  else if digitsValue digits < 2 ^ 16 then some (UInt16.ofNat (digitsValue digits))
  else none

theorem toNat_of_isAsciiDigit (h : isAsciiDigit byte = true) :
    48 ≤ byte.toNat ∧ byte.toNat ≤ 57 := by
  simpa [isAsciiDigit, UInt8.le_iff_toNat_le] using h

variable {digits : Text}

theorem digitsValue_lt (h : ∀ digit ∈ digits, isAsciiDigit digit = true) :
    digitsValue digits < 10 ^ digits.length := by
  -- From the last digit: it adds less than one to a tenth of the bound.
  induction digits using List.reverseRecOn with
  | nil => decide
  | append_singleton rest digit ih =>
    simp only [mem_append, mem_singleton] at h
    have hrest := ih fun other hother => h other (.inl hother)
    have hdigit := toNat_of_isAsciiDigit (h digit (.inr rfl))
    rw [digitsValue, foldl_append, foldl_cons, foldl_nil, ← digitsValue, length_append,
      length_singleton]
    omega

theorem isAsciiDigit_of_decimal {n : ℕ} (h : byte ∈ decimal n) : isAsciiDigit byte = true := by
  unfold decimal at h
  split at h
  · obtain rfl := mem_singleton.mp h
    decide
  · obtain ⟨digit, hdigit, rfl⟩ := List.mem_map.mp h
    have hlt : digit < 10 := Nat.digits_lt_base (by decide) (mem_reverse.mp hdigit)
    have hall : ∀ digit < 10, isAsciiDigit (UInt8.ofNat (48 + digit)) = true := by decide
    exact hall digit hlt

theorem decimal_ne_nil (n : ℕ) : decimal n ≠ [] := by
  unfold decimal
  split
  · simp
  case isFalse hn => simp [Nat.digits_ne_nil_iff_ne_zero.mpr hn]

theorem digitsValue_decimal (n : ℕ) : digitsValue (decimal n) = n := by
  have hfold : ∀ digits : List ℕ, (∀ digit ∈ digits, digit < 10) →
      digits.foldr (fun digit n => 10 * n + ((UInt8.ofNat (48 + digit)).toNat - 48)) 0 =
        Nat.ofDigits 10 digits := by
    intro digits hdigits
    induction digits with
    | nil => rfl
    | cons digit rest ih =>
      rw [forall_mem_cons] at hdigits
      rw [foldr_cons, ih hdigits.2, Nat.ofDigits_cons, UInt8.toNat_ofNat']
      omega
  unfold decimal digitsValue
  split
  case isTrue hn => rw [hn]; rfl
  case isFalse =>
    rw [foldl_map, foldl_reverse, hfold _ fun digit h => Nat.digits_lt_base (by decide) h,
      Nat.ofDigits_digits]

/-- A number is parsed back from what `to_string` writes. -/
theorem parseU16_decimal (n : UInt16) : parseU16 (decimal n.toNat) = some n := by
  have hdigits : ∀ digit ∈ decimal n.toNat, isAsciiDigit digit = true :=
    fun _ => isAsciiDigit_of_decimal
  have hall : (decimal n.toNat).all isAsciiDigit = true := List.all_eq_true.mpr hdigits
  have hvalue := digitsValue_decimal n.toNat
  have hlt := n.toNat_lt
  have hplus : withoutPlus (decimal n.toNat) = decimal n.toNat := by
    cases htext : decimal n.toNat with
    | nil => rfl
    | cons first rest =>
      refine if_neg ?_
      rintro rfl
      exact absurd (hdigits 43 (htext ▸ mem_cons_self)) (by decide)
  simp [parseU16, hplus, decimal_ne_nil, hall, hvalue, hlt]

theorem length_withoutPlus_le (text : Text) : (withoutPlus text).length ≤ text.length := by
  cases text with
  | nil => exact Nat.le_refl _
  | cons first rest =>
    simp only [withoutPlus]
    split
    · exact Nat.le_succ _
    · exact Nat.le_refl _

variable {text : Text}

theorem mem_withoutPlus (h : byte ∈ text) : byte = 43 ∨ byte ∈ withoutPlus text := by
  cases text with
  | nil => cases h
  | cons first rest =>
    simp only [withoutPlus]
    split
    case isTrue hplus => exact (mem_cons.mp h).imp_left fun heq => heq.trans hplus
    case isFalse => exact .inr h

/-- What is parsed is digits, at least as many as the number needs. -/
theorem of_parseU16 {n : UInt16} (h : parseU16 text = some n) :
    (decimal n.toNat).length ≤ text.length ∧
      ∀ digit ∈ withoutPlus text, isAsciiDigit digit = true := by
  simp only [parseU16] at h
  split at h
  · cases h
  case isFalse hdigits =>
    simp only [Bool.or_eq_true, List.isEmpty_iff, Bool.not_eq_true', not_or, Bool.not_eq_false,
      List.all_eq_true] at hdigits
    obtain ⟨hne, hdigits⟩ := hdigits
    refine ⟨?_, hdigits⟩
    split at h
    case isTrue hlt =>
      cases h
      rw [UInt16.toNat_ofNat', Nat.mod_eq_of_lt hlt]
      exact (length_decimal_le _ (length_pos_of_ne_nil hne) (digitsValue_lt hdigits)).trans
        (length_withoutPlus_le text)
    case isFalse => cases h

/-- `str::parse::<u64>`, with the same spellings. -/
def parseU64 (text : Text) : Option (Fin (2 ^ 64)) :=
  let digits := withoutPlus text
  if digits.isEmpty || !digits.all isAsciiDigit then none
  else if h : digitsValue digits < 2 ^ 64 then some ⟨digitsValue digits, h⟩
  else none

variable {n : Fin (2 ^ 64)}

theorem of_parseU64 (h : parseU64 text = some n) :
    withoutPlus text ≠ [] ∧ (∀ digit ∈ withoutPlus text, isAsciiDigit digit = true) ∧
      digitsValue (withoutPlus text) = n.val := by
  simp only [parseU64] at h
  split at h
  · cases h
  case isFalse hdigits =>
    simp only [Bool.or_eq_true, List.isEmpty_iff, Bool.not_eq_true', not_or, Bool.not_eq_false,
      List.all_eq_true] at hdigits
    split at h
    case isTrue hlt => exact ⟨hdigits.1, hdigits.2, congrArg Fin.val (Option.some.inj h)⟩
    case isFalse => cases h

/-- A numeral with a plus sign, or with a zero in front of another digit. -/
def isPadded : Text → Bool
  | first :: rest => first == 43 || (first == 48 && !rest.isEmpty)
  | [] => false

theorem digitsValue_eq_ofDigits (digits : Text) :
    digitsValue digits = Nat.ofDigits 10 (digits.map fun digit => digit.toNat - 48).reverse := by
  induction digits using List.reverseRecOn with
  | nil => rfl
  | append_singleton rest digit ih =>
    rw [digitsValue, foldl_append, foldl_cons, foldl_nil, ← digitsValue, ih,
      map_append, map_singleton, reverse_append, reverse_singleton,
      singleton_append, Nat.ofDigits_cons, Nat.add_comm]

theorem ofNat_digit (h : isAsciiDigit byte = true) :
    UInt8.ofNat (48 + (byte.toNat - 48)) = byte := by
  have hrange := toNat_of_isAsciiDigit h
  rw [show 48 + (byte.toNat - 48) = byte.toNat by omega, UInt8.ofNat_toNat]

/-- Digits without a leading zero are what `to_string` writes. -/
theorem decimal_digitsValue (hdigits : ∀ digit ∈ digits, isAsciiDigit digit = true)
    (hne : digits ≠ []) (hplain : isPadded digits = false) :
    decimal (digitsValue digits) = digits := by
  obtain ⟨first, rest, rfl⟩ := exists_cons_of_ne_nil hne
  by_cases hzero : first = 48
  · obtain rfl : rest = [] := by simpa [isPadded, hzero] using hplain
    rw [hzero]
    rfl
  let values := ((first :: rest).map fun digit => digit.toNat - 48).reverse
  have hback : Nat.digits 10 (digitsValue (first :: rest)) = values := by
    rw [digitsValue_eq_ofDigits]
    refine Nat.digits_ofDigits 10 (by decide) values (fun value hvalue => ?_) fun hvalues => ?_
    · obtain ⟨digit, hdigit, rfl⟩ := List.mem_map.mp (mem_reverse.mp hvalue)
      have hrange := toNat_of_isAsciiDigit (hdigits digit hdigit)
      omega
    · -- the last of the values is the first digit
      have hfirst := toNat_of_isAsciiDigit (hdigits first mem_cons_self)
      have hother : first.toNat ≠ 48 := fun h => hzero (UInt8.toNat_inj.mp h)
      simp only [values, getLast_reverse, map_cons, head_cons]
      omega
  have hpos : digitsValue (first :: rest) ≠ 0 := by
    intro hvalue
    rw [hvalue] at hback
    simp [values] at hback
  rw [decimal, if_neg hpos, hback, reverse_reverse, List.map_map]
  refine map_congr_left (fun digit hdigit => ofNat_digit (hdigits digit hdigit)) |>.trans ?_
  exact List.map_id _

/-- What `to_string` writes is never padded. -/
theorem isPadded_decimal (n : ℕ) : isPadded (decimal n) = false := by
  cases htext : decimal n with
  | nil => rfl
  | cons first rest =>
    have hdigits : ∀ digit ∈ first :: rest, isAsciiDigit digit = true := fun digit hdigit =>
      isAsciiDigit_of_decimal (htext ▸ hdigit)
    rw [isPadded, Bool.or_eq_false_iff]
    constructor
    · refine beq_eq_false_iff_ne.mpr ?_
      rintro rfl
      exact absurd (hdigits 43 mem_cons_self) (by decide)
    · -- a leading zero would make the text longer than the number needs
      by_contra hpadded
      simp only [Bool.not_eq_false, Bool.and_eq_true, beq_iff_eq, Bool.not_eq_true',
        isEmpty_eq_false_iff] at hpadded
      obtain ⟨rfl, hrest⟩ := hpadded
      have hvalue : n = digitsValue rest := by
        rw [← digitsValue_decimal n, htext]
        rfl
      have hlt : n < 10 ^ rest.length := by
        rw [hvalue]
        exact digitsValue_lt fun digit hdigit => hdigits digit (mem_cons_of_mem _ hdigit)
      have hlen := length_decimal_le _ (length_pos_of_ne_nil hrest) hlt
      rw [htext, length_cons] at hlen
      omega

/-- A text that is parsed is the one `to_string` writes exactly when it is not padded. -/
theorem decimal_eq_iff_of_parseU64 (h : parseU64 text = some n) :
    decimal n.val = text ↔ isPadded text = false := by
  obtain ⟨hne, hdigits, hvalue⟩ := of_parseU64 h
  constructor
  · rintro rfl
    exact isPadded_decimal n.val
  · intro hplain
    have hplus : withoutPlus text = text := by
      cases text with
      | nil => rfl
      | cons first rest =>
        refine if_neg fun hfirst => ?_
        simp [isPadded, hfirst] at hplain
    rw [hplus] at hne hdigits hvalue
    rw [← hvalue]
    exact decimal_digitsValue hdigits hne hplain

/-! ## Parts of a text -/

def stripPrefix (pattern value : Text) : Option Text :=
  value.dropPrefix? pattern

variable {pattern : Text}

theorem eq_append_of_stripPrefix {value rest : Text} (h : stripPrefix pattern value = some rest) :
    value = pattern ++ rest := by
  obtain ⟨first, rfl, hsame⟩ := dropPrefix?_eq_some_iff.mp h
  rw [eq_of_beq hsame]

variable {separator : UInt8}

theorem mem_intercalate {parts : List Text} (h : byte ∈ List.intercalate [separator] parts) :
    byte = separator ∨ ∃ part ∈ parts, byte ∈ part := by
  induction parts with
  | nil => cases h
  | cons first rest ih =>
    cases rest with
    | nil =>
      rw [intercalate_singleton] at h
      exact .inr ⟨first, mem_cons_self, h⟩
    | cons second rest =>
      rw [intercalate_cons_cons, mem_append, mem_append,
        mem_singleton] at h
      rcases h with (h | h) | h
      · exact .inr ⟨first, mem_cons_self, h⟩
      · exact .inl h
      · refine (ih h).imp_right ?_
        rintro ⟨part, hpart, hbyte⟩
        exact ⟨part, mem_cons_of_mem _ hpart, hbyte⟩

/-- `str::rsplit_once`: the parts around the last occurrence of a pattern. -/
def rsplitOnce (pattern : Text) : Text → Option (Text × Text)
  | [] => (stripPrefix pattern []).map fun after => ([], after)
  | byte :: rest =>
    match rsplitOnce pattern rest with
    | some (before, after) => some (byte :: before, after)
    | none => (stripPrefix pattern (byte :: rest)).map fun after => ([], after)

variable {after before : Text}

theorem eq_append_of_rsplitOnce (h : rsplitOnce pattern text = some (before, after)) :
    text = before ++ pattern ++ after := by
  induction text generalizing before with
  | nil =>
    obtain ⟨rest, hrest, heq⟩ := map_eq_some_iff.mp h
    cases heq
    exact eq_append_of_stripPrefix hrest
  | cons byte rest ih =>
    unfold rsplitOnce at h
    split at h
    case h_1 hlater =>
      cases h
      rw [ih hlater]
      rfl
    case h_2 =>
      obtain ⟨tail, htail, heq⟩ := map_eq_some_iff.mp h
      cases heq
      exact eq_append_of_stripPrefix htail

variable {first : UInt8}

theorem rsplitOnce_eq_none (h : first ∉ text) : rsplitOnce (first :: pattern) text = none := by
  have hstrip : ∀ text : Text, first ∉ text → stripPrefix (first :: pattern) text = none := by
    intro text habsent
    cases hsome : stripPrefix (first :: pattern) text with
    | none => rfl
    | some rest =>
      rw [eq_append_of_stripPrefix hsome] at habsent
      exact absurd mem_cons_self habsent
  induction text with
  | nil => rw [rsplitOnce, hstrip [] h, map_none]
  | cons byte rest ih =>
    rw [rsplitOnce, ih (fun hmem => h (mem_cons_of_mem _ hmem)), hstrip _ h,
      map_none]

theorem stripPrefix_append (pattern rest : Text) :
    stripPrefix pattern (pattern ++ rest) = some rest :=
  dropPrefix?_eq_some_iff.mpr ⟨pattern, rfl, beq_self_eq_true pattern⟩

/-- A text is split at a pattern after which the pattern cannot begin again. -/
theorem rsplitOnce_append (h : first ∉ pattern ++ after) (before : Text) :
    rsplitOnce (first :: pattern) (before ++ first :: (pattern ++ after)) =
      some (before, after) := by
  induction before with
  | nil =>
    rw [nil_append, rsplitOnce, rsplitOnce_eq_none h, ← cons_append,
      stripPrefix_append, map_some]
  | cons byte before ih => rw [cons_append, rsplitOnce, ih]

/-- `str::split_once`, for a separator of one byte: the parts around its first occurrence. -/
def splitOnce (separator : UInt8) : Text → Option (Text × Text)
  | [] => none
  | byte :: rest =>
    if byte = separator then some ([], rest)
    else (splitOnce separator rest).map fun parts => (byte :: parts.1, parts.2)

theorem splitOnce_eq_some_iff :
    splitOnce separator text = some (before, after) ↔
      text = before ++ separator :: after ∧ separator ∉ before := by
  induction text generalizing before with
  | nil => simp [splitOnce]
  | cons byte rest ih =>
    rw [splitOnce]
    by_cases hbyte : byte = separator
    · rw [if_pos hbyte]
      cases before with
      | nil => simp [hbyte, eq_comm]
      | cons first before =>
        refine iff_of_false (by simp) ?_
        rintro ⟨heq, habsent⟩
        exact habsent ((List.cons.inj heq).1 ▸ hbyte ▸ mem_cons_self)
    · rw [if_neg hbyte]
      cases before with
      | nil => simp [hbyte]
      | cons first before =>
        simp only [map_eq_some_iff, Prod.mk.injEq, List.cons.injEq, cons_append,
          mem_cons, not_or]
        constructor
        · rintro ⟨⟨found, last⟩, hfound, ⟨rfl, rfl⟩, rfl⟩
          obtain ⟨hrest, habsent⟩ := ih.mp hfound
          exact ⟨⟨rfl, hrest⟩, Ne.symm hbyte, habsent⟩
        · rintro ⟨⟨rfl, hrest⟩, -, habsent⟩
          exact ⟨(before, after), ih.mpr ⟨hrest, habsent⟩, ⟨rfl, rfl⟩, rfl⟩

/-! ## UTF-8 -/

/-- A byte that continues a character. -/
def isContinuation (byte : UInt8) : Bool :=
  128 ≤ byte && byte ≤ 191

/-- The first two of the three bytes of a character. -/
def startsThreeBytes (first second : UInt8) : Bool :=
  (first == 224 && 160 ≤ second && second ≤ 191) ||
    (225 ≤ first && first ≤ 236 && isContinuation second) ||
    (first == 237 && 128 ≤ second && second ≤ 159) ||
    (238 ≤ first && first ≤ 239 && isContinuation second)

/-- The first two of the four bytes of a character. -/
def startsFourBytes (first second : UInt8) : Bool :=
  (first == 240 && 144 ≤ second && second ≤ 191) ||
    (241 ≤ first && first ≤ 243 && isContinuation second) ||
    (first == 244 && 128 ≤ second && second ≤ 143)

/-- The bytes are those of a `str`. -/
def isUtf8 : Bytes → Bool
  | [] => true
  | first :: rest =>
    if first < 128 then isUtf8 rest
    else match rest with
      | [] => false
      | second :: rest =>
        if 194 ≤ first && first ≤ 223 then isContinuation second && isUtf8 rest
        else match rest with
          | [] => false
          | third :: rest =>
            if startsThreeBytes first second then isContinuation third && isUtf8 rest
            else match rest with
              | [] => false
              | fourth :: rest =>
                startsFourBytes first second && isContinuation third &&
                  isContinuation fourth && isUtf8 rest

theorem isUtf8_of_ascii (h : ∀ byte ∈ text, byte < 128) : isUtf8 text = true := by
  induction text with
  | nil => rfl
  | cons byte rest ih =>
    rw [forall_mem_cons] at h
    rw [isUtf8.eq_def]
    simp only [h.1]
    exact ih h.2

/-- `Utf8Error`, without the position no caller reads. -/
structure Utf8Error where
  deriving DecidableEq, Repr

def fromUtf8 (bytes : Bytes) : Except Utf8Error Text :=
  if isUtf8 bytes then .ok bytes else .error {}

/-! ## Identifiers -/

/-- `Uuid`, as the number its sixteen bytes spell: the order is the same. -/
abbrev Uuid := Fin (2 ^ 128)

instance neZero_uuid : NeZero (2 ^ 128) := ⟨by decide⟩

/-- A digit of `LowerHex`. -/
def hexDigit (digit : ℕ) : UInt8 :=
  UInt8.ofNat (if digit < 10 then 48 + digit else 87 + digit)

/-- The last `width` hexadecimal digits of a number. -/
def hexDigits (width n : ℕ) : Text :=
  (List.range width).reverse.map fun place => hexDigit (n / 16 ^ place % 16)

/-- A `Uuid` as `to_string` writes it: five groups of lowercase digits. -/
def hyphenated (uuid : Uuid) : Text :=
  List.intercalate [45]
    [hexDigits 8 (uuid.val / 16 ^ 24), hexDigits 4 (uuid.val / 16 ^ 20),
      hexDigits 4 (uuid.val / 16 ^ 16), hexDigits 4 (uuid.val / 16 ^ 12), hexDigits 12 uuid.val]

end PlenoraRuntime
