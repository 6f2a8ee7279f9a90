import Mathlib.Computability.RegularExpressions

/-!
# Patterns

Regular expressions as they are written in practice: character classes, literals,
repetitions with bounds, parts between separators. Each is a regular expression of
Mathlib, and comes with the rule that says which words it matches.

A pattern is often given over one alphabet and used over another, such as characters and
the bytes that encode them. The last section maps patterns letter by letter, and says
which letters the words of a pattern are made of.
-/

namespace Pattern

open RegularExpression List

variable {α β : Type*} {word text : List α} {p q : RegularExpression α} {letters : List α}
  {letter : α} {n : ℕ}

/-! ## Letters and literals -/

/-- `[...]`: one of the letters. -/
def oneOf (letters : List α) : RegularExpression α :=
  letters.foldr (fun letter rest => char letter + rest) 0

/-- The word itself. -/
def literal (word : List α) : RegularExpression α :=
  word.foldr (fun letter rest => char letter * rest) 1

theorem mem_mul : word ∈ (p * q).matches' ↔
    ∃ first ∈ p.matches', ∃ second ∈ q.matches', first ++ second = word := by
  rw [matches'_mul, Language.mem_mul]

theorem mem_add : word ∈ (p + q).matches' ↔ word ∈ p.matches' ∨ word ∈ q.matches' := by
  rw [matches'_add, Language.mem_add]

theorem mem_one : word ∈ (1 : RegularExpression α).matches' ↔ word = [] := by
  rw [matches'_epsilon, Language.mem_one]

theorem mem_char : word ∈ (char letter).matches' ↔ word = [letter] := by
  exact Set.mem_singleton_iff

theorem mem_oneOf : word ∈ (oneOf letters).matches' ↔ ∃ letter ∈ letters, word = [letter] := by
  induction letters with
  | nil => simp [oneOf]
  | cons letter rest ih =>
    have hcons : oneOf (letter :: rest) = char letter + oneOf rest := rfl
    rw [hcons, mem_add, mem_char, ih, exists_mem_cons_iff]

theorem mem_literal : word ∈ (literal text).matches' ↔ word = text := by
  induction text generalizing word with
  | nil => exact mem_one
  | cons letter rest ih =>
    have hcons : literal (letter :: rest) = char letter * literal rest := rfl
    rw [hcons, mem_mul]
    constructor
    · rintro ⟨first, hfirst, second, hsecond, rfl⟩
      rw [mem_char.mp hfirst, ih.mp hsecond, singleton_append]
    · rintro rfl
      exact ⟨[letter], mem_char.mpr rfl, rest, ih.mpr rfl, rfl⟩

theorem mem_literal_mul :
    word ∈ (literal text * p).matches' ↔ ∃ rest ∈ p.matches', word = text ++ rest := by
  constructor
  · rintro ⟨first, hfirst, rest, hrest, rfl⟩
    exact ⟨rest, hrest, by rw [mem_literal.mp hfirst]⟩
  · rintro ⟨rest, hrest, rfl⟩
    exact ⟨text, mem_literal.mpr rfl, rest, hrest, rfl⟩

theorem mem_oneOf_mul :
    word ∈ (oneOf letters * p).matches' ↔
      ∃ letter ∈ letters, ∃ rest ∈ p.matches', word = letter :: rest := by
  constructor
  · rintro ⟨first, hfirst, rest, hrest, rfl⟩
    obtain ⟨letter, hletter, rfl⟩ := mem_oneOf.mp hfirst
    exact ⟨letter, hletter, rest, hrest, rfl⟩
  · rintro ⟨letter, hletter, rest, hrest, rfl⟩
    exact ⟨[letter], mem_oneOf.mpr ⟨letter, hletter, rfl⟩, rest, hrest, rfl⟩

/-! ## Repetitions -/

/-- `p?`. -/
def optional (p : RegularExpression α) : RegularExpression α :=
  p + 1

/-- `p+`. -/
def oneOrMore (p : RegularExpression α) : RegularExpression α :=
  p * p.star

/-- `p{0,n}`. -/
def upTo (p : RegularExpression α) : ℕ → RegularExpression α
  | 0 => 1
  | n + 1 => optional (p * upTo p n)

/-- `p{1,n}`. -/
def oneTo (n : ℕ) (p : RegularExpression α) : RegularExpression α :=
  p * upTo p (n - 1)

theorem mem_optional : word ∈ (optional p).matches' ↔ word ∈ p.matches' ∨ word = [] := by
  rw [optional, mem_add, mem_one]

theorem mem_star : word ∈ p.star.matches' ↔
    ∃ words : List (List α), word = words.flatten ∧ ∀ part ∈ words, part ∈ p.matches' := by
  rw [matches'_star, Language.mem_kstar]

theorem mem_star_oneOf :
    word ∈ (oneOf letters).star.matches' ↔ ∀ letter ∈ word, letter ∈ letters := by
  constructor
  · rintro ⟨words, rfl, hwords⟩ letter hletter
    obtain ⟨part, hpart, hmem⟩ := mem_flatten.mp hletter
    obtain ⟨only, honly, rfl⟩ := mem_oneOf.mp (hwords part hpart)
    rwa [mem_singleton.mp hmem]
  · intro hall
    refine ⟨word.map fun letter => [letter], ?_, ?_⟩
    · rw [← flatMap_def, flatMap_singleton']
    · intro part hpart
      obtain ⟨letter, hletter, rfl⟩ := mem_map.mp hpart
      exact mem_oneOf.mpr ⟨letter, hall letter hletter, rfl⟩

theorem mem_oneOrMore_oneOf :
    word ∈ (oneOrMore (oneOf letters)).matches' ↔
      word ≠ [] ∧ ∀ letter ∈ word, letter ∈ letters := by
  rw [oneOrMore, mem_oneOf_mul]
  constructor
  · rintro ⟨letter, hletter, rest, hrest, rfl⟩
    exact ⟨cons_ne_nil _ _, forall_mem_cons.mpr ⟨hletter, mem_star_oneOf.mp hrest⟩⟩
  · rintro ⟨hne, hall⟩
    obtain ⟨letter, rest, rfl⟩ := exists_cons_of_ne_nil hne
    obtain ⟨hletter, hrest⟩ := forall_mem_cons.mp hall
    exact ⟨letter, hletter, rest, mem_star_oneOf.mpr hrest, rfl⟩

theorem mem_upTo_oneOf :
    word ∈ (upTo (oneOf letters) n).matches' ↔
      word.length ≤ n ∧ ∀ letter ∈ word, letter ∈ letters := by
  induction n generalizing word with
  | zero =>
    rw [upTo, Nat.le_zero, length_eq_zero_iff]
    constructor
    · rintro rfl
      exact ⟨rfl, forall_mem_nil _⟩
    · intro h
      exact h.1
  | succ n ih =>
    rw [upTo, mem_optional, mem_oneOf_mul]
    constructor
    · rintro (⟨letter, hletter, rest, hrest, rfl⟩ | rfl)
      · obtain ⟨hlen, hall⟩ := ih.mp hrest
        exact ⟨Nat.succ_le_succ hlen, forall_mem_cons.mpr ⟨hletter, hall⟩⟩
      · exact ⟨Nat.zero_le _, forall_mem_nil _⟩
    · rintro ⟨hlen, hall⟩
      cases word with
      | nil => exact .inr rfl
      | cons letter rest =>
        obtain ⟨hletter, hrest⟩ := forall_mem_cons.mp hall
        exact .inl ⟨letter, hletter, rest,
          ih.mpr ⟨Nat.le_of_succ_le_succ hlen, hrest⟩, rfl⟩

theorem mem_oneTo_oneOf (hn : 1 ≤ n) :
    word ∈ (oneTo n (oneOf letters)).matches' ↔
      1 ≤ word.length ∧ word.length ≤ n ∧ ∀ letter ∈ word, letter ∈ letters := by
  rw [oneTo, mem_oneOf_mul]
  constructor
  · rintro ⟨letter, hletter, rest, hrest, rfl⟩
    obtain ⟨hlen, hall⟩ := mem_upTo_oneOf.mp hrest
    rw [length_cons]
    exact ⟨Nat.succ_pos _, by omega, forall_mem_cons.mpr ⟨hletter, hall⟩⟩
  · rintro ⟨hpos, hlen, hall⟩
    obtain ⟨letter, rest, rfl⟩ := exists_cons_of_length_pos hpos
    obtain ⟨hletter, hrest⟩ := forall_mem_cons.mp hall
    rw [length_cons] at hlen
    exact ⟨letter, hletter, rest, mem_upTo_oneOf.mpr ⟨by omega, hrest⟩, rfl⟩

/-! ## Parts between separators -/

section separated

variable {separator : α}

/-- `(sp)*`: parts that each follow a separator. -/
theorem mem_star_separated :
    word ∈ (char separator * p).star.matches' ↔
      ∃ parts : List (List α), (∀ part ∈ parts, part ∈ p.matches') ∧
        word = parts.flatMap (separator :: ·) := by
  rw [mem_star]
  constructor
  · rintro ⟨words, rfl, hwords⟩
    induction words with
    | nil => exact ⟨[], forall_mem_nil _, rfl⟩
    | cons whole words ih =>
      obtain ⟨hwhole, hrest⟩ := forall_mem_cons.mp hwords
      obtain ⟨parts, hparts, hflatten⟩ := ih hrest
      obtain ⟨first, hfirst, part, hpart, rfl⟩ := mem_mul.mp hwhole
      refine ⟨part :: parts, forall_mem_cons.mpr ⟨hpart, hparts⟩, ?_⟩
      rw [flatten_cons, flatMap_cons, hflatten, mem_char.mp hfirst,
        singleton_append]
  · rintro ⟨parts, hparts, rfl⟩
    refine ⟨parts.map (separator :: ·), flatMap_def, fun whole hwhole => ?_⟩
    obtain ⟨part, hpart, rfl⟩ := mem_map.mp hwhole
    exact mem_mul.mpr ⟨[separator], mem_char.mpr rfl, part, hparts part hpart, rfl⟩

theorem intercalate_cons_eq (first : List α) (parts : List (List α)) :
    [separator].intercalate (first :: parts) = first ++ parts.flatMap (separator :: ·) := by
  induction parts generalizing first with
  | nil => rw [intercalate_singleton, flatMap_nil, append_nil]
  | cons second parts ih =>
    rw [intercalate_cons_cons, ih, flatMap_cons, append_assoc,
      singleton_append, cons_append]

/-- `p(sp)+`: at least two parts with separators between them. -/
def separated (separator : α) (p : RegularExpression α) : RegularExpression α :=
  p * oneOrMore (char separator * p)

theorem mem_separated :
    word ∈ (separated separator p).matches' ↔
      ∃ first second parts, (∀ part ∈ first :: second :: parts, part ∈ p.matches') ∧
        word = [separator].intercalate (first :: second :: parts) := by
  simp only [intercalate_cons_eq, flatMap_cons]
  rw [separated, mem_mul]
  constructor
  · rintro ⟨first, hfirst, later, hlater, rfl⟩
    obtain ⟨whole, hwhole, rest, hrest, rfl⟩ := mem_mul.mp hlater
    obtain ⟨start, hstart, second, hsecond, rfl⟩ := mem_mul.mp hwhole
    obtain ⟨parts, hparts, rfl⟩ := mem_star_separated.mp hrest
    rw [mem_char.mp hstart]
    exact ⟨first, second, parts,
      forall_mem_cons.mpr ⟨hfirst, forall_mem_cons.mpr ⟨hsecond, hparts⟩⟩, rfl⟩
  · rintro ⟨first, second, parts, hall, rfl⟩
    obtain ⟨hfirst, hlater⟩ := forall_mem_cons.mp hall
    obtain ⟨hsecond, hparts⟩ := forall_mem_cons.mp hlater
    refine ⟨first, hfirst, _, mem_mul.mpr ⟨separator :: second, ?_, _, ?_, rfl⟩, rfl⟩
    · exact mem_mul.mpr ⟨[separator], mem_char.mpr rfl, second, hsecond, rfl⟩
    · exact mem_star_separated.mpr ⟨parts, hparts, rfl⟩

/-- If no part can contain the separator, the parts are found by splitting. -/
theorem mem_separated_iff_splitOn [DecidableEq α] (hfree : ∀ part ∈ p.matches', separator ∉ part) :
    word ∈ (separated separator p).matches' ↔
      separator ∈ word ∧ ∀ part ∈ word.splitOn separator, part ∈ p.matches' := by
  have hwhole : [separator].intercalate (word.splitOn separator) = word :=
    intercalate_splitOn separator
  rw [mem_separated]
  constructor
  · rintro ⟨first, second, parts, hall, rfl⟩
    rw [splitOn_intercalate separator (fun part hpart => hfree part (hall part hpart))
      (cons_ne_nil _ _)]
    refine ⟨?_, hall⟩
    exact mem_append_right _ mem_cons_self
  · rintro ⟨hmem, hall⟩
    cases hsplit : word.splitOn separator with
    | nil =>
      rw [hsplit] at hwhole
      exact absurd (hwhole ▸ hmem) not_mem_nil
    | cons first rest =>
      rw [hsplit] at hall hwhole
      cases rest with
      | nil =>
        rw [intercalate_singleton] at hwhole
        rw [← hwhole] at hmem
        exact absurd hmem (hfree first (hall first mem_cons_self))
      | cons second parts => exact ⟨first, second, parts, hall, hwhole.symm⟩

end separated

/-! ## Other alphabets -/

section map

variable (f : α → β)

theorem mem_map {other : List β} :
    other ∈ (p.map f).matches' ↔ ∃ word ∈ p.matches', word.map f = other := by
  rw [matches'_map]
  rfl

theorem map_add : (p + q).map f = p.map f + q.map f := rfl

theorem map_mul : (p * q).map f = p.map f * q.map f := rfl

theorem map_char (letter : α) : (char letter).map f = char (f letter) := rfl

theorem map_oneOf : (oneOf letters).map f = oneOf (letters.map f) := by
  induction letters with
  | nil => rfl
  | cons letter rest ih =>
    have hcons : oneOf (letter :: rest) = char letter + oneOf rest := rfl
    rw [hcons, map_add, ih]
    rfl

theorem map_literal : (literal word).map f = literal (word.map f) := by
  induction word with
  | nil => rfl
  | cons letter rest ih =>
    have hcons : literal (letter :: rest) = char letter * literal rest := rfl
    rw [hcons, map_mul, ih]
    rfl

theorem map_optional : (optional p).map f = optional (p.map f) := rfl

theorem map_star : p.star.map f = (p.map f).star := rfl

theorem map_oneOrMore : (oneOrMore p).map f = oneOrMore (p.map f) := rfl

theorem map_upTo (n : ℕ) : (upTo p n).map f = upTo (p.map f) n := by
  induction n with
  | zero => rfl
  | succ n ih => rw [upTo, map_optional, map_mul, ih, upTo]

theorem map_oneTo (n : ℕ) : (oneTo n p).map f = oneTo n (p.map f) := by
  rw [oneTo, map_mul, map_upTo, oneTo]

theorem map_separated (separator : α) :
    (separated separator p).map f = separated (f separator) (p.map f) := rfl

end map

/-- The letters that occur in a pattern. -/
def alphabet : RegularExpression α → List α
  | .zero | .epsilon => []
  | .char letter => [letter]
  | .plus p q | .comp p q => alphabet p ++ alphabet q
  | .star p => alphabet p

theorem alphabet_upTo (h : letter ∈ alphabet (upTo p n)) : letter ∈ alphabet p := by
  induction n with
  | zero => cases h
  | succ n ih =>
    have halph : alphabet (upTo p (n + 1)) = (alphabet p ++ alphabet (upTo p n)) ++ [] := rfl
    rw [halph, append_nil] at h
    rcases mem_append.mp h with hfirst | hrest
    · exact hfirst
    · exact ih hrest

/-- A word is made of letters of its pattern. -/
theorem mem_alphabet (hword : word ∈ p.matches') (hletter : letter ∈ word) :
    letter ∈ alphabet p := by
  induction p generalizing word with
  | zero => exact absurd hword (Language.notMem_zero word)
  | epsilon =>
    rw [mem_one.mp hword] at hletter
    cases hletter
  | char only =>
    rw [mem_char.mp hword] at hletter
    exact hletter
  | plus p q ihp ihq =>
    rcases mem_add.mp hword with hleft | hright
    · exact mem_append_left _ (ihp hleft hletter)
    · exact mem_append_right _ (ihq hright hletter)
  | comp p q ihp ihq =>
    obtain ⟨first, hfirst, second, hsecond, rfl⟩ := mem_mul.mp hword
    rcases mem_append.mp hletter with hleft | hright
    · exact mem_append_left _ (ihp hfirst hleft)
    · exact mem_append_right _ (ihq hsecond hright)
  | star p ih =>
    obtain ⟨words, rfl, hwords⟩ := mem_star.mp hword
    obtain ⟨part, hpart, hmem⟩ := mem_flatten.mp hletter
    exact ih (hwords part hpart) hmem

end Pattern
