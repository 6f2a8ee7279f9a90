import Mathlib.Data.List.Basic

/-!
# Base64 without padding

The URL-safe alphabet, without padding and in canonical form: the bits of the last
symbol that belong to no byte are zero. Three bytes are four groups of six bits
(`sextets`); what is left at the end is one byte in two groups or two bytes in three.

`decode_eq_some_iff` is the codec: a text decodes to the bytes it is the encoding of.
-/

namespace Base64

open List Option

/-! ## Groups of six bits -/

/-- The bits of the bytes in groups of six, filled up with zeros. -/
def sextets : List UInt8 → List ℕ
  | a :: b :: c :: rest =>
    [a.toNat / 4, a.toNat % 4 * 16 + b.toNat / 16, b.toNat % 16 * 4 + c.toNat / 64,
      c.toNat % 64] ++ sextets rest
  | [a, b] => [a.toNat / 4, a.toNat % 4 * 16 + b.toNat / 16, b.toNat % 16 * 4]
  | [a] => [a.toNat / 4, a.toNat % 4 * 16]
  | [] => []

/-- The bytes that groups of six bits make up, unless bits are left over that are not
zero. -/
def bytes? : List ℕ → Option (List UInt8)
  | a :: b :: c :: d :: rest =>
    (bytes? rest).map fun bytes =>
      [UInt8.ofNat (a * 4 + b / 16), UInt8.ofNat (b % 16 * 16 + c / 4),
        UInt8.ofNat (c % 4 * 64 + d)] ++ bytes
  | [a, b, c] =>
    if c % 4 = 0 then some [UInt8.ofNat (a * 4 + b / 16), UInt8.ofNat (b % 16 * 16 + c / 4)]
    else none
  | [a, b] => if b % 16 = 0 then some [UInt8.ofNat (a * 4 + b / 16)] else none
  | [_] => none
  | [] => some []

theorem sextets_lt : ∀ bytes, ∀ n ∈ sextets bytes, n < 64
  | a :: b :: c :: rest => by
      have ha := a.toNat_lt
      have hb := b.toNat_lt
      have hc := c.toNat_lt
      simp only [sextets, cons_append, forall_mem_cons]
      exact ⟨by omega, by omega, by omega, by omega, sextets_lt rest⟩
  | [a, b] => by
      have ha := a.toNat_lt
      have hb := b.toNat_lt
      simp only [sextets, forall_mem_cons]
      exact ⟨by omega, by omega, by omega, by simp⟩
  | [a] => by
      have ha := a.toNat_lt
      simp only [sextets, forall_mem_cons]
      exact ⟨by omega, by omega, by simp⟩
  | [] => by simp [sextets]

variable {n : ℕ}

theorem ofNat_eq {a : UInt8} (h : n = a.toNat) : UInt8.ofNat n = a := by
  rw [h, UInt8.ofNat_toNat]

theorem bytes?_sextets : ∀ bytes, bytes? (sextets bytes) = some bytes
  | a :: b :: c :: rest => by
      have hb := b.toNat_lt
      have hc := c.toNat_lt
      simp only [sextets, cons_append, nil_append, bytes?, bytes?_sextets rest,
        map_some]
      rw [ofNat_eq (a := a) (by omega), ofNat_eq (a := b) (by omega), ofNat_eq (a := c) (by omega)]
  | [a, b] => by
      have hb := b.toNat_lt
      simp only [sextets, bytes?]
      rw [if_pos (by omega), ofNat_eq (a := a) (by omega), ofNat_eq (a := b) (by omega)]
  | [a] => by
      simp only [sextets, bytes?]
      rw [if_pos (by omega), ofNat_eq (a := a) (by omega)]
  | [] => rfl

theorem toNat_ofNat (h : n < 256) : (UInt8.ofNat n).toNat = n := by
  exact Nat.mod_eq_of_lt h

theorem sextets_of_bytes? : ∀ {groups bytes}, (∀ n ∈ groups, n < 64) →
    bytes? groups = some bytes → sextets bytes = groups
  | a :: b :: c :: d :: rest, bytes, hlt, h => by
      simp only [forall_mem_cons] at hlt
      obtain ⟨ha, hb, hc, hd, hrest⟩ := hlt
      obtain ⟨later, hlater, rfl⟩ := map_eq_some_iff.mp h
      simp only [cons_append, nil_append, sextets, sextets_of_bytes? hrest hlater]
      rw [toNat_ofNat (by omega), toNat_ofNat (by omega), toNat_ofNat (by omega)]
      simp only [List.cons.injEq, and_true]
      omega
  | [a, b, c], bytes, hlt, h => by
      simp only [forall_mem_cons] at hlt
      simp only [bytes?] at h
      split at h
      case isTrue hzero =>
        cases h
        simp only [sextets]
        rw [toNat_ofNat (by omega), toNat_ofNat (by omega)]
        simp only [List.cons.injEq, and_true]
        omega
      case isFalse => cases h
  | [a, b], bytes, hlt, h => by
      simp only [forall_mem_cons] at hlt
      simp only [bytes?] at h
      split at h
      case isTrue hzero =>
        cases h
        simp only [sextets]
        rw [toNat_ofNat (by omega)]
        simp only [List.cons.injEq, and_true]
        omega
      case isFalse => cases h
  | [_], _, _, h => by cases h
  | [], _, _, h => by
      cases h
      rfl

/-- The length of the encoding of so many bytes. -/
def encodedLength (n : ℕ) : ℕ :=
  n / 3 * 4 + if n % 3 = 0 then 0 else n % 3 + 1

theorem encodedLength_le_iff {m : ℕ} : encodedLength m ≤ encodedLength n ↔ m ≤ n := by
  simp only [encodedLength]
  split <;> split <;> omega

theorem length_sextets : ∀ bytes, (sextets bytes).length = encodedLength bytes.length
  | _ :: _ :: _ :: rest => by
      have hrest := length_sextets rest
      simp only [sextets, length_append, length_cons, length_nil, hrest,
        encodedLength]
      rw [show rest.length + 1 + 1 + 1 = rest.length + 3 from rfl, Nat.add_mod_right]
      omega
  | [_, _] | [_] | [] => by simp [sextets, encodedLength]

/-! ## The alphabet -/

/-- The symbol of a group of six bits. -/
def symbol (n : ℕ) : UInt8 :=
  if n < 26 then UInt8.ofNat (n + 65)
  else if n < 52 then UInt8.ofNat (n + 71)
  else if n < 62 then UInt8.ofNat (n - 4)
  else if n = 62 then 45
  else 95

/-- The group a symbol stands for. -/
def value? (symbol : UInt8) : Option ℕ :=
  if 65 ≤ symbol.toNat ∧ symbol.toNat ≤ 90 then some (symbol.toNat - 65)
  else if 97 ≤ symbol.toNat ∧ symbol.toNat ≤ 122 then some (symbol.toNat - 71)
  else if 48 ≤ symbol.toNat ∧ symbol.toNat ≤ 57 then some (symbol.toNat + 4)
  else if symbol = 45 then some 62
  else if symbol = 95 then some 63
  else none

theorem value?_symbol : ∀ n < 64, value? (symbol n) = some n := by
  decide

theorem symbol_of_value? {c : UInt8} (h : value? c = some n) : symbol n = c ∧ n < 64 := by
  have hall : ∀ i : Fin 256, ∀ n < 64, value? (UInt8.ofNat i) = some n →
      symbol n = UInt8.ofNat i := by
    decide +kernel
  have hlt : n < 64 := by
    simp only [value?] at h
    split_ifs at h <;> cases h <;> omega
  have hc := hall ⟨c.toNat, c.toNat_lt⟩ n hlt
  rw [UInt8.ofNat_toNat] at hc
  exact ⟨hc h, hlt⟩

/-! ## The codec -/

/-- The text of the bytes. -/
def encode (bytes : List UInt8) : List UInt8 :=
  (sextets bytes).map symbol

/-- The bytes of a text in canonical form. -/
def decode (text : List UInt8) : Option (List UInt8) :=
  (text.mapM value?).bind bytes?

theorem length_encode (bytes : List UInt8) :
    (encode bytes).length = encodedLength bytes.length := by
  rw [encode, length_map, length_sextets]

variable {groups : List ℕ}

theorem mapM_value?_symbol (hlt : ∀ n ∈ groups, n < 64) :
    (groups.map symbol).mapM value? = some groups := by
  induction groups with
  | nil => rfl
  | cons n rest ih =>
    rw [forall_mem_cons] at hlt
    rw [map_cons, mapM_cons, value?_symbol n hlt.1, ih hlt.2]
    rfl

theorem symbol_of_mapM_value? {text : List UInt8} (h : text.mapM value? = some groups) :
    groups.map symbol = text ∧ ∀ n ∈ groups, n < 64 := by
  induction text generalizing groups with
  | nil =>
    cases h
    simp
  | cons c rest ih =>
    rw [mapM_cons] at h
    obtain ⟨n, hn, h⟩ := bind_eq_some_iff.mp h
    obtain ⟨later, hlater, h⟩ := bind_eq_some_iff.mp h
    cases h
    obtain ⟨rfl, hlt⟩ := symbol_of_value? hn
    obtain ⟨rfl, hall⟩ := ih hlater
    exact ⟨rfl, forall_mem_cons.mpr ⟨hlt, hall⟩⟩

theorem decode_eq_some_iff {text bytes : List UInt8} :
    decode text = some bytes ↔ text = encode bytes := by
  constructor
  · intro h
    obtain ⟨groups, hgroups, hbytes⟩ := bind_eq_some_iff.mp h
    obtain ⟨rfl, hlt⟩ := symbol_of_mapM_value? hgroups
    rw [encode, sextets_of_bytes? hlt hbytes]
  · rintro rfl
    rw [decode, encode, mapM_value?_symbol (sextets_lt bytes), bind_some, bytes?_sextets]

theorem decode_encode (bytes : List UInt8) : decode (encode bytes) = some bytes :=
  decode_eq_some_iff.mpr rfl

theorem encode_injective : Function.Injective encode := fun first second h => by
  have hdecode := decode_encode first
  rw [h, decode_encode] at hdecode
  exact (Option.some.inj hdecode).symm

end Base64
