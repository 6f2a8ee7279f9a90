import Mathlib.Algebra.Ring.Nat
import PlenoraRuntime.Core.Text

/-!
# JSON values

A value is a tree. Three things are said about it:

* `encode` is its compact encoding, the text without any space;
* `nodesFrom` lists its nodes with their depths, in document order;
* `visit` walks it the way a recursive validator does: one counter runs through all nodes,
  and the walk stops at the first node that is too deep, one too many or does not fit.

`visit_eq_ok_iff` says that stopping early does not matter: the walk succeeds exactly when
every node in the list is admissible and the list is short enough. The induction goes over
the tree; for a container it runs the counter through the list of its children.
-/

namespace PlenoraRuntime

open List

/-- A JSON value. A number is the literal that is written for it, an object its members in
order. -/
inductive Json
  | null
  | bool (value : Bool)
  | number (literal : Text)
  | string (value : Text)
  | array (items : List Json)
  | object (members : List (Text × Json))
  deriving Repr

namespace Json

def children : Json → List Json
  | .array items => items
  | .object members => members.map Prod.snd
  | .null | .bool _ | .number _ | .string _ => []

section induct

variable {motive : Json → Prop}

mutual

/-- What holds of a value as soon as it holds of its children holds of every value. -/
theorem induct (step : ∀ value : Json, (∀ child ∈ value.children, motive child) → motive value) :
    ∀ value : Json, motive value
  | .null => step .null (forall_mem_nil _)
  | .bool value => step (.bool value) (forall_mem_nil _)
  | .number literal => step (.number literal) (forall_mem_nil _)
  | .string value => step (.string value) (forall_mem_nil _)
  | .array items => step (.array items) (induct_items step items)
  | .object members => step (.object members) (induct_members step members)

theorem induct_items
    (step : ∀ value : Json, (∀ child ∈ value.children, motive child) → motive value) :
    ∀ items : List Json, ∀ item ∈ items, motive item
  | [] => forall_mem_nil _
  | item :: rest => forall_mem_cons.mpr ⟨induct step item, induct_items step rest⟩

theorem induct_members
    (step : ∀ value : Json, (∀ child ∈ value.children, motive child) → motive value) :
    ∀ members : List (Text × Json), ∀ value ∈ members.map Prod.snd, motive value
  | [] => forall_mem_nil _
  | (_, value) :: rest =>
    forall_mem_cons.mpr ⟨induct step value, induct_members step rest⟩

end

end induct

/-! ## The compact encoding -/

/-- The text that stands for a byte in a string. -/
def escape (byte : UInt8) : Text :=
  if byte = 34 ∨ byte = 92 then [92, byte]
  else if byte = 8 then [92, 98]
  else if byte = 9 then [92, 116]
  else if byte = 10 then [92, 110]
  else if byte = 12 then [92, 102]
  else if byte = 13 then [92, 114]
  else if byte < 32 then [92, 117] ++ hexDigits 4 byte.toNat
  else [byte]

def quote (value : Text) : Text :=
  [34] ++ value.flatMap escape ++ [34]

mutual

def encode : Json → Text
  | .null => utf8 "null"
  | .bool true => utf8 "true"
  | .bool false => utf8 "false"
  | .number literal => literal
  | .string value => quote value
  | .array items => [91] ++ List.intercalate [44] (encodeItems items) ++ [93]
  | .object members => [123] ++ List.intercalate [44] (encodeMembers members) ++ [125]

def encodeItems : List Json → List Text
  | [] => []
  | item :: rest => encode item :: encodeItems rest

def encodeMembers : List (Text × Json) → List Text
  | [] => []
  | (key, value) :: rest => (quote key ++ [58] ++ encode value) :: encodeMembers rest

end

theorem length_escape_le (byte : UInt8) : (escape byte).length ≤ 6 := by
  unfold escape
  split_ifs <;> simp [hexDigits]

/-- A string grows at most sixfold, and by its quotes. -/
theorem length_quote_le (value : Text) : (quote value).length ≤ 6 * value.length + 2 := by
  have hescaped : (value.flatMap escape).length ≤ 6 * value.length := by
    induction value with
    | nil => exact Nat.le_refl 0
    | cons byte rest ih =>
      have hfirst := length_escape_le byte
      rw [flatMap_cons, length_append, length_cons]
      omega
  simp only [quote, length_append, length_singleton]
  omega

/-- The bytes that a member takes, with its colon and a comma. -/
def memberSize (member : Text × Json) : ℕ :=
  (quote member.1).length + (encode member.2).length + 2

theorem memberSize_mk (key : Text) (value : Json) :
    memberSize (key, value) = (quote key).length + (encode value).length + 2 :=
  rfl

theorem length_intercalate_le (parts : List Text) :
    (List.intercalate [44] parts).length ≤ (parts.map fun part => part.length + 1).sum := by
  induction parts with
  | nil => exact Nat.le_refl 0
  | cons first rest ih =>
    cases rest with
    | nil => simp
    | cons second rest =>
      rw [intercalate_cons_cons, length_append, length_append, map_cons]
      exact Nat.add_le_add_left ih _

/-- An object takes its members and its braces. -/
theorem length_encode_object_le (members : List (Text × Json)) :
    (encode (.object members)).length ≤ (members.map memberSize).sum + 2 := by
  have hmembers : ((encodeMembers members).map fun part => part.length + 1).sum =
      (members.map memberSize).sum := by
    induction members with
    | nil => rfl
    | cons member rest ih =>
      simp only [encodeMembers, map_cons, sum_cons, memberSize, length_append, length_singleton]
      omega
  have hparts := length_intercalate_le (encodeMembers members)
  simp only [encode, length_append, length_singleton]
  omega

/-! ## Nodes -/

mutual

/-- The nodes of a value at the given depth, each with its depth. -/
def nodesFrom (depth : ℕ) : Json → List (ℕ × Json)
  | .array items => (depth, .array items) :: itemsFrom (depth + 1) items
  | .object members => (depth, .object members) :: membersFrom (depth + 1) members
  | .null => [(depth, .null)]
  | .bool value => [(depth, .bool value)]
  | .number literal => [(depth, .number literal)]
  | .string value => [(depth, .string value)]

def itemsFrom (depth : ℕ) : List Json → List (ℕ × Json)
  | [] => []
  | item :: rest => nodesFrom depth item ++ itemsFrom depth rest

def membersFrom (depth : ℕ) : List (Text × Json) → List (ℕ × Json)
  | [] => []
  | (_, value) :: rest => nodesFrom depth value ++ membersFrom depth rest

end

theorem membersFrom_eq (depth : ℕ) (members : List (Text × Json)) :
    membersFrom depth members = itemsFrom depth (members.map Prod.snd) := by
  induction members with
  | nil => rfl
  | cons member rest ih => rw [membersFrom, map_cons, itemsFrom, ih]

/-- The nodes of a value are the value and the nodes of its children. -/
theorem nodesFrom_eq (depth : ℕ) (value : Json) :
    value.nodesFrom depth = (depth, value) :: itemsFrom (depth + 1) value.children := by
  cases value with
  | null => rfl
  | bool value => rfl
  | number literal => rfl
  | string value => rfl
  | array items => rfl
  | object members => rw [nodesFrom, membersFrom_eq, children]

/-! ## Validation -/

section visit

variable {ε : Type} (maxDepth maxNodes : ℕ) (fits : Json → Bool) (error : ε)

mutual

/-- Visits a value and everything in it, and returns the number of nodes visited so far.
A node must not be deeper than `maxDepth`, be one of the first `maxNodes` and fit. -/
def visit : Json → ℕ → ℕ → Except ε ℕ
  | value, depth, nodes =>
    if maxDepth < depth || maxNodes < nodes + 1 then .error error
    else if !fits value then .error error
    else match value with
      | .array items => visitItems items (depth + 1) (nodes + 1)
      | .object members => visitMembers members (depth + 1) (nodes + 1)
      | .null | .bool _ | .number _ | .string _ => .ok (nodes + 1)
termination_by structural value => value

def visitItems : List Json → ℕ → ℕ → Except ε ℕ
  | [], _, nodes => .ok nodes
  | item :: rest, depth, nodes =>
    match visit item depth nodes with
    | .error error => .error error
    | .ok nodes => visitItems rest depth nodes
termination_by structural items => items

def visitMembers : List (Text × Json) → ℕ → ℕ → Except ε ℕ
  | [], _, nodes => .ok nodes
  | (_, value) :: rest, depth, nodes =>
    match visit value depth nodes with
    | .error error => .error error
    | .ok nodes => visitMembers rest depth nodes
termination_by structural members => members

end

variable {maxDepth maxNodes fits error} {depth nodes total : ℕ} {value : Json} {items : List Json}
  {failure : ε}

theorem visitMembers_eq (members : List (Text × Json)) (depth nodes : ℕ) :
    visitMembers maxDepth maxNodes fits error members depth nodes =
      visitItems maxDepth maxNodes fits error (members.map Prod.snd) depth nodes := by
  induction members generalizing nodes with
  | nil => simp only [visitMembers, map_nil, visitItems]
  | cons member rest ih =>
    rw [visitMembers, map_cons, visitItems]
    cases visit maxDepth maxNodes fits error member.2 depth nodes with
    | error error => rfl
    | ok nodes => exact ih nodes

/-- A value is visited before its children. -/
theorem visit_eq (value : Json) (depth nodes : ℕ) :
    visit maxDepth maxNodes fits error value depth nodes =
      if maxDepth < depth || maxNodes < nodes + 1 then .error error
      else if !fits value then .error error
      else visitItems maxDepth maxNodes fits error value.children (depth + 1) (nodes + 1) := by
  rw [visit.eq_def]
  cases value with
  | null | bool value | number literal | string value => simp only [children, visitItems]
  | array items => rfl
  | object members =>
    dsimp only
    rw [visitMembers_eq, children]

/-- The nodes are all admissible, and the last of them is number `total`. -/
structure Admissible (maxDepth maxNodes : ℕ) (fits : Json → Bool) (found : List (ℕ × Json))
    (nodes total : ℕ) : Prop where
  total_eq : total = nodes + found.length
  total_le : total ≤ maxNodes
  each : ∀ node ∈ found, node.1 ≤ maxDepth ∧ fits node.2 = true

/-- The walk over a list of values, given what the walk over each of them does. -/
theorem visitItems_eq_ok_iff (hnodes : nodes ≤ maxNodes)
    (hitem : ∀ item ∈ items, ∀ nodes total, visit maxDepth maxNodes fits error item depth nodes =
      .ok total ↔ Admissible maxDepth maxNodes fits (item.nodesFrom depth) nodes total) :
    visitItems maxDepth maxNodes fits error items depth nodes = .ok total ↔
      Admissible maxDepth maxNodes fits (itemsFrom depth items) nodes total := by
  induction items generalizing nodes with
  | nil =>
    rw [visitItems, itemsFrom]
    constructor
    · intro h
      cases h
      exact ⟨rfl, hnodes, forall_mem_nil _⟩
    · intro h
      rw [h.total_eq, length_nil, Nat.add_zero]
  | cons item rest ih =>
    rw [forall_mem_cons] at hitem
    rw [visitItems, itemsFrom]
    constructor
    · intro h
      cases hfirst : visit maxDepth maxNodes fits error item depth nodes with
      | error failure =>
        rw [hfirst] at h
        cases h
      | ok next =>
        rw [hfirst] at h
        have hhead := (hitem.1 nodes next).mp hfirst
        have htail := (ih hhead.total_le hitem.2).mp h
        have hcount := hhead.total_eq
        refine ⟨?_, htail.total_le, forall_mem_append.mpr ⟨hhead.each, htail.each⟩⟩
        rw [htail.total_eq, hcount, length_append, Nat.add_assoc]
    · intro h
      have heach := forall_mem_append.mp h.each
      have htotal := h.total_eq
      rw [length_append, ← Nat.add_assoc] at htotal
      -- The count of all nodes bounds the count after the first item.
      have hhead : Admissible maxDepth maxNodes fits (item.nodesFrom depth) nodes
          (nodes + (item.nodesFrom depth).length) :=
        ⟨rfl, (htotal ▸ Nat.le_add_right _ _ : _ ≤ total).trans h.total_le, heach.1⟩
      rw [(hitem.1 _ _).mpr hhead]
      exact (ih hhead.total_le hitem.2).mpr ⟨htotal, h.total_le, heach.2⟩

/-- A walk succeeds exactly when every node is admissible, and counts them all. -/
theorem visit_eq_ok_iff :
    visit maxDepth maxNodes fits error value depth nodes = .ok total ↔
      Admissible maxDepth maxNodes fits (value.nodesFrom depth) nodes total := by
  induction value using induct generalizing depth nodes total with
  | step value ih =>
    have hchildren {first : ℕ} (hfirst : first ≤ maxNodes) :
        visitItems maxDepth maxNodes fits error value.children (depth + 1) first = .ok total ↔
          Admissible maxDepth maxNodes fits (itemsFrom (depth + 1) value.children) first total :=
      visitItems_eq_ok_iff hfirst fun child hchild _ _ => ih child hchild
    rw [visit_eq, nodesFrom_eq]
    constructor
    · intro h
      split_ifs at h with hlimits hfits
      simp only [Bool.or_eq_true, decide_eq_true_eq, not_or, not_lt] at hlimits
      rw [Bool.not_eq_true, Bool.not_eq_false'] at hfits
      have hrest := (hchildren hlimits.2).mp h
      refine ⟨?_, hrest.total_le, forall_mem_cons.mpr ⟨⟨hlimits.1, hfits⟩, hrest.each⟩⟩
      rw [hrest.total_eq, length_cons]
      omega
    · intro h
      obtain ⟨⟨hdepth, hfits⟩, heach⟩ := forall_mem_cons.mp h.each
      have htotal := h.total_eq
      rw [length_cons] at htotal
      have hcount : nodes + 1 ≤ maxNodes := by
        have hle := h.total_le
        omega
      have hlimits : ¬ (maxDepth < depth || maxNodes < nodes + 1) = true := by
        simp only [Bool.or_eq_true, decide_eq_true_eq, not_or, not_lt]
        exact ⟨hdepth, hcount⟩
      rw [if_neg hlimits, if_neg (by simp [hfits])]
      exact (hchildren hcount).mpr ⟨by omega, h.total_le, heach⟩

/-- A walk from the root succeeds exactly when every node is admissible and there are not too
many. -/
theorem exists_visit_iff :
    (∃ total, visit maxDepth maxNodes fits error value depth 0 = .ok total) ↔
      (value.nodesFrom depth).length ≤ maxNodes ∧
        ∀ node ∈ value.nodesFrom depth, node.1 ≤ maxDepth ∧ fits node.2 = true := by
  simp only [visit_eq_ok_iff]
  constructor
  · rintro ⟨total, htotal, hle, heach⟩
    rw [Nat.zero_add] at htotal
    exact ⟨htotal ▸ hle, heach⟩
  · rintro ⟨hle, heach⟩
    exact ⟨_, rfl, (Nat.zero_add _).symm ▸ hle, heach⟩

theorem visitItems_error
    (hitem : ∀ item ∈ items, ∀ nodes, visit maxDepth maxNodes fits error item depth nodes =
      .error failure → failure = error)
    (h : visitItems maxDepth maxNodes fits error items depth nodes = .error failure) :
    failure = error := by
  induction items generalizing nodes with
  | nil => cases h
  | cons item rest ih =>
    rw [forall_mem_cons] at hitem
    rw [visitItems] at h
    cases hfirst : visit maxDepth maxNodes fits error item depth nodes with
    | error found =>
      rw [hfirst] at h
      exact hitem.1 nodes (hfirst.trans h)
    | ok next =>
      rw [hfirst] at h
      exact ih hitem.2 h

/-- A walk that fails returns its own error. -/
theorem visit_error (h : visit maxDepth maxNodes fits error value depth nodes = .error failure) :
    failure = error := by
  induction value using induct generalizing depth nodes with
  | step value ih =>
    rw [visit_eq] at h
    split_ifs at h
    · exact (Except.error.inj h).symm
    · exact (Except.error.inj h).symm
    · exact visitItems_error (fun child hchild _ => ih child hchild) h

end visit

end Json

end PlenoraRuntime
