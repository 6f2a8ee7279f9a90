import PlenoraRuntime.Capabilities.Document
import PlenoraRuntime.Capabilities.ErrorEncoding

/-!
# Structural limits

The details of a public error and the attributes of an operation are values that a
component makes up, so both are bounded: in bytes, in depth, in the size of collections
and strings, in the number of nodes. `DetailLimits` and `AttributeLimits` state the bounds
on the tree. The validators walk the tree with one counter and stop at the first
violation; that they decide the bounds is `Json.exists_visit_iff` and a reading of the
checks on a node.

A node is a container or a scalar, and each lies one deeper than what contains it.
-/

namespace PlenoraRuntime.Capabilities

/-- The limits of details, which lie at depth one. -/
structure DetailLimits (details : List (Text × Json)) : Prop where
  encoded : (Json.encode (.object details)).length ≤ 262144
  depth : ∀ depth node, (depth, node) ∈ (Json.object details).nodesFrom 1 → depth ≤ 8
  objects : ∀ depth members,
    (depth, .object members) ∈ (Json.object details).nodesFrom 1 → members.length ≤ 128
  arrays : ∀ depth items,
    (depth, .array items) ∈ (Json.object details).nodesFrom 1 → items.length ≤ 128
  strings : ∀ depth value,
    (depth, .string value) ∈ (Json.object details).nodesFrom 1 → value.length ≤ 4096
  nodes : ((Json.object details).nodesFrom 1).length ≤ 2048

/-- The limits of attributes, which lie at depth zero. -/
structure AttributeLimits (attributes : List (Text × Json)) : Prop where
  encoded : (Json.encode (.object attributes)).length ≤ maxCapabilityAttributesBytes
  depth : ∀ depth node,
    (depth, node) ∈ (Json.object attributes).nodesFrom 0 → depth ≤ maxAttributeDepth
  objects : ∀ depth members, (depth, .object members) ∈ (Json.object attributes).nodesFrom 0 →
    members.length ≤ maxAttributeCollectionItems
  keys : ∀ depth members, (depth, .object members) ∈ (Json.object attributes).nodesFrom 0 →
    ∀ member ∈ members, member.1.length ≤ maxAttributeKeyBytes
  arrays : ∀ depth items, (depth, .array items) ∈ (Json.object attributes).nodesFrom 0 →
    items.length ≤ maxAttributeCollectionItems
  strings : ∀ depth value, (depth, .string value) ∈ (Json.object attributes).nodesFrom 0 →
    value.length ≤ maxAttributeStringBytes
  nodes : ((Json.object attributes).nodesFrom 0).length ≤ maxAttributeNodes

/-! ## The walk of the code -/

variable {details : List (Text × Json)}

theorem validateDetails_eq_ok_iff :
    validateDetails details = .ok () ↔
      (Json.encode (.object details)).length ≤ maxDetailsBytes ∧
        ∃ total, validateDetailValue (.object details) 1 0 = .ok total := by
  unfold validateDetails
  by_cases hsize : maxDetailsBytes < (Json.encode (.object details)).length
  · simp [hsize]
  · rw [if_neg hsize]
    cases hwalk : validateDetailValue (.object details) 1 0 with
    | error failure => simp
    | ok total => simp [Nat.le_of_not_lt hsize]

variable {attributes : List (Text × Json)}

/-- The check of the root's own size is repeated by the walk. -/
theorem validateAttributes_eq_ok_iff :
    validateAttributes attributes = .ok () ↔
      (Json.encode (.object attributes)).length ≤ maxCapabilityAttributesBytes ∧
        attributes.length ≤ maxAttributeCollectionItems ∧
        ∃ total, validateAttributeValue (.object attributes) 0 0 = .ok total := by
  unfold validateAttributes
  by_cases hsize : maxCapabilityAttributesBytes < (Json.encode (.object attributes)).length
  · simp [hsize]
  by_cases hitems : maxAttributeCollectionItems < attributes.length
  · simp [hitems]
  · have hpass : (decide (maxCapabilityAttributesBytes <
        (Json.encode (.object attributes)).length) ||
        decide (maxAttributeCollectionItems < attributes.length)) = false := by
      simp only [hsize, hitems, decide_false, Bool.or_self]
    rw [hpass]
    cases hwalk : validateAttributeValue (.object attributes) 0 0 with
    | error failure => simp
    | ok total => simp [Nat.le_of_not_lt hsize, Nat.le_of_not_lt hitems]

/-! ## The limits are exact -/

theorem detailLimits_of_valid (h : validateDetails details = .ok ()) : DetailLimits details := by
  obtain ⟨hsize, hwalk⟩ := validateDetails_eq_ok_iff.mp h
  obtain ⟨hnodes, heach⟩ := Json.exists_visit_iff.mp hwalk
  constructor
  case encoded => exact hsize
  case depth => exact fun depth node hnode => (heach _ hnode).1
  case objects => exact fun depth members hnode => of_decide_eq_true (heach _ hnode).2
  case arrays => exact fun depth items hnode => of_decide_eq_true (heach _ hnode).2
  case strings => exact fun depth value hnode => of_decide_eq_true (heach _ hnode).2
  case nodes => exact hnodes

theorem valid_of_detailLimits (limits : DetailLimits details) :
    validateDetails details = .ok () := by
  apply validateDetails_eq_ok_iff.mpr
  refine ⟨limits.encoded, Json.exists_visit_iff.mpr ⟨limits.nodes, ?_⟩⟩
  rintro ⟨depth, node⟩ hnode
  refine ⟨limits.depth depth node hnode, ?_⟩
  cases node with
  | null | bool _ | number _ => rfl
  | string value => exact decide_eq_true (limits.strings depth value hnode)
  | array items => exact decide_eq_true (limits.arrays depth items hnode)
  | object members => exact decide_eq_true (limits.objects depth members hnode)

theorem attributeFits_object {members : List (Text × Json)} :
    attributeFits (.object members) = true ↔
      members.length ≤ maxAttributeCollectionItems ∧
        ∀ member ∈ members, member.1.length ≤ maxAttributeKeyBytes := by
  simp only [attributeFits, Bool.and_eq_true, decide_eq_true_eq, List.all_eq_true]

theorem attributeLimits_of_valid (h : validateAttributes attributes = .ok ()) :
    AttributeLimits attributes := by
  obtain ⟨hsize, _, hwalk⟩ := validateAttributes_eq_ok_iff.mp h
  obtain ⟨hnodes, heach⟩ := Json.exists_visit_iff.mp hwalk
  constructor
  case encoded => exact hsize
  case depth => exact fun depth node hnode => (heach _ hnode).1
  case objects =>
    exact fun depth members hnode => (attributeFits_object.mp (heach _ hnode).2).1
  case keys =>
    exact fun depth members hnode => (attributeFits_object.mp (heach _ hnode).2).2
  case arrays => exact fun depth items hnode => of_decide_eq_true (heach _ hnode).2
  case strings => exact fun depth value hnode => of_decide_eq_true (heach _ hnode).2
  case nodes => exact hnodes

theorem valid_of_attributeLimits (limits : AttributeLimits attributes) :
    validateAttributes attributes = .ok () := by
  -- The root is the first node of its own walk.
  have hroot : (0, Json.object attributes) ∈ (Json.object attributes).nodesFrom 0 := by
    exact List.mem_cons_self
  apply validateAttributes_eq_ok_iff.mpr
  refine ⟨limits.encoded, limits.objects 0 attributes hroot,
    Json.exists_visit_iff.mpr ⟨limits.nodes, ?_⟩⟩
  rintro ⟨depth, node⟩ hnode
  refine ⟨limits.depth depth node hnode, ?_⟩
  cases node with
  | null | bool _ | number _ => rfl
  | string value => exact decide_eq_true (limits.strings depth value hnode)
  | array items => exact decide_eq_true (limits.arrays depth items hnode)
  | object members =>
    exact attributeFits_object.mpr
      ⟨limits.objects depth members hnode, limits.keys depth members hnode⟩

/-- The validators accept exactly the details and attributes within the limits. -/
theorem structural_limits_exact (details attributes : List (Text × Json)) :
    (validateDetails details = .ok () ↔ DetailLimits details) ∧
      (validateAttributes attributes = .ok () ↔ AttributeLimits attributes) :=
  ⟨⟨detailLimits_of_valid, valid_of_detailLimits⟩,
    ⟨attributeLimits_of_valid, valid_of_attributeLimits⟩⟩

end PlenoraRuntime.Capabilities
