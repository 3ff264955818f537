import JsonSchema.Proofs.Subschemas
import JsonSchema.Validation.Keywords

/-!
# What the keywords of a node ask for

`Node.Holds` is the conjunction of all keywords of a node, each with its own condition and without
regard to the order in which they are checked. Sub-schemas are judged by two relations: `here` for
the value itself and `below` for its items, members and member names. All keywords but `oneOf` are
monotone in both relations.
-/

open scoped Classical

namespace JsonSchema

/-- The values that sub-schemas are applied to: items, members and the names of members. -/
def Value.parts : Value → List Value
  | .array items => items
  | .object members => members.map Prod.snd ++ members.map fun member => .string member.1
  | _ => []

/-! ### Keywords without sub-schemas -/

structure NumberLimits.Holds (limits : NumberLimits) (n : Number) : Prop where
  multipleOf : ∀ d ∈ limits.multipleOf, Number.zero.lt d → n.isMultipleOf d = .ok true
  maximum : ∀ bound ∈ limits.maximum, ¬ bound.lt n
  exclusiveMaximum : ∀ bound ∈ limits.exclusiveMaximum, ¬ bound.le n
  minimum : ∀ bound ∈ limits.minimum, ¬ n.lt bound
  exclusiveMinimum : ∀ bound ∈ limits.exclusiveMinimum, ¬ n.le bound

structure StringLimits.Holds (limits : StringLimits) (text : String) : Prop where
  maxLength : ∀ bound ∈ limits.maxLength, text.length ≤ bound
  minLength : ∀ bound ∈ limits.minLength, bound ≤ text.length
  pattern : ∀ written ∈ limits.pattern, ∃ pattern, Pattern.parse written = .ok pattern ∧
    pattern.search text

structure ArrayLimits.Holds (limits : ArrayLimits) (items : List Value) : Prop where
  maxItems : ∀ bound ∈ limits.maxItems, items.length ≤ bound
  minItems : ∀ bound ∈ limits.minItems, bound ≤ items.length
  uniqueItems : limits.uniqueItems → items.Pairwise fun a b => ¬ a.equal b

structure ObjectLimits.Holds (limits : ObjectLimits) (members : List (String × Value)) : Prop where
  maxProperties : ∀ bound ∈ limits.maxProperties, members.length ≤ bound
  minProperties : ∀ bound ∈ limits.minProperties, bound ≤ members.length
  required : ∀ names ∈ limits.required, ∀ name ∈ names, Members.has name members

/-! ### Keywords with sub-schemas -/

/-- A node names a schema for a member, by its name or by a pattern that it matches. -/
def Node.Names (n : Node Schema) (name : String) (schema : Schema) : Prop :=
  (n.properties.getD []).lookup name = some schema ∨
    ∃ written pattern, (written, schema) ∈ n.patternProperties.getD [] ∧
      Pattern.parse written = .ok pattern ∧ pattern.search name

def Dependency.Holds (here : Schema → Prop) (members : List (String × Value)) :
    Dependency Schema → Prop
  | .conforms schema => here schema
  | .requires names => ∀ name ∈ names, Members.has name members

structure Node.ArrayHolds (below : Value → Schema → Prop) (n : Node Schema) (items : List Value) :
    Prop where
  limits : n.toArrayLimits.Holds items
  every : ∀ index item, items[index]? = some item →
    ∀ schema ∈ Schema.itemAt n index, below item schema
  contains : ∀ schema ∈ n.contains, ∃ item ∈ items, below item schema

structure Node.ObjectHolds (here : Schema → Prop) (below : Value → Schema → Prop)
    (n : Node Schema) (members : List (String × Value)) : Prop where
  limits : n.toObjectLimits.Holds members
  readable : ∀ entry ∈ n.patternProperties.getD [], ∃ pattern, Pattern.parse entry.1 = .ok pattern
  named : ∀ member ∈ members, ∀ schema, n.Names member.1 schema → below member.2 schema
  additional : ∀ member ∈ members, (∀ schema, ¬ n.Names member.1 schema) →
    ∀ schema ∈ n.additionalProperties, below member.2 schema
  propertyNames : ∀ schema ∈ n.propertyNames, ∀ member ∈ members, below (.string member.1) schema
  dependencies : ∀ entry ∈ n.dependencies.getD [], Members.has entry.1 members →
    entry.2.Holds here members

def Node.KindHolds (here : Schema → Prop) (below : Value → Schema → Prop) (n : Node Schema) :
    Value → Prop
  | .number number => n.toNumberLimits.Holds number
  | .string text => n.toStringLimits.Holds text
  | .array items => n.ArrayHolds below items
  | .object members => n.ObjectHolds here below members
  | _ => True

structure Node.HoldsBesideOneOf (here : Schema → Prop) (below : Value → Schema → Prop)
    (n : Node Schema) (value : Value) : Prop where
  enum : ∀ choices ∈ n.enum, ∃ choice ∈ choices, value.equal choice
  const : ∀ expected ∈ n.const, value.equal expected
  type : n.type.accepts value
  kind : n.KindHolds here below value
  allOf : ∀ branches ∈ n.allOf, ∀ branch ∈ branches, here branch
  anyOf : ∀ branches ∈ n.anyOf, ∃ branch ∈ branches, here branch

structure Node.Holds (here : Schema → Prop) (below : Value → Schema → Prop) (n : Node Schema)
    (value : Value) : Prop extends n.HoldsBesideOneOf here below value where
  oneOf : ∀ branches ∈ n.oneOf, branches.countP (fun branch => here branch) = 1

/-! ### Children by keyword -/

namespace Node

variable {n : Node Schema} {schema : Schema}

theorem mem_children_of_contains (h : schema ∈ n.contains) : schema ∈ n.children := by
  simp [children, Option.mem_def.mp h]

theorem mem_children_of_additionalProperties (h : schema ∈ n.additionalProperties) :
    schema ∈ n.children := by
  simp [children, Option.mem_def.mp h]

theorem mem_children_of_propertyNames (h : schema ∈ n.propertyNames) : schema ∈ n.children := by
  simp [children, Option.mem_def.mp h]

theorem mem_children_of_allOf {branches : List Schema} (h : branches ∈ n.allOf)
    (hmem : schema ∈ branches) : schema ∈ n.children := by
  simp [children, Option.mem_def.mp h, hmem]

theorem mem_children_of_anyOf {branches : List Schema} (h : branches ∈ n.anyOf)
    (hmem : schema ∈ branches) : schema ∈ n.children := by
  simp [children, Option.mem_def.mp h, hmem]

theorem mem_children_of_oneOf {branches : List Schema} (h : branches ∈ n.oneOf)
    (hmem : schema ∈ branches) : schema ∈ n.children := by
  simp [children, Option.mem_def.mp h, hmem]

theorem mem_children_of_itemAt {index : Nat} (h : schema ∈ Schema.itemAt n index) :
    schema ∈ n.children := by
  unfold Schema.itemAt at h
  cases hi : n.items with
  | unconstrained => simp [hi] at h
  | uniform uniform =>
    have heq : uniform = schema := by simpa [hi] using h
    simp [children, hi, Items.children, heq]
  | positional schemas =>
    rw [hi] at h
    dsimp only at h
    split_ifs at h with hlt
    · have heq : schemas[index] = schema := Option.some.inj h
      simp [children, hi, Items.children, ← heq]
    · simp [children, Option.mem_def.mp h]

theorem mem_children_of_names {name : String} (h : n.Names name schema) : schema ∈ n.children := by
  have hmem : schema ∈ (n.properties.getD []).map Prod.snd ∨
      schema ∈ (n.patternProperties.getD []).map Prod.snd := by
    rcases h with hlookup | ⟨written, pattern, hentry, _⟩
    · obtain ⟨before, after, heq, _⟩ := List.lookup_eq_some_iff.mp hlookup
      exact .inl (by simp [heq])
    · exact .inr (List.mem_map_of_mem (f := Prod.snd) hentry)
  simp only [children, List.mem_append]
  tauto

theorem mem_children_of_conforms {trigger : String}
    (h : (trigger, .conforms schema) ∈ n.dependencies.getD []) : schema ∈ n.children := by
  have hmem : schema ∈ (n.dependencies.getD []).flatMap fun dependency => dependency.2.children :=
    List.mem_flatMap.mpr ⟨_, h, by simp [Dependency.children]⟩
  simp only [children, List.mem_append]
  tauto

end Node

/-! ### Monotonicity -/

section Monotone

variable {here here' : Schema → Prop} {below below' : Value → Schema → Prop} {n : Node Schema}

theorem Node.ArrayHolds.mono {items : List Value}
    (hbelow : ∀ part ∈ items, ∀ schema ∈ n.children, below part schema → below' part schema)
    (h : n.ArrayHolds below items) : n.ArrayHolds below' items where
  limits := h.limits
  every index item hitem schema hschema :=
    hbelow item (List.mem_of_getElem? hitem) schema (mem_children_of_itemAt hschema)
      (h.every index item hitem schema hschema)
  contains schema hschema := by
    obtain ⟨item, hmem, hitem⟩ := h.contains schema hschema
    exact ⟨item, hmem, hbelow item hmem schema (mem_children_of_contains hschema) hitem⟩

theorem Node.ObjectHolds.mono {members : List (String × Value)}
    (hhere : ∀ schema ∈ n.children, here schema → here' schema)
    (hbelow : ∀ part ∈ (Value.object members).parts, ∀ schema ∈ n.children,
      below part schema → below' part schema)
    (h : n.ObjectHolds here below members) : n.ObjectHolds here' below' members where
  limits := h.limits
  readable := h.readable
  named member hmem schema hnames :=
    hbelow member.2 (List.mem_append_left _ (List.mem_map_of_mem hmem)) schema
      (mem_children_of_names hnames) (h.named member hmem schema hnames)
  additional member hmem hnone schema hschema :=
    hbelow member.2 (List.mem_append_left _ (List.mem_map_of_mem hmem)) schema
      (mem_children_of_additionalProperties hschema) (h.additional member hmem hnone schema hschema)
  propertyNames schema hschema member hmem :=
    hbelow (.string member.1) (List.mem_append_right _ (List.mem_map_of_mem hmem)) schema
      (mem_children_of_propertyNames hschema) (h.propertyNames schema hschema member hmem)
  dependencies := by
    rintro ⟨trigger, dependency⟩ hmem htrigger
    have hd := h.dependencies _ hmem htrigger
    cases dependency with
    | conforms schema => exact hhere schema (mem_children_of_conforms hmem) hd
    | requires names => exact hd

theorem Node.KindHolds.mono {value : Value}
    (hhere : ∀ schema ∈ n.children, here schema → here' schema)
    (hbelow : ∀ part ∈ value.parts, ∀ schema ∈ n.children, below part schema → below' part schema)
    (h : n.KindHolds here below value) : n.KindHolds here' below' value := by
  cases value with
  | null => trivial
  | bool b => trivial
  | number number => exact h
  | string text => exact h
  | array items => exact Node.ArrayHolds.mono hbelow h
  | object members => exact Node.ObjectHolds.mono hhere hbelow h

theorem Node.HoldsBesideOneOf.mono {value : Value}
    (hhere : ∀ schema ∈ n.children, here schema → here' schema)
    (hbelow : ∀ part ∈ value.parts, ∀ schema ∈ n.children, below part schema → below' part schema)
    (h : n.HoldsBesideOneOf here below value) : n.HoldsBesideOneOf here' below' value where
  enum := h.enum
  const := h.const
  type := h.type
  kind := h.kind.mono hhere hbelow
  allOf branches hbranches branch hmem :=
    hhere branch (mem_children_of_allOf hbranches hmem) (h.allOf branches hbranches branch hmem)
  anyOf branches hbranches := by
    obtain ⟨branch, hmem, hbranch⟩ := h.anyOf branches hbranches
    exact ⟨branch, hmem, hhere branch (mem_children_of_anyOf hbranches hmem) hbranch⟩

/-- Only the verdicts on children count. -/
theorem Node.holds_congr {value : Value} (hhere : ∀ schema ∈ n.children, here schema ↔ here' schema)
    (hbelow : ∀ part ∈ value.parts, ∀ schema ∈ n.children, below part schema ↔ below' part schema) :
    n.Holds here below value ↔ n.Holds here' below' value := by
  have hcount : ∀ branches ∈ n.oneOf, branches.countP (fun branch => here branch) =
      branches.countP (fun branch => here' branch) := by
    intro branches hbranches
    apply List.countP_congr
    intro branch hmem
    simpa using hhere branch (mem_children_of_oneOf hbranches hmem)
  constructor
  · intro h
    refine ⟨h.toHoldsBesideOneOf.mono (fun s hs => (hhere s hs).mp)
      fun part hp s hs => (hbelow part hp s hs).mp, fun branches hbranches => ?_⟩
    rw [← hcount branches hbranches]
    exact h.oneOf branches hbranches
  · intro h
    refine ⟨h.toHoldsBesideOneOf.mono (fun s hs => (hhere s hs).mpr)
      fun part hp s hs => (hbelow part hp s hs).mpr, fun branches hbranches => ?_⟩
    rw [hcount branches hbranches]
    exact h.oneOf branches hbranches

end Monotone

end JsonSchema
