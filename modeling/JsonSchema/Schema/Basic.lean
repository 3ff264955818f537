import JsonSchema.Schema.Primitive

/-!
# Schemas

A schema is a boolean or a node of keywords. `Keywords` holds the keywords without sub-schemas, in
groups; `Node σ` adds the keywords whose values are built from things of type `σ`, which are schemas
in a `Schema` and other results in the functions that fold over one. `Schema.fold` replaces the
sub-schemas of every node, from the leaves up.
-/

namespace JsonSchema

/-- Keywords that describe and never constrain. -/
structure Annotations where
  title : Option Value := none
  description : Option Value := none
  default : Option Value := none
  examples : Option (List Value) := none
  /-- Members that are no keywords, in document order. -/
  extras : List (String × Value) := []

structure NumberLimits where
  multipleOf : Option Number := none
  maximum : Option Number := none
  exclusiveMaximum : Option Number := none
  minimum : Option Number := none
  exclusiveMinimum : Option Number := none

structure StringLimits where
  maxLength : Option Nat := none
  minLength : Option Nat := none
  pattern : Option String := none

structure ArrayLimits where
  maxItems : Option Nat := none
  minItems : Option Nat := none
  uniqueItems : Bool := false

structure ObjectLimits where
  maxProperties : Option Nat := none
  minProperties : Option Nat := none
  required : Option (List String) := none

structure Keywords extends
    Annotations, NumberLimits, StringLimits, ArrayLimits, ObjectLimits where
  type : TypeSpec := .any
  ref : Option String := none
  enum : Option (List Value) := none
  const : Option Value := none

inductive Items (σ : Type) where
  | unconstrained
  | uniform (schema : σ)
  | positional (schemas : List σ)

inductive Dependency (σ : Type) where
  | conforms (schema : σ)
  | requires (names : List String)

structure Node (σ : Type) extends Keywords where
  definitions : Option (List (String × σ)) := none
  items : Items σ := .unconstrained
  additionalItems : Option σ := none
  contains : Option σ := none
  properties : Option (List (String × σ)) := none
  patternProperties : Option (List (String × σ)) := none
  additionalProperties : Option σ := none
  propertyNames : Option σ := none
  dependencies : Option (List (String × Dependency σ)) := none
  allOf : Option (List σ) := none
  anyOf : Option (List σ) := none
  oneOf : Option (List σ) := none

inductive Schema where
  | always (accepted : Bool)
  | node (keywords : Node Schema)

variable {σ τ : Type}

namespace Items

def map (f : σ → τ) : Items σ → Items τ
  | .unconstrained => .unconstrained
  | .uniform schema => .uniform (f schema)
  | .positional schemas => .positional (schemas.map f)

def children : Items σ → List σ
  | .unconstrained => []
  | .uniform schema => [schema]
  | .positional schemas => schemas

def isUnconstrained : Items σ → Bool
  | .unconstrained => true
  | _ => false

end Items

namespace Dependency

def map (f : σ → τ) : Dependency σ → Dependency τ
  | .conforms schema => .conforms (f schema)
  | .requires names => .requires names

def children : Dependency σ → List σ
  | .conforms schema => [schema]
  | .requires _ => []

end Dependency

def mapMembers (f : σ → τ) (members : List (String × σ)) : List (String × τ) :=
  members.map fun member => (member.1, f member.2)

namespace Node

def map (f : σ → τ) (node : Node σ) : Node τ where
  toKeywords := node.toKeywords
  definitions := node.definitions.map (mapMembers f)
  items := node.items.map f
  additionalItems := node.additionalItems.map f
  contains := node.contains.map f
  properties := node.properties.map (mapMembers f)
  patternProperties := node.patternProperties.map (mapMembers f)
  additionalProperties := node.additionalProperties.map f
  propertyNames := node.propertyNames.map f
  dependencies := node.dependencies.map (mapMembers (Dependency.map f))
  allOf := node.allOf.map (List.map f)
  anyOf := node.anyOf.map (List.map f)
  oneOf := node.oneOf.map (List.map f)

def children (node : Node σ) : List σ :=
  (node.definitions.getD []).map Prod.snd ++ node.items.children ++ node.additionalItems.toList ++
    node.contains.toList ++ (node.properties.getD []).map Prod.snd ++
    (node.patternProperties.getD []).map Prod.snd ++ node.additionalProperties.toList ++
    node.propertyNames.toList ++
    (node.dependencies.getD []).flatMap (fun dependency => dependency.2.children) ++
    node.allOf.getD [] ++ node.anyOf.getD [] ++ node.oneOf.getD []

def isBlank (node : Node σ) : Bool :=
  node.type = .any && node.ref.isNone && node.definitions.isNone &&
    node.multipleOf.isNone && node.maximum.isNone && node.exclusiveMaximum.isNone &&
    node.minimum.isNone && node.exclusiveMinimum.isNone &&
    node.maxLength.isNone && node.minLength.isNone && node.pattern.isNone &&
    node.items.isUnconstrained && node.additionalItems.isNone &&
    node.maxItems.isNone && node.minItems.isNone && !node.uniqueItems && node.contains.isNone &&
    node.maxProperties.isNone && node.minProperties.isNone && node.required.isNone &&
    node.properties.isNone && node.patternProperties.isNone &&
    node.additionalProperties.isNone && node.propertyNames.isNone && node.dependencies.isNone &&
    node.enum.isNone && node.const.isNone &&
    node.allOf.isNone && node.anyOf.isNone && node.oneOf.isNone

end Node

namespace Schema

instance : Inhabited Schema := ⟨.always true⟩

def blank : Node Schema := {}

def isBlank : Schema → Bool
  | .always accepted => accepted
  | .node n => n.isBlank

/-- The node that stands for a schema; nothing stands for the schema `false`. -/
def toNode? : Schema → Option (Node Schema)
  | .node n => some n
  | .always true => some blank
  | .always false => none

section Fold

variable {α : Type} (onBool : Bool → α) (onNode : Node α → α)

mutual

def fold : Schema → α
  | .always accepted => onBool accepted
  | .node ⟨keywords, definitions, items, additionalItems, contains, properties, patternProperties,
      additionalProperties, propertyNames, dependencies, allOf, anyOf, oneOf⟩ =>
    onNode ⟨keywords, foldMembers? definitions, foldItems items, fold? additionalItems,
      fold? contains, foldMembers? properties, foldMembers? patternProperties,
      fold? additionalProperties, fold? propertyNames, foldDependencies? dependencies,
      foldList? allOf, foldList? anyOf, foldList? oneOf⟩

def fold? : Option Schema → Option α
  | none => none
  | some schema => some (fold schema)

def foldList : List Schema → List α
  | [] => []
  | schema :: rest => fold schema :: foldList rest

def foldList? : Option (List Schema) → Option (List α)
  | none => none
  | some schemas => some (foldList schemas)

def foldMembers : List (String × Schema) → List (String × α)
  | [] => []
  | (name, schema) :: rest => (name, fold schema) :: foldMembers rest

def foldMembers? : Option (List (String × Schema)) → Option (List (String × α))
  | none => none
  | some members => some (foldMembers members)

def foldItems : Items Schema → Items α
  | .unconstrained => .unconstrained
  | .uniform schema => .uniform (fold schema)
  | .positional schemas => .positional (foldList schemas)

def foldDependency : Dependency Schema → Dependency α
  | .conforms schema => .conforms (fold schema)
  | .requires names => .requires names

def foldDependencies : List (String × Dependency Schema) → List (String × Dependency α)
  | [] => []
  | (name, dependency) :: rest => (name, foldDependency dependency) :: foldDependencies rest

def foldDependencies? :
    Option (List (String × Dependency Schema)) → Option (List (String × Dependency α))
  | none => none
  | some members => some (foldDependencies members)

end

theorem foldList_eq (schemas : List Schema) :
    foldList onBool onNode schemas = schemas.map (fold onBool onNode) := by
  induction schemas with
  | nil => rfl
  | cons schema rest ih => simp [foldList, ih]

theorem foldMembers_eq (members : List (String × Schema)) :
    foldMembers onBool onNode members = mapMembers (fold onBool onNode) members := by
  induction members with
  | nil => rfl
  | cons member rest ih => simp [foldMembers, mapMembers, ih]

theorem foldDependencies_eq (members : List (String × Dependency Schema)) :
    foldDependencies onBool onNode members =
      mapMembers (Dependency.map (fold onBool onNode)) members := by
  induction members with
  | nil => rfl
  | cons member rest ih =>
    obtain ⟨name, dependency⟩ := member
    cases dependency <;> simp [foldDependencies, foldDependency, mapMembers, Dependency.map, ih]

@[simp] theorem fold_always (accepted : Bool) :
    fold onBool onNode (.always accepted) = onBool accepted := by
  rw [fold]

/-- Folding a node is folding what stands below it. -/
@[simp] theorem fold_node (node : Node Schema) :
    fold onBool onNode (.node node) = onNode (node.map (fold onBool onNode)) := by
  obtain ⟨keywords, definitions, items, additionalItems, contains, properties, patternProperties,
    additionalProperties, propertyNames, dependencies, allOf, anyOf, oneOf⟩ := node
  rw [fold]
  congr 1
  simp only [Node.map, Node.mk.injEq, true_and]
  refine ⟨?_, ?_, ?_, ?_, ?_, ?_, ?_, ?_, ?_, ?_, ?_, ?_⟩
  · cases definitions <;> simp [foldMembers?, foldMembers_eq]
  · cases items <;> simp [foldItems, Items.map, foldList_eq]
  · cases additionalItems <;> simp [fold?]
  · cases contains <;> simp [fold?]
  · cases properties <;> simp [foldMembers?, foldMembers_eq]
  · cases patternProperties <;> simp [foldMembers?, foldMembers_eq]
  · cases additionalProperties <;> simp [fold?]
  · cases propertyNames <;> simp [fold?]
  · cases dependencies <;> simp [foldDependencies?, foldDependencies_eq]
  · cases allOf <;> simp [foldList?, foldList_eq]
  · cases anyOf <;> simp [foldList?, foldList_eq]
  · cases oneOf <;> simp [foldList?, foldList_eq]

end Fold

def depth : Schema → Nat :=
  fold (fun _ => 1) fun node => node.children.foldl max 0 + 1

def refs : Schema → List String :=
  fold (fun _ => []) fun node => node.ref.toList ++ node.children.flatten

end Schema

end JsonSchema
