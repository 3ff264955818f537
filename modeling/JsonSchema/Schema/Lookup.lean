import JsonSchema.Schema.Reference

/-!
# The schema of a member

`Schema.property` finds the schema that describes a member of the values of a schema, and
`Schema.nodeAt` walks down from the root along a pointer. Where nothing describes a member, the
blank schema does.
-/

namespace JsonSchema.Schema

def itemAt (n : Node Schema) (index : Nat) : Option Schema :=
  match n.items with
  | .unconstrained => none
  | .uniform schema => some schema
  | .positional schemas =>
    if h : index < schemas.length then some schemas[index] else n.additionalItems

def resolvedNode? (root schema : Schema) : Option (Node Schema) := (root.resolve schema).toNode?

def propertyOfAlternative (root : Schema) (name : String) (alternative : Schema) :
    Option Schema := do
  (← (← root.resolvedNode? alternative).properties).lookup name

/-- What a node says about a member: its properties come first, then its items, then its additional
properties, and last the alternatives of `anyOf`. -/
def propertyOfNode (root : Schema) (name : String) (n : Node Schema) : Option Schema :=
  (n.properties.getD []).lookup name <|>
    (Pointer.index? name).bind (itemAt n) <|>
    n.additionalProperties <|>
    (n.anyOf.getD []).findSome? (root.propertyOfAlternative name)

def property (root : Schema) (name : String) (schema : Schema) : Schema :=
  match root.resolvedNode? schema with
  | some n => if n.ref.isSome then .node blank else (root.propertyOfNode name n).getD (.node blank)
  | none => .node blank

def settled? : Option (Node Schema) → Option (Node Schema)
  | some n => if n.ref.isSome then none else some n
  | none => none

/-- Walks down from a node, resolving references after each step. -/
def descend (root : Schema) : Option (Node Schema) → List String → Option (Node Schema)
  | current, [] => settled? current
  | current, segment :: rest =>
    match settled? current with
    | some n => descend root (root.resolvedNode? (root.property segment (.node n))) rest
    | none => none

def nodeAt (root : Schema) (pointer : String) : Option (Node Schema) :=
  match Pointer.parse pointer with
  | .ok segments => root.descend (root.resolvedNode? root) segments
  | .error _ => none

end JsonSchema.Schema
