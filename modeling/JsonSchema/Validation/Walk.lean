import JsonSchema.Validation.Keywords

/-!
# Walking a value along a schema

`walk` closes the recursion over sub-schemas. `active` holds the references that were entered at the
current value; coming to one of them again means a cycle, which is cut by taking the value for
valid. Each call uses up one unit of fuel, and `Schema.fuel` is enough of it for every value.
-/

namespace JsonSchema

def walk (root : Schema) : Nat → List String → Value → Schema → Findings
  | 0, _, _, _ => .raise .outOfFuel
  | fuel + 1, active, value, schema =>
    match schema with
    | .always true => .clean
    | .always false => .report .falseSchema
    | .node n =>
      match n.ref with
      | none => checkNode (walk root fuel active value) (walk root fuel []) n value
      | some ref =>
        if active.contains ref then .clean
        else match root.resolveReference ref with
          | none => .clean
          | some target => walk root fuel (ref :: active) value target

namespace Schema

def refCount (root schema : Schema) : Nat := (root.refs ++ schema.refs).eraseDups.length

/-- How deep nodes can be entered at one value: each reference once, and between two references no
more nodes than stand one below the other. -/
def levelsPerValue (root schema : Schema) : Nat :=
  (refCount root schema + 1) * max root.depth schema.depth

def fuel (root schema : Schema) (value : Value) : Nat := value.depth * levelsPerValue root schema

/-- Everything that is wrong with a value. References are resolved in `root`. -/
def findings (root schema : Schema) (value : Value) : Findings :=
  walk root (fuel root schema value) [] value schema

end Schema

end JsonSchema
