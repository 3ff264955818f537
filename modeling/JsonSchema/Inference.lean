import JsonSchema.Validation

/-!
# Inferring types

`Schema.infer` finds the type that a schema implies, with the node that declares it. References are
followed, each at most once on the way; where a node declares no type, its alternatives are tried in
order, those that reject a known value being passed over.
-/

namespace JsonSchema

structure Implied where
  type : TypeSpec
  node : Node Schema

namespace Schema

def branches (n : Node Schema) : List Schema :=
  n.anyOf.getD [] ++ n.allOf.getD [] ++ n.oneOf.getD []

def inferFromKeywords (n : Node Schema) : Option Implied :=
  if n.properties.isSome ∨ n.additionalProperties.isSome then some ⟨.single .object, n⟩
  else match n.enum with
    | some (first :: _) => some ⟨.single (.ofValue first), n⟩
    | _ => if n.isBlank then some ⟨.any, n⟩ else none

def isBooleanOrObject (primitives : List Primitive) : Bool :=
  primitives.contains .boolean && primitives.contains .object &&
    primitives.all fun p => p = .boolean || p = .object

/-- The first result for a branch that accepts the value, if there is a value. -/
def firstBranch (root : Schema) (actual : Option Value)
    (inferBranch : Schema → Except Fault (Option Implied)) :
    List Schema → Except Fault (Option Implied)
  | [] => .ok none
  | branch :: rest => do
    let accepted ← match actual with
      | some value => root.isValid branch value
      | none => pure true
    if accepted then
      match ← inferBranch branch with
      | some found => return some found
      | none => firstBranch root actual inferBranch rest
    else firstBranch root actual inferBranch rest

/-- Inference with fuel; `seen` holds the references that were followed on the way. -/
def inferWithin (root : Schema) (actual : Option Value) :
    Nat → List String → Schema → Except Fault (Option Implied)
  | 0, _, _ => .error .outOfFuel
  | fuel + 1, seen, schema =>
    match schema.toNode? with
    | none => .ok none
    | some n =>
      match n.ref, n.type with
      | some ref, _ =>
        if seen.contains ref then .ok none
        else match root.resolveReference ref with
          | none => .ok none
          | some target => inferWithin root actual fuel (ref :: seen) target
      | none, .any => do
        match ← firstBranch root actual (inferWithin root actual fuel seen) (branches n) with
        | some found => return some found
        | none => return inferFromKeywords n
      | none, .union primitives =>
        .ok (some ⟨if isBooleanOrObject primitives then .single .object else n.type, n⟩)
      | none, type => .ok (some ⟨type, n⟩)

def infer (root : Schema) (actual : Option Value) (schema : Schema) :
    Except Fault (Option Implied) :=
  inferWithin root actual (levelsPerValue root schema) [] schema

def inferAmong (root : Schema) (actual : Option Value) (schemas : List Schema) :
    Except Fault (Option Implied) :=
  firstBranch root actual (root.infer actual) schemas

end Schema

inductive InferenceProblem where
  | noSchema (pointer : String)
  | noType (pointer : String)
deriving DecidableEq

def InferenceProblem.message : InferenceProblem → String
  | .noSchema pointer => "Can't resolve schema at " ++ pointer
  | .noType pointer => "Can't imply type: " ++ pointer

namespace Schema

def partAt (value : Option Value) (pointer : String) : Option Value := do
  match Pointer.parse pointer with
  | .ok segments => (← value).at? segments
  | .error _ => none

/-- The type that applies at a pointer; what a value has there decides between alternatives. -/
def implyType (root : Schema) (value : Option Value) (pointer : String) :
    Except Fault (Except InferenceProblem Implied) := do
  match root.nodeAt pointer with
  | none => return .error (.noSchema pointer)
  | some n =>
    match ← root.infer (partAt value pointer) (.node n) with
    | some implied => return .ok implied
    | none => return .error (.noType pointer)

end Schema

end JsonSchema
