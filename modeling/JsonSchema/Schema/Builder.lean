import JsonSchema.Schema.Decode

/-!
# Building schemas

A schema can be built step by step from a blank node, or from one that was read. Each `BuildStep`
sets one keyword and checks its value as far as the keyword asks for it.
-/

namespace JsonSchema

inductive BuildStep where
  | type (names : Value)
  | nullableType (name : Value)
  | unionType (names : Value)
  | anyType
  | ref (ref : Option String)
  | definitions (members : List (String × Schema))
  | title (title : Value)
  | description (description : Value)
  | default (value : Value)
  | multipleOf (divisor : Number)
  | maximum (bound : Option Number)
  | exclusiveMaximum (bound : Option Number)
  | minimum (bound : Option Number)
  | exclusiveMinimum (bound : Option Number)
  | maxLength (count : Value)
  | minLength (count : Value)
  | pattern (pattern : Option String)
  | item (schema : Schema)
  | items (schemas : List Schema)
  | additionalItems (schema : Schema)
  | maxItems (count : Value)
  | minItems (count : Value)
  | uniqueItems (unique : Bool)
  | contains (schema : Schema)
  | maxProperties (count : Value)
  | minProperties (count : Value)
  | required (names : Value)
  | properties (members : List (String × Schema))
  | patternProperties (members : List (String × Schema))
  | additionalProperties (schema : Schema)
  | propertyNames (schema : Schema)
  | schemaDependency (name : String) (schema : Schema)
  | propertyDependency (name : String) (names : Value)
  | enum (values : Value)
  | const (value : Value)
  | allOf (schemas : List Schema)
  | anyOf (schemas : List Schema)
  | oneOf (schemas : List Schema)

inductive BuildError where
  | badType (cause : TypeSpec.Error)
  | emptyUnion
  | notACount (keyword : String)
  | notPositive
  /-- A list was asked for and something else was given. -/
  | notAList
  | notStrings

def BuildError.message : BuildError → String
  | .badType cause => cause.message
  | .emptyUnion => "Union type needs at least one type name"
  | .notACount keyword => keyword ++ " must be a non-negative integer"
  | .notPositive => "multipleOf must be greater than 0"
  | .notAList => "a list is needed"
  | .notStrings => "a list of strings is needed"

namespace Build

/-- The elements of a list, the characters of a text, or the names of an object. -/
def elements : Value → Except BuildError (List Value)
  | .array items => .ok items
  | .string text => .ok (text.toList.map fun c => .string (String.singleton c))
  | .object members => .ok (members.map fun member => .string member.1)
  | _ => .error .notAList

def strings (value : Value) : Except BuildError (List String) := do
  match Node.stringsOf? (← elements value) with
  | some texts => return texts
  | none => throw .notStrings

def typeOf (names : Value) : Except BuildError TypeSpec :=
  match TypeSpec.ofValue names with
  | .ok type => .ok type
  | .error (.notNames _) => .error .notAList
  | .error cause => .error (.badType cause)

def primitiveOf (name : Value) : Except BuildError Primitive :=
  (TypeSpec.readPrimitive name).mapError .badType

def unionOf (names : Value) : Except BuildError TypeSpec := do
  let primitives ← (← elements names).mapM primitiveOf
  if primitives.isEmpty then throw .emptyUnion
  return .union primitives

/-- A count is an integer; an integral double is refused here. -/
def countOf (keyword : String) : Value → Except BuildError Nat
  | .number (.int n) => if 0 ≤ n then .ok n.toNat else .error (.notACount keyword)
  | _ => .error (.notACount keyword)

def unlessNull : Value → Option Value
  | .null => none
  | value => some value

def withDependency (name : String) (dependency : Dependency Schema) (n : Node Schema) :
    Node Schema :=
  { n with dependencies := some (Members.insert name dependency (n.dependencies.getD [])) }

def apply (n : Node Schema) : BuildStep → Except BuildError (Node Schema)
  | .type names => return { n with type := ← typeOf names }
  | .nullableType name => return { n with type := .nullable (← primitiveOf name) }
  | .unionType names => return { n with type := ← unionOf names }
  | .anyType => return { n with type := .any }
  | .ref ref => return { n with ref }
  | .definitions members => return { n with definitions := some members }
  | .title title => return { n with title := unlessNull title }
  | .description description => return { n with description := unlessNull description }
  | .default value => return { n with default := some value }
  | .multipleOf divisor =>
    if divisor.le .zero then throw .notPositive else return { n with multipleOf := some divisor }
  | .maximum bound => return { n with maximum := bound }
  | .exclusiveMaximum bound => return { n with exclusiveMaximum := bound }
  | .minimum bound => return { n with minimum := bound }
  | .exclusiveMinimum bound => return { n with exclusiveMinimum := bound }
  | .maxLength count => return { n with maxLength := some (← countOf "maxLength" count) }
  | .minLength count => return { n with minLength := some (← countOf "minLength" count) }
  | .pattern pattern => return { n with pattern }
  | .item schema => return { n with items := .uniform schema }
  | .items schemas => return { n with items := .positional schemas }
  | .additionalItems schema => return { n with additionalItems := some schema }
  | .maxItems count => return { n with maxItems := some (← countOf "maxItems" count) }
  | .minItems count => return { n with minItems := some (← countOf "minItems" count) }
  | .uniqueItems unique => return { n with uniqueItems := unique }
  | .contains schema => return { n with contains := some schema }
  | .maxProperties count =>
    return { n with maxProperties := some (← countOf "maxProperties" count) }
  | .minProperties count =>
    return { n with minProperties := some (← countOf "minProperties" count) }
  | .required names => return { n with required := some (← strings names) }
  | .properties members => return { n with properties := some members }
  | .patternProperties members => return { n with patternProperties := some members }
  | .additionalProperties schema => return { n with additionalProperties := some schema }
  | .propertyNames schema => return { n with propertyNames := some schema }
  | .schemaDependency name schema => return withDependency name (.conforms schema) n
  | .propertyDependency name names => return withDependency name (.requires (← strings names)) n
  | .enum values => return { n with enum := some (← elements values) }
  | .const value => return { n with const := some value }
  | .allOf schemas => return { n with allOf := some schemas }
  | .anyOf schemas => return { n with anyOf := some schemas }
  | .oneOf schemas => return { n with oneOf := some schemas }

def applyAll (start : Node Schema) (steps : List BuildStep) : Except BuildError (Node Schema) :=
  steps.foldlM apply start

end Build

end JsonSchema
