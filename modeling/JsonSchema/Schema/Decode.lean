import JsonSchema.Pointer
import JsonSchema.Schema.Basic

/-!
# Reading schemas from values

`Node.decode` reads the keywords of one node and takes the reading of sub-schemas as a parameter;
`Schema.decode` closes the recursion. The first keyword at fault, in the order of `Node.decode`, is
reported. A failure names its place relative to the value that was read, and is carried outwards by
`DecodeError.within`.
-/

namespace JsonSchema

inductive Malformation where
  | notASchema
  | notANumber
  | notACount
  | notAString
  | notAList
  | notAnObject
  | notSchemasByName
  | notAListOfSchemas
  | notAListOfStrings
  | badType (cause : TypeSpec.Error)

def Malformation.message : Malformation → String
  | .notASchema => "schema must be an object or a boolean"
  | .notANumber => "expected a number"
  | .notACount => "expected a non-negative integer"
  | .notAString => "expected a string"
  | .notAList => "expected a list"
  | .notAnObject => "expected an object"
  | .notSchemasByName => "expected an object of schemas"
  | .notAListOfSchemas => "expected a list of schemas"
  | .notAListOfStrings => "expected a list of strings"
  | .badType cause => cause.message

/-- Why a value is no schema. A count that is infinite or not a number has no integer to be compared
with, which is a fault of its own kind. -/
inductive DecodeError where
  | malformed (location : List String) (cause : Malformation)
  | infiniteCount
  | undefinedCount

namespace DecodeError

def within (segments : List String) : DecodeError → DecodeError
  | .malformed location cause => .malformed (segments ++ location) cause
  | error => error

def pointer (location : List String) : String := Pointer.extend "#" location

def message : DecodeError → String
  | .malformed location cause => pointer location ++ ": " ++ cause.message
  | .infiniteCount => "a count is infinite"
  | .undefinedCount => "a count is not a number"

end DecodeError

namespace Node

variable {σ : Type}

abbrev Document := List (String × Value)

/-- The value of a keyword; null counts as no value. -/
def keyword? (document : Document) (key : String) : Option Value :=
  match document.lookup key with
  | some .null => none
  | found => found

def decodeNumber (document : Document) (key : String) : Except DecodeError (Option Number) :=
  match keyword? document key with
  | none => .ok none
  | some (.number n) => .ok (some n)
  | some _ => .error (.malformed [key] .notANumber)

/-- A number as a count; an integral double is the integer it is equal to. -/
def countOf (key : String) (n : Number) : Except DecodeError Nat :=
  if n.lt .zero then .error (.malformed [key] .notACount)
  else match n.toInt?, n with
    | some count, _ => .ok count.toNat
    | none, .float .nan => .error .undefinedCount
    | none, .float (.infinite _) => .error .infiniteCount
    | none, _ => .error (.malformed [key] .notACount)

def decodeCount (document : Document) (key : String) : Except DecodeError (Option Nat) :=
  match keyword? document key with
  | none => .ok none
  | some (.number n) => (countOf key n).map some
  | some _ => .error (.malformed [key] .notACount)

def decodeString (document : Document) (key : String) : Except DecodeError (Option String) :=
  match keyword? document key with
  | none => .ok none
  | some (.string text) => .ok (some text)
  | some _ => .error (.malformed [key] .notAString)

def stringsOf? : List Value → Option (List String)
  | [] => some []
  | .string text :: rest => (stringsOf? rest).map (text :: ·)
  | _ :: _ => none

def decodeStrings (location : List String) (value : Value) : Except DecodeError (List String) :=
  match value with
  | .array items =>
    match stringsOf? items with
    | some texts => .ok texts
    | none => .error (.malformed location .notAListOfStrings)
  | _ => .error (.malformed location .notAListOfStrings)

def decodeType (document : Document) : Except DecodeError TypeSpec :=
  match keyword? document "type" with
  | none => .ok .any
  | some value =>
    (TypeSpec.ofValue value).mapError fun cause => .malformed ["type"] (.badType cause)

/-- A bound and its exclusive form. Where the exclusive keyword is a boolean, it says whether the
bound itself is exclusive. -/
def decodeBounds (document : Document) (key exclusiveKey : String) :
    Except DecodeError (Option Number × Option Number) := do
  let bound ← decodeNumber document key
  match document.lookup exclusiveKey with
  | some (.bool exclusive) =>
    return if exclusive ∧ bound.isSome then (none, bound) else (bound, none)
  | _ => return (bound, ← decodeNumber document exclusiveKey)

section SubSchemas

variable (sub : Value → Except DecodeError σ)

def decodeAt (location : List String) (value : Value) : Except DecodeError σ :=
  (sub value).mapError (·.within location)

def decodeMember (key : String) (member : String × Value) : Except DecodeError (String × σ) := do
  return (member.1, ← decodeAt sub [key, member.1] member.2)

def decodeEach (key : String) : Nat → List Value → Except DecodeError (List σ)
  | _, [] => .ok []
  | index, value :: rest => do
    let schema ← decodeAt sub [key, Pointer.ofIndex index] value
    return schema :: (← decodeEach key (index + 1) rest)

def decodeMembers (document : Document) (key : String) :
    Except DecodeError (Option (List (String × σ))) :=
  match keyword? document key with
  | none => .ok none
  | some (.object members) => (members.mapM (decodeMember sub key)).map some
  | some _ => .error (.malformed [key] .notSchemasByName)

def decodeList (document : Document) (key : String) : Except DecodeError (Option (List σ)) :=
  match keyword? document key with
  | none => .ok none
  | some (.array items) => (decodeEach sub key 0 items).map some
  | some _ => .error (.malformed [key] .notAListOfSchemas)

/-- A keyword whose value is a schema; here null is a value like any other. -/
def decodeSchema (document : Document) (key : String) : Except DecodeError (Option σ) :=
  match document.lookup key with
  | none => .ok none
  | some value => (decodeAt sub [key] value).map some

def decodeItems (document : Document) : Except DecodeError (Items σ) :=
  match keyword? document "items" with
  | none => .ok .unconstrained
  | some (.array items) => (decodeEach sub "items" 0 items).map .positional
  | some value => (decodeAt sub ["items"] value).map .uniform

def decodeDependency (member : String × Value) : Except DecodeError (String × Dependency σ) :=
  let location := ["dependencies", member.1]
  match member.2 with
  | .array _ => (decodeStrings location member.2).map fun names => (member.1, .requires names)
  | value => (decodeAt sub location value).map fun schema => (member.1, .conforms schema)

def decodeDependencies (document : Document) :
    Except DecodeError (Option (List (String × Dependency σ))) :=
  match document.lookup "dependencies" with
  | none => .ok none
  | some (.object members) => (members.mapM (decodeDependency sub)).map some
  | some _ => .error (.malformed ["dependencies"] .notAnObject)

end SubSchemas

def decodeEnum (document : Document) : Except DecodeError (Option (List Value)) :=
  match keyword? document "enum" with
  | none => .ok none
  | some (.array items) => .ok (some items)
  | some _ => .error (.malformed ["enum"] .notAList)

def decodeRequired (document : Document) : Except DecodeError (Option (List String)) :=
  match document.lookup "required" with
  | none => .ok none
  | some value => (decodeStrings ["required"] value).map some

/-- Examples count only as a list. -/
def examplesOf (document : Document) : Option (List Value) :=
  match document.lookup "examples" with
  | some (.array items) => some items
  | _ => none

/-- The names with a meaning in a node; any other member is kept as it is. -/
def keywordNames : List String := [
  "type", "$ref", "definitions", "title", "description", "default", "examples", "multipleOf",
  "maximum", "exclusiveMaximum", "minimum", "exclusiveMinimum", "maxLength", "minLength",
  "pattern", "items", "additionalItems", "maxItems", "minItems", "uniqueItems", "contains",
  "maxProperties", "minProperties", "required", "properties", "patternProperties",
  "additionalProperties", "propertyNames", "dependencies", "enum", "const", "allOf", "anyOf",
  "oneOf"]

def decode (sub : Value → Except DecodeError σ) (document : Document) :
    Except DecodeError (Node σ) := do
  let type ← decodeType document
  let ref ← decodeString document "$ref"
  let items ← decodeItems sub document
  let pattern ← decodeString document "pattern"
  let enum ← decodeEnum document
  let required ← decodeRequired document
  let dependencies ← decodeDependencies sub document
  let (maximum, exclusiveMaximum) ← decodeBounds document "maximum" "exclusiveMaximum"
  let (minimum, exclusiveMinimum) ← decodeBounds document "minimum" "exclusiveMinimum"
  let definitions ← decodeMembers sub document "definitions"
  let multipleOf ← decodeNumber document "multipleOf"
  let maxLength ← decodeCount document "maxLength"
  let minLength ← decodeCount document "minLength"
  let additionalItems ← decodeSchema sub document "additionalItems"
  let maxItems ← decodeCount document "maxItems"
  let minItems ← decodeCount document "minItems"
  let contains ← decodeSchema sub document "contains"
  let maxProperties ← decodeCount document "maxProperties"
  let minProperties ← decodeCount document "minProperties"
  let properties ← decodeMembers sub document "properties"
  let patternProperties ← decodeMembers sub document "patternProperties"
  let additionalProperties ← decodeSchema sub document "additionalProperties"
  let propertyNames ← decodeSchema sub document "propertyNames"
  let allOf ← decodeList sub document "allOf"
  let anyOf ← decodeList sub document "anyOf"
  let oneOf ← decodeList sub document "oneOf"
  return {
    type, ref, enum
    title := keyword? document "title"
    description := keyword? document "description"
    default := document.lookup "default"
    examples := examplesOf document
    extras := document.filter fun member => !keywordNames.contains member.1
    multipleOf, maximum, exclusiveMaximum, minimum, exclusiveMinimum
    maxLength, minLength, pattern
    maxItems, minItems
    uniqueItems := ((document.lookup "uniqueItems").getD (.bool false)).truthy
    maxProperties, minProperties, required
    const := document.lookup "const"
    definitions, items, additionalItems, contains, properties, patternProperties
    additionalProperties, propertyNames, dependencies, allOf, anyOf, oneOf }

end Node

namespace Schema

def decodeWithin : Nat → Value → Except DecodeError Schema
  | _, .bool accepted => .ok (.always accepted)
  | levels + 1, .object members => (Node.decode (decodeWithin levels) members).map .node
  | _, _ => .error (.malformed [] .notASchema)

def decode (value : Value) : Except DecodeError Schema := decodeWithin value.depth value

end Schema

end JsonSchema
