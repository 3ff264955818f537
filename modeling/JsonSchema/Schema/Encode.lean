import JsonSchema.Schema.Basic

/-!
# Writing schemas as values

`Node.encode` lists the keywords that a node has, in a fixed order, from the values of its
sub-schemas; members that are no keywords follow in their own order.
-/

namespace JsonSchema

namespace Node

def encodeCount (count : Nat) : Value := .int count

def encodeItems : Items Value → Option Value
  | .unconstrained => none
  | .uniform schema => some schema
  | .positional schemas => some (.array schemas)

def encodeDependency : Dependency Value → Value
  | .conforms schema => schema
  | .requires names => .array (names.map .string)

def keywordValues (node : Node Value) : List (String × Option Value) := [
  ("$ref", node.ref.map .string),
  ("type", node.type.toValue?),
  ("title", node.title),
  ("description", node.description),
  ("default", node.default),
  ("examples", node.examples.map .array),
  ("definitions", node.definitions.map .object),
  ("multipleOf", node.multipleOf.map .number),
  ("maximum", node.maximum.map .number),
  ("exclusiveMaximum", node.exclusiveMaximum.map .number),
  ("minimum", node.minimum.map .number),
  ("exclusiveMinimum", node.exclusiveMinimum.map .number),
  ("maxLength", node.maxLength.map encodeCount),
  ("minLength", node.minLength.map encodeCount),
  ("pattern", node.pattern.map .string),
  ("items", encodeItems node.items),
  ("additionalItems", node.additionalItems),
  ("maxItems", node.maxItems.map encodeCount),
  ("minItems", node.minItems.map encodeCount),
  ("uniqueItems", if node.uniqueItems then some (.bool true) else none),
  ("contains", node.contains),
  ("maxProperties", node.maxProperties.map encodeCount),
  ("minProperties", node.minProperties.map encodeCount),
  ("required", node.required.map fun names => .array (names.map .string)),
  ("properties", node.properties.map .object),
  ("patternProperties", node.patternProperties.map .object),
  ("additionalProperties", node.additionalProperties),
  ("propertyNames", node.propertyNames),
  ("dependencies", node.dependencies.map fun members =>
    .object (mapMembers encodeDependency members)),
  ("enum", node.enum.map .array),
  ("const", node.const),
  ("allOf", node.allOf.map .array),
  ("anyOf", node.anyOf.map .array),
  ("oneOf", node.oneOf.map .array)]

def present (members : List (String × Option Value)) : List (String × Value) :=
  members.filterMap fun member => member.2.map fun value => (member.1, value)

def encode (node : Node Value) : Value :=
  .object (present node.keywordValues ++ node.extras)

end Node

namespace Schema

def encode : Schema → Value := fold .bool Node.encode

end Schema

end JsonSchema
