import JsonSchema.Value
import JsonSchema.Value.Display

/-!
# Types

The seven primitive types and what a schema says about the type of a value. Every integer is also a
number, and a double with an integral value is an integer.
-/

namespace JsonSchema

inductive Primitive where
  | integer | number | string | boolean | array | object | null
deriving DecidableEq

namespace Primitive

def all : List Primitive := [.integer, .number, .string, .boolean, .array, .object, .null]

def name : Primitive → String
  | .integer => "integer"
  | .number => "number"
  | .string => "string"
  | .boolean => "boolean"
  | .array => "array"
  | .object => "object"
  | .null => "null"

def kind : Primitive → String
  | .integer => "Int"
  | .number => "Float"
  | .string => "String"
  | .boolean => "Bool"
  | .array => "Array"
  | .object => "Object"
  | .null => "Null"

def ofName? (name : String) : Option Primitive := all.find? (·.name = name)

/-- The narrowest primitive type of a value. -/
def ofValue : Value → Primitive
  | .null => .null
  | .bool _ => .boolean
  | .number n => if n.isIntegral then .integer else .number
  | .string _ => .string
  | .array _ => .array
  | .object _ => .object

def accepts (expected : Primitive) (value : Value) : Bool :=
  let actual := ofValue value
  actual = expected || (expected = .number && actual = .integer)

end Primitive

inductive TypeSpec where
  | any
  | single (primitive : Primitive)
  | nullable (primitive : Primitive)
  | union (primitives : List Primitive)
deriving DecidableEq

namespace TypeSpec

def accepts (spec : TypeSpec) (value : Value) : Bool :=
  match spec with
  | .any => true
  | .single primitive => primitive.accepts value
  | .nullable primitive => Primitive.null.accepts value || primitive.accepts value
  | .union primitives => primitives.any (·.accepts value)

/-- The specification that a list of types stands for: one type alone is single, and one type beside
null is nullable. -/
def ofPrimitives (primitives : List Primitive) : TypeSpec :=
  match primitives with
  | [primitive] => .single primitive
  | [first, second] =>
    if first ≠ .null ∧ second = .null then .nullable first
    else if first = .null ∧ second ≠ .null then .nullable second
    else .union primitives
  | primitives => .union primitives

def toValue? : TypeSpec → Option Value
  | .any => none
  | .single primitive => some (.string primitive.name)
  | .nullable primitive => some (.array [.string primitive.name, .string Primitive.null.name])
  | .union primitives => some (.array (primitives.map fun p => .string p.name))

inductive Error where
  | unknownName (value : Value)
  | notNames (kind : String)

/-- The name of the kind of a scalar in the message that it cannot be taken apart. -/
def scalarKind : Value → String
  | .number (.int _) => "int"
  | .number (.float _) => "float"
  | .bool _ => "bool"
  | _ => "NoneType"

def Error.message : Error → String
  | .unknownName value => "Unknown type name: " ++ value.display
  | .notNames kind => "'" ++ kind ++ "' object is not iterable"

def readPrimitive (value : Value) : Except Error Primitive :=
  match value with
  | .string name =>
    match Primitive.ofName? name with
    | some primitive => .ok primitive
    | none => .error (.unknownName value)
  | _ => .error (.unknownName value)

/-- A name, a list of names, or an object whose member names are the names. -/
def ofValue (value : Value) : Except Error TypeSpec :=
  match value with
  | .string _ => (readPrimitive value).map .single
  | .array names => (names.mapM readPrimitive).map ofPrimitives
  | .object members => (members.mapM fun m => readPrimitive (.string m.1)).map ofPrimitives
  | scalar => .error (.notNames (scalarKind scalar))

end TypeSpec

end JsonSchema
