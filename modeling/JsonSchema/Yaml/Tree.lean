import JsonSchema.Json.Writer
import JsonSchema.Value

/-!
# Trees of a YAML document

What a reader of YAML delivers. A tree differs from a JSON value in the names of members, which may be
any scalar, and in scalars of kinds that JSON lacks.
-/

namespace JsonSchema

inductive Yaml.Scalar where
  | null
  | bool (b : Bool)
  | number (n : Number)
  | text (s : String)
  /-- Data of a kind that JSON lacks, such as a date. -/
  | foreign (isEmpty : Bool)

inductive Yaml where
  | scalar (content : Yaml.Scalar)
  | sequence (items : List Yaml)
  | mapping (members : List (Yaml.Scalar × Yaml))

namespace Yaml

namespace Scalar

def isText : Scalar → Bool
  | .text _ => true
  | _ => false

/-- The JSON value of a scalar; null stands for what JSON lacks. -/
def toValue : Scalar → Value
  | .null | .foreign _ => .null
  | .bool b => .bool b
  | .number n => .number n
  | .text s => .string s

def toName : Scalar → String
  | .text s => s
  | content => Json.compact content.toValue

end Scalar

/-- Whether every name at the top of a tree is a text. -/
def hasTextNames : Yaml → Bool
  | .mapping members => members.all (·.1.isText)
  | _ => true

mutual

def toValue : Yaml → Value
  | .scalar content => content.toValue
  | .sequence items => .array (toValues items)
  | .mapping members => .object (toMembers members)

def toValues : List Yaml → List Value
  | [] => []
  | item :: rest => item.toValue :: toValues rest

def toMembers : List (Scalar × Yaml) → List (String × Value)
  | [] => []
  | (name, tree) :: rest => (name.toName, tree.toValue) :: toMembers rest

end

def truthy : Yaml → Bool
  | .scalar (.foreign isEmpty) => !isEmpty
  | tree => tree.toValue.truthy

end Yaml

end JsonSchema
