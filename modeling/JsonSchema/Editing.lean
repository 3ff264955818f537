import JsonSchema.Inference

/-!
# Reading and writing at pointers

`setAt` stores a value at a pointer and gives the changed root. Containers that are missing on the
way are created; whether a new one is an array or an object is read off the schema. An array can be
changed at its indices and at the index behind the last.
-/

namespace JsonSchema

/-! ### Seeds -/

def Primitive.seed : Primitive → Value
  | .integer => .int 0
  | .number => .number (.float (.zero false))
  | .string => .string ""
  | .boolean => .bool false
  | .array => .array []
  | .object => .object []
  | .null => .null

/-- The type that a new value gets, if the specification names one. Null comes last. -/
def TypeSpec.primary? : TypeSpec → Option Primitive
  | .any => none
  | .single primitive => some primitive
  | .nullable primitive => some primitive
  | .union primitives =>
    (primitives.find? (· ≠ .null)).or (if primitives.isEmpty then none else some .null)

namespace Schema

/-- An empty value of the type that a schema implies; an empty object if no type is implied. -/
def defaultFor (root schema : Schema) : Value :=
  match root.infer none schema with
  | .ok (some implied) => (implied.type.primary?.map Primitive.seed).getD (.object [])
  | _ => .object []

end Schema

/-! ### Reading -/

namespace Value

def getD (value : Value) (pointer : String) (default : Value) : Value :=
  match Pointer.parse pointer with
  | .ok segments => (value.at? segments).getD default
  | .error _ => default

def getString (value : Value) (pointer : String) : String :=
  match value.getD pointer .null with
  | .string text => text
  | _ => ""

def getInt (value : Value) (pointer : String) : Int :=
  match value.getD pointer .null with
  | .number n => n.toInt?.getD 0
  | _ => 0

def getBool (value : Value) (pointer : String) : Bool :=
  match value.getD pointer .null with
  | .bool b => b
  | _ => false

def getLength (value : Value) (pointer : String) : Nat :=
  match value.getD pointer .null with
  | .array items => items.length
  | _ => 0

end Value

/-! ### Writing -/

/-- Why nothing can be stored at a pointer. The segments lead to the place at fault. -/
inductive EditError where
  | badPointer (cause : Pointer.Error)
  | notAnIndex (segments : List String)
  | beyondEnd (segments : List String) (index length : Nat)

namespace EditError

def within (segment : String) : EditError → EditError
  | .badPointer cause => .badPointer cause
  | .notAnIndex segments => .notAnIndex (segment :: segments)
  | .beyondEnd segments index length => .beyondEnd (segment :: segments) index length

def message : EditError → String
  | .badPointer cause => cause.message
  | .notAnIndex segments =>
    Pointer.format segments ++ ": '" ++ segments.getLastD "" ++ "' is not an array index"
  | .beyondEnd segments index length =>
    Pointer.format segments ++ ": index " ++ toString index ++
      " is beyond the end of an array of length " ++ toString length

end EditError

inductive Container where
  | array (items : List Value)
  | object (members : List (String × Value))

namespace Container

/-- The container to write into: the one that is there, else a new one that the schema asks for. -/
def ofValue (root schema : Schema) (current : Option Value) : Container :=
  match current with
  | some (.array items) => .array items
  | some (.object members) => .object members
  | _ =>
    match root.defaultFor schema with
    | .array _ => .array []
    | _ => .object []

end Container

/-- Replaces the item at an index; the index behind the last adds one. -/
def setItem (items : List Value) (index : Nat) (item : Value) : List Value :=
  if index < items.length then items.set index item else items ++ [item]

namespace Schema

def setBelow (root : Schema) (new : Value) :
    Schema → Option Value → List String → Except EditError Value
  | _, _, [] => .ok new
  | schema, current, segment :: rest =>
    let inner := root.property segment schema
    match Container.ofValue root schema current with
    | .array items =>
      match Pointer.index? segment with
      | none => .error (.notAnIndex [segment])
      | some index =>
        if items.length < index then .error (.beyondEnd [segment] index items.length)
        else ((setBelow root new inner items[index]? rest).mapError (·.within segment)).map
          fun item => .array (setItem items index item)
    | .object members =>
      ((setBelow root new inner (members.lookup segment) rest).mapError (·.within segment)).map
        fun value => .object (Members.insert segment value members)

/-- Stores a value at a pointer into a root value, which may be missing. -/
def setAt (schema : Schema) (pointer : String) (new : Value) (current : Option Value) :
    Except EditError Value :=
  match Pointer.parse pointer with
  | .error cause => .error (.badPointer cause)
  | .ok segments => setBelow schema new schema current segments

end Schema

end JsonSchema
