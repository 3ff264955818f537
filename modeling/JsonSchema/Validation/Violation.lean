import JsonSchema.Json.Writer
import JsonSchema.Pointer
import JsonSchema.Schema.Primitive

/-!
# Violations

A violation is a cause and the steps that lead from the value that is validated to the part that the
cause is about. A `Diagnostic` is its form in a report, with a pointer and the labels of the steps.
-/

namespace JsonSchema

/-- A step from a value to a part of it, or to the name of one of its members. -/
inductive Step where
  | item (index : Nat)
  | property (name : String)
  | propertyName (name : String)
deriving DecidableEq

namespace Step

def segment : Step → String
  | .item index => Pointer.ofIndex index
  | .property name => name
  | .propertyName name => name

def label : Step → String
  | .item index => "Item at index " ++ toString index
  | .property name => "Invalid property '" ++ name ++ "'"
  | .propertyName name =>
    "Property '" ++ name ++ "' doesn't validate against propertyNames schema"

end Step

inductive Cause where
  | falseSchema
  | notInEnum
  | notConst (expected actual : Value)
  | wrongType (expected : TypeSpec) (actual : Value)
  | notMultiple (divisor : Number)
  | aboveMaximum (bound : Number)
  | notBelow (bound : Number)
  | belowMinimum (bound : Number)
  | notAbove (bound : Number)
  | tooLong (bound : Nat)
  | tooShort (bound : Nat)
  | badPattern (pattern : String)
  | noMatch
  | tooManyItems (bound : Nat)
  | tooFewItems (bound : Nat)
  | repeatedItems
  | extraItem
  | nothingContained
  | tooManyProperties (bound : Nat)
  | tooFewProperties (bound : Nat)
  | missingProperties
  | extraProperty
  | noneOfAny
  | noneOfOne
  | severalOfOne (count : Nat)

namespace Cause

def typeMessage (expected : TypeSpec) (actual : Value) : String :=
  let got := " but instead got: " ++ Json.compact actual
  let expecting (primitive : Primitive) : String :=
    match primitive with
    | .null => "Expecting null" ++ got
    | .integer => "Expecting an " ++ primitive.kind ++ got
    | _ => "Expecting a " ++ primitive.kind ++ got
  match expected with
  | .any => "Expecting anything" ++ got
  | .single primitive => expecting primitive
  | .nullable primitive => expecting primitive
  | .union primitives => "Expecting one of " ++ ", ".intercalate (primitives.map (·.kind)) ++ got

def message : Cause → String
  | .falseSchema => "Value is not allowed by the false schema"
  | .notInEnum => "Value is not present in enum"
  | .notConst expected actual =>
    "Value doesn't equal const: expected \"" ++ Json.compact expected ++
      "\" but the actual value is \"" ++ Json.compact actual ++ "\""
  | .wrongType expected actual => typeMessage expected actual
  | .notMultiple divisor => "Value is not a multiple of " ++ divisor.display
  | .aboveMaximum bound => "Value is above the maximum of " ++ bound.display
  | .notBelow bound => "Value is not below the exclusive maximum of " ++ bound.display
  | .belowMinimum bound => "Value is below the minimum of " ++ bound.display
  | .notAbove bound => "Value is not above the exclusive minimum of " ++ bound.display
  | .tooLong bound => "String is longer than expected (maxLength=" ++ toString bound ++ ")"
  | .tooShort bound => "String is shorter than expected (minLength=" ++ toString bound ++ ")"
  | .badPattern pattern => "Pattern '" ++ pattern ++ "' is not a valid regular expression"
  | .noMatch => "String does not match the regex pattern"
  | .tooManyItems bound => "Array has more items than expected (maxItems=" ++ toString bound ++ ")"
  | .tooFewItems bound => "Array has fewer items than expected (minItems=" ++ toString bound ++ ")"
  | .repeatedItems => "Array has non-unique items"
  | .extraItem => "Additional item not allowed"
  | .nothingContained => "Array does not contain expected value"
  | .tooManyProperties bound =>
    "Object has more properties than expected (maxProperties=" ++ toString bound ++ ")"
  | .tooFewProperties bound =>
    "Object has fewer properties than expected (minProperties=" ++ toString bound ++ ")"
  | .missingProperties => "Object doesn't have all the required properties"
  | .extraProperty => "Additional property not allowed"
  | .noneOfAny => "None of the schemas in anyOf accept this value"
  | .noneOfOne => "None of the schemas in anyOf allow this value"
  | .severalOfOne count =>
    "oneOf expects value to succeed validation against exactly one schema but " ++
      toString count ++ " validations succeeded"

end Cause

structure Violation where
  steps : List Step
  cause : Cause

structure Diagnostic where
  path : String
  message : String
  context : List String := []
deriving DecidableEq

namespace Violation

def under (step : Step) (violation : Violation) : Violation :=
  { violation with steps := step :: violation.steps }

def segments (violation : Violation) : List String := violation.steps.map Step.segment

def context (violation : Violation) : List String := violation.steps.map Step.label

def diagnostic (start : String) (violation : Violation) : Diagnostic where
  path := Pointer.extend start violation.segments
  message := violation.cause.message
  context := violation.context

end Violation

namespace Diagnostic

def describe (d : Diagnostic) : String := ": ".intercalate (d.context ++ [d.message])

end Diagnostic

end JsonSchema
