import JsonSchema.Validation.Walk

/-!
# Validation

The questions that can be asked about a value and a schema. All answers are drawn from
`Schema.findings`; a fault is part of an answer only if the answer depends on what lies behind it.
-/

namespace JsonSchema

namespace Schema

def firstError (root schema : Schema) (value : Value) : Except Fault (Option Diagnostic) :=
  (findings root schema value |>.take 1).map fun violations =>
    violations.head?.map (Violation.diagnostic "#")

def isValid (root schema : Schema) (value : Value) : Except Fault Bool :=
  (findings root schema value).passes

def greatestLimit : Int := 0x7fffffffffffffff

/-- The first errors of a value that stands at the pointer `start`, at most `limit` of them. -/
def errors (root schema : Schema) (value : Value) (start : String) (limit : Int) :
    Except Fault (List Diagnostic) :=
  if limit < 0 ∨ greatestLimit < limit then .error .badLimit
  else ((findings root schema value).take limit.toNat).map
    (List.map (Violation.diagnostic start))

end Schema

def messagesByPath (diagnostics : List Diagnostic) : List (String × String) :=
  diagnostics.foldl (fun messages d =>
    if Members.has d.path messages then messages else messages ++ [(d.path, d.message)]) []

end JsonSchema
