import JsonSchema.Validation

/-!
# Walking with a place

A walk that takes the place of the value along, its pointer and the labels of the way to it. Each error is
reported with the place at which it is met, so nothing is put in front of it afterwards. The groups of
keywords are the same as in `checkNode`, and a check of the value alone is made as there.
-/

namespace JsonSchema

structure Place where
  path : String
  context : List String := []

namespace Place

def enter (place : Place) (step : Step) : Place where
  path := Pointer.join place.path step.segment
  context := place.context ++ [step.label]

def withoutContext (place : Place) : Place := { path := place.path }

def diagnostic (place : Place) (cause : Cause) : Diagnostic where
  path := place.path
  message := cause.message
  context := place.context

end Place

structure Errors where
  diagnostics : List Diagnostic := []
  fault : Option Fault := none

namespace Errors

def clean : Errors := {}

def report (place : Place) (cause : Cause) : Errors := { diagnostics := [place.diagnostic cause] }

def raise (fault : Fault) : Errors := { fault := some fault }

def isClean (e : Errors) : Bool := e.diagnostics.isEmpty && e.fault.isNone

def append (e f : Errors) : Errors :=
  match e.fault with
  | some _ => e
  | none => { diagnostics := e.diagnostics ++ f.diagnostics, fault := f.fault }

def concat (parts : List Errors) : Errors := parts.foldr append clean

def firstOf : List (Unit → Errors) → Errors
  | [] => clean
  | group :: rest =>
    let found := group ()
    if found.isClean then firstOf rest else found

def passes (e : Errors) : Except Fault Bool :=
  match e.diagnostics, e.fault with
  | _ :: _, _ => .ok false
  | [], some fault => .error fault
  | [], none => .ok true

def require (place : Place) (holds : Bool) (cause : Cause) : Errors :=
  if holds then clean else report place cause

def ofResult {α : Type} (result : Except Fault α) (next : α → Errors) : Errors :=
  match result with
  | .ok a => next a
  | .error fault => raise fault

def take (limit : Nat) (e : Errors) : Except Fault (List Diagnostic) :=
  if limit ≤ e.diagnostics.length then .ok (e.diagnostics.take limit)
  else match e.fault with
    | some fault => .error fault
    | none => .ok e.diagnostics

def ofCheck (place : Place) (found : Findings) : Errors where
  diagnostics := found.violations.map fun violation => place.diagnostic violation.cause
  fault := found.fault

def anyPasses : List (Unit → Errors) → Except Fault Bool
  | [] => .ok false
  | check :: rest => do if ← (check ()).passes then return true else anyPasses rest

def countPasses : List (Unit → Errors) → Except Fault Nat
  | [] => .ok 0
  | check :: rest => do
    let passed ← (check ()).passes
    let others ← countPasses rest
    return if passed then others + 1 else others

section SubSchemas

variable (here : Place → Schema → Errors) (below : Place → Value → Schema → Errors)

def ofItem (n : Node Schema) (place : Place) (index : Nat) (item : Value) : Errors :=
  let inner := place.enter (.item index)
  match Schema.itemAt n index, isOverflow n.items index with
  | none, _ => clean
  | some (.always false), true => report inner .extraItem
  | some schema, _ => below inner item schema

def ofItems (n : Node Schema) (place : Place) (first : Nat) : List Value → Errors
  | [] => clean
  | item :: rest => (ofItem below n place first item).append (ofItems n place (first + 1) rest)

/-- The checks of the items from an index on against one schema. An item is looked at by itself, without
the way to it. -/
def itemChecks (schema : Schema) (place : Place) (first : Nat) : List Value → List (Unit → Errors)
  | [] => []
  | item :: rest =>
    (fun _ => below (place.enter (.item first)).withoutContext item schema) ::
      itemChecks schema place (first + 1) rest

def ofContains (contains : Option Schema) (place : Place) (items : List Value) : Errors :=
  match contains with
  | none => clean
  | some schema =>
    ofResult (anyPasses (itemChecks below schema place 0 items))
      (require place · .nothingContained)

def ofArray (n : Node Schema) (place : Place) (items : List Value) : Errors :=
  firstOf [
    fun _ => ofCheck place (n.toArrayLimits.check items),
    fun _ => ofItems below n place 0 items,
    fun _ => ofContains below n.contains place items]

def ofMember (n : Node Schema) (patterns : List (Pattern × Schema)) (place : Place)
    (member : String × Value) : Errors :=
  let inner := place.enter (.property member.1)
  match schemasFor (n.properties.getD []) patterns member.1, n.additionalProperties with
  | [], none => clean
  | [], some (.always false) => report inner .extraProperty
  | [], some schema => below inner member.2 schema
  | schemas, _ => concat (schemas.map (below inner member.2))

def ofProperties (n : Node Schema) (place : Place) (members : List (String × Value)) : Errors :=
  match readPatterns (n.patternProperties.getD []) with
  | .error found => ofCheck place found
  | .ok patterns => concat (members.map (ofMember below n patterns place))

def ofPropertyNames (schema : Option Schema) (place : Place) (members : List (String × Value)) :
    Errors :=
  match schema with
  | none => clean
  | some schema =>
    concat (members.map fun member =>
      below (place.enter (.propertyName member.1)) (.string member.1) schema)

def ofDependencies (members : List (String × Value)) (place : Place) :
    List (String × Dependency Schema) → Errors
  | [] => clean
  | (trigger, dependency) :: rest =>
    if Members.has trigger members then
      match dependency with
      | .requires names =>
        if names.all (Members.has · members) then ofDependencies members place rest
        else report place .missingProperties
      | .conforms schema => (here place schema).append (ofDependencies members place rest)
    else ofDependencies members place rest

def ofObject (n : Node Schema) (place : Place) (members : List (String × Value)) : Errors :=
  firstOf [
    fun _ => ofCheck place (n.toObjectLimits.check members),
    fun _ => ofProperties below n place members,
    fun _ => ofPropertyNames below n.propertyNames place members,
    fun _ => ofDependencies here members place (n.dependencies.getD [])]

def ofAllOf (place : Place) : List Schema → Errors
  | [] => clean
  | schema :: rest =>
    match here place schema with
    | ⟨_, some fault⟩ => raise fault
    | ⟨[], none⟩ => ofAllOf place rest
    | found => found

/-- The checks of the value itself against schemas, without the way to it. -/
def branchChecks (place : Place) (schemas : List Schema) : List (Unit → Errors) :=
  schemas.map fun schema _ => here place.withoutContext schema

def ofAnyOf (schemas : Option (List Schema)) (place : Place) : Errors :=
  match schemas with
  | none => clean
  | some schemas =>
    ofResult (anyPasses (branchChecks here place schemas)) (require place · .noneOfAny)

def ofOneOf (schemas : Option (List Schema)) (place : Place) : Errors :=
  match schemas with
  | none => clean
  | some schemas =>
    ofResult (countPasses (branchChecks here place schemas)) fun count =>
      if count = 0 then report place .noneOfOne
      else require place (count = 1) (.severalOfOne count)

def ofKind (n : Node Schema) (place : Place) (value : Value) : Errors :=
  match value with
  | .number number => ofCheck place (n.toNumberLimits.check number)
  | .string text => ofCheck place (n.toStringLimits.check text)
  | .array items => ofArray below n place items
  | .object members => ofObject here below n place members
  | _ => clean

def ofNode (n : Node Schema) (place : Place) (value : Value) : Errors :=
  firstOf [
    fun _ => ofCheck place (checkEnum n.enum value),
    fun _ => ofCheck place (checkConst n.const value),
    fun _ => ofCheck place (checkType n.type value),
    fun _ => ofKind here below n place value,
    fun _ => ofAllOf here place (n.allOf.getD []),
    fun _ => ofAnyOf here n.anyOf place,
    fun _ => ofOneOf here n.oneOf place]

end SubSchemas

end Errors

def walkAt (root : Schema) : Nat → Place → List String → Value → Schema → Errors
  | 0, _, _, _, _ => .raise .outOfFuel
  | fuel + 1, place, active, value, schema =>
    match schema with
    | .always true => .clean
    | .always false => .report place .falseSchema
    | .node n =>
      match n.ref with
      | none =>
        Errors.ofNode (fun place => walkAt root fuel place active value)
          (fun place => walkAt root fuel place []) n place value
      | some ref =>
        if active.contains ref then .clean
        else match root.resolveReference ref with
          | none => .clean
          | some target => walkAt root fuel place (ref :: active) value target

end JsonSchema
