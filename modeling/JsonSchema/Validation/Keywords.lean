import JsonSchema.Number.Multiple
import JsonSchema.Pattern
import JsonSchema.Schema.Lookup
import JsonSchema.Validation.Findings

/-!
# Checking keywords

One function for each group of keywords. The keywords with sub-schemas take the validation of a
sub-schema as a parameter: `here` validates the value itself, `below` a part of it. `checkNode` puts
the groups of a node in their order; the first group that fails ends the check.
-/

namespace JsonSchema

open Findings

/-! ### Keywords without sub-schemas -/

def multipleFault : Number.MultipleFault → Fault
  | .infinite => .infiniteMultiple
  | .notANumber => .undefinedMultiple

/-- A divisor that is not positive asks for nothing. -/
def checkMultiple (divisor : Option Number) (n : Number) : Findings :=
  match divisor with
  | none => clean
  | some d =>
    if Number.zero.lt d then
      ofResult ((n.isMultipleOf d).mapError multipleFault) (require · (.notMultiple d))
    else clean

/-- A keyword that is absent asks for nothing. -/
def checkBound {α : Type} (bound : Option α) (violated : α → Bool) (cause : α → Cause) : Findings :=
  match bound with
  | none => clean
  | some b => require (!violated b) (cause b)

def NumberLimits.check (limits : NumberLimits) (n : Number) : Findings :=
  firstOf [
    fun _ => checkMultiple limits.multipleOf n,
    fun _ => checkBound limits.maximum (·.lt n) .aboveMaximum,
    fun _ => checkBound limits.exclusiveMaximum (·.le n) .notBelow,
    fun _ => checkBound limits.minimum n.lt .belowMinimum,
    fun _ => checkBound limits.exclusiveMinimum n.le .notAbove]

/-- Reads a pattern for a check. A text that is no pattern is a violation of its own. -/
def withPattern (text : String) (check : Pattern → Findings) : Findings :=
  match Pattern.parse text with
  | .ok pattern => check pattern
  | .error .invalid => report (.badPattern text)
  | .error .hugeRepetition => raise .hugeRepetition
  | .error .conflictingFlags => raise .conflictingFlags
  | .error .hugeLookBehind => raise .hugeLookBehind

def checkPattern (pattern : Option String) (text : String) : Findings :=
  match pattern with
  | none => clean
  | some p => withPattern p fun pattern => require (pattern.search text) .noMatch

def StringLimits.check (limits : StringLimits) (text : String) : Findings :=
  firstOf [
    fun _ => checkBound limits.maxLength (· < text.length) .tooLong,
    fun _ => checkBound limits.minLength (text.length < ·) .tooShort,
    fun _ => checkPattern limits.pattern text]

def ArrayLimits.check (limits : ArrayLimits) (items : List Value) : Findings :=
  firstOf [
    fun _ => checkBound limits.maxItems (· < items.length) .tooManyItems,
    fun _ => checkBound limits.minItems (items.length < ·) .tooFewItems,
    fun _ => require (!(limits.uniqueItems && Value.hasDuplicates items)) .repeatedItems]

def ObjectLimits.check (limits : ObjectLimits) (members : List (String × Value)) : Findings :=
  firstOf [
    fun _ => checkBound limits.maxProperties (· < members.length) .tooManyProperties,
    fun _ => checkBound limits.minProperties (members.length < ·) .tooFewProperties,
    fun _ => require ((limits.required.getD []).all (Members.has · members)) .missingProperties]

def checkEnum (enum : Option (List Value)) (value : Value) : Findings :=
  match enum with
  | none => clean
  | some choices => require (choices.any value.equal) .notInEnum

def checkConst (const : Option Value) (value : Value) : Findings :=
  match const with
  | none => clean
  | some expected => require (value.equal expected) (.notConst expected value)

def checkType (spec : TypeSpec) (value : Value) : Findings :=
  require (spec.accepts value) (.wrongType spec value)

/-! ### Keywords with sub-schemas -/

/-- Whether some check passes; the checks behind the first that does are not made. -/
def anyPasses : List (Unit → Findings) → Except Fault Bool
  | [] => .ok false
  | check :: rest => do if ← (check ()).passes then return true else anyPasses rest

def countPasses : List (Unit → Findings) → Except Fault Nat
  | [] => .ok 0
  | check :: rest => do
    let passed ← (check ()).passes
    let others ← countPasses rest
    return if passed then others + 1 else others

section SubSchemas

variable (here : Schema → Findings) (below : Value → Schema → Findings)

/-- An item beyond the positions of a list of schemas. -/
def isOverflow (items : Items Schema) (index : Nat) : Bool :=
  match items with
  | .positional schemas => schemas.length ≤ index
  | _ => false

def checkItemBy (n : Node Schema) (index : Nat) (item : Value) : Findings :=
  match Schema.itemAt n index, isOverflow n.items index with
  | none, _ => clean
  | some (.always false), true => report .extraItem
  | some schema, _ => below item schema

def checkItem (n : Node Schema) (index : Nat) (item : Value) : Findings :=
  (checkItemBy below n index item).under (.item index)

def checkItems (n : Node Schema) (first : Nat) : List Value → Findings
  | [] => clean
  | item :: rest => (checkItem below n first item).append (checkItems n (first + 1) rest)

def checkContains (contains : Option Schema) (items : List Value) : Findings :=
  match contains with
  | none => clean
  | some schema =>
    ofResult (anyPasses (items.map fun item _ => below item schema)) (require · .nothingContained)

def checkArray (n : Node Schema) (items : List Value) : Findings :=
  firstOf [
    fun _ => n.toArrayLimits.check items,
    fun _ => checkItems below n 0 items,
    fun _ => checkContains below n.contains items]

/-- Reads the patterns of the members of `patternProperties`, up to the first that cannot be read. -/
def readPatterns : List (String × Schema) → Except Findings (List (Pattern × Schema))
  | [] => .ok []
  | (text, schema) :: rest =>
    match Pattern.parse text with
    | .ok pattern => (readPatterns rest).map ((pattern, schema) :: ·)
    | .error _ => .error (withPattern text fun _ => clean)

def schemasFor (properties : List (String × Schema)) (patterns : List (Pattern × Schema))
    (name : String) : List Schema :=
  (properties.lookup name).toList ++ (patterns.filter (·.1.search name)).map Prod.snd

/-- The check of a member against the schemas that are named for it; additional properties are those
that no schema is named for. -/
def checkMemberBy (schemas : List Schema) (additional : Option Schema) (value : Value) : Findings :=
  match schemas, additional with
  | [], none => clean
  | [], some (.always false) => report .extraProperty
  | [], some schema => below value schema
  | schemas, _ => concat (schemas.map (below value))

def checkMember (n : Node Schema) (patterns : List (Pattern × Schema)) (member : String × Value) :
    Findings :=
  let schemas := schemasFor (n.properties.getD []) patterns member.1
  (checkMemberBy below schemas n.additionalProperties member.2).under (.property member.1)

def checkProperties (n : Node Schema) (members : List (String × Value)) : Findings :=
  match readPatterns (n.patternProperties.getD []) with
  | .error found => found
  | .ok patterns => concat (members.map (checkMember below n patterns))

def checkPropertyNames (schema : Option Schema) (members : List (String × Value)) : Findings :=
  match schema with
  | none => clean
  | some schema =>
    concat (members.map fun member =>
      (below (.string member.1) schema).under (.propertyName member.1))

/-- A list of names that is not fulfilled ends the check of the dependencies. -/
def checkDependencies (members : List (String × Value)) :
    List (String × Dependency Schema) → Findings
  | [] => clean
  | (trigger, dependency) :: rest =>
    if Members.has trigger members then
      match dependency with
      | .requires names =>
        if names.all (Members.has · members) then checkDependencies members rest
        else report .missingProperties
      | .conforms schema => (here schema).append (checkDependencies members rest)
    else checkDependencies members rest

def checkObject (n : Node Schema) (members : List (String × Value)) : Findings :=
  firstOf [
    fun _ => n.toObjectLimits.check members,
    fun _ => checkProperties below n members,
    fun _ => checkPropertyNames below n.propertyNames members,
    fun _ => checkDependencies here members (n.dependencies.getD [])]

/-- The violations of the first schema that fails. A fault in it hides them. -/
def checkAllOf : List Schema → Findings
  | [] => clean
  | schema :: rest =>
    match here schema with
    | ⟨_, some fault⟩ => raise fault
    | ⟨[], none⟩ => checkAllOf rest
    | found => found

def checkAnyOf (schemas : Option (List Schema)) : Findings :=
  match schemas with
  | none => clean
  | some schemas =>
    ofResult (anyPasses (schemas.map fun schema _ => here schema)) (require · .noneOfAny)

def checkOneOf (schemas : Option (List Schema)) : Findings :=
  match schemas with
  | none => clean
  | some schemas =>
    ofResult (countPasses (schemas.map fun schema _ => here schema)) fun count =>
      if count = 0 then report .noneOfOne
      else require (count = 1) (.severalOfOne count)

def checkKind (n : Node Schema) (value : Value) : Findings :=
  match value with
  | .number number => n.toNumberLimits.check number
  | .string text => n.toStringLimits.check text
  | .array items => checkArray below n items
  | .object members => checkObject here below n members
  | _ => clean

def checkNode (n : Node Schema) (value : Value) : Findings :=
  firstOf [
    fun _ => checkEnum n.enum value,
    fun _ => checkConst n.const value,
    fun _ => checkType n.type value,
    fun _ => checkKind here below n value,
    fun _ => checkAllOf here (n.allOf.getD []),
    fun _ => checkAnyOf here n.anyOf,
    fun _ => checkOneOf here n.oneOf]

end SubSchemas

end JsonSchema
