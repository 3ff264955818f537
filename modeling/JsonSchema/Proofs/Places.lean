import JsonSchema.Proofs.Answers
import JsonSchema.Proofs.Walk
import JsonSchema.Validation.Places

/-!
# Findings and places

The walk that takes the place along reports what `walk` finds, seen from that place
(`walkAt_eq_errorsAt`). So the errors of a value do not depend on where it stands, but for the pointer and
the labels in front, and every label comes with its segment. There is one lemma for each way to put checks
together and one for each group of keywords.
-/

namespace JsonSchema

open Findings

namespace Place

def diagnosticOf (place : Place) (violation : Violation) : Diagnostic where
  path := Pointer.extend place.path violation.segments
  message := violation.cause.message
  context := place.context ++ violation.context

theorem diagnosticOf_under (place : Place) (step : Step) (violation : Violation) :
    place.diagnosticOf (violation.under step) = (place.enter step).diagnosticOf violation := by
  simp [diagnosticOf, enter, Violation.under, Violation.segments, Violation.context, Pointer.extend]

theorem diagnosticOf_of_steps_eq_nil {place : Place} {violation : Violation}
    (h : violation.steps = []) : place.diagnosticOf violation = place.diagnostic violation.cause := by
  simp [diagnosticOf, diagnostic, Violation.segments, Violation.context, Pointer.extend, h]

end Place

namespace Findings

def errorsAt (place : Place) (found : Findings) : Errors where
  diagnostics := found.violations.map place.diagnosticOf
  fault := found.fault

abbrev IsHere (found : Findings) : Prop := found.Within (·.steps = []) (· ≠ .outOfFuel)

variable {α : Type} {found second : Findings}

theorem IsHere.ofCheck_eq (h : found.IsHere) (place : Place) :
    Errors.ofCheck place found = found.errorsAt place := by
  have hdiagnostics : found.violations.map (fun violation => place.diagnostic violation.cause) =
      found.violations.map place.diagnosticOf :=
    List.map_congr_left fun violation hviolation =>
      (Place.diagnosticOf_of_steps_eq_nil (h.violations violation hviolation)).symm
  rw [Errors.ofCheck, hdiagnostics]
  rfl

theorem errorsAt_clean (place : Place) : clean.errorsAt place = .clean := rfl

theorem errorsAt_raise (place : Place) (fault : Fault) :
    (raise fault).errorsAt place = .raise fault := rfl

theorem errorsAt_report (place : Place) (cause : Cause) :
    (report cause).errorsAt place = .report place cause :=
  congrArg (Errors.mk [·] none) (Place.diagnosticOf_of_steps_eq_nil rfl)

theorem errorsAt_require (place : Place) (holds : Bool) (cause : Cause) :
    (require holds cause).errorsAt place = .require place holds cause := by
  cases holds with
  | true => exact errorsAt_clean place
  | false => exact errorsAt_report place cause

theorem errorsAt_under (place : Place) (step : Step) :
    (found.under step).errorsAt place = found.errorsAt (place.enter step) := by
  simp [errorsAt, under, Place.diagnosticOf_under, Function.comp_def]

theorem errorsAt_append (place : Place) :
    (found.append second).errorsAt place = (found.errorsAt place).append (second.errorsAt place) := by
  obtain ⟨violations, fault⟩ := found
  cases fault with
  | some fault => rfl
  | none => simp [errorsAt, append, Errors.append]

theorem errorsAt_concat (place : Place) (checks : List Findings) :
    (concat checks).errorsAt place = Errors.concat (checks.map (errorsAt place)) := by
  induction checks with
  | nil => exact errorsAt_clean place
  | cons check rest ih => exact (errorsAt_append place).trans (congrArg _ ih)

theorem isClean_errorsAt (place : Place) : (found.errorsAt place).isClean = found.isClean := by
  rw [Errors.isClean, errorsAt, List.isEmpty_map]
  rfl

theorem passes_errorsAt (place : Place) : (found.errorsAt place).passes = found.passes := by
  obtain ⟨violations, fault⟩ := found
  cases violations <;> cases fault <;> rfl

theorem errorsAt_firstOf_cons {place : Place} {rest : List (Unit → Findings)} {first : Errors}
    {others : List (Unit → Errors)} (hfirst : found.errorsAt place = first)
    (hrest : (firstOf rest).errorsAt place = Errors.firstOf others) :
    (firstOf ((fun _ => found) :: rest)).errorsAt place =
      Errors.firstOf ((fun _ => first) :: others) := by
  subst hfirst
  simp only [firstOf, Errors.firstOf, isClean_errorsAt]
  split
  · exact hrest
  · rfl

theorem errorsAt_ofResult {place : Place} (result : Except Fault α) {next : α → Findings}
    {next' : α → Errors} (h : ∀ a, (next a).errorsAt place = next' a) :
    (ofResult result next).errorsAt place = Errors.ofResult result next' := by
  cases result with
  | ok a => exact h a
  | error fault => exact errorsAt_raise place fault

theorem take_errorsAt (place : Place) (limit : Nat) :
    (found.errorsAt place).take limit = (found.take limit).map (List.map place.diagnosticOf) := by
  rw [Errors.take, Findings.take, errorsAt, List.length_map]
  split_ifs
  · exact congrArg Except.ok (List.map_take ..).symm
  · cases found.fault <;> rfl

end Findings

/-! ### Groups of keywords -/

section SubSchemas

variable {here : Schema → Findings} {below : Value → Schema → Findings}
  {here' : Place → Schema → Errors} {below' : Place → Value → Schema → Errors}
  {n : Node Schema} {place : Place}

section Below

variable (hbelow : ∀ place part schema, (below part schema).errorsAt place = below' place part schema)
include hbelow

theorem errorsAt_checkItem (index : Nat) (item : Value) :
    (checkItem below n index item).errorsAt place = Errors.ofItem below' n place index item := by
  rw [checkItem, errorsAt_under, checkItemBy, Errors.ofItem]
  generalize Schema.itemAt n index = found
  generalize isOverflow n.items index = beyond
  rcases found with _ | ((_ | _) | node)
  · rfl
  · cases beyond with
    | true => exact errorsAt_report _ _
    | false => exact hbelow _ _ _
  · exact hbelow _ _ _
  · exact hbelow _ _ _

theorem errorsAt_checkItems (first : Nat) (items : List Value) :
    (checkItems below n first items).errorsAt place = Errors.ofItems below' n place first items := by
  induction items generalizing first with
  | nil => rfl
  | cons item rest ih =>
    rw [checkItems, errorsAt_append, errorsAt_checkItem hbelow, ih, Errors.ofItems]

theorem anyPasses_itemChecks (schema : Schema) (first : Nat) (items : List Value) :
    Errors.anyPasses (Errors.itemChecks below' schema place first items) =
      anyPasses (items.map fun item _ => below item schema) := by
  induction items generalizing first with
  | nil => rfl
  | cons item rest ih =>
    rw [Errors.itemChecks, Errors.anyPasses, ih, ← hbelow, passes_errorsAt]
    rfl

theorem errorsAt_checkContains (contains : Option Schema) (items : List Value) :
    (checkContains below contains items).errorsAt place =
      Errors.ofContains below' contains place items := by
  cases contains with
  | none => rfl
  | some schema =>
    rw [checkContains, Errors.ofContains, anyPasses_itemChecks hbelow]
    exact errorsAt_ofResult _ fun holds => errorsAt_require place holds _

theorem errorsAt_checkArray (items : List Value) :
    (checkArray below n items).errorsAt place = Errors.ofArray below' n place items := by
  have hlimits : (n.toArrayLimits.check items).IsHere := within_arrayLimits (fun _ => rfl) _ _
  exact errorsAt_firstOf_cons (hlimits.ofCheck_eq place).symm
    (errorsAt_firstOf_cons (errorsAt_checkItems hbelow 0 items)
    (errorsAt_firstOf_cons (errorsAt_checkContains hbelow _ items) rfl))

theorem errorsAt_checkMember (patterns : List (Pattern × Schema)) (member : String × Value) :
    (checkMember below n patterns member).errorsAt place =
      Errors.ofMember below' n patterns place member := by
  rw [checkMember, errorsAt_under, Errors.ofMember]
  generalize schemasFor (n.properties.getD []) patterns member.1 = schemas
  cases schemas with
  | nil =>
    generalize n.additionalProperties = additional
    rcases additional with _ | ((_ | _) | node)
    · rfl
    · exact errorsAt_report _ _
    · exact hbelow _ _ _
    · exact hbelow _ _ _
  | cons schema rest =>
    refine (errorsAt_concat _ _).trans ?_
    rw [List.map_map]
    exact congrArg Errors.concat (List.map_congr_left fun schema _ => hbelow _ _ schema)

theorem errorsAt_checkProperties (members : List (String × Value)) :
    (checkProperties below n members).errorsAt place =
      Errors.ofProperties below' n place members := by
  rw [checkProperties, Errors.ofProperties]
  cases hpatterns : readPatterns (n.patternProperties.getD []) with
  | error found =>
    have hhere : found.IsHere :=
      within_of_readPatterns (fun entry _ => within_withPattern_clean (fun _ => rfl) entry.1) hpatterns
    exact (hhere.ofCheck_eq place).symm
  | ok patterns =>
    rw [errorsAt_concat, List.map_map]
    exact congrArg Errors.concat
      (List.map_congr_left fun member _ => errorsAt_checkMember hbelow patterns member)

theorem errorsAt_checkPropertyNames (schema : Option Schema) (members : List (String × Value)) :
    (checkPropertyNames below schema members).errorsAt place =
      Errors.ofPropertyNames below' schema place members := by
  cases schema with
  | none => rfl
  | some schema =>
    rw [checkPropertyNames, Errors.ofPropertyNames, errorsAt_concat, List.map_map]
    refine congrArg Errors.concat (List.map_congr_left fun member _ => ?_)
    exact (errorsAt_under place _).trans (hbelow _ _ schema)

end Below

section Here

variable (hhere : ∀ place schema, (here schema).errorsAt place = here' place schema)
include hhere

theorem errorsAt_checkDependencies (members : List (String × Value))
    (entries : List (String × Dependency Schema)) :
    (checkDependencies here members entries).errorsAt place =
      Errors.ofDependencies here' members place entries := by
  induction entries with
  | nil => rfl
  | cons entry rest ih =>
    obtain ⟨trigger, dependency⟩ := entry
    simp only [checkDependencies, Errors.ofDependencies]
    split_ifs
    · cases dependency with
      | requires names =>
        dsimp only
        split_ifs
        · exact ih
        · exact errorsAt_report place _
      | conforms schema =>
        dsimp only
        rw [errorsAt_append, hhere, ih]
    · exact ih

theorem errorsAt_checkAllOf (branches : List Schema) :
    (checkAllOf here branches).errorsAt place = Errors.ofAllOf here' place branches := by
  induction branches with
  | nil => rfl
  | cons branch rest ih =>
    rw [checkAllOf, Errors.ofAllOf, ← hhere]
    cases hbranch : here branch with
    | mk violations fault =>
      cases fault with
      | some fault => rfl
      | none =>
        cases violations with
        | nil => exact ih
        | cons violation others => rfl

theorem anyPasses_branchChecks (branches : List Schema) :
    Errors.anyPasses (Errors.branchChecks here' place branches) =
      anyPasses (branches.map fun branch _ => here branch) := by
  induction branches with
  | nil => rfl
  | cons branch rest ih =>
    rw [Errors.branchChecks, List.map_cons, Errors.anyPasses, ← hhere, passes_errorsAt]
    exact congrArg _ (funext fun passed => congrArg _ ih)

theorem countPasses_branchChecks (branches : List Schema) :
    Errors.countPasses (Errors.branchChecks here' place branches) =
      countPasses (branches.map fun branch _ => here branch) := by
  induction branches with
  | nil => rfl
  | cons branch rest ih =>
    rw [Errors.branchChecks, List.map_cons, Errors.countPasses, ← hhere, passes_errorsAt]
    exact congrArg _ (funext fun passed => congrArg (· >>= _) ih)

theorem errorsAt_checkAnyOf (schemas : Option (List Schema)) :
    (checkAnyOf here schemas).errorsAt place = Errors.ofAnyOf here' schemas place := by
  cases schemas with
  | none => rfl
  | some branches =>
    rw [checkAnyOf, Errors.ofAnyOf, anyPasses_branchChecks hhere]
    exact errorsAt_ofResult _ fun holds => errorsAt_require place holds _

theorem errorsAt_checkOneOf (schemas : Option (List Schema)) :
    (checkOneOf here schemas).errorsAt place = Errors.ofOneOf here' schemas place := by
  cases schemas with
  | none => rfl
  | some branches =>
    rw [checkOneOf, Errors.ofOneOf, countPasses_branchChecks hhere]
    refine errorsAt_ofResult _ fun count => ?_
    split_ifs
    · exact errorsAt_report place _
    · exact errorsAt_require place _ _

end Here

variable (hhere : ∀ place schema, (here schema).errorsAt place = here' place schema)
  (hbelow : ∀ place part schema, (below part schema).errorsAt place = below' place part schema)
include hhere hbelow

theorem errorsAt_checkObject (members : List (String × Value)) :
    (checkObject here below n members).errorsAt place =
      Errors.ofObject here' below' n place members := by
  have hlimits : (n.toObjectLimits.check members).IsHere := within_objectLimits (fun _ => rfl) _ _
  exact errorsAt_firstOf_cons (hlimits.ofCheck_eq place).symm
    (errorsAt_firstOf_cons (errorsAt_checkProperties hbelow members)
    (errorsAt_firstOf_cons (errorsAt_checkPropertyNames hbelow _ members)
    (errorsAt_firstOf_cons (errorsAt_checkDependencies hhere members _) rfl)))

theorem errorsAt_checkKind (value : Value) :
    (checkKind here below n value).errorsAt place = Errors.ofKind here' below' n place value := by
  cases value with
  | null => rfl
  | bool b => rfl
  | number number =>
    have hlimits : (n.toNumberLimits.check number).IsHere :=
      within_numberLimits (fun _ => rfl) (within_checkMultiple (fun _ => rfl) _ number)
    exact (hlimits.ofCheck_eq place).symm
  | string text =>
    have hlimits : (n.toStringLimits.check text).IsHere :=
      within_stringLimits (fun _ => rfl) text
        fun written _ => within_withPattern_clean (fun _ => rfl) written
    exact (hlimits.ofCheck_eq place).symm
  | array items => exact errorsAt_checkArray hbelow items
  | object members => exact errorsAt_checkObject hhere hbelow members

theorem errorsAt_checkNode (value : Value) :
    (checkNode here below n value).errorsAt place = Errors.ofNode here' below' n place value := by
  have henum : (checkEnum n.enum value).IsHere := within_checkEnum (fun _ => rfl) _ _
  have hconst : (checkConst n.const value).IsHere := within_checkConst (fun _ => rfl) _ _
  have htype : (checkType n.type value).IsHere := within_require _ rfl
  exact errorsAt_firstOf_cons (henum.ofCheck_eq place).symm
    (errorsAt_firstOf_cons (hconst.ofCheck_eq place).symm
    (errorsAt_firstOf_cons (htype.ofCheck_eq place).symm
    (errorsAt_firstOf_cons (errorsAt_checkKind hhere hbelow value)
    (errorsAt_firstOf_cons (errorsAt_checkAllOf hhere _)
    (errorsAt_firstOf_cons (errorsAt_checkAnyOf hhere _)
    (errorsAt_firstOf_cons (errorsAt_checkOneOf hhere _) rfl))))))

end SubSchemas

/-! ### The walk -/

/-- By induction on the fuel, for all places at once, as parts stand at other places. -/
theorem walkAt_eq_errorsAt (root : Schema) (fuel : Nat) (place : Place) (active : List String)
    (value : Value) (schema : Schema) :
    walkAt root fuel place active value schema =
      (walk root fuel active value schema).errorsAt place := by
  induction fuel generalizing place active value schema with
  | zero => exact (errorsAt_raise place _).symm
  | succ fuel ih =>
    cases schema with
    | always accepted =>
      cases accepted with
      | true => rfl
      | false => exact (errorsAt_report place _).symm
    | node n =>
      cases href : n.ref with
      | none =>
        simp only [walkAt, walk, href]
        exact (errorsAt_checkNode (fun place schema => (ih place active value schema).symm)
          (fun place part schema => (ih place [] part schema).symm) value).symm
      | some ref =>
        simp only [walkAt, walk, href]
        split
        · rfl
        · cases root.resolveReference ref with
          | none => rfl
          | some target => exact ih place (ref :: active) value target

namespace Schema

/-- The answers are those of a walk that starts at the pointer with no labels. -/
theorem errors_eq_take_walkAt (root schema : Schema) (value : Value) (start : String) (limit : Int) :
    root.errors schema value start limit =
      if limit < 0 ∨ greatestLimit < limit then .error .badLimit
      else (walkAt root (root.fuel schema value) { path := start } [] value schema).take
        limit.toNat := by
  rw [walkAt_eq_errorsAt, take_errorsAt]
  rfl

theorem isValid_eq_passes_walkAt (root schema : Schema) (value : Value) (place : Place) :
    root.isValid schema value =
      (walkAt root (root.fuel schema value) place [] value schema).passes := by
  rw [walkAt_eq_errorsAt, passes_errorsAt]
  rfl

end Schema

end JsonSchema
