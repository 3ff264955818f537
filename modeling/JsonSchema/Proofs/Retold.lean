import JsonSchema.Validation.Keywords
import Mathlib.Tactic.Common

/-!
# Findings told with other types

The message of a violation tells the type that a value does not have. Findings are retold if their
violations have the same places and the same causes, but for the form of these types. There is one lemma
for each way to put checks together, and each keyword without sub-schemas is retold as it is.
-/

namespace JsonSchema

open Findings

def Cause.mapType (t : TypeSpec → TypeSpec) : Cause → Cause
  | .wrongType expected actual => .wrongType (t expected) actual
  | cause => cause

/-! ### Findings with other types -/

namespace Findings

def mapTypes (t : TypeSpec → TypeSpec) (found : Findings) : Findings :=
  { found with
    violations := found.violations.map fun violation =>
      { violation with cause := violation.cause.mapType t } }

/-- The second findings are the first, told with another form of the types. -/
def Retold (t : TypeSpec → TypeSpec) (found retold : Findings) : Prop := retold = found.mapTypes t

variable {t : TypeSpec → TypeSpec} {found found' second second' : Findings}

theorem Retold.steps (h : found.Retold t found') :
    found'.violations.map Violation.steps = found.violations.map Violation.steps := by
  rw [h, mapTypes, List.map_map]
  rfl

theorem Retold.fault (h : found.Retold t found') : found'.fault = found.fault := by
  rw [h, mapTypes]

theorem Retold.isClean (h : found.Retold t found') : found'.isClean = found.isClean := by
  rw [h, mapTypes, Findings.isClean, List.isEmpty_map]
  rfl

theorem Retold.passes (h : found.Retold t found') : found'.passes = found.passes := by
  obtain rfl := h
  obtain ⟨violations, fault⟩ := found
  cases violations <;> rfl

theorem retold_id_iff : found.Retold id found' ↔ found' = found := by
  have hcause (cause : Cause) : cause.mapType id = cause := by cases cause <;> rfl
  have hsame : found.mapTypes id = found := by simp [mapTypes, hcause]
  rw [Retold, hsame]

theorem retold_clean : clean.Retold t clean := rfl

theorem retold_raise (fault : Fault) : (raise fault).Retold t (raise fault) := rfl

theorem retold_report (cause : Cause) : (report cause).Retold t (report (cause.mapType t)) := rfl

theorem retold_require (holds : Bool) (cause : Cause) :
    (require holds cause).Retold t (require holds (cause.mapType t)) := by
  cases holds
  · exact retold_report cause
  · exact retold_clean

theorem Retold.append (h : found.Retold t found') (hsecond : second.Retold t second') :
    (found.append second).Retold t (found'.append second') := by
  obtain rfl := h
  obtain rfl := hsecond
  obtain ⟨violations, fault⟩ := found
  cases fault with
  | some fault => rfl
  | none => simp [Retold, Findings.append, mapTypes]

theorem Retold.under (h : found.Retold t found') (step : Step) :
    (found.under step).Retold t (found'.under step) := by
  obtain rfl := h
  simp [Retold, Findings.under, mapTypes, Violation.under]

theorem retold_firstOf_nil : (firstOf []).Retold t (firstOf []) := retold_clean

theorem Retold.firstOf_cons {rest rest' : List (Unit → Findings)} (h : found.Retold t found')
    (hrest : (firstOf rest).Retold t (firstOf rest')) :
    (firstOf ((fun _ => found) :: rest)).Retold t (firstOf ((fun _ => found') :: rest')) := by
  simp only [firstOf, h.isClean]
  split
  · exact hrest
  · exact h

theorem retold_ofResult {α : Type} (result : Except Fault α) {next next' : α → Findings}
    (h : ∀ a, (next a).Retold t (next' a)) :
    (ofResult result next).Retold t (ofResult result next') := by
  cases result with
  | ok a => exact h a
  | error fault => exact retold_raise fault

section Lists

variable {α : Type} {as : List α} {check check' : α → Findings}
  (h : ∀ a ∈ as, (check a).Retold t (check' a))
include h

theorem retold_concat : (concat (as.map check)).Retold t (concat (as.map check')) := by
  induction as with
  | nil => exact retold_clean
  | cons a rest ih =>
    obtain ⟨hfirst, hrest⟩ := List.forall_mem_cons.mp h
    exact hfirst.append (ih hrest)

theorem anyPasses_of_retold :
    anyPasses (as.map fun a _ => check' a) = anyPasses (as.map fun a _ => check a) := by
  induction as with
  | nil => rfl
  | cons a rest ih =>
    obtain ⟨hfirst, hrest⟩ := List.forall_mem_cons.mp h
    simp only [List.map_cons, anyPasses, hfirst.passes, ih hrest]

theorem countPasses_of_retold :
    countPasses (as.map fun a _ => check' a) = countPasses (as.map fun a _ => check a) := by
  induction as with
  | nil => rfl
  | cons a rest ih =>
    obtain ⟨hfirst, hrest⟩ := List.forall_mem_cons.mp h
    simp only [List.map_cons, countPasses, hfirst.passes, ih hrest]

end Lists

end Findings

/-! ### Keywords without sub-schemas -/

section Limits

variable {t : TypeSpec → TypeSpec}

theorem retold_checkMultiple (divisor : Option Number) (n : Number) :
    (checkMultiple divisor n).Retold t (checkMultiple divisor n) := by
  cases divisor with
  | none => exact retold_clean
  | some d =>
    simp only [checkMultiple]
    split_ifs
    · exact retold_ofResult _ fun whole => retold_require whole (.notMultiple d)
    · exact retold_clean

theorem retold_checkBound {α : Type} (bound : Option α) (violated : α → Bool) {cause : α → Cause}
    (hcause : ∀ b, (cause b).mapType t = cause b) :
    (checkBound bound violated cause).Retold t (checkBound bound violated cause) := by
  cases bound with
  | none => exact retold_clean
  | some b =>
    have hrequire := retold_require (!violated b) (cause b) (t := t)
    rw [hcause b] at hrequire
    exact hrequire

theorem retold_numberLimits (limits : NumberLimits) (n : Number) :
    (limits.check n).Retold t (limits.check n) :=
  .firstOf_cons (retold_checkMultiple _ n)
    (.firstOf_cons (retold_checkBound _ _ fun _ => rfl)
    (.firstOf_cons (retold_checkBound _ _ fun _ => rfl)
    (.firstOf_cons (retold_checkBound _ _ fun _ => rfl)
    (.firstOf_cons (retold_checkBound _ _ fun _ => rfl) retold_firstOf_nil))))

theorem retold_withPattern (text : String) {check : Pattern → Findings}
    (hcheck : ∀ pattern, (check pattern).Retold t (check pattern)) :
    (withPattern text check).Retold t (withPattern text check) := by
  unfold withPattern
  split
  · exact hcheck _
  · exact retold_report (.badPattern text)
  all_goals exact retold_raise _

theorem retold_checkPattern (pattern : Option String) (text : String) :
    (checkPattern pattern text).Retold t (checkPattern pattern text) := by
  cases pattern with
  | none => exact retold_clean
  | some written => exact retold_withPattern written fun pattern => retold_require _ .noMatch

theorem retold_stringLimits (limits : StringLimits) (text : String) :
    (limits.check text).Retold t (limits.check text) :=
  .firstOf_cons (retold_checkBound _ _ fun _ => rfl)
    (.firstOf_cons (retold_checkBound _ _ fun _ => rfl)
    (.firstOf_cons (retold_checkPattern _ text) retold_firstOf_nil))

theorem retold_arrayLimits (limits : ArrayLimits) (items : List Value) :
    (limits.check items).Retold t (limits.check items) :=
  .firstOf_cons (retold_checkBound _ _ fun _ => rfl)
    (.firstOf_cons (retold_checkBound _ _ fun _ => rfl)
    (.firstOf_cons (retold_require _ .repeatedItems) retold_firstOf_nil))

theorem retold_objectLimits (limits : ObjectLimits) (members : List (String × Value)) :
    (limits.check members).Retold t (limits.check members) :=
  .firstOf_cons (retold_checkBound _ _ fun _ => rfl)
    (.firstOf_cons (retold_checkBound _ _ fun _ => rfl)
    (.firstOf_cons (retold_require _ .missingProperties) retold_firstOf_nil))

theorem retold_checkEnum (enum : Option (List Value)) (value : Value) :
    (checkEnum enum value).Retold t (checkEnum enum value) := by
  cases enum with
  | none => exact retold_clean
  | some choices => exact retold_require _ .notInEnum

theorem retold_checkConst (const : Option Value) (value : Value) :
    (checkConst const value).Retold t (checkConst const value) := by
  cases const with
  | none => exact retold_clean
  | some expected => exact retold_require _ (.notConst expected value)

end Limits

/-- The same keywords, with another form of the type and perhaps with other annotations. -/
structure Keywords.Rewritten (t : TypeSpec → TypeSpec) (keywords rewritten : Keywords) : Prop where
  number : rewritten.toNumberLimits = keywords.toNumberLimits
  string : rewritten.toStringLimits = keywords.toStringLimits
  array : rewritten.toArrayLimits = keywords.toArrayLimits
  object : rewritten.toObjectLimits = keywords.toObjectLimits
  type : rewritten.type = t keywords.type
  accepts : ∀ value, rewritten.type.accepts value = keywords.type.accepts value
  ref : rewritten.ref = keywords.ref
  enum : rewritten.enum = keywords.enum
  const : rewritten.const = keywords.const

theorem Keywords.rewritten_id (keywords : Keywords) : keywords.Rewritten id keywords :=
  ⟨rfl, rfl, rfl, rfl, rfl, fun _ => rfl, rfl, rfl, rfl⟩

theorem Keywords.Rewritten.retold_checkType {t : TypeSpec → TypeSpec}
    {keywords rewritten : Keywords} (h : keywords.Rewritten t rewritten) (value : Value) :
    (checkType keywords.type value).Retold t (checkType rewritten.type value) := by
  rw [checkType, checkType, h.accepts, h.type]
  exact retold_require _ (.wrongType keywords.type value)

end JsonSchema
