import JsonSchema.Validation.Violation

/-!
# Findings

What a check finds: violations in order, and possibly a fault that ended the check behind the last of
them. A check is clean when it has neither. Checks are put together by `append`, which makes both, and
by `firstOf`, which stops at the first that is not clean.
-/

namespace JsonSchema

inductive Fault where
  /-- An exact multiple was asked for of or by an infinite number. -/
  | infiniteMultiple
  /-- An exact multiple was asked for of something that is not a number. -/
  | undefinedMultiple
  /-- A pattern has a repetition count beyond the limit. -/
  | hugeRepetition
  /-- A pattern has flags that exclude each other. -/
  | conflictingFlags
  /-- A pattern looks behind beyond the limit. -/
  | hugeLookBehind
  /-- A limit on the number of errors is no count. -/
  | badLimit
  /-- The walk was given too little fuel. -/
  | outOfFuel
deriving DecidableEq

structure Findings where
  violations : List Violation := []
  fault : Option Fault := none

namespace Findings

def clean : Findings := {}

def report (cause : Cause) : Findings := { violations := [⟨[], cause⟩] }

def raise (fault : Fault) : Findings := { fault := some fault }

def isClean (f : Findings) : Bool := f.violations.isEmpty && f.fault.isNone

/-- The findings of two checks, the second of which is made unless the first ended in a fault. -/
def append (f g : Findings) : Findings :=
  match f.fault with
  | some _ => f
  | none => { violations := f.violations ++ g.violations, fault := g.fault }

def concat (checks : List Findings) : Findings := checks.foldr append clean

def firstOf : List (Unit → Findings) → Findings
  | [] => clean
  | check :: rest =>
    let found := check ()
    if found.isClean then firstOf rest else found

def under (step : Step) (f : Findings) : Findings :=
  { f with violations := f.violations.map (Violation.under step) }

/-- Whether a check finds nothing. The first violation settles this, so a fault behind it does not
count. -/
def passes (f : Findings) : Except Fault Bool :=
  match f.violations, f.fault with
  | _ :: _, _ => .ok false
  | [], some fault => .error fault
  | [], none => .ok true

def require (holds : Bool) (cause : Cause) : Findings := if holds then clean else report cause

def ofResult {α : Type} (result : Except Fault α) (next : α → Findings) : Findings :=
  match result with
  | .ok a => next a
  | .error fault => raise fault

/-- The first violations, as many as are asked for. A fault behind the last of these is not
reached. -/
def take (limit : Nat) (f : Findings) : Except Fault (List Violation) :=
  if limit ≤ f.violations.length then .ok (f.violations.take limit)
  else match f.fault with
    | some fault => .error fault
    | none => .ok f.violations

@[simp] theorem passes_clean : clean.passes = .ok true := rfl

@[simp] theorem passes_report (cause : Cause) : (report cause).passes = .ok false := rfl

theorem passes_eq_ok_true_iff {f : Findings} : f.passes = .ok true ↔ f.isClean := by
  obtain ⟨violations, fault⟩ := f
  cases violations <;> cases fault <;> simp [passes, isClean]

end Findings

end JsonSchema
