import JsonSchema.Number

/-!
# Multiples

Two integers are compared by remainder. Otherwise the rounded quotient has to be within a small
tolerance of a whole number. An integer beyond the range of the doubles has no rounded quotient; then
the exact values are compared by remainder.
-/

namespace JsonSchema.Number

open Numeric

/-- Why a number cannot be tried against a divisor: one of the two has no exact value. -/
inductive MultipleFault where
  | infinite
  | notANumber
deriving DecidableEq

/-- A quotient counts as whole when it is this close to a whole number, whatever its size. -/
def absoluteTolerance : Binary64 := .ofDecimal false 1 (-10)

/-- A quotient counts as whole when it is this close in proportion to its size. -/
def relativeTolerance : Binary64 := .ofDecimal false 1 (-15)

def magnitude (tolerance : Binary64) : Nat :=
  (tolerance.signedUnits?.getD 0).natAbs

/-- Whether a quotient of this many units is whole within the tolerances. -/
def nearlyWhole (units : Nat) : Bool :=
  let whole := roundHalfEven units Binary64.one * Binary64.one
  let gap := roundToGrid (max whole units - min whole units) 1
  let allowed (size : Nat) := roundToGrid (magnitude relativeTolerance * size) Binary64.one
  gap ≤ allowed whole || gap ≤ allowed units || gap ≤ magnitude absoluteTolerance

/-- The double that takes the place of a number in a division; integers may be too large. -/
def toBinary64? : Number → Option Binary64
  | .int value => Binary64.ofInt? value
  | .float value => some value

def exactUnits : Number → Except MultipleFault Int
  | .int value => .ok (value * Binary64.one)
  | .float .nan => .error .notANumber
  | .float (.infinite _) => .error .infinite
  | .float (.finite negative units _) => .ok (if negative then -units else units)

def isMultipleOf (a divisor : Number) : Except MultipleFault Bool :=
  match a, divisor with
  | .int m, .int n => .ok (m % n = 0)
  | _, _ =>
    match a.toBinary64?, divisor.toBinary64? with
    | some x, some y =>
      match x.div y with
      | .finite _ units _ => .ok (nearlyWhole units)
      | _ => .ok false
    | _, _ => do
      let m ← a.exactUnits
      let n ← divisor.exactUnits
      return m % n = 0

end JsonSchema.Number
