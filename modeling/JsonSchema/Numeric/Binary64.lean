import JsonSchema.Numeric.Rounding

/-!
# Double-precision numbers

A finite double is a sign and a magnitude counted in units of `2 ^ (-1074)`, the smallest positive
double. All arithmetic is exact on these counts and rounded once, by `roundToGrid`.
-/

namespace JsonSchema

open Numeric

namespace Binary64

/-- The number of units in the number one. -/
def one : Nat := Nat.pow 2 1074

/-- Magnitudes of this many units and more are infinite. -/
def overflow : Nat := Nat.pow 2 2098

/-- The magnitudes of the finite doubles: at most 53 significant bits, below the overflow bound. -/
structure IsMagnitude (units : Nat) : Prop where
  fits : Fits units
  lt_overflow : units < overflow

end Binary64

/-- A double-precision number; the two zeros are distinct. -/
inductive Binary64 where
  | nan
  | infinite (negative : Bool)
  | finite (negative : Bool) (units : Nat) (isMagnitude : Binary64.IsMagnitude units)
deriving DecidableEq

namespace Binary64

theorem one_pos : 0 < one := by
  unfold one
  generalize 1074 = exponent
  exact Nat.two_pow_pos exponent

theorem isMagnitude_zero : IsMagnitude 0 :=
  ⟨⟨0, 0, Nat.zero_le _, rfl⟩, by unfold overflow; apply Nat.two_pow_pos⟩

def zero (negative : Bool) : Binary64 := .finite negative 0 isMagnitude_zero

/-- The double nearest to `num / den` units. -/
def ofUnits (negative : Bool) (num den : Nat) : Binary64 :=
  if h : roundToGrid num den < overflow then
    .finite negative (roundToGrid num den) ⟨roundToGrid_fits num den, h⟩
  else .infinite negative

def finite? : Binary64 → Option Binary64
  | .finite negative units h => some (.finite negative units h)
  | _ => none

theorem eq_of_finite? {x y : Binary64} (h : x.finite? = some y) :
    ∃ negative units hfits, x = .finite negative units hfits ∧ y = x := by
  cases x with
  | nan => cases h
  | infinite negative => cases h
  | finite negative units hfits => exact ⟨negative, units, hfits, rfl, (Option.some.inj h).symm⟩

/-- The double nearest to an integer, if that double is finite. -/
def ofInt? (n : Int) : Option Binary64 := (ofUnits (n < 0) (n.natAbs * one) 1).finite?

def digitCount (n : Nat) : Nat :=
  if h : n < 10 then 1 else digitCount (n / 10) + 1
termination_by n
decreasing_by omega

/--
The double nearest to `digits * 10 ^ exponent`. A value outside `10 ^ (-330)` to `10 ^ 310` is known
to be zero or infinite before any power is computed.
-/
def ofDecimal (negative : Bool) (digits : Nat) (exponent : Int) : Binary64 :=
  let point := exponent + digitCount digits
  if digits = 0 ∨ point < -330 then zero negative
  else if 310 < point then .infinite negative
  else if exponent < 0 then ofUnits negative (digits * one) (Nat.pow 10 exponent.natAbs)
  else ofUnits negative (digits * Nat.pow 10 exponent.natAbs * one) 1

def isNegative : Binary64 → Bool
  | .nan => false
  | .infinite negative => negative
  | .finite negative _ _ => negative

/-- The exact value in units, with its sign; only finite numbers have one. -/
def signedUnits? : Binary64 → Option Int
  | .finite true units _ => some (-units)
  | .finite false units _ => some units
  | _ => none

def toInt? (x : Binary64) : Option Int :=
  match x.signedUnits? with
  | some units => if units % one = 0 then some (units / one) else none
  | none => none

/-- The rounded quotient. A quotient of infinities or by zero is no number. -/
def div : Binary64 → Binary64 → Binary64
  | .nan, _ | _, .nan | .infinite _, .infinite _ => .nan
  | .infinite s, .finite t _ _ => .infinite (s != t)
  | .finite s _ _, .infinite t => zero (s != t)
  | .finite s num _, .finite t den _ => if den = 0 then .nan else ofUnits (s != t) (num * one) den

end Binary64

end JsonSchema
