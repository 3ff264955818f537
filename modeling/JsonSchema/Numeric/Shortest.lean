import JsonSchema.Numeric.Binary64

/-!
# The shortest decimal of a double

A positive double stands for the interval of reals that round to it. `shortestDigits` finds the
fewest decimal digits that name a point of this interval, and of several such points the one nearest
to the double. The digits are sought in exact arithmetic: multiplied by `5 ^ 1074`, a count of units
is the same value counted in units of `10 ^ (-1074)`.
-/

namespace JsonSchema.Binary64

open Numeric

/-- A positive decimal number: the numeral of `digits` with a point after its first digit, times
ten to the power `exponent`. -/
structure Decimal where
  digits : Nat
  exponent : Int

/--
The reals that round to a magnitude, everything in half units: the distance down to the lower end,
the distance up to the upper end, and whether the ends belong to the interval.
-/
structure Interval where
  below : Nat
  above : Nat
  closed : Bool

/-- The lower neighbour is only half as far away where the spacing of the doubles changes. -/
def roundingInterval (units : Nat) : Interval :=
  let spacing := Nat.pow 2 (gridExponent units)
  let significand := units / spacing
  let below := if significand = Nat.pow 2 52 ∧ 1 < spacing then spacing / 2 else spacing
  { below, above := spacing, closed := significand % 2 = 0 }

/-- Whether a number, twice its value being `candidate`, lies in the interval about `centre / 2`. -/
def Interval.contains (interval : Interval) (scale centre candidate : Nat) : Bool :=
  if candidate ≤ centre then
    if interval.closed then centre - candidate ≤ interval.below * scale
    else centre - candidate < interval.below * scale
  else
    if interval.closed then candidate - centre ≤ interval.above * scale
    else candidate - centre < interval.above * scale

/-- The multiple of `grid` in the interval about `value` that is nearest to `value`, as a multiplier;
a tie goes to the even one. -/
def nearestOnGrid (interval : Interval) (scale value grid : Nat) : Option Nat :=
  let lower := value / grid
  let upper := lower + 1
  let has (k : Nat) := interval.contains scale (2 * value) (2 * k * grid)
  match has lower, has upper with
  | false, false => none
  | true, false => some lower
  | false, true => some upper
  | true, true => some (roundHalfEven value grid)

def stripZeros : Nat → Nat → Nat
  | 0, digits => digits
  | fuel + 1, digits =>
    if digits % 10 = 0 ∧ digits ≠ 0 then stripZeros fuel (digits / 10) else digits

/-- The digits found on the grids of 1, 2, … significant digits; the first grid with a hit wins. -/
def searchDigits (interval : Interval) (scale value size : Nat) : Nat → Nat → Nat
  | 0, _ => value
  | fuel + 1, count =>
    match nearestOnGrid interval scale value (Nat.pow 10 (size - count)) with
    | some multiplier => multiplier * Nat.pow 10 (size - count)
    | none => searchDigits interval scale value size fuel (count + 1)

/-- The shortest decimal that reads back as a positive magnitude; seventeen digits always do. -/
def shortestDecimal (units : Nat) : Decimal :=
  let scale := Nat.pow 5 1074
  let value := units * scale
  let size := digitCount value
  let found := searchDigits (roundingInterval units) scale value size 17 1
  { digits := stripZeros (digitCount found) found
    exponent := (digitCount found : Int) - 1 - 1074 }

end JsonSchema.Binary64
