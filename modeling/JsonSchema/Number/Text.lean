import JsonSchema.Number
import JsonSchema.Numeric.Shortest

/-!
# The text of a number

A double is written with the fewest digits that read back. It is positional when its decimal exponent
lies from -4 to 15, with at least one place; any other double has a mantissa and an exponent of at
least two digits with its sign.
-/

namespace JsonSchema

structure SpecialNames where
  nan : String
  infinity : String

namespace Binary64

def lowestPositionalExponent : Int := -4
def highestPositionalExponent : Int := 15

def zeros (count : Nat) : List Char := List.replicate count '0'

/-- A numeral with a point after `whole` digits, zeros filling up on either side. -/
def positional (digits : List Char) (whole : Int) : List Char :=
  if whole ≤ 0 then '0' :: '.' :: zeros whole.natAbs ++ digits
  else if digits.length ≤ whole.natAbs then
    digits ++ zeros (whole.natAbs - digits.length) ++ ['.', '0']
  else digits.take whole.natAbs ++ '.' :: digits.drop whole.natAbs

def scientific (digits : List Char) (exponent : Int) : List Char :=
  let mantissa := match digits with
    | first :: second :: rest => first :: '.' :: second :: rest
    | few => few
  let power := Nat.toDigits 10 exponent.natAbs
  mantissa ++ 'e' :: (if exponent < 0 then '-' else '+') :: zeros (2 - power.length) ++ power

def Decimal.chars (d : Decimal) : List Char :=
  let digits := Nat.toDigits 10 d.digits
  if lowestPositionalExponent ≤ d.exponent ∧ d.exponent ≤ highestPositionalExponent then
    positional digits (d.exponent + 1)
  else scientific digits d.exponent

def chars (names : SpecialNames) : Binary64 → List Char
  | .nan => names.nan.toList
  | .infinite negative => (if negative then ['-'] else []) ++ names.infinity.toList
  | .finite negative units _ =>
    (if negative then ['-'] else []) ++
      if units = 0 then ['0', '.', '0'] else (shortestDecimal units).chars

end Binary64

namespace Number

def intChars (n : Int) : List Char :=
  (if n < 0 then ['-'] else []) ++ Nat.toDigits 10 n.natAbs

def chars (names : SpecialNames) : Number → List Char
  | .int value => intChars value
  | .float value => value.chars names

def plainNames : SpecialNames := { nan := "nan", infinity := "inf" }

/-- The text of a number in a message: a whole number has no point, whichever kind it is. -/
def display (a : Number) : String :=
  match a.toInt? with
  | some value => String.ofList (intChars value)
  | none => String.ofList (a.chars plainNames)

end Number

end JsonSchema
