import JsonSchema.Numeric.Binary64

/-!
# Numbers

A number is an integer of any size or a double. The two kinds are compared by their exact
mathematical value: `Number.rank` places every number that is not NaN on one line.
-/

namespace JsonSchema

inductive Number where
  | int (value : Int)
  | float (value : Binary64)
deriving DecidableEq

namespace Number

/-- A point of the number line with its two infinite ends; finite points are counted in units. -/
structure Rank where
  side : Int
  units : Int
deriving DecidableEq

def Rank.lt (a b : Rank) : Bool :=
  a.side < b.side || (a.side = b.side && a.units < b.units)

/-- The place of a number on the line; NaN has none. -/
def rank : Number → Option Rank
  | .int value => some ⟨0, value * Binary64.one⟩
  | .float .nan => none
  | .float (.infinite true) => some ⟨-1, 0⟩
  | .float (.infinite false) => some ⟨1, 0⟩
  | .float (.finite true units _) => some ⟨0, -units⟩
  | .float (.finite false units _) => some ⟨0, units⟩

def equal (a b : Number) : Bool :=
  match a.rank, b.rank with
  | some x, some y => x = y
  | _, _ => false

def lt (a b : Number) : Bool :=
  match a.rank, b.rank with
  | some x, some y => x.lt y
  | _, _ => false

def le (a b : Number) : Bool := a.lt b || a.equal b

def zero : Number := .int 0

def isNaN (a : Number) : Bool := a.rank = none

def toInt? : Number → Option Int
  | .int value => some value
  | .float value => value.toInt?

def isIntegral (a : Number) : Bool := a.toInt?.isSome

end Number

end JsonSchema
