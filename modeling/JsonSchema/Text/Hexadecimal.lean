/-!
# Hexadecimal numerals
-/

namespace JsonSchema.Text

def hexValue? (c : Char) : Option Nat :=
  if '0' ≤ c ∧ c ≤ '9' then some (c.toNat - 48)
  else if 'a' ≤ c ∧ c ≤ 'f' then some (c.toNat - 87)
  else if 'A' ≤ c ∧ c ≤ 'F' then some (c.toNat - 55)
  else none

def hexDigit (n : Nat) : Char := if n < 10 then Char.ofNat (48 + n) else Char.ofNat (87 + n)

/-- The numeral of a number, filled up with zeros to at least `width` digits. -/
def hex (width number : Nat) : List Char :=
  let numeral := Nat.toDigits 16 number
  List.replicate (width - numeral.length) '0' ++ numeral

end JsonSchema.Text
