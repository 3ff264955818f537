import JsonSchema.Text.Hexadecimal
import JsonSchema.Yaml.Tree

/-!
# Plain scalars

A scalar without quotes is null, a boolean or a number if it has one of their forms, and a text
otherwise. A double has a point, and the exponent of a double a sign; low lines between digits do
not count.
-/

namespace JsonSchema.Yaml

def nullNames : List String := ["", "~", "null", "Null", "NULL"]

def trueNames : List String :=
  ["true", "True", "TRUE", "yes", "Yes", "YES", "on", "On", "ON"]

def falseNames : List String :=
  ["false", "False", "FALSE", "no", "No", "NO", "off", "Off", "OFF"]

def splitSign : List Char → Bool × List Char
  | '-' :: rest => (true, rest)
  | '+' :: rest => (false, rest)
  | chars => (false, chars)

/-- The number that digits of a base stand for; low lines are passed over. -/
def numeral? (base : Nat) (chars : List Char) : Option Nat :=
  chars.foldlM (fun n c =>
    if c = '_' then some n
    else do
      let digit ← Text.hexValue? c
      if digit < base then some (n * base + digit) else none) 0

/-- Groups of at most two digits below sixty, after a first group, separated by colons. -/
def sexagesimal? (chars : List Char) : Option Nat := do
  let groups := chars.splitBy fun a b => a ≠ ':' && b ≠ ':'
  match groups with
  | first :: rest =>
    let start ← if first.head?.all (fun c => '1' ≤ c && c ≤ '9') then numeral? 10 first else none
    let rec go (n : Nat) : List (List Char) → Option Nat
      | [] => some n
      | [':'] :: digits :: rest => do
        let group ← numeral? 10 digits
        if digits.length ≤ 2 && group < 60 && digits.all Char.isDigit then go (n * 60 + group) rest
        else none
      | _ => none
    if rest.isEmpty then none else go start rest
  | [] => none

def natural? (chars : List Char) : Option Nat :=
  match chars with
  | ['0'] => some 0
  | '0' :: 'b' :: digits => if digits.isEmpty then none else numeral? 2 digits
  | '0' :: 'x' :: digits => if digits.isEmpty then none else numeral? 16 digits
  | '0' :: digits => numeral? 8 digits
  | c :: _ =>
    if '1' ≤ c && c ≤ '9' then
      if chars.contains ':' then sexagesimal? chars else numeral? 10 chars
    else none
  | [] => none

def integer? (chars : List Char) : Option Int :=
  let (negative, digits) := splitSign chars
  (natural? digits).map fun n => if negative then -(n : Int) else n

def exponent? : List Char → Option Int
  | [] => some 0
  | letter :: sign :: digits =>
    if (letter = 'e' || letter = 'E') && (sign = '+' || sign = '-') && !digits.isEmpty
        && digits.all Char.isDigit then
      let size : Int := Nat.ofDigitChars 10 digits 0
      some (if sign = '-' then -size else size)
    else none
  | [_] => none

def isDigitOrLow (c : Char) : Bool := c.isDigit || c = '_'

def float? (chars : List Char) : Option Binary64 :=
  let (negative, body) := splitSign chars
  if [".inf", ".Inf", ".INF"].contains (String.ofList body) then some (.infinite negative)
  else if [".nan", ".NaN", ".NAN"].contains (String.ofList chars) then some .nan
  else do
    let (whole, rest) := body.span isDigitOrLow
    match rest with
    | '.' :: rest =>
      let (fraction, rest) := rest.span isDigitOrLow
      let startsWell :=
        if whole.isEmpty then body = chars && fraction.head?.any Char.isDigit
        else whole.head?.any Char.isDigit
      if !startsWell then none
      else
        let power ← exponent? rest
        let places := fraction.filter Char.isDigit
        some (.ofDecimal negative (Nat.ofDigitChars 10 (whole.filter Char.isDigit ++ places) 0)
          (power - places.length))
    | _ => none

def plainScalar (chars : List Char) : Scalar :=
  let text := String.ofList chars
  if nullNames.contains text then .null
  else if trueNames.contains text then .bool true
  else if falseNames.contains text then .bool false
  else match integer? chars, float? chars with
    | some n, _ => .number (.int n)
    | none, some x => .number (.float x)
    | none, none => .text text

end JsonSchema.Yaml
