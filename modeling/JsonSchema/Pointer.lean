import JsonSchema.Text.Quoted
import JsonSchema.Text.Split
import JsonSchema.Value

/-!
# Pointers

A pointer such as `#/a/0` names a place in a value by the segments after the `#`: names of object
members and indices of array items. A slash inside a segment is written `~1` and a tilde `~0`. Both
`#` and `#/` name the whole value.
-/

namespace JsonSchema.Pointer

inductive Error where
  | hashMissing (text : String)
  | slashMissing (text : String)
deriving DecidableEq

def Error.message : Error → String
  | .hashMissing text => "Pointer must start with '#': " ++ Text.quoted text
  | .slashMissing text => "Pointer segments must follow '#/': " ++ Text.quoted text

/-! ### Segments in their written form -/

def escapeChars : List Char → List Char
  | [] => []
  | '~' :: rest => '~' :: '0' :: escapeChars rest
  | '/' :: rest => '~' :: '1' :: escapeChars rest
  | c :: rest => c :: escapeChars rest

/-- A tilde before any other character than 0 and 1 stands for itself. -/
def unescapeChars : List Char → List Char
  | [] => []
  | '~' :: '0' :: rest => '~' :: unescapeChars rest
  | '~' :: '1' :: rest => '/' :: unescapeChars rest
  | c :: rest => c :: unescapeChars rest

def escape (segment : String) : String := String.ofList (escapeChars segment.toList)
def unescape (written : String) : String := String.ofList (unescapeChars written.toList)

/-! ### Whole pointers -/

def parse (text : String) : Except Error (List String) :=
  match text.toList with
  | ['#'] | ['#', '/'] => .ok []
  | '#' :: '/' :: rest =>
    .ok ((Text.splitOn '/' rest).map fun part => String.ofList (unescapeChars part))
  | '#' :: _ => .error (.slashMissing text)
  | _ => .error (.hashMissing text)

def formatChars (segments : List String) : List Char :=
  match segments with
  | [] => ['#']
  | segments => '#' :: segments.flatMap fun segment => '/' :: escapeChars segment.toList

def format (segments : List String) : String := String.ofList (formatChars segments)

def join (pointer segment : String) : String :=
  if pointer = "#" ∨ pointer = "#/" then format [segment]
  else pointer ++ "/" ++ escape segment

def extend (pointer : String) (segments : List String) : String := segments.foldl join pointer

/-! ### Array indices -/

/-- Whether characters are the numeral of a natural without superfluous zeros. -/
def isNumeral : List Char → Bool
  | [] => false
  | [c] => c.isDigit
  | c :: rest => c ≠ '0' && c.isDigit && rest.all Char.isDigit

/-- The array index that a segment names: a numeral, behind which one line feed is passed over. -/
def index? (segment : String) : Option Nat :=
  let chars := segment.toList
  let numeral := if chars.getLast? = some '\n' then chars.dropLast else chars
  if isNumeral numeral then some (Nat.ofDigitChars 10 numeral 0) else none

def ofIndex (index : Nat) : String := String.ofList (Nat.toDigits 10 index)

end Pointer

namespace Value

def child? (segment : String) : Value → Option Value
  | .object members => members.lookup segment
  | .array items => do items[← Pointer.index? segment]?
  | _ => none

def at? (value : Value) : List String → Option Value
  | [] => some value
  | segment :: rest => do (← value.child? segment).at? rest

end JsonSchema.Value
