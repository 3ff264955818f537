import JsonSchema.Value
import JsonSchema.Number.Text
import JsonSchema.Text.Hexadecimal

/-!
# Writing JSON

A layout fixes the white space between the tokens. Everything outside ASCII is written as it is; in
strings the quote, the backslash and the control characters are escaped, so no line feed is ever
written inside a string.
-/

namespace JsonSchema.Json

inductive Layout where
  /-- No white space at all. -/
  | compact
  /-- On one line, with a space after each comma and colon. -/
  | spaced
  /-- Every item and member on a line of its own, indented by this many spaces a level. -/
  | indented (width : Nat)
deriving DecidableEq

namespace Layout

def lineBreak : Layout → Nat → List Char
  | .indented width, level => '\n' :: List.replicate (width * level) ' '
  | _, _ => []

def itemSeparator : Layout → Nat → List Char
  | .compact, _ => [',']
  | .spaced, _ => [',', ' ']
  | .indented width, level => ',' :: lineBreak (.indented width) level

def nameSeparator : Layout → List Char
  | .compact => [':']
  | _ => [':', ' ']

end Layout

/-- The numbers that JSON has no numeral for. -/
def specialNames : SpecialNames := { nan := "NaN", infinity := "Infinity" }

def escape (c : Char) : List Char :=
  if c = '"' then ['\\', '"']
  else if c = '\\' then ['\\', '\\']
  else if c = '\n' then ['\\', 'n']
  else if c = '\r' then ['\\', 'r']
  else if c = '\t' then ['\\', 't']
  else if c = '\x08' then ['\\', 'b']
  else if c = '\x0c' then ['\\', 'f']
  else if c.toNat < 0x20 then
    ['\\', 'u', '0', '0', Text.hexDigit (c.toNat / 16), Text.hexDigit (c.toNat % 16)]
  else [c]

def stringChars (text : String) : List Char := '"' :: text.toList.flatMap escape ++ ['"']

mutual

def chars (layout : Layout) (level : Nat) : Value → List Char
  | .null => "null".toList
  | .bool true => "true".toList
  | .bool false => "false".toList
  | .number n => n.chars specialNames
  | .string text => stringChars text
  | .array [] => ['[', ']']
  | .array (item :: rest) =>
    '[' :: layout.lineBreak (level + 1) ++ chars layout (level + 1) item ++
      restItems layout (level + 1) rest ++ layout.lineBreak level ++ [']']
  | .object [] => ['\x7b', '\x7d']
  | .object ((name, value) :: rest) =>
    '\x7b' :: layout.lineBreak (level + 1) ++ stringChars name ++ layout.nameSeparator ++
      chars layout (level + 1) value ++ restMembers layout (level + 1) rest ++
      layout.lineBreak level ++ ['\x7d']

/-- The items after the first, each with the separator before it. -/
def restItems (layout : Layout) (level : Nat) : List Value → List Char
  | [] => []
  | item :: rest =>
    layout.itemSeparator level ++ chars layout level item ++ restItems layout level rest

def restMembers (layout : Layout) (level : Nat) : List (String × Value) → List Char
  | [] => []
  | (name, value) :: rest =>
    layout.itemSeparator level ++ stringChars name ++ layout.nameSeparator ++
      chars layout level value ++ restMembers layout level rest

end

def write (layout : Layout) (value : Value) : String := String.ofList (chars layout 0 value)

def compact (value : Value) : String := write .compact value

end JsonSchema.Json
