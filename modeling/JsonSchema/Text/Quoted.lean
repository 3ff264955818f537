import JsonSchema.Text.Hexadecimal
import JsonSchema.Text.Printable

/-!
# Quoted text in messages

A text is put in single quotes, or in double quotes when it holds a single quote and no double one.
Inside, the backslash, the quote that is used and every character that is not printable are escaped.
-/

namespace JsonSchema.Text

def escapeForDisplay (quote c : Char) : List Char :=
  if c = quote ∨ c = '\\' then ['\\', c]
  else if c = '\n' then ['\\', 'n']
  else if c = '\r' then ['\\', 'r']
  else if c = '\t' then ['\\', 't']
  else if isPrintable c then [c]
  else if c.toNat < 0x100 then '\\' :: 'x' :: hex 2 c.toNat
  else if c.toNat < 0x10000 then '\\' :: 'u' :: hex 4 c.toNat
  else '\\' :: 'U' :: hex 8 c.toNat

def quotedChars (text : List Char) : List Char :=
  let quote := if text.contains '\'' && !text.contains '"' then '"' else '\''
  quote :: text.flatMap (escapeForDisplay quote) ++ [quote]

def quoted (text : String) : String := String.ofList (quotedChars text.toList)

end JsonSchema.Text
