import JsonSchema.Value
import JsonSchema.Number.Text
import JsonSchema.Text.Quoted

/-!
# Values in messages

The spelling of a value inside the text of a message. It differs from JSON in its quotes and in the
names of the constants.
-/

namespace JsonSchema.Value

mutual

def displayChars : Value → List Char
  | .null => "None".toList
  | .bool true => "True".toList
  | .bool false => "False".toList
  | .number n => n.chars Number.plainNames
  | .string text => Text.quotedChars text.toList
  | .array items => '[' :: displayItems items ++ [']']
  | .object members => '\x7b' :: displayMembers members ++ ['\x7d']

def displayItems : List Value → List Char
  | [] => []
  | [item] => item.displayChars
  | item :: rest => item.displayChars ++ ',' :: ' ' :: displayItems rest

def displayMembers : List (String × Value) → List Char
  | [] => []
  | [(name, value)] => Text.quotedChars name.toList ++ ':' :: ' ' :: value.displayChars
  | (name, value) :: rest =>
    Text.quotedChars name.toList ++ ':' :: ' ' :: value.displayChars ++ ',' :: ' ' ::
      displayMembers rest

end

def display (value : Value) : String := String.ofList value.displayChars

end JsonSchema.Value
