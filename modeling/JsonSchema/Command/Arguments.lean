import JsonSchema.Files.Path
import JsonSchema.Members
import JsonSchema.Text.Split

/-!
# Command lines

A command line names a command and gives its arguments. Options may stand between the arguments,
with their value behind an equals sign or as the next word; of an option that is given twice the last
counts. Behind two dashes there are no options.
-/

namespace JsonSchema

inductive Command where
  | validate (schema : Path) (documents : List Path) (report : Option Path)
      (maxErrors : Option Int) (config : Option Path)
  | get (schema document : Path) (pointer : String) (config : Option Path)
  | set (schema document : Path) (pointer value : String) (out : Option Path) (isChecked : Bool)
      (config : Option Path)
  | infer (schema : Path) (pointer : String) (document : Option Path)
  | resolve (schema : Path) (pointer : String) (config : Option Path)

inductive UsageError where
  | noCommand
  | unknownCommand (name : String)
  | unknownOption (word : String)
  | missingValue (option : String)
  | notAnInteger (option value : String)
  | wrongArguments (command : String)

def UsageError.message : UsageError → String
  | .noCommand => "Missing command."
  | .unknownCommand name => "No such command '" ++ name ++ "'."
  | .unknownOption word => "No such option: " ++ word
  | .missingValue option => "Option '" ++ option ++ "' requires an argument."
  | .notAnInteger option value =>
    "Invalid value for '" ++ option ++ "': '" ++ value ++ "' is not a valid integer."
  | .wrongArguments command => "Missing or unexpected argument of '" ++ command ++ "'."

/-- Words sorted into arguments and options; a flag has no value. -/
structure Arguments where
  positional : List String := []
  options : List (String × String) := []
  flags : List (String × Bool) := []

namespace Arguments

structure Known where
  options : List String
  /-- Flags that can be set and, by another word, be unset. -/
  flags : List (String × Bool × String) := []

def splitWord (word : String) : String × Option String :=
  match word.toList.span (· ≠ '=') with
  | (name, '=' :: value) => (String.ofList name, some (String.ofList value))
  | _ => (word, none)

def isOption (word : String) : Bool := word.toList.head? = some '-' && word.length > 1

def withOption (arguments : Arguments) (name value : String) : Arguments :=
  { arguments with options := Members.insert name value arguments.options }

def sort (known : Known) (sorted : Arguments) : List String → Except UsageError Arguments
  | [] => .ok sorted
  | word :: rest =>
    if word = "--" then .ok { sorted with positional := sorted.positional ++ rest }
    else if !isOption word then
      sort known { sorted with positional := sorted.positional ++ [word] } rest
    else match splitWord word with
      | (name, some value) =>
        if known.options.contains name then sort known (sorted.withOption name value) rest
        else .error (.unknownOption word)
      | (name, none) =>
        if known.options.contains name then
          match rest with
          | value :: rest => sort known (sorted.withOption name value) rest
          | [] => .error (.missingValue name)
        else match known.flags.lookup name with
          | some (isSet, flag) =>
            sort known { sorted with flags := Members.insert flag isSet sorted.flags } rest
          | none => .error (.unknownOption word)

def path? (arguments : Arguments) (option : String) : Option Path :=
  (arguments.options.lookup option).map Path.ofString

/-- The integer of a numeral that may have a sign, blanks around it, and low lines between its
digits. -/
def integerOf? (text : String) : Option Int :=
  let isBlank (c : Char) : Bool := c.isWhitespace || c = '\x0b' || c = '\x0c'
  let trimmed := ((text.toList.dropWhile isBlank).reverse.dropWhile isBlank).reverse
  let (isNegative, digits) := match trimmed with
    | '-' :: rest => (true, rest)
    | '+' :: rest => (false, rest)
    | chars => (false, chars)
  let groups := Text.splitOn '_' digits
  if groups.all fun group => !group.isEmpty && group.all Char.isDigit then
    let size : Int := Nat.ofDigitChars 10 groups.flatten 0
    some (if isNegative then -size else size)
  else none

def integer? (arguments : Arguments) (option : String) : Except UsageError (Option Int) :=
  match arguments.options.lookup option with
  | none => .ok none
  | some text =>
    match integerOf? text with
    | some n => .ok (some n)
    | none => .error (.notAnInteger option text)

end Arguments

namespace Command

open Arguments in
def parse : List String → Except UsageError Command
  | [] => .error .noCommand
  | "validate" :: words => do
    let found ← sort { options := ["--report", "--max-errors", "--config"] } {} words
    let maxErrors ← found.integer? "--max-errors"
    match found.positional with
    | schema :: document :: rest =>
      return validate (.ofString schema) ((document :: rest).map Path.ofString)
        (found.path? "--report") maxErrors (found.path? "--config")
    | _ => .error (.wrongArguments "validate")
  | "get" :: words => do
    let found ← sort { options := ["--config"] } {} words
    match found.positional with
    | [schema, document, pointer] =>
      return get (.ofString schema) (.ofString document) pointer (found.path? "--config")
    | _ => .error (.wrongArguments "get")
  | "set" :: words => do
    let flags := [("--check", true, "--check"), ("--no-check", false, "--check")]
    let found ← sort { options := ["--out", "--config"], flags } {} words
    match found.positional with
    | [schema, document, pointer, value] =>
      return set (.ofString schema) (.ofString document) pointer value (found.path? "--out")
        ((found.flags.lookup "--check").getD false) (found.path? "--config")
    | _ => .error (.wrongArguments "set")
  | "infer" :: words => do
    let found ← sort { options := ["--document"] } {} words
    match found.positional with
    | [schema] => return infer (.ofString schema) "#" (found.path? "--document")
    | [schema, pointer] => return infer (.ofString schema) pointer (found.path? "--document")
    | _ => .error (.wrongArguments "infer")
  | "resolve" :: words => do
    let found ← sort { options := ["--config"] } {} words
    match found.positional with
    | [schema] => return resolve (.ofString schema) "#" (found.path? "--config")
    | [schema, pointer] => return resolve (.ofString schema) pointer (found.path? "--config")
    | _ => .error (.wrongArguments "resolve")
  | name :: _ => .error (.unknownCommand name)

end Command

end JsonSchema
