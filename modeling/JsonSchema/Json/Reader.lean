import JsonSchema.Text.Hexadecimal
import JsonSchema.Value

/-!
# Reading JSON

`Json.read` reads one value that fills the whole text. A reader takes the characters that are left
and returns a value with the characters behind it; a failure remembers how many characters were left
at the fault, from which its line and column are found at the end. The three names for doubles that
have no numeral are read as well. Of members with one name the last value counts, at the first
position.
-/

namespace JsonSchema.Json

inductive Complaint where
  | valueExpected
  | nameExpected
  | colonExpected
  | commaExpected
  | unterminatedString
  | controlCharacter
  | badEscape
  | badUnicodeEscape
  | extraData
  | byteOrderMark
deriving DecidableEq

def Complaint.message : Complaint → String
  | .valueExpected => "Expecting value"
  | .nameExpected => "Expecting property name enclosed in double quotes"
  | .colonExpected => "Expecting ':' delimiter"
  | .commaExpected => "Expecting ',' delimiter"
  | .unterminatedString => "Unterminated string starting at"
  | .controlCharacter => "Invalid control character at"
  | .badEscape => "Invalid \\escape"
  | .badUnicodeEscape => "Invalid \\uXXXX escape"
  | .extraData => "Extra data"
  | .byteOrderMark => "Unexpected UTF-8 BOM (decode using utf-8-sig)"

/-- A complaint and the number of characters left at the place it is about. -/
structure Failure where
  complaint : Complaint
  left : Nat
deriving DecidableEq

/-- A complaint with its place in the text; lines and columns count from one. -/
structure ReadError where
  complaint : Complaint
  offset : Nat
  line : Nat
  column : Nat
deriving DecidableEq

def ReadError.message (e : ReadError) : String :=
  e.complaint.message ++ ": line " ++ toString e.line ++ " column " ++ toString e.column ++
    " (char " ++ toString e.offset ++ ")"

def Failure.locate (text : List Char) (failure : Failure) : ReadError :=
  let offset := text.length - failure.left
  let before := text.take offset
  { complaint := failure.complaint
    offset
    line := before.count '\n' + 1
    column := (before.reverse.takeWhile (· ≠ '\n')).length + 1 }

def isBlank (c : Char) : Bool := c = ' ' || c = '\t' || c = '\n' || c = '\r'

def skipBlanks (chars : List Char) : List Char := chars.dropWhile isBlank

def failAt {α : Type} (complaint : Complaint) (rest : List Char) : Except Failure α :=
  .error ⟨complaint, rest.length⟩

/-! ### Strings -/

def readHex4 : List Char → Option (Nat × List Char)
  | a :: b :: c :: d :: rest => do
    let a ← Text.hexValue? a
    let b ← Text.hexValue? b
    let c ← Text.hexValue? c
    let d ← Text.hexValue? d
    return (((a * 16 + b) * 16 + c) * 16 + d, rest)
  | _ => none

def unescape? : Char → Option Char
  | '"' => some '"'
  | '\\' => some '\\'
  | '/' => some '/'
  | 'b' => some '\x08'
  | 'f' => some '\x0c'
  | 'n' => some '\n'
  | 'r' => some '\r'
  | 't' => some '\t'
  | _ => none

def isHighSurrogate (code : Nat) : Bool := 0xD800 ≤ code && code < 0xDC00
def isLowSurrogate (code : Nat) : Bool := 0xDC00 ≤ code && code < 0xE000

/-- The character of a code; a surrogate without its partner has none and is replaced. -/
def charOfCode (code : Nat) : Char :=
  if isHighSurrogate code || isLowSurrogate code then '\ufffd' else Char.ofNat code

def joinSurrogates (high low : Nat) : Nat := 0x10000 + (high - 0xD800) * 0x400 + (low - 0xDC00)

/-- What follows the start of a second escape that is long enough to complete a pair. -/
def secondEscape? : List Char → Option (List Char)
  | '\\' :: 'u' :: rest => if 4 < rest.length then some rest else none
  | _ => none

/--
The four digits after `\u`, which at least one more character has to follow, and a second escape
that completes a pair of surrogates.
-/
def readUnicodeEscape (chars : List Char) : Except Failure (Char × List Char) :=
  let bad (digits : List Char) : Failure := ⟨.badUnicodeEscape, digits.length + 1⟩
  match readHex4 chars with
  | none => .error (bad chars)
  | some (_, []) => .error (bad chars)
  | some (code, rest) =>
    match isHighSurrogate code, secondEscape? rest with
    | true, some digits =>
      match readHex4 digits with
      | none => .error (bad digits)
      | some (partner, after) =>
        if isLowSurrogate partner then .ok (Char.ofNat (joinSurrogates code partner), after)
        else .ok (charOfCode code, rest)
    | _, _ => .ok (charOfCode code, rest)

theorem length_of_readHex4 {chars rest : List Char} {code : Nat}
    (h : readHex4 chars = some (code, rest)) : chars.length = rest.length + 4 := by
  unfold readHex4 at h
  split at h
  · simp only [bind, Option.bind_eq_some_iff, pure, Option.some.injEq, Prod.mk.injEq] at h
    obtain ⟨_, _, _, _, _, _, _, _, _, rfl⟩ := h
    rfl
  · cases h

theorem length_of_secondEscape? {chars rest : List Char} (h : secondEscape? chars = some rest) :
    chars.length = rest.length + 2 := by
  unfold secondEscape? at h
  split at h
  · split at h
    · cases h
      rfl
    · cases h
  · cases h

theorem length_lt_of_readUnicodeEscape {chars rest : List Char} {c : Char}
    (h : readUnicodeEscape chars = .ok (c, rest)) : rest.length < chars.length := by
  unfold readUnicodeEscape at h
  split at h
  · cases h
  · cases h
  · rename_i code after _ h₁
    have hl := length_of_readHex4 h₁
    split at h
    · rename_i digits _ h₂
      have hs := length_of_secondEscape? h₂
      split at h
      · cases h
      · rename_i h₃
        have ht := length_of_readHex4 h₃
        split at h <;> (obtain ⟨-, rfl⟩ : _ ∧ _ := by simpa using h) <;> omega
    · obtain ⟨-, rfl⟩ : _ ∧ _ := by simpa using h
      omega

/-- The characters of a string up to its closing quote; `opening` is what was left at the opening
one. -/
def readString (opening : Nat) (chars : List Char) : Except Failure (List Char × List Char) :=
  match chars with
  | [] => .error ⟨.unterminatedString, opening⟩
  | '"' :: rest => .ok ([], rest)
  | '\\' :: [] => .error ⟨.unterminatedString, opening⟩
  | '\\' :: 'u' :: rest =>
    match h : readUnicodeEscape rest with
    | .error failure => .error failure
    | .ok (c, after) =>
      have := length_lt_of_readUnicodeEscape h
      (readString opening after).map fun (text, rest) => (c :: text, rest)
  | '\\' :: letter :: rest =>
    match unescape? letter with
    | none => .error ⟨.badEscape, rest.length + 2⟩
    | some c => (readString opening rest).map fun (text, rest) => (c :: text, rest)
  | c :: rest =>
    if c.toNat < 0x20 then .error ⟨.controlCharacter, rest.length + 1⟩
    else (readString opening rest).map fun (text, rest) => (c :: text, rest)
termination_by chars.length
decreasing_by all_goals simp only [List.length_cons]; omega

/-! ### Numbers -/

/-- The digits before the point; a zero stands alone. -/
def readWhole : List Char → Option (List Char × List Char)
  | '0' :: rest => some (['0'], rest)
  | c :: rest => if c.isDigit then some ((c :: rest).span Char.isDigit) else none
  | [] => none

/-- The digits after a point; a point without digits is not part of the number. -/
def readFraction : List Char → List Char × List Char
  | '.' :: c :: rest => if c.isDigit then (c :: rest).span Char.isDigit else ([], '.' :: c :: rest)
  | chars => ([], chars)

/-- The exponent, if there is one; a letter without digits is not part of the number. -/
def readExponent (chars : List Char) : Option (Int × List Char) :=
  match chars with
  | letter :: rest =>
    if letter = 'e' ∨ letter = 'E' then
      let (negative, rest) := match rest with
        | '-' :: rest => (true, rest)
        | '+' :: rest => (false, rest)
        | rest => (false, rest)
      match rest.span Char.isDigit with
      | ([], _) => none
      | (digits, rest) =>
        let size : Int := Nat.ofDigitChars 10 digits 0
        some (if negative then -size else size, rest)
    else none
  | [] => none

/-- A number without point and exponent is an integer, any other is the nearest double. -/
def readNumber (chars : List Char) : Except Failure (Number × List Char) :=
  let (negative, body) := match chars with
    | '-' :: body => (true, body)
    | body => (false, body)
  match readWhole body with
  | none => failAt .valueExpected chars
  | some (whole, rest) =>
    let (fraction, rest) := readFraction rest
    match fraction, readExponent rest with
    | [], none =>
      let size : Int := Nat.ofDigitChars 10 whole 0
      .ok (.int (if negative then -size else size), rest)
    | fraction, exponent =>
      let (power, rest) := exponent.getD (0, rest)
      let digits := Nat.ofDigitChars 10 (whole ++ fraction) 0
      .ok (.float (.ofDecimal negative digits (power - fraction.length)), rest)

/-! ### Values -/

mutual

/-- Reads one value. The fuel bounds the values on the way into it; the number of characters is
enough. -/
def readValue : Nat → List Char → Except Failure (Value × List Char)
  | 0, chars => failAt .valueExpected chars
  | fuel + 1, chars =>
    match chars with
    | '"' :: rest => do
      let (text, rest) ← readString (rest.length + 1) rest
      return (.string (String.ofList text), rest)
    | '[' :: rest =>
      match skipBlanks rest with
      | ']' :: rest => .ok (.array [], rest)
      | rest => do
        let (items, rest) ← readItems fuel rest
        return (.array items, rest)
    | '\x7b' :: rest =>
      match skipBlanks rest with
      | '\x7d' :: rest => .ok (.object [], rest)
      | rest => do
        let (members, rest) ← readMembers fuel rest
        return (.object (Members.ofPairs members), rest)
    | 'n' :: 'u' :: 'l' :: 'l' :: rest => .ok (.null, rest)
    | 't' :: 'r' :: 'u' :: 'e' :: rest => .ok (.bool true, rest)
    | 'f' :: 'a' :: 'l' :: 's' :: 'e' :: rest => .ok (.bool false, rest)
    | 'N' :: 'a' :: 'N' :: rest => .ok (.number (.float .nan), rest)
    | 'I' :: 'n' :: 'f' :: 'i' :: 'n' :: 'i' :: 't' :: 'y' :: rest =>
      .ok (.number (.float (.infinite false)), rest)
    | '-' :: 'I' :: 'n' :: 'f' :: 'i' :: 'n' :: 'i' :: 't' :: 'y' :: rest =>
      .ok (.number (.float (.infinite true)), rest)
    | chars => do
      let (n, rest) ← readNumber chars
      return (.number n, rest)

def readItems : Nat → List Char → Except Failure (List Value × List Char)
  | 0, chars => failAt .valueExpected chars
  | fuel + 1, chars => do
    let (item, rest) ← readValue fuel chars
    match skipBlanks rest with
    | ']' :: rest => return ([item], rest)
    | ',' :: rest =>
      let (items, rest) ← readItems fuel (skipBlanks rest)
      return (item :: items, rest)
    | rest => failAt .commaExpected rest

def readMembers : Nat → List Char → Except Failure (List (String × Value) × List Char)
  | 0, chars => failAt .nameExpected chars
  | fuel + 1, chars => do
    match chars with
    | '"' :: rest =>
      let (name, rest) ← readString (rest.length + 1) rest
      match skipBlanks rest with
      | ':' :: rest =>
        let (value, rest) ← readValue fuel (skipBlanks rest)
        let member := (String.ofList name, value)
        match skipBlanks rest with
        | '\x7d' :: rest => return ([member], rest)
        | ',' :: rest =>
          let (members, rest) ← readMembers fuel (skipBlanks rest)
          return (member :: members, rest)
        | rest => failAt .commaExpected rest
      | rest => failAt .colonExpected rest
    | chars => failAt .nameExpected chars

end

def readWholeText (chars : List Char) : Except Failure Value :=
  match chars with
  | '\ufeff' :: _ => failAt .byteOrderMark chars
  | _ => do
    let (value, rest) ← readValue (chars.length + 1) (skipBlanks chars)
    match skipBlanks rest with
    | [] => return value
    | rest => failAt .extraData rest

def read (text : String) : Except ReadError Value :=
  (readWholeText text.toList).mapError (Failure.locate text.toList)

end JsonSchema.Json
