import JsonSchema.Text.Hexadecimal
import JsonSchema.Pattern.Syntax
import JsonSchema.Text.Letters
import JsonSchema.Text.Names

/-!
# Reading patterns

A pattern is read by tokens: a character, or a backslash with the character behind it. The reader
keeps account of the groups seen so far, since a pattern may only refer back to groups that are
closed. `Pattern.parse` gives the expression with the flags that hold for all of it.
-/

namespace JsonSchema.Pattern

/-- Why a text is no pattern. The last three are faults of their own kind, not mere errors of
form. -/
inductive Defect where
  | invalid
  | hugeRepetition
  | conflictingFlags
  | hugeLookBehind
  deriving DecidableEq

inductive Token where
  | plain (c : Char)
  | escaped (c : Char)
deriving DecidableEq

def Token.chars : Token → List Char
  | .plain c => [c]
  | .escaped c => ['\\', c]

structure Parsing where
  rest : List Char
  /-- The widths of the groups in the order of their numbers; an open group has none yet. -/
  groups : List (Option Width) := []
  names : List (String × Nat) := []
  /-- The number of groups before the outermost look-behind that is being read. -/
  groupsBeforeLookBehind : Option Nat := none
  /-- The groups that conditions ask for by number. -/
  conditions : List Nat := []
  flags : List Char := []
  hasRepetition : Bool := false
  hasUnfixedLookBehind : Bool := false
  hasHugeLookBehind : Bool := false

abbrev Parser := StateT Parsing (Except Defect)

def countLimit : Nat := 0xffffffff

def lookBehindLimit : Nat := 0x80000000

def invalid {α : Type} : Parser α := throw .invalid

/-! ### Tokens -/

def peek : Parser (Option Token) := do
  match (← get).rest with
  | [] => return none
  | '\\' :: c :: _ => return some (.escaped c)
  | c :: _ => return some (.plain c)

/-- A backslash with nothing behind it is refused as soon as it comes next. -/
def moveTo (rest : List Char) : Parser Unit := do
  if rest = ['\\'] then invalid
  modify fun s => { s with rest }

def advance : Parser Unit := do
  match (← get).rest with
  | [] => return ()
  | '\\' :: _ :: rest => moveTo rest
  | _ :: rest => moveTo rest

def next : Parser (Option Token) := do
  let token ← peek
  advance
  return token

def accept (c : Char) : Parser Bool := do
  if (← peek) = some (.plain c) then
    advance
    return true
  return false

def expect (c : Char) : Parser Unit := do
  if !(← accept c) then invalid

def takeUpTo (condition : Char → Bool) : Nat → Parser (List Char)
  | 0 => return []
  | count + 1 => do
    match ← peek with
    | some (.plain c) =>
      if condition c then
        advance
        return c :: (← takeUpTo condition count)
      return []
    | _ => return []

def takeAll (condition : Char → Bool) : Parser (List Char) := do
  takeUpTo condition (← get).rest.length

def takeUntil (close : Char) : Nat → Parser (List Char)
  | 0 => invalid
  | fuel + 1 => do
    match ← next with
    | none => invalid
    | some token =>
      if token = .plain close then return []
      return token.chars ++ (← takeUntil close fuel)

/-- The text of a name up to a closing character; an empty one is refused. -/
def takeName (close : Char) : Parser (List Char) := do
  let name ← takeUntil close ((← get).rest.length + 1)
  if name.isEmpty then invalid
  return name

/-! ### Numerals -/

def isOctal (c : Char) : Bool := '0' ≤ c && c ≤ '7'
def isHex (c : Char) : Bool := (Text.hexValue? c).isSome
def isAsciiLetter (c : Char) : Bool := ('a' ≤ c && c ≤ 'z') || ('A' ≤ c && c ≤ 'Z')

def numberOf (base : Nat) (digits : List Char) : Nat :=
  digits.foldl (fun n c => n * base + (Text.hexValue? c).getD 0) 0

/-- Digits of any script in groups that are joined by single low lines. -/
def digitsOf? : List Char → Option (List Nat)
  | [] => none
  | [c] => (Text.digitValue? c).map ([·])
  | c :: '_' :: rest => do return (← Text.digitValue? c) :: (← digitsOf? rest)
  | c :: rest => do return (← Text.digitValue? c) :: (← digitsOf? rest)

/-- The number of a group in a condition; a plus sign and white space around it do not count. -/
def groupNumber? (text : List Char) : Option Nat :=
  let isSpace (c : Char) := Text.spaces.contains c.toNat
  let text := ((text.dropWhile isSpace).reverse.dropWhile isSpace).reverse
  let text := match text with
    | '+' :: rest => rest
    | text => text
  (digitsOf? text).map fun digits => digits.foldl (fun n d => n * 10 + d) 0

/-! ### Escapes -/

def hexCode (count : Nat) : Parser Nat := do
  let digits ← takeUpTo isHex count
  if digits.length ≠ count then invalid
  let code := numberOf 16 digits
  if 0x110000 ≤ code then invalid
  return code

def namedCode : Parser Nat := do
  expect '{'
  match Text.codeOfName? (String.ofList (← takeName '}')) with
  | some code => return code
  | none => invalid

def controlCode? : Char → Option Nat
  | 'a' => some 7
  | 'b' => some 8
  | 'f' => some 12
  | 'n' => some 10
  | 'r' => some 13
  | 't' => some 9
  | 'v' => some 11
  | '\\' => some 92
  | _ => none

def category? : Char → Option (Category × Bool)
  | 'd' => some (.digit, false)
  | 'D' => some (.digit, true)
  | 's' => some (.space, false)
  | 'S' => some (.space, true)
  | 'w' => some (.word, false)
  | 'W' => some (.word, true)
  | _ => none

def anchor? : Char → Option Anchor
  | 'A' => some .startOfText
  | 'Z' => some .endOfText
  | 'b' => some .wordBoundary
  | 'B' => some .noWordBoundary
  | _ => none

/-- The code of an escape that means the same inside and outside of a set. A letter that has no
meaning is refused; any other character stands for itself. -/
def parseCodeEscape (c : Char) : Parser Nat := do
  match c with
  | 'x' => hexCode 2
  | 'u' => hexCode 4
  | 'U' => hexCode 8
  | 'N' => namedCode
  | _ =>
    if isAsciiLetter c then invalid
    return c.toNat

def parseSetEscape (c : Char) : Parser SetItem := do
  match controlCode? c, category? c with
  | some code, _ => return .single code
  | none, some (category, negated) => return .ofCategory category negated
  | none, none =>
    if isOctal c then
      let code := numberOf 8 (c :: (← takeUpTo isOctal 2))
      if 0o377 < code then invalid
      return .single code
    if c.isDigit then invalid
    return .single (← parseCodeEscape c)

def isClosed (number : Nat) : Parser Bool := do
  return (((← get).groups[number - 1]?).join).isSome

/-- Inside a look-behind only groups that were closed before it may be referred to. -/
def checkLookBehind (number : Nat) : Parser Unit := do
  match (← get).groupsBeforeLookBehind with
  | none => return ()
  | some before =>
    if !(← isClosed number) || before < number then invalid

def parseBackreference (number : Nat) : Parser Expr := do
  if number = 0 || !(← isClosed number) then invalid
  checkLookBehind number
  return .backreference number

/-- A backslash with a digit: three octal digits are a code, anything else names a group. -/
def parseDigitEscape (c : Char) : Parser Expr := do
  if c = '0' then
    return .literal (numberOf 8 (← takeUpTo isOctal 2))
  match ← takeUpTo Char.isDigit 1 with
  | [] => parseBackreference (numberOf 10 [c])
  | second =>
    if isOctal c && second.all isOctal then
      match ← takeUpTo isOctal 1 with
      | [] => parseBackreference (numberOf 10 (c :: second))
      | third =>
        let code := numberOf 8 (c :: second ++ third)
        if 0o377 < code then invalid
        return .literal code
    else parseBackreference (numberOf 10 (c :: second))

/-! ### Items of a sequence -/

inductive ItemKind where
  | plain | anchor | repetition
deriving DecidableEq

structure Item where
  kind : ItemKind
  expr : Expr

def Item.ofExpr (expr : Expr) : Item := ⟨.plain, expr⟩

def sequenceOf (items : List Item) : Expr := .ofItems (items.reverse.map (·.expr))

def parseEscape (c : Char) : Parser Item := do
  match anchor? c, category? c, controlCode? c with
  | some place, _, _ => return ⟨.anchor, .anchor place⟩
  | none, some (category, negated), _ => return .ofExpr (.set false [.ofCategory category negated])
  | none, none, some code => return .ofExpr (.literal code)
  | none, none, none =>
    if c.isDigit then return .ofExpr (← parseDigitEscape c)
    return .ofExpr (.literal (← parseCodeEscape c))

def parseSetItem (token : Token) : Parser SetItem :=
  match token with
  | .plain c => return .single c.toNat
  | .escaped c => parseSetEscape c

/-- The items of a set up to its closing bracket; a bracket in first place is an item. -/
def parseSetItems : Nat → Bool → Parser (List SetItem)
  | 0, _ => invalid
  | fuel + 1, isFirst => do
    match ← next with
    | none => invalid
    | some token =>
      if token = .plain ']' && !isFirst then return []
      let low ← parseSetItem token
      if !(← accept '-') then return low :: (← parseSetItems fuel false)
      match ← next with
      | none => invalid
      | some (.plain ']') => return [low, .single '-'.toNat]
      | some token =>
        match low, ← parseSetItem token with
        | .single low, .single high =>
          if high < low then invalid
          return .range low high :: (← parseSetItems fuel false)
        | _, _ => invalid

def parseSet : Parser Expr := do
  let negated ← accept '^'
  let items ← parseSetItems ((← get).rest.length + 1) true
  match items.eraseDups with
  | [.single code] => return if negated then .notLiteral code else .literal code
  | items => return .set negated items

/-- The bounds that a quantifier gives; a brace that starts no quantifier gives none and stands for
itself. -/
def parseBounds (c : Char) : Parser (Option (Nat × Option Nat)) := do
  match c with
  | '?' => return some (0, some 1)
  | '*' => return some (0, none)
  | '+' => return some (1, none)
  | _ =>
    if (← peek) = some (.plain '}') then return none
    let saved := (← get).rest
    let least ← takeAll Char.isDigit
    let most ← if ← accept ',' then takeAll Char.isDigit else pure least
    if !(← accept '}') then
      moveTo saved
      return none
    let bound (digits : List Char) : Parser (Option Nat) := do
      if digits.isEmpty then return none
      if countLimit ≤ numberOf 10 digits then throw .hugeRepetition
      return some (numberOf 10 digits)
    let low := (← bound least).getD 0
    let high ← bound most
    if high.any (· < low) then invalid
    return some (low, high)

def parseGreed : Parser Greed := do
  if ← accept '?' then return .lazy
  if ← accept '+' then return .possessive
  return .greedy

def parseQuantifier (c : Char) (items : List Item) : Parser (List Item) := do
  match ← parseBounds c with
  | none => return .ofExpr (.literal c.toNat) :: items
  | some (least, most) =>
    match items with
    | ⟨.plain, body⟩ :: before =>
      modify fun s => { s with hasRepetition := true }
      return ⟨.repetition, .repetition (← parseGreed) least most body⟩ :: before
    | _ => invalid

/-! ### Groups -/

def openGroup (name : Option String) : Parser Nat := do
  let s ← get
  let number := s.groups.length + 1
  set { s with groups := s.groups ++ [none] }
  match name with
  | none => return number
  | some name =>
    if (s.names.lookup name).isSome then invalid
    modify fun s => { s with names := (name, number) :: s.names }
    return number

def closeGroup (number : Nat) (body : Expr) : Parser Unit :=
  modify fun s => { s with groups := s.groups.set (number - 1) (some (body.width s.groups)) }

def parseGroupName (close : Char) : Parser String := do
  let name ← takeName close
  if !Text.isIdentifier name then invalid
  return String.ofList name

def isFlag (c : Char) : Bool := "aiLmsxtu".toList.contains c
def isTypeFlag (c : Char) : Bool := c = 'a' || c = 'L' || c = 'u'

def flagOf : Option Token → Parser Char
  | some (.plain c) => if isFlag c then pure c else invalid
  | _ => invalid

/-- Flags that are turned on, from one of them to the character behind the last. -/
def parseFlagsOn : Nat → Char → List Char → Parser (List Char × Char)
  | 0, _, _ => invalid
  | fuel + 1, flag, before => do
    if flag = 'L' then invalid
    let flags := flag :: before
    if isTypeFlag flag && flags.any fun other => isTypeFlag other && other ≠ flag then invalid
    match ← next with
    | some (.plain c) =>
      if c = ')' || c = '-' || c = ':' then return (flags, c)
      parseFlagsOn fuel (← flagOf (some (.plain c))) flags
    | _ => invalid

def parseFlagsOff : Nat → Char → List Char → Parser (List Char)
  | 0, _, _ => invalid
  | fuel + 1, flag, before => do
    if isTypeFlag flag then invalid
    match ← next with
    | some (.plain ':') => return flag :: before
    | token => parseFlagsOff fuel (← flagOf token) (flag :: before)

/-- Flags at the start of a group: those for the whole pattern, or those of the group. -/
inductive FlagScope where
  | whole
  | local (on off : List Char)

def parseFlags (first : Char) : Parser FlagScope := do
  let fuel := (← get).rest.length + 1
  let (on, close) ← if first = '-' then pure ([], '-') else parseFlagsOn fuel first []
  if close = ')' then
    modify fun s => { s with flags := on ++ s.flags }
    return .whole
  if on.contains 't' then invalid
  let off ← if close = '-' then parseFlagsOff fuel (← flagOf (← next)) [] else pure []
  if off.contains 't' || on.any off.contains then invalid
  return .local on off

def changeOf (on off : List Char) : FlagChange :=
  let changed (flag : Char) : Option Bool :=
    if on.contains flag then some true else if off.contains flag then some false else none
  { ignoreCase := changed 'i'
    multiLine := changed 'm'
    dotAll := changed 's'
    ascii := if on.contains 'a' then some true else if on.contains 'u' then some false else none }

def parseCondition : Parser Nat := do
  let name ← takeName ')'
  let s ← get
  let number ←
    if Text.isIdentifier name then
      match s.names.lookup (String.ofList name) with
      | some number => pure number
      | none => invalid
    else
      match groupNumber? name with
      | some number =>
        if number = 0 then invalid
        modify fun s => { s with conditions := number :: s.conditions }
        pure number
      | none => invalid
  checkLookBehind number
  return number

inductive GroupResult where
  /-- An item of the sequence. -/
  | item (expr : Expr)
  /-- A comment. -/
  | nothing
  /-- Flags for the whole pattern. -/
  | flags

def skipComment : Nat → Parser Unit
  | 0 => invalid
  | fuel + 1 => do
    match ← next with
    | none => invalid
    | some token => if token = .plain ')' then return () else skipComment fuel

def skipLine : Nat → Parser Unit
  | 0 => return ()
  | fuel + 1 => do
    match ← next with
    | none => return ()
    | some token => if token = .plain '\n' then return () else skipLine fuel

def isVerboseBlank (c : Char) : Bool :=
  c = ' ' || c = '\t' || c = '\n' || c = '\r' || c = '\x0b' || c = '\x0c'

mutual

/-- Alternatives up to the end of the pattern or of the group. In verbose mode white space and
comments do not count. -/
def parseChoice : Nat → (isOutermost verbose : Bool) → Parser Expr
  | 0, _, _ => invalid
  | fuel + 1, isOutermost, verbose => do
    let first ← parseSequence fuel isOutermost verbose []
    return .firstOf (first :: (← parseAlternatives fuel isOutermost verbose))

def parseAlternatives : Nat → (isOutermost verbose : Bool) → Parser (List Expr)
  | 0, _, _ => invalid
  | fuel + 1, isOutermost, verbose => do
    if !(← accept '|') then return []
    let flags := (← get).flags
    let verbose := if isOutermost then flags.contains 'x' else verbose
    let next ← parseSequence fuel false verbose []
    return next :: (← parseAlternatives fuel isOutermost verbose)

/-- The items of a sequence; those read so far are in reverse order. Flags for the whole pattern are
allowed only before the first item of the first sequence. -/
def parseSequence : Nat → (isFirst verbose : Bool) → List Item → Parser Expr
  | 0, _, _, _ => invalid
  | fuel + 1, isFirst, verbose, items => do
    match ← peek with
    | none | some (.plain '|') | some (.plain ')') => return sequenceOf items
    | some (.escaped c) =>
      advance
      parseSequence fuel isFirst verbose ((← parseEscape c) :: items)
    | some (.plain c) =>
      advance
      if verbose && isVerboseBlank c then parseSequence fuel isFirst verbose items
      else if verbose && c = '#' then
        skipLine ((← get).rest.length + 1)
        parseSequence fuel isFirst verbose items
      else match c with
        | '[' => parseSequence fuel isFirst verbose (.ofExpr (← parseSet) :: items)
        | '.' => parseSequence fuel isFirst verbose (.ofExpr .any :: items)
        | '^' => parseSequence fuel isFirst verbose (⟨.anchor, .anchor .start⟩ :: items)
        | '$' => parseSequence fuel isFirst verbose (⟨.anchor, .anchor .finish⟩ :: items)
        | '(' =>
          match ← parseGroup fuel verbose with
          | .item expr => parseSequence fuel isFirst verbose (.ofExpr expr :: items)
          | .nothing => parseSequence fuel isFirst verbose items
          | .flags =>
            if !isFirst || !items.isEmpty then invalid
            parseSequence fuel isFirst ((← get).flags.contains 'x') items
        | '*' | '+' | '?' | '\x7b' =>
          parseSequence fuel isFirst verbose (← parseQuantifier c items)
        | _ => parseSequence fuel isFirst verbose (.ofExpr (.literal c.toNat) :: items)

def parseGroup : Nat → (verbose : Bool) → Parser GroupResult
  | 0, _ => invalid
  | fuel + 1, verbose => do
    if !(← accept '?') then parseCapture fuel verbose none
    else match ← next with
      | some (.plain ':') => return .item (← parseBody fuel verbose)
      | some (.plain '>') => return .item (.atomic (← parseBody fuel verbose))
      | some (.plain '#') =>
        skipComment ((← get).rest.length + 1)
        return .nothing
      | some (.plain '=') => return .item (.lookAhead false (← parseBody fuel verbose))
      | some (.plain '!') => return .item (.lookAhead true (← parseBody fuel verbose))
      | some (.plain '<') =>
        match ← next with
        | some (.plain '=') => parseLookBehind fuel verbose false
        | some (.plain '!') => parseLookBehind fuel verbose true
        | _ => invalid
      | some (.plain 'P') =>
        match ← next with
        | some (.plain '<') => parseCapture fuel verbose (some (← parseGroupName '>'))
        | some (.plain '=') =>
          match (← get).names.lookup (← parseGroupName ')') with
          | some number => return .item (← parseBackreference number)
          | none => invalid
        | _ => invalid
      | some (.plain '(') =>
        let number ← parseCondition
        let present ← parseSequence fuel false verbose []
        let absent ← if ← accept '|' then parseSequence fuel false verbose [] else pure .empty
        expect ')'
        return .item (.conditional number present absent)
      | some (.plain c) =>
        if c ≠ '-' && !isFlag c then invalid
        match ← parseFlags c with
        | .whole => return .flags
        | .local on off =>
          let verbose := (verbose || on.contains 'x') && !off.contains 'x'
          return .item (.scoped (changeOf on off) (← parseBody fuel verbose))
      | _ => invalid

def parseBody : Nat → (verbose : Bool) → Parser Expr
  | 0, _ => invalid
  | fuel + 1, verbose => do
    let body ← parseChoice fuel false verbose
    expect ')'
    return body

def parseCapture : Nat → (verbose : Bool) → Option String → Parser GroupResult
  | 0, _, _ => invalid
  | fuel + 1, verbose, name => do
    let number ← openGroup name
    let body ← parseBody fuel verbose
    closeGroup number body
    return .item (.group number body)

/-- A look-behind has to have one width, below the limit; this is complained about after everything
else. -/
def parseLookBehind : Nat → (verbose negated : Bool) → Parser GroupResult
  | 0, _, _ => invalid
  | fuel + 1, verbose, negated => do
    let outer := (← get).groupsBeforeLookBehind
    modify fun s => { s with groupsBeforeLookBehind := some (outer.getD s.groups.length) }
    let body ← parseChoice fuel false verbose
    modify fun s => { s with groupsBeforeLookBehind := outer }
    expect ')'
    let width := body.width (← get).groups
    if width.least ≠ width.most then modify fun s => { s with hasUnfixedLookBehind := true }
    if lookBehindLimit ≤ width.least then modify fun s => { s with hasHugeLookBehind := true }
    return .item (.lookBehind negated width.least body)

end

/-- A whole pattern. What concerns the pattern as a whole is checked after it was read. -/
def parseWhole : Parser (Expr × Flags) := do
  let text := (← get).rest
  moveTo text
  let expr ← parseChoice (4 * text.length + 8) true false
  let s ← get
  if s.flags.contains 'a' && s.flags.contains 'u' then throw .conflictingFlags
  if !s.rest.isEmpty then invalid
  if s.conditions.any (s.groups.length < ·) then invalid
  if s.hasUnfixedLookBehind || (s.flags.contains 't' && s.hasRepetition) then invalid
  if s.hasHugeLookBehind then throw .hugeLookBehind
  let flags : Flags := {
    ignoreCase := s.flags.contains 'i'
    multiLine := s.flags.contains 'm'
    dotAll := s.flags.contains 's'
    ascii := s.flags.contains 'a' }
  return (expr, flags)

end JsonSchema.Pattern
