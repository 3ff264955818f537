import JsonSchema.Json.Reader
import JsonSchema.Platform
import JsonSchema.Text.Quoted
import JsonSchema.Yaml.Scalar

/-!
# Reading YAML

A reader for the part of YAML that documents and settings are mostly written in: block mappings and
sequences, flow collections, plain and quoted scalars, and comments. A block collection consists of the entries that start in one column. A
failure remembers how many characters were left at its place, as in the reading of JSON.
-/

namespace JsonSchema.Yaml

/-- A problem and its place, and the construct it was met in with the place of its start; places are
numbers of characters left. -/
structure Failure where
  problem : String
  left : Nat
  context : Option (String × Nat) := none

structure Cursor where
  rest : List Char
  column : Nat := 0

abbrev Reader := StateT Cursor (Except Failure)

/-! ### Characters -/

def peek : Reader (Option Char) := return (← get).rest.head?

def peekSecond : Reader (Option Char) := return (← get).rest[1]?

def charsLeft : Reader Nat := return (← get).rest.length

def advance : Reader Unit :=
  modify fun cursor =>
    match cursor.rest with
    | [] => cursor
    | '\n' :: rest => { rest, column := 0 }
    | _ :: rest => { rest, column := cursor.column + 1 }

def fail {α : Type} (problem : String) (context : Option (String × Nat) := none) : Reader α := do
  throw { problem, left := ← charsLeft, context }

def isBlankOrEnd : Option Char → Bool
  | none => true
  | some c => c = ' ' || c = '\t' || c = '\n'

def isFlowIndicator (c : Char) : Bool :=
  c = ',' || c = '[' || c = ']' || c = '\x7b' || c = '\x7d'

def skipWhile (condition : Char → Bool) : Nat → Reader Unit
  | 0 => return ()
  | fuel + 1 => do
    if (← peek).any condition then
      advance
      skipWhile condition fuel

def skipSpaces : Reader Unit := do skipWhile (· = ' ') (← charsLeft)

/-- Passes over spaces, comments and line ends; tells whether there was a line end. -/
def skipToToken : Nat → Bool → Reader Bool
  | 0, crossed => return crossed
  | fuel + 1, crossed => do
    skipSpaces
    if (← peek) = some '#' then skipWhile (· ≠ '\n') (← charsLeft)
    if (← peek) = some '\n' then
      advance
      skipToToken fuel true
    else return crossed

def nextToken : Reader Bool := do skipToToken ((← charsLeft) + 1) false

def tokenName : Reader String := do
  match ← peek with
  | none => return "<stream end>"
  | some c =>
    return if isFlowIndicator c || c = ':' || c = '?' then String.singleton c else "<scalar>"

/-! ### Scalars -/

def continuesPlain (inFlow : Bool) : Reader Bool := do
  match ← peek with
  | none => return false
  | some c =>
    if isBlankOrEnd (some c) then return false
    if inFlow && isFlowIndicator c then return false
    if c = ':' then
      let next ← peekSecond
      return !(isBlankOrEnd next || (inFlow && next.any isFlowIndicator))
    return true

def readChunk (inFlow : Bool) : Nat → Reader (List Char)
  | 0 => return []
  | fuel + 1 => do
    if !(← continuesPlain inFlow) then return []
    let c ← peek
    advance
    return c.toList ++ (← readChunk inFlow fuel)

def countLineEnds : Nat → Reader Nat
  | 0 => return 0
  | fuel + 1 => do
    skipSpaces
    if (← peek) = some '\n' then
      advance
      return (← countLineEnds fuel) + 1
    return 0

/-- What line ends inside a scalar stand for: one is a space, each further one a line feed. -/
def foldedLineEnds (count : Nat) : List Char :=
  if count = 1 then [' '] else List.replicate (count - 1) '\n'

/-- The rest of a plain scalar, whose further lines start in the column `least` or behind it. -/
def readPlainRest (inFlow : Bool) (least : Nat) : Nat → Reader (List Char)
  | 0 => return []
  | fuel + 1 => do
    let saved ← get
    skipSpaces
    let blanks := List.replicate ((← get).column - saved.column) ' '
    let lineEnds ← countLineEnds (← charsLeft)
    let separator := if lineEnds = 0 then blanks else foldedLineEnds lineEnds
    let isComment := (← peek) = some '#'
    let isOutside := !inFlow && 0 < lineEnds && (← get).column < least
    if separator.isEmpty || isComment || isOutside || !(← continuesPlain inFlow) then
      set saved
      return []
    let chunk ← readChunk inFlow (← charsLeft)
    return separator ++ chunk ++ (← readPlainRest inFlow least fuel)

def startsPlain (inFlow : Bool) : Reader Bool := do
  match ← peek with
  | none => return false
  | some c =>
    let next ← peekSecond
    if c = '-' then return !isBlankOrEnd next
    if c = '?' || c = ':' then return !inFlow && !isBlankOrEnd next
    return !(isFlowIndicator c || "#&*!|>'\"%@`\t".toList.contains c)

def readPlain (inFlow : Bool) (least : Nat) : Reader Scalar := do
  if !(← startsPlain inFlow) then
    if (← peek).any isFlowIndicator then
      fail ("expected the node content, but found '" ++ (← tokenName) ++ "'")
        (some ("while parsing a block node", ← charsLeft))
    let shown := Text.quoted (String.ofList (← peek).toList)
    fail ("found character " ++ shown ++ " that cannot start any token")
      (some ("while scanning for the next token", ← charsLeft))
  let chunk ← readChunk inFlow (← charsLeft)
  let rest ← readPlainRest inFlow least (← charsLeft)
  return plainScalar (chunk ++ rest)

def quotedContext (start : Nat) : Option (String × Nat) :=
  some ("while scanning a quoted scalar", start)

def doubleQuotedContext (start : Nat) : Option (String × Nat) :=
  some ("while scanning a double-quoted scalar", start)

/-- Blanks inside quotes; around line ends they do not count. -/
def readQuotedBlanks : Reader (List Char) := do
  let before ← get
  skipWhile (fun c => c = ' ' || c = '\t') (← charsLeft)
  let blanks := before.rest.take (before.rest.length - (← charsLeft))
  let lineEnds ← countLineEnds (← charsLeft)
  return if lineEnds = 0 then blanks else foldedLineEnds lineEnds

def readSingleQuoted (start : Nat) : Nat → Reader (List Char)
  | 0 => fail "found unexpected end of stream" (quotedContext start)
  | fuel + 1 => do
    match ← peek with
    | none => fail "found unexpected end of stream" (quotedContext start)
    | some '\'' =>
      advance
      if (← peek) = some '\'' then
        advance
        return '\'' :: (← readSingleQuoted start fuel)
      return []
    | some c =>
      if isBlankOrEnd (some c) then
        let blanks ← readQuotedBlanks
        return blanks ++ (← readSingleQuoted start fuel)
      advance
      return c :: (← readSingleQuoted start fuel)

def escapedChar? : Char → Option Char
  | '0' => some '\x00'
  | 'a' => some '\x07'
  | 'b' => some '\x08'
  | 't' => some '\t'
  | '\t' => some '\t'
  | 'n' => some '\n'
  | 'v' => some '\x0b'
  | 'f' => some '\x0c'
  | 'r' => some '\r'
  | 'e' => some '\x1b'
  | ' ' => some ' '
  | '"' => some '"'
  | '/' => some '/'
  | '\\' => some '\\'
  | 'N' => some '\u0085'
  | '_' => some '\u00a0'
  | 'L' => some '\u2028'
  | 'P' => some '\u2029'
  | _ => none

def readHexChar (start count : Nat) : Reader Char := do
  let digits := (← get).rest.take count
  match numeral? 16 digits with
  | some code =>
    if digits.length = count && !digits.contains '_' then
      for _ in digits do advance
      return Json.charOfCode code
    fail "expected hexadecimal digits" (doubleQuotedContext start)
  | none => fail "expected hexadecimal digits" (doubleQuotedContext start)

def readDoubleQuoted (start : Nat) : Nat → Reader (List Char)
  | 0 => fail "found unexpected end of stream" (quotedContext start)
  | fuel + 1 => do
    match ← peek with
    | none => fail "found unexpected end of stream" (quotedContext start)
    | some '"' =>
      advance
      return []
    | some '\\' =>
      advance
      match ← peek with
      | some '\n' =>
        let lineEnds ← countLineEnds (← charsLeft)
        return List.replicate (lineEnds - 1) '\n' ++ (← readDoubleQuoted start fuel)
      | some 'x' =>
        advance
        return (← readHexChar start 2) :: (← readDoubleQuoted start fuel)
      | some 'u' =>
        advance
        return (← readHexChar start 4) :: (← readDoubleQuoted start fuel)
      | some 'U' =>
        advance
        return (← readHexChar start 8) :: (← readDoubleQuoted start fuel)
      | letter =>
        match letter.bind escapedChar? with
        | some c =>
          advance
          return c :: (← readDoubleQuoted start fuel)
        | none =>
          fail "found unknown escape character" (doubleQuotedContext start)
    | some c =>
      if isBlankOrEnd (some c) then
        let blanks ← readQuotedBlanks
        return blanks ++ (← readDoubleQuoted start fuel)
      advance
      return c :: (← readDoubleQuoted start fuel)

def readQuoted (quote : Char) : Reader Scalar := do
  let start ← charsLeft
  advance
  let text ←
    if quote = '"' then readDoubleQuoted start (start + 1) else readSingleQuoted start (start + 1)
  return .text (String.ofList text)

/-! ### Flow collections -/

/-- The mapping of members. Of those with one name the last counts, at the first position. -/
def ofMembers (members : List (Scalar × Yaml)) : Yaml :=
  .mapping ((Members.ofPairs (members.map fun member => (member.1.toName, member))).map Prod.snd)

def nameOfTree (tree : Yaml) (place mapping : Nat) : Reader Scalar := do
  match tree with
  | .scalar content => return content
  | _ =>
    throw {
      problem := "found unhashable key", left := place
      context := some ("while constructing a mapping", mapping) }

mutual

def readFlow : Nat → Reader Yaml
  | 0 => fail "expected the node content"
  | fuel + 1 => do
    let start ← charsLeft
    match ← peek with
    | some '[' =>
      advance
      return .sequence (← readFlowItems fuel (some ("while parsing a flow sequence", start)))
    | some '\x7b' =>
      advance
      return ofMembers (← readFlowMembers fuel (some ("while parsing a flow mapping", start)))
    | some '"' => return .scalar (← readQuoted '"')
    | some '\'' => return .scalar (← readQuoted '\'')
    | some c =>
      if isFlowIndicator c || c = ':' || c = '?' then
        fail ("expected the node content, but found '" ++ (← tokenName) ++ "'")
          (some ("while parsing a flow node", start))
      return .scalar (← readPlain true 0)
    | none =>
      fail "expected the node content, but found '<stream end>'"
        (some ("while parsing a flow node", start))

/-- One value inside a flow collection, and whether a colon follows that makes it a name. A name
stands on one line with its colon. -/
def readFlowName : Nat → Reader (Yaml × Bool)
  | 0 => fail "expected the node content"
  | fuel + 1 => do
    let before := (← get).rest
    let tree ← readFlow fuel
    let _ ← nextToken
    let read := before.take (before.length - (← charsLeft))
    return (tree, (← peek) = some ':' && !read.contains '\n')

/-- What follows a colon inside a flow collection; nothing stands for null. -/
def readFlowValue : Nat → Reader Yaml
  | 0 => fail "expected the node content"
  | fuel + 1 => do
    advance
    let _ ← nextToken
    match ← peek with
    | some ',' | some ']' | some '\x7d' => return .scalar .null
    | _ => readFlow fuel

def readFlowItems : Nat → Option (String × Nat) → Reader (List Yaml)
  | 0, context => fail "expected ',' or ']'" context
  | fuel + 1, context => do
    let _ ← nextToken
    if (← peek) = some ']' then
      advance
      return []
    let place ← charsLeft
    let (tree, isName) ← readFlowName fuel
    let item ← if isName then
        pure (ofMembers [(← nameOfTree tree place place, ← readFlowValue fuel)])
      else pure tree
    let _ ← nextToken
    match ← peek with
    | some ',' =>
      advance
      return item :: (← readFlowItems fuel context)
    | some ']' =>
      advance
      return [item]
    | _ => fail ("expected ',' or ']', but got '" ++ (← tokenName) ++ "'") context

def readFlowMembers : Nat → Option (String × Nat) → Reader (List (Scalar × Yaml))
  | 0, context => fail "expected ',' or '\x7d'" context
  | fuel + 1, context => do
    let _ ← nextToken
    if (← peek) = some '\x7d' then
      advance
      return []
    let place ← charsLeft
    let (tree, isName) ← readFlowName fuel
    let name ← nameOfTree tree place ((context.map Prod.snd).getD place)
    let value ← if isName then readFlowValue fuel else pure (.scalar .null)
    let _ ← nextToken
    match ← peek with
    | some ',' =>
      advance
      return (name, value) :: (← readFlowMembers fuel context)
    | some '\x7d' =>
      advance
      return [(name, value)]
    | _ => fail ("expected ',' or '\x7d', but got '" ++ (← tokenName) ++ "'") context

end

/-! ### Block collections -/

/-- A value that is no block collection. Further lines of a plain scalar start in the column `least`
or behind it. -/
def readInline (least : Nat) : Reader Yaml := do
  let start ← charsLeft
  match ← peek with
  | some '[' | some '\x7b' => readFlow (3 * start + 3)
  | some '"' => return .scalar (← readQuoted '"')
  | some '\'' => return .scalar (← readQuoted '\'')
  | _ => return .scalar (← readPlain false least)

def atSequenceEntry : Reader Bool := do
  return (← peek) = some '-' && isBlankOrEnd (← peekSecond)

def atColon : Reader Bool := do
  return (← peek) = some ':' && isBlankOrEnd (← peekSecond)

def readName (mapping : Nat) : Reader Scalar := do
  let saved ← get
  let tree ← readInline (saved.column + 1)
  let read := saved.rest.take (saved.rest.length - (← charsLeft))
  skipSpaces
  if !(← atColon) || read.contains '\n' then
    let _ ← nextToken
    fail "could not find expected ':'" (some ("while scanning a simple key", saved.rest.length))
  let name ← nameOfTree tree saved.rest.length mapping
  advance
  return name

def atName (least : Nat) : Reader Bool := do
  let saved ← get
  let _ ← readInline least
  let read := saved.rest.take (saved.rest.length - (← charsLeft))
  skipSpaces
  let named ← atColon
  if named && read.contains '\n' then fail "mapping values are not allowed here"
  set saved
  return named

def failBeyond {α : Type} (context : Option (String × Nat)) : Reader α := do
  let found ←
    if ← atSequenceEntry then pure "<block sequence start>"
    else if ← atName 0 then pure "<block mapping start>"
    else tokenName
  fail ("expected <block end>, but found '" ++ found ++ "'") context

mutual

/-- A value in the column of the cursor; outside of the columns from `least` on there is none, which
stands for null. Behind something else on its line a value cannot be a block collection. -/
def readBlock : Nat → (least : Nat) → (isFirstOnLine : Bool) → Reader Yaml
  | 0, _, _ => fail "expected the node content"
  | fuel + 1, least, isFirstOnLine => do
    let column := (← get).column
    if (← peek).isNone || column < least then return .scalar .null
    let start ← charsLeft
    if ← atSequenceEntry then
      if !isFirstOnLine then fail "sequence entries are not allowed here"
      let context := some ("while parsing a block collection", start)
      let items ← readEntries fuel column context
      if (← peek).isSome && (← get).column = column then
        fail "expected <block end>, but found '?'" context
      return .sequence items
    if ← atName least then
      if !isFirstOnLine then
        let _ ← readInline least
        skipSpaces
        fail "mapping values are not allowed here"
      return ofMembers (← readMembers fuel column (some ("while parsing a block mapping", start)))
    readInline least

def readEntries : Nat → (column : Nat) → Option (String × Nat) → Reader (List Yaml)
  | 0, _, context => fail "expected <block end>" context
  | fuel + 1, column, context => do
    advance
    skipSpaces
    let _ ← nextToken
    let item ← readBlock fuel (column + 1) true
    let _ ← nextToken
    let here := (← get).column
    if (← peek).isNone || here < column then return [item]
    if here = column then
      if ← atSequenceEntry then return item :: (← readEntries fuel column context)
      return [item]
    failBeyond context

def readMembers : Nat → (column : Nat) → Option (String × Nat) → Reader (List (Scalar × Yaml))
  | 0, _, context => fail "expected <block end>" context
  | fuel + 1, column, context => do
    let name ← readName ((context.map Prod.snd).getD 0)
    let crossed ← nextToken
    let isEntry := crossed && (← get).column = column && (← atSequenceEntry)
    let value ←
      if isEntry then
        let start ← charsLeft
        pure (.sequence
          (← readEntries fuel column (some ("while parsing a block collection", start))))
      else readBlock fuel (column + 1) crossed
    let _ ← nextToken
    let here := (← get).column
    if (← peek).isNone || here < column then return [(name, value)]
    if here = column then
      if ← atSequenceEntry then fail "expected <block end>, but found '-'" context
      return (name, value) :: (← readMembers fuel column context)
    failBeyond context

end

def skipDocumentStart : Reader Unit := do
  match (← get).rest with
  | '-' :: '-' :: '-' :: rest =>
    if isBlankOrEnd rest.head? then
      advance
      advance
      advance
      let _ ← nextToken
  | _ => return ()

def readDocument : Reader Yaml := do
  let _ ← nextToken
  skipDocumentStart
  let tree ← readBlock (4 * (← charsLeft) + 4) 0 true
  let _ ← nextToken
  if (← peek).isSome then
    fail ("expected '<document start>', but found '" ++ (← tokenName) ++ "'")
  return tree

/-! ### Errors with their places -/

structure Mark where
  text : List Char
  offset : Nat

namespace Mark

def isLineEnd (c : Char) : Bool :=
  c = '\n' || c = '\r' || c = '\x00' || c = '\u0085' || c = '\u2028' || c = '\u2029'

def sideLength : Nat := 37

/-- The line with a caret under the place. A long line is cut on either side. -/
def snippet (mark : Mark) : String :=
  let before := ((mark.text.take mark.offset).reverse.takeWhile (!isLineEnd ·)).reverse
  let after := (mark.text.drop mark.offset).takeWhile (!isLineEnd ·)
  let head := if sideLength ≤ before.length then " ... " else ""
  let shownBefore :=
    if sideLength ≤ before.length then before.drop (before.length - (sideLength - 5)) else before
  let tail := if sideLength ≤ after.length then " ... " else ""
  let shownAfter := if sideLength ≤ after.length then after.take (sideLength - 5) else after
  "    " ++ head ++ String.ofList (shownBefore ++ shownAfter) ++ tail ++ "\n" ++
    String.ofList (List.replicate (4 + shownBefore.length + head.length) ' ') ++ "^"

def display (mark : Mark) : String :=
  let before := mark.text.take mark.offset
  let line := before.count '\n' + 1
  let column := (before.reverse.takeWhile (· ≠ '\n')).length + 1
  "  in \"<unicode string>\", line " ++ toString line ++ ", column " ++ toString column ++ ":\n" ++
    mark.snippet

end Mark

inductive ReadError where
  | malformed (problem : String) (mark : Mark) (context : Option (String × Mark))
  | unprintable (c : Char) (offset : Nat)

def ReadError.message : ReadError → String
  | .malformed problem mark context =>
    let problem := problem ++ "\n" ++ mark.display
    match context with
    | some (context, start) =>
      if start.offset = mark.offset then context ++ "\n" ++ problem
      else context ++ "\n" ++ start.display ++ "\n" ++ problem
    | none => problem
  | .unprintable c offset =>
    "unacceptable character #x" ++ String.ofList (Text.hex 4 c.toNat) ++
      ": special characters are not allowed\n  in \"<unicode string>\", position " ++
      toString offset

def Failure.locate (text : List Char) (failure : Failure) : ReadError :=
  let markAt (left : Nat) : Mark := ⟨text, text.length - left⟩
  .malformed failure.problem (markAt failure.left)
    (failure.context.map fun (context, left) => (context, markAt left))

def isPrintable (c : Char) : Bool :=
  c = '\t' || c = '\n' || c = '\r' || (' ' ≤ c && c ≤ '~') || c = '\u0085' ||
    ('\u00a0' ≤ c && c ≤ '\ufffd') || '\uffff' < c

/-- The tree of a text; a text without content is null. -/
def read (text : String) : Except ReadError Yaml :=
  match text.toList.findIdx? (!isPrintable ·) with
  | some offset => .error (.unprintable (text.toList.getD offset ' ') offset)
  | none =>
    let chars := match text.toList with
      | '\ufeff' :: rest => rest
      | chars => chars
    match readDocument.run { rest := chars } with
    | .ok (tree, _) => .ok tree
    | .error failure => .error (failure.locate chars)

/-- Commands are run with this reader, where the encoding of the locale is UTF-8. -/
instance : Platform where
  readYaml text := (read text).mapError fun cause => { message := cause.message }
  inLocale text := text

end JsonSchema.Yaml
