import JsonSchema.Pattern.Syntax
import JsonSchema.Text.Case
import JsonSchema.Text.Letters

/-!
# Matching

A matcher takes what is to follow as a continuation and tries its choices in order, so the first way
to a full match wins. A repetition that has its least count makes another turn only from a position
at which it has not just made one; its fuel is therefore bounded by the characters that are left.

A group writes a mark where it is entered and one where it is left. An attempt that fails hands back
its marks, since a choice outside of all loops takes back only those that are new.
-/

namespace JsonSchema.Pattern

/-! ### Single characters -/

def isAsciiWord (code : Nat) : Bool :=
  (48 ≤ code && code ≤ 57) || (65 ≤ code && code ≤ 90) || code = 95 || (97 ≤ code && code ≤ 122)

def Category.contains (category : Category) (ascii : Bool) (code : Nat) : Bool :=
  match category, ascii with
  | .digit, true => 48 ≤ code && code ≤ 57
  | .digit, false => Text.digits.contains code
  | .space, true => (9 ≤ code && code ≤ 13) || code = 32
  | .space, false => Text.spaces.contains code
  | .word, true => isAsciiWord code
  | .word, false => Text.wordCharacters.contains code

def isSupplementary (code : Nat) : Bool := 0x10000 ≤ code

namespace Flags

def lower (flags : Flags) (code : Nat) : Nat :=
  if flags.ascii then Text.lowerAscii code else Text.lower code

def isCased (flags : Flags) (code : Nat) : Bool :=
  if flags.ascii then Text.lowerAscii code ≠ code || (97 ≤ code && code ≤ 122)
  else Text.cased.contains code

/-- Whether some code point from `low` to `high` has another case; beyond the first plane this is
taken for granted. -/
def someCased (flags : Flags) (low high : Nat) : Bool :=
  isSupplementary high ||
    if flags.ascii then (low ≤ 90 && 65 ≤ high) || (low ≤ 122 && 97 ≤ high)
    else Text.cased.meets low high

def variants (flags : Flags) (code : Nat) : List Nat :=
  if flags.ascii then
    let form := Text.lowerAscii code
    if 97 ≤ form && form ≤ 122 then [form, form - 32] else [code]
  else Text.caseVariants code

/-- Whether a character counts as the one that a pattern names. A character without another case
stands for itself only. -/
def agrees (flags : Flags) (named code : Nat) : Bool :=
  if flags.ignoreCase && flags.isCased named then (flags.variants named).contains code
  else named = code

end Flags

namespace SetItem

def someCased (flags : Flags) : SetItem → Bool
  | .single code => flags.someCased code code
  | .range low high => flags.someCased low high
  | .ofCategory .. => false

def contains (flags : Flags) (code : Nat) : SetItem → Bool
  | .single own => own = code
  | .range low high => low ≤ code && code ≤ high
  | .ofCategory category negated => category.contains flags.ascii code != negated

/-- Membership where a character stands for all that agree with it without regard to case. A single
member beyond the first plane has only the characters of which it is the lower-case form, so none if
it is in upper case; a range that reaches there has the characters whose capital it has. -/
def containsVariant (flags : Flags) (code : Nat) : SetItem → Bool
  | .single own =>
    if isSupplementary own then flags.lower code = own else (flags.variants code).contains own
  | .range low high =>
    let isBetween (c : Nat) : Bool := low ≤ c && c ≤ high
    (flags.variants code).any isBetween ||
      (isSupplementary high && isBetween (Text.capital (flags.lower code)))
  | .ofCategory category negated =>
    category.contains flags.ascii (flags.lower code) != negated

end SetItem

/-- Whether a set has a character. Case is disregarded only where some member has another case. -/
def setContains (flags : Flags) (items : List SetItem) (code : Nat) : Bool :=
  if flags.ignoreCase && items.any (·.someCased flags) then
    items.any (·.containsVariant flags code)
  else items.any (·.contains flags code)

/-! ### Marks and positions -/

/-- The positions at which groups were entered and left, two marks for each group in the order of
their numbers. -/
abbrev Marks := List (Option Nat)

namespace Marks

/-- Writes a mark; those before it that are missing are left blank. -/
def write : Nat → Nat → Marks → Marks
  | 0, position, marks => some position :: marks.tail
  | index + 1, position, marks => marks.head?.join :: write index position marks.tail

/-- The start and end of the part that a group matched. A group that was entered again behind its
last end has matched nothing until it is left. -/
def span? (marks : Marks) (number : Nat) : Option (Nat × Nat) := do
  let start ← (marks[2 * number - 2]?).join
  let stop ← (marks[2 * number - 1]?).join
  if start ≤ stop then some (start, stop) else none

/-- The marks after an attempt that failed, from those before it and those it left. In a loop all
are as before; elsewhere older marks keep what the attempt has written. -/
def restore (inLoop : Bool) (before left : Marks) : Marks :=
  if inLoop then before else left.take before.length

end Marks

structure Progress where
  position : Nat
  marks : Marks := []

/-- A full match, or the marks that a failed attempt has left. -/
abbrev Outcome := Except Marks Progress

namespace Progress

def advance (p : Progress) (count : Nat) : Progress := { p with position := p.position + count }

def enter (p : Progress) (number : Nat) : Progress :=
  { p with marks := p.marks.write (2 * number - 2) p.position }

def leave (p : Progress) (number : Nat) : Progress :=
  { p with marks := p.marks.write (2 * number - 1) p.position }

def fail (p : Progress) : Outcome := .error p.marks

def orElse (p : Progress) (inLoop : Bool) (outcome : Outcome) (next : Progress → Outcome) :
    Outcome :=
  match outcome with
  | .ok q => .ok q
  | .error left => next { p with marks := p.marks.restore inLoop left }

/-- The outcome of an attempt from here that takes back its marks if it fails. -/
def settle (p : Progress) (inLoop : Bool) (outcome : Outcome) : Outcome :=
  p.orElse inLoop outcome fail

end Progress

def isWordAt (flags : Flags) (text : Array Char) (position : Nat) : Bool :=
  match text[position]? with
  | some c => Category.word.contains flags.ascii c.toNat
  | none => false

def isBoundary (flags : Flags) (text : Array Char) (position : Nat) : Bool :=
  let before := 0 < position && isWordAt flags text (position - 1)
  before != isWordAt flags text position

/-- Whether an anchor holds at a position. An empty text has neither kind of word boundary. -/
def Anchor.holds (flags : Flags) (text : Array Char) (position : Nat) : Anchor → Bool
  | .start =>
    position = 0 || (flags.multiLine && text[position - 1]? = some '\n')
  | .finish =>
    position = text.size ||
      (text[position]? = some '\n' && (flags.multiLine || position + 1 = text.size))
  | .startOfText => position = 0
  | .endOfText => position = text.size
  | .wordBoundary => 0 < text.size && isBoundary flags text position
  | .noWordBoundary => 0 < text.size && !isBoundary flags text position

/-! ### Repetitions -/

abbrev Continuation := Progress → Outcome

/-- A matcher of something, which hands its progress on to what follows. -/
abbrev Matcher := Progress → Continuation → Outcome

/-- Whether another turn may be made after `count` turns, the last voluntary one of which began at
`last`. -/
def mayTurn (most : Option Nat) (count : Nat) (last : Option Nat) (p : Progress) : Bool :=
  most.all (count < ·) && last ≠ some p.position

def repeatGreedy (body : Matcher) (least : Nat) (most : Option Nat) (inLoop : Bool)
    (next : Continuation) : Nat → Nat → Option Nat → Progress → Outcome
  | 0, _, _, p => next p
  | fuel + 1, count, last, p =>
    if count < least then
      body p fun q => repeatGreedy body least most inLoop next fuel (count + 1) last q
    else if mayTurn most count last p then
      p.orElse inLoop
        (body p fun q =>
          repeatGreedy body least most inLoop next fuel (count + 1) (some p.position) q)
        next
    else next p

def repeatLazy (body : Matcher) (least : Nat) (most : Option Nat) (inLoop : Bool)
    (next : Continuation) : Nat → Nat → Option Nat → Progress → Outcome
  | 0, _, _, p => next p
  | fuel + 1, count, last, p =>
    if count < least then
      body p fun q => repeatLazy body least most inLoop next fuel (count + 1) last q
    else
      p.orElse inLoop (next p) fun p =>
        if mayTurn most count last p then
          body p fun q =>
            repeatLazy body least most inLoop next fuel (count + 1) (some p.position) q
        else p.fail

/-- As many turns as possible, none of which is ever taken back. -/
def repeatPossessive (body : Matcher) (least : Nat) (most : Option Nat) :
    Nat → Nat → Option Nat → Progress → Outcome
  | 0, _, _, p => .ok p
  | fuel + 1, count, last, p =>
    if count < least then
      (body p .ok).bind fun q => repeatPossessive body least most fuel (count + 1) last q
    else if mayTurn most count last p then
      match body p .ok with
      | .ok q => repeatPossessive body least most fuel (count + 1) (some p.position) q
      | .error _ => .ok p
    else .ok p

/-! ### Expressions -/

def matchOne (text : Array Char) (accepts : Nat → Bool) : Matcher := fun p next =>
  match text[p.position]? with
  | some c => if accepts c.toNat then next (p.advance 1) else p.fail
  | none => p.fail

/-- Whether the text at a position repeats the part from `start` on, of the given length. -/
def repeats (flags : Flags) (text : Array Char) (start length position : Nat) : Bool :=
  (List.range length).all fun offset =>
    match text[start + offset]?, text[position + offset]? with
    | some a, some b =>
      if flags.ignoreCase then flags.lower a.toNat = flags.lower b.toNat else a = b
    | _, _ => false

def lookAround (p : Progress) (negated inLoop : Bool) (found : Outcome) (next : Continuation) :
    Outcome :=
  match found, negated with
  | .ok q, false => next { q with position := p.position }
  | .ok q, true => q.fail
  | .error left, false => .error left
  | .error left, true => next { p with marks := p.marks.restore inLoop left }

/-- The matcher of an expression. A repetition of single characters is no loop of its own. -/
def Expr.run (text : Array Char) : Expr → Flags → (inLoop : Bool) → Matcher
  | .empty, _, _, p, next => next p
  | .literal code, flags, _, p, next => matchOne text (flags.agrees code) p next
  | .notLiteral code, flags, _, p, next => matchOne text (!flags.agrees code ·) p next
  | .any, flags, _, p, next => matchOne text (fun code => flags.dotAll || code ≠ 10) p next
  | .set negated items, flags, _, p, next =>
    matchOne text (fun code => setContains flags items code != negated) p next
  | .anchor place, flags, _, p, next => if place.holds flags text p.position then next p else p.fail
  | .sequence first rest, flags, inLoop, p, next =>
    first.run text flags inLoop p fun q => rest.run text flags inLoop q next
  | .choice first second, flags, inLoop, p, next =>
    p.settle inLoop <| p.orElse inLoop (first.run text flags inLoop p next) fun q =>
      second.run text flags inLoop q next
  | .repetition greed least most body, flags, inLoop, p, next =>
    let fuel := least + (text.size - p.position) + 3
    let turn := body.run text flags true
    match greed, body.isSingle with
    | .greedy, true => p.settle inLoop (repeatGreedy turn least most inLoop next fuel 0 none p)
    | .greedy, false => repeatGreedy turn least most true next fuel 0 none p
    | .lazy, true => p.settle inLoop (repeatLazy turn least most inLoop next fuel 0 none p)
    | .lazy, false => repeatLazy turn least most inLoop next fuel 0 none p
    | .possessive, _ => (repeatPossessive turn least most fuel 0 none p).bind next
  | .group number body, flags, inLoop, p, next =>
    body.run text flags inLoop (p.enter number) fun q => next (q.leave number)
  | .scoped change body, flags, inLoop, p, next => body.run text (change.apply flags) inLoop p next
  | .atomic body, flags, inLoop, p, next => (body.run text flags inLoop p .ok).bind next
  | .lookAhead negated body, flags, inLoop, p, next =>
    lookAround p negated inLoop (body.run text flags inLoop p .ok) next
  | .lookBehind negated width body, flags, inLoop, p, next =>
    let found :=
      if width ≤ p.position then
        body.run text flags inLoop { p with position := p.position - width } .ok
      else p.fail
    lookAround p negated inLoop found next
  | .backreference number, flags, _, p, next =>
    match p.marks.span? number with
    | some (start, stop) =>
      if repeats flags text start (stop - start) p.position then next (p.advance (stop - start))
      else p.fail
    | none => p.fail
  | .conditional number present absent, flags, inLoop, p, next =>
    if (p.marks.span? number).isSome then present.run text flags inLoop p next
    else absent.run text flags inLoop p next

end JsonSchema.Pattern
