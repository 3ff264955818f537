/-!
# Regular expressions

The expressions that a pattern is read into, the flags that change what they accept, and the number
of characters that an expression can match. Characters are given by their code points, since a
pattern can name code points that no text contains.
-/

namespace JsonSchema.Pattern

/-- The flags that matter for matching. Without `ascii` the classes of characters and the cases of
letters are those of Unicode. -/
structure Flags where
  ignoreCase : Bool := false
  multiLine : Bool := false
  dotAll : Bool := false
  ascii : Bool := false
deriving DecidableEq

/-- What a group with flags of its own changes; what is not mentioned stays. -/
structure FlagChange where
  ignoreCase : Option Bool := none
  multiLine : Option Bool := none
  dotAll : Option Bool := none
  ascii : Option Bool := none
deriving DecidableEq

def FlagChange.apply (change : FlagChange) (flags : Flags) : Flags where
  ignoreCase := change.ignoreCase.getD flags.ignoreCase
  multiLine := change.multiLine.getD flags.multiLine
  dotAll := change.dotAll.getD flags.dotAll
  ascii := change.ascii.getD flags.ascii

inductive Category where
  | digit | space | word
deriving DecidableEq

inductive SetItem where
  | single (code : Nat)
  | range (low high : Nat)
  | ofCategory (category : Category) (negated : Bool)
deriving DecidableEq

inductive Anchor where
  /-- The start of the text, or of a line if there are several. -/
  | start
  /-- The end of the text or before its last line feed, or the end of a line if there are several. -/
  | finish
  | startOfText
  | endOfText
  | wordBoundary
  | noWordBoundary
deriving DecidableEq

/-- Which repetitions are tried first, and whether the others are tried at all. -/
inductive Greed where
  | greedy | lazy | possessive
deriving DecidableEq

inductive Expr where
  | empty
  | literal (code : Nat)
  | notLiteral (code : Nat)
  | any
  | set (negated : Bool) (items : List SetItem)
  | anchor (place : Anchor)
  | sequence (first rest : Expr)
  | choice (first second : Expr)
  | repetition (greed : Greed) (least : Nat) (most : Option Nat) (body : Expr)
  | group (number : Nat) (body : Expr)
  | scoped (change : FlagChange) (body : Expr)
  | atomic (body : Expr)
  | lookAhead (negated : Bool) (body : Expr)
  | lookBehind (negated : Bool) (width : Nat) (body : Expr)
  | backreference (number : Nat)
  | conditional (number : Nat) (present absent : Expr)

structure Width where
  least : Nat
  most : Nat
deriving DecidableEq

namespace Width

/-- Stands for every larger number of characters. -/
def limit : Nat := 0xffffffff

/-- The least number stops short of the limit, so that a width beyond it is never taken for a single
number of characters. -/
def capped (width : Width) : Width := ⟨min width.least (limit - 1), min width.most limit⟩

def zero : Width := ⟨0, 0⟩
def one : Width := ⟨1, 1⟩

def add (a b : Width) : Width := capped ⟨a.least + b.least, a.most + b.most⟩
def either (a b : Width) : Width := ⟨min a.least b.least, max a.most b.most⟩

def times (width : Width) (least : Nat) (most : Option Nat) : Width :=
  capped {
    least := width.least * least
    most := match most with
      | some count => width.most * count
      | none => if width.most = 0 then 0 else limit }

end Width

namespace Expr

/-! ### Alternatives -/

def items : Expr → List Expr
  | .empty => []
  | .sequence first rest => first.items ++ rest.items
  | e => [e]

def ofItems (items : List Expr) : Expr := items.foldr .sequence .empty

/-- Whether two items are the same single character, set, position or reference. Items that have
others inside them are told apart. -/
def sameItem : Expr → Expr → Bool
  | .literal a, .literal b | .notLiteral a, .notLiteral b => a = b
  | .any, .any => true
  | .set negated as, .set negated' bs => negated = negated' && as = bs
  | .anchor a, .anchor b => a = b
  | .backreference a, .backreference b => a = b
  | _, _ => false

/-- The items that a sequence and all of some others start with, and what is left of each. -/
def splitShared : List Expr → List (List Expr) → List Expr × List (List Expr)
  | e :: first, others =>
    if others.all (·.head?.any e.sameItem) then
      let (shared, rests) := splitShared first (others.map List.tail)
      (e :: shared, rests)
    else ([], (e :: first) :: others)
  | [], others => ([], [] :: others)

/-- The members of a set that says the same as alternatives of one character each. -/
def setItems? : List (List Expr) → Option (List SetItem)
  | [] => some []
  | [.literal code] :: rest => (setItems? rest).map (.single code :: ·)
  | [.set false items] :: rest => (setItems? rest).map (items ++ ·)
  | _ => none

/-- The first of some alternatives that leads to a match. What all of them start with is matched
once, in front of the choice, and a choice between single characters is a set. -/
def firstOf : List Expr → Expr
  | [] => .empty
  | [e] => e
  | first :: others =>
    let (shared, rests) := splitShared first.items (others.map items)
    let choice :=
      match setItems? rests with
      | some members => .set false members.eraseDups
      | none => (rests.dropLast.map ofItems).foldr .choice (ofItems (rests.getLast?.getD []))
    ofItems (shared ++ [choice])

def isSingle : Expr → Bool
  | .literal _ | .notLiteral _ | .any | .set .. => true
  | .scoped _ body => body.isSingle
  | .sequence first rest =>
    (first.isSingle && rest.items.isEmpty) || (first.items.isEmpty && rest.isSingle)
  | _ => false

/-! ### Widths -/

def width (groups : List (Option Width)) : Expr → Width
  | .empty | .anchor _ | .lookAhead .. | .lookBehind .. => .zero
  | .literal _ | .notLiteral _ | .any | .set .. => .one
  | .sequence first rest => (first.width groups).add (rest.width groups)
  | .choice first second => (first.width groups).either (second.width groups)
  | .repetition _ least most body => (body.width groups).times least most
  | .group _ body | .scoped _ body | .atomic body => body.width groups
  | .backreference number => ((groups[number - 1]?).join).getD .zero
  | .conditional _ present absent => (present.width groups).either (absent.width groups)

end Expr

end JsonSchema.Pattern
