import JsonSchema.Pattern.Matcher
import JsonSchema.Pattern.Parser

/-!
# Patterns

`Pattern.parse` reads a pattern and `Pattern.search` asks whether some part of a text matches it.
-/

namespace JsonSchema

structure Pattern where
  expr : Pattern.Expr
  flags : Pattern.Flags

namespace Pattern

def parse (text : String) : Except Defect Pattern :=
  match parseWhole.run { rest := text.toList } with
  | .ok ((expr, flags), _) => .ok ⟨expr, flags⟩
  | .error defect => .error defect

def matchesAt (pattern : Pattern) (text : Array Char) (position : Nat) : Bool :=
  (pattern.expr.run text pattern.flags false { position } .ok).isOk

def search (pattern : Pattern) (text : String) : Bool :=
  let chars := text.toList.toArray
  (List.range (chars.size + 1)).any (pattern.matchesAt chars)

end Pattern

end JsonSchema
