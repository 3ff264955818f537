import JsonSchema.Pointer
import JsonSchema.Schema.Basic

/-!
# References

A reference is `#`, which names the root, or `#/definitions/` and the written form of a name, which
names a definition of the root. A definition that is itself a reference leads on to the next one;
`chase` follows such a chain and gives up when it comes to a reference a second time. The fuel that
`resolveReference` hands out is never used up, because all references after the first are those of
definitions.
-/

namespace JsonSchema

namespace Reference

inductive Outcome where
  | found (target : Schema)
  | dangling
  | unfinished

def definitionsStart : List Char := "#/definitions/".toList

def definitionName? (ref : String) : Option String :=
  (definitionsStart.isPrefixOf? ref.toList).map fun written =>
    String.ofList (Pointer.unescapeChars written)

end Reference

namespace Schema

open Reference (Outcome)

def definitions : Schema → List (String × Schema)
  | .node n => n.definitions.getD []
  | .always _ => []

/-- The reference that a schema consists of. -/
def ref? : Schema → Option String
  | .node n => n.ref
  | .always _ => none

/-- Follows a chain of references; `seen` holds those that were followed before. -/
def chase (root : Schema) : Nat → List String → String → Outcome
  | 0, _, _ => .unfinished
  | fuel + 1, seen, ref =>
    if seen.contains ref then .dangling
    else if ref = "#" then .found root
    else match Reference.definitionName? ref with
      | none => .dangling
      | some name =>
        match root.definitions.lookup name with
        | none => .dangling
        | some target =>
          match target.ref? with
          | some next => chase root fuel (ref :: seen) next
          | none => .found target

def resolveReference (root : Schema) (ref : String) : Option Schema :=
  match root.chase (root.definitions.length + 2) [] ref with
  | .found target => some target
  | _ => none

/-- A schema that is a reference is replaced by what it leads to, if it leads somewhere. -/
def resolve (root schema : Schema) : Schema :=
  match schema.ref? with
  | some ref => (root.resolveReference ref).getD schema
  | none => schema

end Schema

end JsonSchema
