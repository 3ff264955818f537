import JsonSchema.Schema.Reference
import Mathlib.Tactic.Common

/-!
# References in related roots

Two roots are walked along references in step if their definitions are related name by name and
related schemas are references to the same. Then a chain ends in both or in neither, and its ends
are related (`resolveReference_related`).
-/

namespace JsonSchema

inductive Reference.Outcome.Related (related : Schema → Schema → Prop) : Outcome → Outcome → Prop where
  | found {target target' : Schema} (h : related target target') :
      Related related (.found target) (.found target')
  | dangling : Related related .dangling .dangling
  | unfinished : Related related .unfinished .unfinished

namespace Schema

open Reference (Outcome)

variable {related : Schema → Schema → Prop} {root root' : Schema}

theorem chase_related (hroot : related root root')
    (hlookup : ∀ name, Option.Rel related (root.definitions.lookup name)
      (root'.definitions.lookup name))
    (href : ∀ schema schema', related schema schema' → schema'.ref? = schema.ref?) (fuel : Nat)
    (seen : List String) (ref : String) :
    Outcome.Related related (root.chase fuel seen ref) (root'.chase fuel seen ref) := by
  induction fuel generalizing seen ref with
  | zero => exact .unfinished
  | succ fuel ih =>
    rw [chase, chase]
    split_ifs
    · exact .dangling
    · exact .found hroot
    · cases Reference.definitionName? ref with
      | none => exact .dangling
      | some name =>
        have hname := hlookup name
        dsimp only
        generalize root.definitions.lookup name = found at hname ⊢
        generalize root'.definitions.lookup name = found' at hname ⊢
        cases hname with
        | none => exact .dangling
        | @some target target' hrelated =>
          dsimp only
          rw [href target target' hrelated]
          cases target.ref? with
          | none => exact .found hrelated
          | some next => exact ih (ref :: seen) next

/-- Related roots resolve a reference to related schemas, or neither resolves it. -/
theorem resolveReference_related (hroot : related root root')
    (hlength : root'.definitions.length = root.definitions.length)
    (hlookup : ∀ name, Option.Rel related (root.definitions.lookup name)
      (root'.definitions.lookup name))
    (href : ∀ schema schema', related schema schema' → schema'.ref? = schema.ref?)
    (ref : String) :
    Option.Rel related (root.resolveReference ref) (root'.resolveReference ref) := by
  have hends := chase_related hroot hlookup href (root.definitions.length + 2) [] ref
  rw [resolveReference, resolveReference, hlength]
  generalize root.chase (root.definitions.length + 2) [] ref = reached at hends ⊢
  generalize root'.chase (root.definitions.length + 2) [] ref = reached' at hends ⊢
  cases hends with
  | found h => exact .some h
  | dangling => exact .none
  | unfinished => exact .none

end Schema

end JsonSchema
