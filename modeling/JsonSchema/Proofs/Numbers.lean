import JsonSchema.Value
import Mathlib.Tactic.Common

/-!
# The numbers in a value

`Value.AllNumbers p` says that `p` holds of every number in a value, at any depth.
-/

namespace JsonSchema.Value

variable {p q : Number → Prop}

inductive AllNumbers (p : Number → Prop) : Value → Prop where
  | null : AllNumbers p .null
  | bool (b : Bool) : AllNumbers p (.bool b)
  | number {n : Number} (h : p n) : AllNumbers p (.number n)
  | string (text : String) : AllNumbers p (.string text)
  | array {items : List Value} (h : ∀ item ∈ items, AllNumbers p item) : AllNumbers p (.array items)
  | object {members : List (String × Value)} (h : ∀ member ∈ members, AllNumbers p member.2) :
      AllNumbers p (.object members)

@[simp] theorem allNumbers_null : AllNumbers p .null := .null

@[simp] theorem allNumbers_bool (b : Bool) : AllNumbers p (.bool b) := .bool b

@[simp] theorem allNumbers_string (text : String) : AllNumbers p (.string text) := .string text

@[simp] theorem allNumbers_number_iff {n : Number} : AllNumbers p (.number n) ↔ p n := by
  refine ⟨fun h => ?_, .number⟩
  cases h
  assumption

@[simp] theorem allNumbers_array_iff {items : List Value} :
    AllNumbers p (.array items) ↔ ∀ item ∈ items, AllNumbers p item := by
  refine ⟨fun h => ?_, .array⟩
  cases h
  assumption

@[simp] theorem allNumbers_object_iff {members : List (String × Value)} :
    AllNumbers p (.object members) ↔ ∀ member ∈ members, AllNumbers p member.2 := by
  refine ⟨fun h => ?_, .object⟩
  cases h
  assumption

end JsonSchema.Value
