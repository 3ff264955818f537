import JsonSchema.Proofs.Meaning

/-!
# Finite values

A value is finite if all numbers in it are, the integers of any size among them.
-/

namespace JsonSchema

/-- Integers of any size, and the doubles that are neither infinite nor NaN. -/
def Number.isFinite : Number → Bool
  | .int _ => true
  | .float (.finite _ _ _) => true
  | .float _ => false

@[simp] theorem Number.isFinite_int (n : Int) : (int n).isFinite = true := rfl

namespace Value

inductive Finite : Value → Prop where
  | mk {value : Value} (number : ∀ number, value = .number number → number.isFinite)
      (parts : ∀ part ∈ value.parts, Finite part) : Finite value

@[simp] theorem finite_null : Finite .null := .mk (fun _ h => nomatch h) nofun

@[simp] theorem finite_bool (b : Bool) : Finite (.bool b) := .mk (fun _ h => nomatch h) nofun

@[simp] theorem finite_string (text : String) : Finite (.string text) :=
  .mk (by simp) (by simp [parts])

@[simp] theorem finite_number_iff {number : Number} : Finite (.number number) ↔ number.isFinite := by
  refine ⟨fun ⟨hnumber, _⟩ => hnumber number rfl, fun h => .mk (fun other hother => ?_) nofun⟩
  cases hother
  exact h

@[simp] theorem finite_array_iff {items : List Value} :
    Finite (.array items) ↔ ∀ item ∈ items, item.Finite :=
  ⟨fun ⟨_, hparts⟩ => hparts, fun h => .mk (fun _ h => nomatch h) h⟩

@[simp] theorem finite_object_iff {members : List (String × Value)} :
    Finite (.object members) ↔ ∀ member ∈ members, member.2.Finite := by
  constructor
  · rintro ⟨-, hparts⟩ member hmem
    exact hparts _ (List.mem_append_left _ (List.mem_map_of_mem hmem))
  · refine fun h => .mk (fun _ h => nomatch h) fun part hpart => ?_
    rcases List.mem_append.mp hpart with hvalue | hname
    · obtain ⟨member, hmem, rfl⟩ := List.mem_map.mp hvalue
      exact h member hmem
    · obtain ⟨member, -, rfl⟩ := List.mem_map.mp hname
      exact finite_string member.1

end Value

end JsonSchema
