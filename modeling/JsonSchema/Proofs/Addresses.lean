import JsonSchema.Proofs.Frame
import JsonSchema.Proofs.Indices

/-!
# The segments that name an item

An item of an array has two segments that name it, the numeral of its index and the numeral with a
line feed (`Pointer.Respelled`). All other segments name other items or none, and what stands there is
not changed by a write to the item.
-/

namespace JsonSchema

namespace Pointer

/-- Two segments are the two spellings of one index. -/
def Respelled (first second : String) : Prop :=
  ∃ index, first = ofIndex index ∧ second = ofIndex index ++ "\n" ∨
    first = ofIndex index ++ "\n" ∧ second = ofIndex index

theorem Respelled.index?_eq {first second : String} (h : Respelled first second) :
    index? first = index? second := by
  obtain ⟨index, ⟨rfl, rfl⟩ | ⟨rfl, rfl⟩⟩ := h
  · rw [index?_ofIndex, index?_eq_some_iff.mpr (.inr rfl)]
  · rw [index?_ofIndex, index?_eq_some_iff.mpr (.inr rfl)]

theorem respelled_of_index? {first second : String} {index : Nat} (hne : first ≠ second)
    (hfirst : index? first = some index) (hsecond : index? second = some index) :
    Respelled first second := by
  rcases index?_eq_some_iff.mp hfirst with rfl | rfl <;>
    rcases index?_eq_some_iff.mp hsecond with rfl | rfl
  · exact absurd rfl hne
  · exact ⟨index, .inl ⟨rfl, rfl⟩⟩
  · exact ⟨index, .inr ⟨rfl, rfl⟩⟩
  · exact absurd rfl hne

/-- Different segments name the same index exactly if they are its two spellings. -/
theorem index_eq_iff_respelled {first second : String} {i j : Nat} (hne : first ≠ second)
    (hfirst : index? first = some i) (hsecond : index? second = some j) :
    i = j ↔ Respelled first second := by
  constructor
  · rintro rfl
    exact respelled_of_index? hne hfirst hsecond
  · intro h
    have heq := h.index?_eq
    rw [hfirst, hsecond] at heq
    exact Option.some.inj heq

end Pointer

open Pointer (Respelled)

namespace Value

variable {root : Value} {shared : List String} {items : List Value} {segment other : String}

theorem at?_concat (root : Value) (shared : List String) (segment : String) :
    root.at? (shared ++ [segment]) = (root.at? shared).bind (·.child? segment) := by
  rw [at?_append]
  refine congrArg _ (funext fun part => ?_)
  rw [at?_cons]
  cases part.child? segment <;> rfl

theorem at?_concat_of_array (hitems : root.at? shared = some (.array items)) (segment : String) :
    root.at? (shared ++ [segment]) = (Pointer.index? segment).bind (items[·]?) := by
  rw [at?_concat, hitems]
  rfl

end Value

namespace Schema

variable {root result new : Value} {shared : List String} {items : List Value}
  {schema inner : Schema} {segment other : String}

/-- A write of an item leaves an array behind, in which the segment of the item is an index. -/
theorem exists_array_of_setBelow_concat (hitems : root.at? shared = some (.array items))
    (h : setBelow schema new inner (some root) (shared ++ [segment]) = .ok result) :
    ∃ after index, result.at? shared = some (.array after) ∧
      Pointer.index? segment = some index := by
  obtain ⟨_, part, hpart, hstep⟩ := exists_setBelow_of_append h
  rw [Option.bind_some, hitems] at hstep
  obtain ⟨after, index, rfl, hindex, -⟩ := exists_array_of_setBelow_cons hstep
  exact ⟨after, index, hpart, hindex⟩

theorem at?_of_setBelow_of_not_respelled (hitems : root.at? shared = some (.array items))
    (h : setBelow schema new inner (some root) (shared ++ [segment]) = .ok result)
    (hne : segment ≠ other) (hother : ¬ Respelled segment other) :
    result.at? (shared ++ [other]) = root.at? (shared ++ [other]) := by
  obtain ⟨after, index, hafter, hindex⟩ := exists_array_of_setBelow_concat hitems h
  have hseparates : (Value.array after).Separates segment other := by
    intro heq
    exact hother (Pointer.respelled_of_index? hne hindex (heq ▸ hindex))
  exact at?_of_setBelow_of_diverge h
    ⟨shared, segment, [], other, [], _, rfl, rfl, hafter, hseparates⟩

theorem at?_of_setBelow_of_respelled (hitems : root.at? shared = some (.array items))
    (h : setBelow schema new inner (some root) (shared ++ [segment]) = .ok result)
    (hother : Respelled segment other) : result.at? (shared ++ [other]) = some new := by
  obtain ⟨after, index, hafter, -⟩ := exists_array_of_setBelow_concat hitems h
  rw [Value.at?_concat_of_array hafter, ← hother.index?_eq, ← Value.at?_concat_of_array hafter]
  exact at?_of_setBelow h

/-- In an array, different segments that name an index name different items, unless they are the two
spellings of it; and a write at the one is not seen at the other, again with this exception. -/
theorem array_addresses (hitems : root.at? shared = some (.array items)) :
    (∀ segment index, Pointer.index? segment = some index ↔
      segment = Pointer.ofIndex index ∨ segment = Pointer.ofIndex index ++ "\n") ∧
    (∀ segment, root.at? (shared ++ [segment]) = (Pointer.index? segment).bind (items[·]?)) ∧
    (∀ first second i j, first ≠ second → Pointer.index? first = some i →
      Pointer.index? second = some j → (i = j ↔ Respelled first second)) ∧
    ∀ schema pointer first second new result,
      Pointer.parse pointer = .ok (shared ++ [first]) →
      setAt schema pointer new (some root) = .ok result → first ≠ second →
      (¬ Respelled first second →
        result.at? (shared ++ [second]) = root.at? (shared ++ [second])) ∧
      (Respelled first second → result.at? (shared ++ [second]) = some new) := by
  refine ⟨fun segment index => Pointer.index?_eq_some_iff, Value.at?_concat_of_array hitems,
    fun first second i j => Pointer.index_eq_iff_respelled, ?_⟩
  intro schema pointer first second new result hparse hset hne
  rw [setAt_of_parse hparse] at hset
  exact ⟨at?_of_setBelow_of_not_respelled hitems hset hne,
    at?_of_setBelow_of_respelled hitems hset⟩

def twoNumbers : Value := .object [("rows", .array [.int 1, .int 2])]

/-- A write to the first number is seen at the other spelling of its index and not at the second
number. -/
theorem array_addresses_twoNumbers :
    twoNumbers.at? ["rows"] = some (.array [.int 1, .int 2]) ∧
      Pointer.parse "#/rows/0" = .ok ["rows", "0"] ∧
      ¬ Respelled "0" "1" ∧ Respelled "0" "0\n" ∧
      ∃ result, setAt (.always true) "#/rows/0" (.int 5) (some twoNumbers) = .ok result ∧
        result.at? ["rows", "1"] = some (.int 2) ∧
        result.at? ["rows", "0\n"] = some (.int 5) := by
  have hitems : twoNumbers.at? ["rows"] = some (.array [.int 1, .int 2]) := by rfl
  obtain ⟨-, hread, hpositions, hwrite⟩ := array_addresses hitems
  have hparse : Pointer.parse "#/rows/0" = .ok ["rows", "0"] := by rfl
  have hset : setAt (.always true) "#/rows/0" (.int 5) (some twoNumbers) =
      .ok (.object [("rows", .array [.int 5, .int 2])]) := by rfl
  have hother : ¬ Respelled "0" "1" := fun h =>
    absurd ((hpositions "0" "1" 0 1 (by decide) (by decide) (by decide)).mpr h) (by decide)
  have hsame : Respelled "0" "0\n" :=
    (hpositions "0" "0\n" 0 0 (by decide) (by decide) (by decide)).mp rfl
  refine ⟨hitems, hparse, hother, hsame, _, hset, ?_, ?_⟩
  · exact ((hwrite _ _ "0" "1" _ _ hparse hset (by decide)).1 hother).trans (hread "1")
  · exact (hwrite _ _ "0" "0\n" _ _ hparse hset (by decide)).2 hsame

/-- Two spellings of the index of the one item: neither reading nor writing tells them apart. -/
theorem array_respelled :
    Pointer.index? "0\n" = some 0 ∧ (∀ index, "0\n" ≠ Pointer.ofIndex index) ∧
      (Value.array [.int 7]).at? ["0"] = some (.int 7) ∧
      (Value.array [.int 7]).at? ["0\n"] = some (.int 7) ∧
      ∃ result, setAt (.always true) "#/0\n" (.int 8) (some (.array [.int 7])) = .ok result ∧
        result.at? ["0"] = some (.int 8) := by
  have hindex : Pointer.index? "0\n" = some 0 := by decide
  refine ⟨hindex, ?_, by rfl, by rfl, .array [.int 8], by rfl, by rfl⟩
  intro index heq
  have hnamed := Pointer.index?_ofIndex index
  rw [← heq, hindex] at hnamed
  obtain rfl := Option.some.inj hnamed
  exact absurd heq (by decide)

end Schema

end JsonSchema
