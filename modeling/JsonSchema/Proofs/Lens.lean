import JsonSchema.Editing
import JsonSchema.Proofs.Outcomes
import Mathlib.Tactic.Common

/-!
# Reading and writing at one place

`setBelow_cons_eq_ok_iff` says what one step of a write does: it takes the container that is there
or a new one, writes below the part that the segment names, and puts the result back. The laws of a
lens follow by induction on the segments. The second of two writes finds the containers that the first
one left, also where the first one had to create them.
-/

namespace JsonSchema

/-! ### Items -/

theorem getElem?_setItem {items : List Value} {index : Nat} (h : index ≤ items.length)
    (item : Value) : (setItem items index item)[index]? = some item := by
  unfold setItem
  split_ifs with hlt
  · simp [hlt]
  · have hend : index = items.length := by omega
    simp [hend]

theorem le_length_setItem {items : List Value} {index : Nat} (h : index ≤ items.length)
    (item : Value) : index ≤ (setItem items index item).length := by
  unfold setItem
  split_ifs with hlt
  · simpa using h
  · simp only [List.length_append]
    omega

theorem setItem_setItem {items : List Value} {index : Nat} (h : index ≤ items.length)
    (first second : Value) :
    setItem (setItem items index first) index second = setItem items index second := by
  by_cases hlt : index < items.length
  · simp [setItem, hlt]
  · have hend : index = items.length := by omega
    simp [setItem, hend]

theorem setItem_of_getElem? {items : List Value} {index : Nat} {item : Value}
    (h : items[index]? = some item) : setItem items index item = items := by
  obtain ⟨hlt, hitem⟩ := List.getElem?_eq_some_iff.mp h
  rw [setItem, if_pos hlt, ← hitem, List.set_getElem_self]

/-! ### Parts -/

theorem Value.child?_object (segment : String) (members : List (String × Value)) :
    (Value.object members).child? segment = members.lookup segment := rfl

theorem Value.child?_array {segment : String} {index : Nat}
    (h : Pointer.index? segment = some index) (items : List Value) :
    (Value.array items).child? segment = items[index]? := by
  simp [child?, h]

theorem Value.at?_cons (value : Value) (segment : String) (rest : List String) :
    value.at? (segment :: rest) = (value.child? segment).bind (·.at? rest) := rfl

namespace Schema

/-- The schema that is reached along segments if references are only followed to look up members. -/
def along (root schema : Schema) (segments : List String) : Schema :=
  segments.foldl (fun schema segment => root.property segment schema) schema

variable {root : Schema}

/-! ### One step of a write -/

theorem setBelow_cons_array {new : Value} {schema : Schema} {current : Option Value}
    {segment : String} {rest : List String} {items : List Value} {index : Nat}
    (hcontainer : Container.ofValue root schema current = .array items)
    (hindex : Pointer.index? segment = some index) (hle : index ≤ items.length) :
    setBelow root new schema current (segment :: rest) =
      ((setBelow root new (root.property segment schema) items[index]? rest).mapError
        (·.within segment)).map fun item => .array (setItem items index item) := by
  have hlt : ¬ items.length < index := by omega
  simp only [setBelow, hcontainer, hindex, if_neg hlt]

theorem setBelow_cons_object {new : Value} {schema : Schema} {current : Option Value}
    {segment : String} {rest : List String} {members : List (String × Value)}
    (hcontainer : Container.ofValue root schema current = .object members) :
    setBelow root new schema current (segment :: rest) =
      ((setBelow root new (root.property segment schema) (members.lookup segment) rest).mapError
        (·.within segment)).map fun value => .object (Members.insert segment value members) := by
  simp only [setBelow, hcontainer]

/-- A write below a segment succeeds in two ways: in an array at an index up to its length, and in
an object. -/
theorem setBelow_cons_eq_ok_iff {new result : Value} {schema : Schema} {current : Option Value}
    {segment : String} {rest : List String} :
    setBelow root new schema current (segment :: rest) = .ok result ↔
      (∃ items index item, Container.ofValue root schema current = .array items ∧
        Pointer.index? segment = some index ∧ index ≤ items.length ∧
        setBelow root new (root.property segment schema) items[index]? rest = .ok item ∧
        result = .array (setItem items index item)) ∨
      ∃ members value, Container.ofValue root schema current = .object members ∧
        setBelow root new (root.property segment schema) (members.lookup segment) rest = .ok value ∧
        result = .object (Members.insert segment value members) := by
  constructor
  · intro h
    cases hcontainer : Container.ofValue root schema current with
    | object members =>
      rw [setBelow_cons_object hcontainer] at h
      obtain ⟨value, hvalue, hresult⟩ := Except.map_eq_ok_iff.mp h
      exact .inr ⟨members, value, rfl, Except.mapError_eq_ok_iff.mp hvalue, hresult.symm⟩
    | array items =>
      cases hindex : Pointer.index? segment with
      | none =>
        simp only [setBelow, hcontainer, hindex] at h
        cases h
      | some index =>
        by_cases hle : index ≤ items.length
        · rw [setBelow_cons_array hcontainer hindex hle] at h
          obtain ⟨item, hitem, hresult⟩ := Except.map_eq_ok_iff.mp h
          exact .inl ⟨items, index, item, rfl, rfl, hle, Except.mapError_eq_ok_iff.mp hitem,
            hresult.symm⟩
        · have hlt : items.length < index := by omega
          simp only [setBelow, hcontainer, hindex, if_pos hlt] at h
          cases h
  · rintro (⟨items, index, item, hcontainer, hindex, hle, hitem, rfl⟩ |
      ⟨members, value, hcontainer, hvalue, rfl⟩)
    · rw [setBelow_cons_array hcontainer hindex hle, hitem]
      rfl
    · rw [setBelow_cons_object hcontainer, hvalue]
      rfl

/-! ### The laws below a part -/

theorem at?_of_setBelow {new result : Value} {schema : Schema} {current : Option Value}
    {segments : List String} (h : setBelow root new schema current segments = .ok result) :
    result.at? segments = some new := by
  induction segments generalizing schema current result with
  | nil =>
    cases h
    rfl
  | cons segment rest ih =>
    rw [Value.at?_cons]
    rcases setBelow_cons_eq_ok_iff.mp h with ⟨items, index, item, -, hindex, hle, hitem, rfl⟩ |
      ⟨members, value, -, hvalue, rfl⟩
    · rw [Value.child?_array hindex, getElem?_setItem hle]
      exact ih hitem
    · rw [Value.child?_object, Members.lookup_insert_self]
      exact ih hvalue

/-- Writing what is there already gives the same value back. -/
theorem setBelow_of_at? {value new : Value} {schema : Schema} {segments : List String}
    (h : value.at? segments = some new) :
    setBelow root new schema (some value) segments = .ok value := by
  induction segments generalizing schema value with
  | nil =>
    cases h
    rfl
  | cons segment rest ih =>
    rw [Value.at?_cons] at h
    obtain ⟨child, hchild, hnew⟩ := Option.bind_eq_some_iff.mp h
    apply setBelow_cons_eq_ok_iff.mpr
    cases value with
    | array items =>
      obtain ⟨index, hindex, hitem⟩ := Option.bind_eq_some_iff.mp hchild
      obtain ⟨hlt, -⟩ := List.getElem?_eq_some_iff.mp hitem
      refine .inl ⟨items, index, child, rfl, hindex, Nat.le_of_lt hlt, ?_, ?_⟩
      · rw [hitem]
        exact ih hnew
      · rw [setItem_of_getElem? hitem]
    | object members =>
      refine .inr ⟨members, child, rfl, ?_, ?_⟩
      · rw [show members.lookup segment = some child from hchild]
        exact ih hnew
      · rw [Members.insert_of_lookup hchild]
    | null => cases hchild
    | bool b => cases hchild
    | number n => cases hchild
    | string text => cases hchild

/-- A second write at the same place succeeds, and covers the first one without a trace. -/
theorem setBelow_setBelow {first new : Value} {schema : Schema} {current : Option Value}
    {segments : List String} (h : setBelow root new schema current segments = .ok first)
    (other : Value) :
    ∃ second, setBelow root other schema (some first) segments = .ok second ∧
      setBelow root other schema current segments = .ok second := by
  induction segments generalizing schema current first with
  | nil => exact ⟨other, rfl, rfl⟩
  | cons segment rest ih =>
    rcases setBelow_cons_eq_ok_iff.mp h with
      ⟨items, index, item, hcontainer, hindex, hle, hitem, rfl⟩ |
      ⟨members, value, hcontainer, hvalue, rfl⟩
    · obtain ⟨second, hagain, hfresh⟩ := ih hitem
      refine ⟨.array (setItem items index second), ?_, ?_⟩
      · refine setBelow_cons_eq_ok_iff.mpr (.inl ⟨_, index, second, rfl, hindex,
          le_length_setItem hle item, ?_, ?_⟩)
        · rw [getElem?_setItem hle]
          exact hagain
        · rw [setItem_setItem hle]
      · exact setBelow_cons_eq_ok_iff.mpr
          (.inl ⟨items, index, second, hcontainer, hindex, hle, hfresh, rfl⟩)
    · obtain ⟨second, hagain, hfresh⟩ := ih hvalue
      refine ⟨.object (Members.insert segment second members), ?_, ?_⟩
      · refine setBelow_cons_eq_ok_iff.mpr (.inr ⟨_, second, rfl, ?_, ?_⟩)
        · rw [Members.lookup_insert_self]
          exact hagain
        · rw [Members.insert_insert]
      · exact setBelow_cons_eq_ok_iff.mpr (.inr ⟨members, second, hcontainer, hfresh, rfl⟩)

/-! ### The laws at a pointer -/

theorem setAt_of_parse {pointer : String} {segments : List String}
    (h : Pointer.parse pointer = .ok segments) (schema : Schema) (new : Value)
    (current : Option Value) :
    setAt schema pointer new current = setBelow schema new schema current segments := by
  simp only [setAt, h]

/-- Reading and writing at a pointer are a lens: what is written is read, writing what is read
changes nothing, and of two writes the second counts. Success does not depend on what is written. -/
theorem setAt_lens {pointer : String} {segments : List String}
    (h : Pointer.parse pointer = .ok segments) (schema : Schema) (current : Option Value)
    (v w : Value) :
    (∀ result, setAt schema pointer v current = .ok result → result.at? segments = some v) ∧
    (∀ value x, current = some value → value.at? segments = some x →
      setAt schema pointer x current = .ok value) ∧
    (∀ first, setAt schema pointer v current = .ok first →
      ∃ second, setAt schema pointer w (some first) = .ok second ∧
        setAt schema pointer w current = .ok second) ∧
    ((∃ result, setAt schema pointer v current = .ok result) ↔
      ∃ result, setAt schema pointer w current = .ok result) := by
  simp only [setAt_of_parse h]
  refine ⟨fun result => at?_of_setBelow, ?_, fun first hfirst => setBelow_setBelow hfirst w, ?_, ?_⟩
  · rintro value x rfl hx
    exact setBelow_of_at? hx
  · rintro ⟨first, hfirst⟩
    obtain ⟨second, -, hsecond⟩ := setBelow_setBelow hfirst w
    exact ⟨second, hsecond⟩
  · rintro ⟨first, hfirst⟩
    obtain ⟨second, -, hsecond⟩ := setBelow_setBelow hfirst v
    exact ⟨second, hsecond⟩

def table : Schema := .node {
  properties := some [("rows", .node {
    type := .single .array
    items := .uniform (.node { properties := some [("name", .always true)] }) })] }

/-- Writing into nothing creates the array of rows and the row. -/
theorem setAt_table_lens :
    Pointer.parse "#/rows/0/name" = .ok ["rows", "0", "name"] ∧
      ∃ first, setAt table "#/rows/0/name" (.bool true) none = .ok first ∧
        first.at? ["rows", "0", "name"] = some (.bool true) ∧
        setAt table "#/rows/0/name" (.bool true) (some first) = .ok first := by
  have hparse : Pointer.parse "#/rows/0/name" = .ok ["rows", "0", "name"] := by rfl
  have hset : setAt table "#/rows/0/name" (.bool true) none =
      .ok (.object [("rows", .array [.object [("name", .bool true)]])]) := by
    rw [setAt_of_parse hparse]
    refine setBelow_cons_eq_ok_iff.mpr (.inr ⟨[], .array [.object _], rfl, ?_, rfl⟩)
    refine setBelow_cons_eq_ok_iff.mpr
      (.inl ⟨[], 0, .object _, rfl, rfl, Nat.le_refl 0, ?_, rfl⟩)
    exact setBelow_cons_eq_ok_iff.mpr (.inr ⟨[], .bool true, rfl, rfl, rfl⟩)
  have hread := (setAt_lens hparse table none (.bool true) .null).1 _ hset
  have hagain := (setAt_lens hparse table _ .null .null).2.1 _ _ rfl hread
  exact ⟨hparse, _, hset, hread, hagain⟩

end Schema

end JsonSchema
