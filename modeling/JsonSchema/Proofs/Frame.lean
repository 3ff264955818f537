import JsonSchema.Proofs.Lens

/-!
# What a write leaves alone

A write changes the containers on the way to its place and nothing beside them. Below a shared part
of its way a write is again a write (`exists_setBelow_along`), so it is enough to see what a
single step does. A container that has to be created stands for a value without parts; nothing
becomes reachable through it but the place of the write.
-/

namespace JsonSchema

/-! ### Members and items that are not written -/

theorem getElem?_setItem_of_ne {items : List Value} {index other : Nat}
    (h : index ≤ items.length) (hne : other ≠ index) (item : Value) :
    (setItem items index item)[other]? = items[other]? := by
  unfold setItem
  split_ifs with hlt
  · exact List.getElem?_set_ne (Ne.symm hne)
  · have hend : index = items.length := by omega
    by_cases hother : other < items.length
    · exact List.getElem?_append_left hother
    · have hbeyond : (items ++ [item]).length ≤ other := by
        rw [List.length_append, List.length_singleton]
        omega
      rw [List.getElem?_eq_none hbeyond, List.getElem?_eq_none (by omega)]

theorem length_setItem {items : List Value} {index : Nat} (h : index ≤ items.length)
    (item : Value) : (setItem items index item).length = max items.length (index + 1) := by
  unfold setItem
  split_ifs with hlt
  · rw [List.length_set]
    omega
  · rw [List.length_append, List.length_singleton]
    omega

namespace Value

theorem at?_append (value : Value) (shared rest : List String) :
    value.at? (shared ++ rest) = (value.at? shared).bind (·.at? rest) := by
  induction shared generalizing value with
  | nil => rfl
  | cons segment shared ih =>
    rw [List.cons_append, at?_cons, at?_cons]
    cases value.child? segment with
    | none => rfl
    | some child => exact ih child

/-- Two segments name different parts of a container: different names of an object, and of an array
different indices, or an index and no index. -/
def Separates (first second : String) : Value → Prop
  | .object _ => first ≠ second
  | .array _ => Pointer.index? first ≠ Pointer.index? second
  | _ => False

/-- Two lists of segments lead together to a container, of which they then name different parts. -/
def Diverge (value : Value) (segments other : List String) : Prop :=
  ∃ shared first rest second rest' container,
    segments = shared ++ first :: rest ∧ other = shared ++ second :: rest' ∧
      value.at? shared = some container ∧ container.Separates first second

end Value

def Container.toValue : Container → Value
  | .array items => .array items
  | .object members => .object members

namespace Schema

variable {root schema : Schema} {new result : Value} {current : Option Value} {segment : String}
  {rest : List String}

/-! ### One step of a write -/

/-- A container has the parts of what it stands in for: none at all where it is new. -/
theorem child?_ofValue (root schema : Schema) (current : Option Value) (segment : String) :
    (Container.ofValue root schema current).toValue.child? segment =
      current.bind (·.child? segment) := by
  have hnew : (Container.ofValue root schema none).toValue.child? segment = none := by
    cases hdefault : root.defaultFor schema with
    | array items =>
      cases hindex : Pointer.index? segment <;>
        simp [Container.ofValue, hdefault, Container.toValue, Value.child?, hindex]
    | _ => simp [Container.ofValue, hdefault, Container.toValue, Value.child?]
  cases current with
  | none => exact hnew
  | some value =>
    cases value with
    | array items => rfl
    | object members => rfl
    | null => exact hnew
    | bool b => exact hnew
    | number n => exact hnew
    | string text => exact hnew

/-- A write leads to the same result if the container it writes into is created beforehand. -/
theorem setBelow_ofValue (root schema : Schema) (new : Value) (current : Option Value)
    (segment : String) (rest : List String) :
    setBelow root new schema (some (Container.ofValue root schema current).toValue)
        (segment :: rest) = setBelow root new schema current (segment :: rest) := by
  have hcontainer : Container.ofValue root schema
      (some (Container.ofValue root schema current).toValue) =
        Container.ofValue root schema current := by
    cases Container.ofValue root schema current <;> rfl
  simp only [setBelow, hcontainer]

/-- An item behind the last, if it is a container, is created before it is written into. -/
theorem setBelow_cons_append {items : List Value} {next : String}
    (hcontainer : Container.ofValue root schema current = .array items)
    (hindex : Pointer.index? segment = some items.length) :
    setBelow root new schema current (segment :: next :: rest) =
      ((setBelow root new (root.property segment schema)
          (some (Container.ofValue root (root.property segment schema) none).toValue)
          (next :: rest)).mapError (·.within segment)).map fun item => .array (items ++ [item]) := by
  have hnew : items[items.length]? = none := List.getElem?_eq_none (Nat.le_refl _)
  have hitem (item : Value) : setItem items items.length item = items ++ [item] :=
    if_neg (Nat.lt_irrefl _)
  rw [setBelow_cons_array hcontainer hindex (Nat.le_refl _), hnew, setBelow_ofValue]
  simp only [hitem]

/-- A write below a segment writes to the part that the segment names, which then is a part of the
result. -/
theorem exists_child_of_setBelow_cons
    (h : setBelow root new schema current (segment :: rest) = .ok result) :
    ∃ child, result.child? segment = some child ∧
      setBelow root new (root.property segment schema) (current.bind (·.child? segment)) rest =
        .ok child := by
  rw [← child?_ofValue root schema]
  rcases setBelow_cons_eq_ok_iff.mp h with
    ⟨items, index, item, hcontainer, hindex, hle, hitem, rfl⟩ |
    ⟨members, value, hcontainer, hvalue, rfl⟩
  · refine ⟨item, ?_, ?_⟩
    · rw [Value.child?_array hindex, getElem?_setItem hle]
    · rw [hcontainer, Container.toValue, Value.child?_array hindex]
      exact hitem
  · refine ⟨value, ?_, ?_⟩
    · rw [Value.child?_object, Members.lookup_insert_self]
    · rw [hcontainer]
      exact hvalue

/-- The other parts of a container that is written to are those that were there. -/
theorem child?_of_setBelow_cons
    (h : setBelow root new schema current (segment :: rest) = .ok result) {other : String}
    (hother : result.Separates segment other) :
    result.child? other = current.bind (·.child? other) := by
  rw [← child?_ofValue root schema]
  rcases setBelow_cons_eq_ok_iff.mp h with
    ⟨items, index, item, hcontainer, hindex, hle, -, rfl⟩ |
    ⟨members, value, hcontainer, -, rfl⟩
  · rw [hcontainer, Container.toValue]
    cases hthere : Pointer.index? other with
    | none => simp [Value.child?, hthere]
    | some place =>
      have hne : place ≠ index := by
        rintro rfl
        exact hother (hindex.trans hthere.symm)
      rw [Value.child?_array hthere, Value.child?_array hthere, getElem?_setItem_of_ne hle hne]
  · rw [hcontainer, Container.toValue, Value.child?_object, Value.child?_object,
      Members.lookup_insert_of_ne (Ne.symm hother)]

theorem exists_object_of_setBelow_cons {before : List (String × Value)}
    (h : setBelow root new schema (some (.object before)) (segment :: rest) = .ok result) :
    ∃ after, result = .object after ∧ Members.names after =
      if Members.has segment before then Members.names before
      else Members.names before ++ [segment] := by
  rcases setBelow_cons_eq_ok_iff.mp h with ⟨_, _, _, hcontainer, -⟩ |
    ⟨members, value, hcontainer, -, rfl⟩
  · cases hcontainer
  · cases hcontainer
    exact ⟨_, rfl, Members.names_insert segment value before⟩

theorem exists_array_of_setBelow_cons {before : List Value}
    (h : setBelow root new schema (some (.array before)) (segment :: rest) = .ok result) :
    ∃ after index, result = .array after ∧ Pointer.index? segment = some index ∧
      (∀ other, other ≠ index → after[other]? = before[other]?) ∧
      before.length ≤ after.length ∧ after.length ≤ before.length + 1 := by
  rcases setBelow_cons_eq_ok_iff.mp h with ⟨items, index, item, hcontainer, hindex, hle, -, rfl⟩ |
    ⟨_, _, hcontainer, -⟩
  · cases hcontainer
    have hlength := length_setItem hle item
    exact ⟨_, index, rfl, hindex, fun other hother => getElem?_setItem_of_ne hle hother item,
      by omega, by omega⟩
  · cases hcontainer

/-! ### All steps of a write -/

/-- Where a write has gone part of its way, it is the write of the rest, with the schema that looking up
member after member has led to. -/
theorem exists_setBelow_along {shared : List String}
    (h : setBelow root new schema current (shared ++ rest) = .ok result) :
    ∃ part, result.at? shared = some part ∧
      setBelow root new (root.along schema shared) (current.bind (·.at? shared)) rest =
        .ok part := by
  induction shared generalizing schema current result with
  | nil =>
    refine ⟨result, rfl, ?_⟩
    cases current <;> exact h
  | cons segment shared ih =>
    obtain ⟨child, hchild, hbelow⟩ := exists_child_of_setBelow_cons h
    obtain ⟨part, hpart, hrest⟩ := ih hbelow
    refine ⟨part, ?_, ?_⟩
    · rw [Value.at?_cons, hchild]
      exact hpart
    · cases current <;> exact hrest

theorem exists_setBelow_of_append {shared : List String}
    (h : setBelow root new schema current (shared ++ rest) = .ok result) :
    ∃ inner part, result.at? shared = some part ∧
      setBelow root new inner (current.bind (·.at? shared)) rest = .ok part :=
  ⟨_, exists_setBelow_along h⟩

theorem at?_of_setBelow_of_diverge {segments other : List String}
    (h : setBelow root new schema current segments = .ok result)
    (hother : result.Diverge segments other) :
    result.at? other = current.bind (·.at? other) := by
  obtain ⟨shared, first, rest, second, rest', container, rfl, rfl, hcontainer, hsep⟩ := hother
  obtain ⟨inner, part, hpart, hstep⟩ := exists_setBelow_of_append h
  have heq : container = part := Option.some.inj (hcontainer.symm.trans hpart)
  subst heq
  have hchild := child?_of_setBelow_cons hstep hsep
  calc result.at? (shared ++ second :: rest')
      = (container.child? second).bind (·.at? rest') := by
        rw [Value.at?_append, hcontainer, Option.bind_some, Value.at?_cons]
    _ = current.bind (·.at? (shared ++ second :: rest')) := by
        rw [hchild]
        cases current with
        | none => rfl
        | some value =>
          rw [Option.bind_some, Option.bind_some, Value.at?_append]
          cases value.at? shared <;> rfl

/-- A successful write changes only what its pointer names. All places that diverge from it read as
before. On the way to it, an object keeps the order of its names, a new one coming last, and an array
keeps all other items in place and gets at most one more. -/
theorem setAt_frame {pointer : String} {segments : List String}
    (hparse : Pointer.parse pointer = .ok segments)
    (hset : setAt schema pointer new current = .ok result) :
    (∀ other, result.Diverge segments other → result.at? other = current.bind (·.at? other)) ∧
    ∀ shared segment rest, segments = shared ++ segment :: rest →
      (∀ before, current.bind (·.at? shared) = some (.object before) →
        ∃ after, result.at? shared = some (.object after) ∧ Members.names after =
          if Members.has segment before then Members.names before
          else Members.names before ++ [segment]) ∧
      ∀ before, current.bind (·.at? shared) = some (.array before) →
        ∃ after index, result.at? shared = some (.array after) ∧
          Pointer.index? segment = some index ∧
          (∀ other, other ≠ index → after[other]? = before[other]?) ∧
          before.length ≤ after.length ∧ after.length ≤ before.length + 1 := by
  rw [setAt_of_parse hparse] at hset
  refine ⟨fun other => at?_of_setBelow_of_diverge hset, ?_⟩
  rintro shared segment rest rfl
  obtain ⟨inner, part, hpart, hstep⟩ := exists_setBelow_of_append hset
  constructor
  · intro before hbefore
    rw [hbefore] at hstep
    obtain ⟨after, rfl, hnames⟩ := exists_object_of_setBelow_cons hstep
    exact ⟨after, hpart, hnames⟩
  · intro before hbefore
    rw [hbefore] at hstep
    obtain ⟨after, index, rfl, hkept⟩ := exists_array_of_setBelow_cons hstep
    exact ⟨after, index, hpart, hkept⟩

def oneRow : Value :=
  .object [("title", .string "t"), ("rows", .array [.object [("name", .bool false)]])]

def twoRows : Value :=
  .object [("title", .string "t"),
    ("rows", .array [.object [("name", .bool false)], .object [("name", .bool true)]])]

/-- Writing the name of a second row adds the row. The first row and the title stay. -/
theorem setAt_oneRow_frame :
    Pointer.parse "#/rows/1/name" = .ok ["rows", "1", "name"] ∧
      setAt table "#/rows/1/name" (.bool true) (some oneRow) = .ok twoRows ∧
      twoRows.Diverge ["rows", "1", "name"] ["rows", "0", "name"] ∧
      twoRows.at? ["rows", "0", "name"] = some (.bool false) ∧
      (∃ members, twoRows.at? [] = some (.object members) ∧
        Members.names members = ["title", "rows"]) ∧
      ∃ rows, twoRows.at? ["rows"] = some (.array rows) ∧ rows.length ≤ 2 := by
  have hparse : Pointer.parse "#/rows/1/name" = .ok ["rows", "1", "name"] := by rfl
  have hset : setAt table "#/rows/1/name" (.bool true) (some oneRow) = .ok twoRows := by
    rw [setAt_of_parse hparse]
    refine setBelow_cons_eq_ok_iff.mpr (.inr ⟨_, .array _, rfl, ?_, rfl⟩)
    refine setBelow_cons_eq_ok_iff.mpr (.inl ⟨_, 1, .object _, rfl, rfl, Nat.le_refl 1, ?_, rfl⟩)
    exact setBelow_cons_eq_ok_iff.mpr (.inr ⟨[], .bool true, rfl, rfl, rfl⟩)
  obtain ⟨hframe, hway⟩ := setAt_frame hparse hset
  have hindices : Pointer.index? "1" ≠ Pointer.index? "0" := by decide
  have hother : twoRows.Diverge ["rows", "1", "name"] ["rows", "0", "name"] :=
    ⟨["rows"], "1", ["name"], "0", ["name"], .array _, rfl, rfl, rfl, hindices⟩
  have hmembers := (hway [] "rows" ["1", "name"] rfl).1 _ rfl
  obtain ⟨rows, _, hrows, -, -, -, hlength⟩ := (hway ["rows"] "1" ["name"] rfl).2 _ rfl
  exact ⟨hparse, hset, hother, hframe _ hother, hmembers, rows, hrows, hlength⟩

end Schema

end JsonSchema
