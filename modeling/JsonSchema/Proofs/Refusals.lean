import JsonSchema.Proofs.Calls
import JsonSchema.Proofs.Descent
import JsonSchema.Proofs.Frame

/-!
# When a write fails

A write goes from container to container, and the only containers that refuse a segment are arrays: the
segment has to be an index, up to the length of the array. What the containers are can be told without
writing. Each is the part of the old value that is there, or a new one of the kind that the schema on
the way asks for (`Schema.containerAt`). The write fails exactly at the first of them that refuses its
segment, and succeeds if none does.
-/

namespace JsonSchema

/-! ### Containers -/

namespace Container

def isArray : Container → Bool
  | .array _ => true
  | .object _ => false

/-- An array refuses what is no index, and indices beyond its end. The error tells the whole way. -/
inductive Refuses (shared : List String) (segment : String) : Container → EditError → Prop where
  | notAnIndex {items : List Value} (hindex : Pointer.index? segment = none) :
      Refuses shared segment (.array items) (.notAnIndex (shared ++ [segment]))
  | beyondEnd {items : List Value} {index : Nat} (hindex : Pointer.index? segment = some index)
      (hlt : items.length < index) :
      Refuses shared segment (.array items)
        (.beyondEnd (shared ++ [segment]) index items.length)

variable {container : Container} {shared : List String} {first segment : String} {e : EditError}

theorem not_refuses_object {members : List (String × Value)} :
    ¬ (object members).Refuses shared segment e := nofun

theorem not_refuses_badPointer {cause : Pointer.Error} :
    ¬ container.Refuses shared segment (.badPointer cause) := nofun

/-- Seen from one segment further out, the error is told with that segment before it. -/
theorem refuses_cons_iff :
    container.Refuses (first :: shared) segment e ↔
      ∃ inner, container.Refuses shared segment inner ∧ e = inner.within first := by
  constructor
  · intro h
    cases h with
    | notAnIndex hindex => exact ⟨_, .notAnIndex hindex, rfl⟩
    | beyondEnd hindex hlt => exact ⟨_, .beyondEnd hindex hlt, rfl⟩
  · rintro ⟨inner, h, rfl⟩
    cases h with
    | notAnIndex hindex => exact .notAnIndex hindex
    | beyondEnd hindex hlt => exact .beyondEnd hindex hlt

end Container

namespace Schema

variable {root schema : Schema} {current : Option Value} {new result : Value}
  {first segment : String} {segments shared rest : List String} {e : EditError}

def containerAt (root schema : Schema) (current : Option Value) (shared : List String) : Container :=
  Container.ofValue root (root.along schema shared) (current.bind (·.at? shared))

theorem containerAt_nil :
    root.containerAt schema current [] = Container.ofValue root schema current := by
  cases current <;> rfl

theorem containerAt_cons :
    root.containerAt schema current (first :: shared) =
      root.containerAt (root.property first schema) (current.bind (·.child? first)) shared := by
  cases current <;> rfl

/-! ### One step of a write -/

theorem setBelow_of_refuses (new : Value) (rest : List String)
    (h : (Container.ofValue root schema current).Refuses [] segment e) :
    setBelow root new schema current (segment :: rest) = .error e := by
  generalize hcontainer : Container.ofValue root schema current = container at h
  cases h with
  | notAnIndex hindex => simp only [setBelow, hcontainer, hindex, List.nil_append]
  | beyondEnd hindex hlt =>
    simp only [setBelow, hcontainer, hindex, if_pos hlt, List.nil_append]

/-- Where nothing refuses the segment, all depends on the write below it. -/
theorem exists_setBelow_of_not_refuses (new : Value) (rest : List String)
    (h : ∀ e, ¬ (Container.ofValue root schema current).Refuses [] segment e) :
    ∃ store : Value → Value, setBelow root new schema current (segment :: rest) =
      ((setBelow root new (root.property segment schema) (current.bind (·.child? segment))
        rest).mapError (·.within segment)).map store := by
  rw [← child?_ofValue root schema]
  cases hcontainer : Container.ofValue root schema current with
  | object members => exact ⟨_, setBelow_cons_object hcontainer⟩
  | array items =>
    rw [hcontainer] at h
    cases hindex : Pointer.index? segment with
    | none => exact absurd (.notAnIndex hindex) (h _)
    | some index =>
      have hle : index ≤ items.length := Nat.le_of_not_lt fun hlt => h _ (.beyondEnd hindex hlt)
      refine ⟨fun item => .array (setItem items index item), ?_⟩
      rw [Container.toValue, Value.child?_array hindex]
      exact setBelow_cons_array hcontainer hindex hle

/-! ### The way of a write -/

/-- The first container on the way that refuses its segment. -/
structure StopsAt (root schema : Schema) (current : Option Value) (segments shared : List String)
    (segment : String) (e : EditError) : Prop where
  onWay : ∃ rest, segments = shared ++ segment :: rest
  refuses : (root.containerAt schema current shared).Refuses shared segment e
  passed : ∀ before next after, shared = before ++ next :: after →
    ∀ e, ¬ (root.containerAt schema current before).Refuses before next e

theorem stopsAt_here (h : (Container.ofValue root schema current).Refuses [] segment e) :
    root.StopsAt schema current (segment :: rest) [] segment e where
  onWay := ⟨rest, rfl⟩
  refuses := containerAt_nil ▸ h
  passed before next after heq := by simp at heq

theorem StopsAt.cons (hfirst : ∀ e, ¬ (Container.ofValue root schema current).Refuses [] first e)
    (h : root.StopsAt (root.property first schema) (current.bind (·.child? first)) rest shared
      segment e) :
    root.StopsAt schema current (first :: rest) (first :: shared) segment (e.within first) where
  onWay := by
    obtain ⟨after, rfl⟩ := h.onWay
    exact ⟨after, rfl⟩
  refuses := by
    rw [containerAt_cons, Container.refuses_cons_iff]
    exact ⟨e, h.refuses, rfl⟩
  passed before next after heq e' hrefuses := by
    rcases List.cons_eq_append_iff.mp heq with ⟨rfl, hnext⟩ | ⟨before, rfl, hshared⟩
    · cases hnext
      exact hfirst e' (containerAt_nil ▸ hrefuses)
    · rw [containerAt_cons, Container.refuses_cons_iff] at hrefuses
      obtain ⟨inner, hinner, -⟩ := hrefuses
      exact h.passed before next after hshared inner hinner

theorem StopsAt.cases (h : root.StopsAt schema current (first :: rest) shared segment e) :
    (Container.ofValue root schema current).Refuses [] first e ∨
      (∀ e, ¬ (Container.ofValue root schema current).Refuses [] first e) ∧
        ∃ shared inner, root.StopsAt (root.property first schema)
          (current.bind (·.child? first)) rest shared segment inner ∧ e = inner.within first := by
  obtain ⟨⟨after, hsegments⟩, hrefuses, hpassed⟩ := h
  rcases List.cons_eq_append_iff.mp hsegments with ⟨rfl, hhere⟩ | ⟨shared, rfl, hrest⟩
  · cases hhere
    exact .inl (containerAt_nil ▸ hrefuses)
  · rw [containerAt_cons, Container.refuses_cons_iff] at hrefuses
    obtain ⟨inner, hinner, rfl⟩ := hrefuses
    refine .inr ⟨fun e' hfirst => ?_, shared, inner, ⟨⟨after, hrest⟩, hinner, ?_⟩, rfl⟩
    · exact hpassed [] first shared rfl e' (containerAt_nil ▸ hfirst)
    · rintro before next further rfl e' hnext
      refine hpassed (first :: before) next further rfl (e'.within first) ?_
      rw [containerAt_cons, Container.refuses_cons_iff]
      exact ⟨e', hnext, rfl⟩

/-- A write fails exactly at the first container that refuses its segment. By induction on the
segments, along the parts that the write comes to. -/
theorem setBelow_eq_error_iff :
    setBelow root new schema current segments = .error e ↔
      ∃ shared segment, root.StopsAt schema current segments shared segment e := by
  induction segments generalizing schema current e with
  | nil =>
    constructor
    · intro h
      cases h
    · rintro ⟨shared, segment, ⟨rest, hnil⟩, -, -⟩
      simp at hnil
  | cons first rest ih =>
    by_cases hrefused : ∃ e, (Container.ofValue root schema current).Refuses [] first e
    · obtain ⟨refusal, hrefusal⟩ := hrefused
      have hfails := setBelow_of_refuses new rest hrefusal
      rw [hfails, Except.error.injEq]
      constructor
      · rintro rfl
        exact ⟨[], first, stopsAt_here hrefusal⟩
      · rintro ⟨shared, segment, hstops⟩
        rcases hstops.cases with hhere | ⟨hpasses, -⟩
        · exact Except.error.inj (hfails.symm.trans (setBelow_of_refuses new rest hhere))
        · exact absurd hrefusal (hpasses refusal)
    · push Not at hrefused
      obtain ⟨store, hstep⟩ := exists_setBelow_of_not_refuses new rest hrefused
      rw [hstep, Except.map_eq_error_iff, Except.mapError_eq_error_iff]
      constructor
      · rintro ⟨inner, hinner, rfl⟩
        obtain ⟨shared, segment, hstops⟩ := ih.mp hinner
        exact ⟨first :: shared, segment, hstops.cons hrefused⟩
      · rintro ⟨shared, segment, hstops⟩
        rcases hstops.cases with hhere | ⟨-, shared, inner, hinner, rfl⟩
        · exact absurd hhere (hrefused e)
        · exact ⟨inner, ih.mpr ⟨shared, segment, hinner⟩, rfl⟩

/-- If some container on the way refuses its segment, then there is a first one that does. -/
theorem exists_stopsAt (rest : List String)
    (h : (root.containerAt schema current shared).Refuses shared segment e) :
    ∃ before next e, root.StopsAt schema current (shared ++ segment :: rest) before next e := by
  induction shared generalizing schema current e with
  | nil => exact ⟨[], segment, e, stopsAt_here (containerAt_nil ▸ h)⟩
  | cons first shared ih =>
    by_cases hrefused : ∃ e, (Container.ofValue root schema current).Refuses [] first e
    · obtain ⟨refusal, hrefusal⟩ := hrefused
      exact ⟨[], first, refusal, stopsAt_here hrefusal⟩
    · push Not at hrefused
      rw [containerAt_cons, Container.refuses_cons_iff] at h
      obtain ⟨inner, hinner, -⟩ := h
      obtain ⟨before, next, e', hstops⟩ := ih hinner
      exact ⟨first :: before, next, e'.within first, hstops.cons hrefused⟩

theorem exists_setBelow_iff :
    (∃ result, setBelow root new schema current segments = .ok result) ↔
      ∀ shared segment rest, segments = shared ++ segment :: rest →
        ∀ e, ¬ (root.containerAt schema current shared).Refuses shared segment e := by
  constructor
  · rintro ⟨result, hresult⟩ shared segment rest rfl e hrefuses
    obtain ⟨before, next, e', hstops⟩ := exists_stopsAt rest hrefuses
    rw [setBelow_eq_error_iff.mpr ⟨before, next, hstops⟩] at hresult
    cases hresult
  · intro hpasses
    cases hresult : setBelow root new schema current segments with
    | ok result => exact ⟨result, rfl⟩
    | error e =>
      obtain ⟨shared, segment, ⟨rest, hrest⟩, hrefuses, -⟩ := setBelow_eq_error_iff.mp hresult
      exact absurd hrefuses (hpasses shared segment rest hrest e)

/-- What a write leaves on its way is of the kind of the container that it came to. -/
theorem exists_container_of_setBelow
    (h : setBelow root new schema current (shared ++ segment :: rest) = .ok result) :
    ∃ container : Container, result.at? shared = some container.toValue ∧
      container.isArray = (root.containerAt schema current shared).isArray := by
  induction shared generalizing schema current result with
  | nil =>
    rw [containerAt_nil]
    rcases setBelow_cons_eq_ok_iff.mp h with
      ⟨items, index, item, hcontainer, -, -, -, rfl⟩ | ⟨members, value, hcontainer, -, rfl⟩
    · exact ⟨.array (setItem items index item), rfl, by rw [hcontainer]; rfl⟩
    · exact ⟨.object (Members.insert segment value members), rfl, by rw [hcontainer]; rfl⟩
  | cons first shared ih =>
    obtain ⟨child, hchild, hbelow⟩ := exists_child_of_setBelow_cons h
    obtain ⟨container, hcontainer, hkind⟩ := ih hbelow
    refine ⟨container, ?_, ?_⟩
    · rw [Value.at?_cons, hchild]
      exact hcontainer
    · rw [containerAt_cons]
      exact hkind

/-- The outcome of a write can be told from the containers on its way. It fails at the first that
refuses its segment, and at none but these; it succeeds if there is none, and leaves containers of the
same kinds. A text that is no pointer is the one other failure, as the inference of a new container's
kind never fails. -/
theorem setAt_outcome (schema : Schema) (pointer : String) (new : Value) (current : Option Value) :
    (∀ cause, setAt schema pointer new current = .error (.badPointer cause) ↔
      Pointer.parse pointer = .error cause) ∧
    ∀ segments, Pointer.parse pointer = .ok segments →
      (∀ e, setAt schema pointer new current = .error e ↔
        ∃ shared segment, schema.StopsAt schema current segments shared segment e) ∧
      ((∃ result, setAt schema pointer new current = .ok result) ↔
        ∀ shared segment rest, segments = shared ++ segment :: rest →
          ∀ e, ¬ (schema.containerAt schema current shared).Refuses shared segment e) ∧
      (∀ result, setAt schema pointer new current = .ok result →
        ∀ shared segment rest, segments = shared ++ segment :: rest →
          ∃ container : Container, result.at? shared = some container.toValue ∧
            container.isArray = (schema.containerAt schema current shared).isArray) ∧
      ∀ shared, ∃ implied, schema.infer none (schema.along schema shared) = .ok implied := by
  constructor
  · intro cause
    cases hparse : Pointer.parse pointer with
    | error other => simp [setAt, hparse]
    | ok segments =>
      rw [setAt_of_parse hparse, setBelow_eq_error_iff]
      constructor
      · rintro ⟨shared, segment, hstops⟩
        exact absurd hstops.refuses Container.not_refuses_badPointer
      · intro h
        cases h
  · intro segments hparse
    rw [setAt_of_parse hparse]
    refine ⟨fun e => setBelow_eq_error_iff, exists_setBelow_iff, ?_,
      fun shared => exists_infer_none schema (schema.along schema shared)⟩
    rintro result hresult shared segment rest rfl
    exact exists_container_of_setBelow hresult

/-- The rows of a table that is still missing will be an array. So there is no second row without a
first, and no row has a name in place of an index. -/
theorem setAt_table_outcome :
    Pointer.parse "#/rows/1/name" = .ok ["rows", "1", "name"] ∧
      setAt table "#/rows/1/name" .null none = .error (.beyondEnd ["rows", "1"] 1 0) ∧
      Pointer.parse "#/rows/first" = .ok ["rows", "first"] ∧
      setAt table "#/rows/first" .null none = .error (.notAnIndex ["rows", "first"]) := by
  have hobject : table.containerAt table none [] = .object [] := by rfl
  have hrows : table.containerAt table none ["rows"] = .array [] := by rfl
  have hpassed : ∀ before next after, ["rows"] = before ++ next :: after →
      ∀ e, ¬ (table.containerAt table none before).Refuses before next e := by
    intro before next after heq e
    obtain ⟨rfl, rfl, rfl⟩ : before = [] ∧ next = "rows" ∧ after = [] := by
      rcases List.cons_eq_append_iff.mp heq with ⟨rfl, hnext⟩ | ⟨before, rfl, hnil⟩
      · cases hnext
        exact ⟨rfl, rfl, rfl⟩
      · simp at hnil
    rw [hobject]
    exact Container.not_refuses_object
  have hsecond : Pointer.parse "#/rows/1/name" = .ok ["rows", "1", "name"] := by rfl
  have hnamed : Pointer.parse "#/rows/first" = .ok ["rows", "first"] := by rfl
  refine ⟨hsecond, ?_, hnamed, ?_⟩
  · refine (((setAt_outcome table _ .null none).2 _ hsecond).1 _).mpr
      ⟨["rows"], "1", ⟨["name"], rfl⟩, ?_, hpassed⟩
    rw [hrows]
    exact .beyondEnd (by decide) (by decide)
  · refine (((setAt_outcome table _ .null none).2 _ hnamed).1 _).mpr
      ⟨["rows"], "first", ⟨[], rfl⟩, ?_, hpassed⟩
    rw [hrows]
    exact .notAnIndex (by decide)

end Schema

end JsonSchema
