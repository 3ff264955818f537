import JsonSchema.Proofs.Cycles
import JsonSchema.Proofs.Equality

/-!
# Equal values get equal verdicts

No keyword but `multipleOf` tells equal values apart, neither by the order of their members nor by the
kind of their numbers. So by recursion along needed visits, and with no condition on references or
composition, equal values are valid alike. `multipleOf` is different, because a quotient is rounded
unless both numbers are integers.
-/

namespace JsonSchema

variable {here here' : Schema → Prop} {below below' : Value → Schema → Prop} {n : Node Schema}
  {a b : Value}

namespace Value

theorem has_of_equal {as bs : List (String × Value)} (h : (Value.object as).equal (.object bs))
    {name : String} (hname : Members.has name as) : Members.has name bs := by
  obtain ⟨-, hmembers⟩ := equal_object_iff.mp h
  obtain ⟨member, hmem, rfl⟩ := List.mem_map.mp (Members.has_iff_mem_names.mp hname)
  obtain ⟨value, hvalue, -⟩ := hmembers member hmem
  exact Members.has_iff_mem_names.mpr
    (List.mem_map.mpr ⟨_, Members.mem_of_lookup hvalue, rfl⟩)

/-- Each item of one of two equal arrays has an equal item at its index in the other. -/
theorem exists_item_of_equal {as bs : List Value} (h : (Value.array as).equal (.array bs))
    {index : Nat} {b : Value} (hb : bs[index]? = some b) :
    ∃ a, as[index]? = some a ∧ a.equal b := by
  obtain ⟨hlength, hitems⟩ := equal_array_iff.mp h
  obtain ⟨hlt, -⟩ := List.getElem?_eq_some_iff.mp hb
  have ha : as[index]? = some as[index] := List.getElem?_eq_getElem (by omega)
  exact ⟨as[index], ha, hitems index _ b ha hb⟩

end Value

open Value

/-! ### One node -/

theorem NumberLimits.Holds.of_equal {limits : NumberLimits} {m k : Number}
    (hmultiple : limits.multipleOf = none) (hrank : m.rank = k.rank) (h : limits.Holds m) :
    limits.Holds k where
  multipleOf d hd := by
    rw [hmultiple] at hd
    cases hd
  maximum bound hbound := by
    rw [← Number.lt_congr rfl hrank]
    exact h.maximum bound hbound
  exclusiveMaximum bound hbound := by
    rw [← Number.le_congr rfl hrank]
    exact h.exclusiveMaximum bound hbound
  minimum bound hbound := by
    rw [← Number.lt_congr hrank rfl]
    exact h.minimum bound hbound
  exclusiveMinimum bound hbound := by
    rw [← Number.le_congr hrank rfl]
    exact h.exclusiveMinimum bound hbound

theorem ArrayLimits.Holds.of_equal {limits : ArrayLimits} {as bs : List Value}
    (hab : (Value.array as).equal (.array bs)) (hba : (Value.array bs).equal (.array as))
    (h : limits.Holds as) : limits.Holds bs where
  maxItems bound hbound := (equal_array_iff.mp hab).1 ▸ h.maxItems bound hbound
  minItems bound hbound := (equal_array_iff.mp hab).1 ▸ h.minItems bound hbound
  uniqueItems hunique := by
    have hdistinct := List.pairwise_iff_getElem.mp (h.uniqueItems hunique)
    obtain ⟨hlength, hitems⟩ := equal_array_iff.mp hab
    obtain ⟨-, hitems'⟩ := equal_array_iff.mp hba
    apply List.pairwise_iff_getElem.mpr
    intro i j hi hj hlt hequal
    have hi' : i < as.length := by omega
    have hj' : j < as.length := by omega
    have hfirst := hitems i _ _ (List.getElem?_eq_getElem hi') (List.getElem?_eq_getElem hi)
    have hsecond := hitems' j _ _ (List.getElem?_eq_getElem hj) (List.getElem?_eq_getElem hj')
    exact hdistinct i j hi' hj' hlt (equal_trans (equal_trans hfirst hequal) hsecond)

theorem ObjectLimits.Holds.of_equal {limits : ObjectLimits} {as bs : List (String × Value)}
    (hab : (Value.object as).equal (.object bs)) (h : limits.Holds as) : limits.Holds bs where
  maxProperties bound hbound := (equal_object_iff.mp hab).1 ▸ h.maxProperties bound hbound
  minProperties bound hbound := (equal_object_iff.mp hab).1 ▸ h.minProperties bound hbound
  required names hnames name hname := has_of_equal hab (h.required names hnames name hname)

theorem Node.ArrayHolds.of_equal {as bs : List Value} (hab : (Value.array as).equal (.array bs))
    (hba : (Value.array bs).equal (.array as))
    (hbelow : ∀ a ∈ as, ∀ b ∈ bs, b.equal a → ∀ schema ∈ n.children,
      below a schema → below' b schema)
    (h : n.ArrayHolds below as) : n.ArrayHolds below' bs where
  limits := h.limits.of_equal hab hba
  every index b hb schema hschema := by
    obtain ⟨a, ha, -⟩ := exists_item_of_equal hab hb
    have hequal := (equal_array_iff.mp hba).2 index b a hb ha
    exact hbelow a (List.mem_of_getElem? ha) b (List.mem_of_getElem? hb) hequal schema
      (mem_children_of_itemAt hschema) (h.every index a ha schema hschema)
  contains schema hschema := by
    obtain ⟨a, hmem, hvalid⟩ := h.contains schema hschema
    obtain ⟨index, ha⟩ := List.getElem?_of_mem hmem
    obtain ⟨b, hb, hequal⟩ := exists_item_of_equal hba ha
    have hthere := List.mem_of_getElem? hb
    exact ⟨b, hthere, hbelow a hmem b hthere hequal schema (mem_children_of_contains hschema)
      hvalid⟩

theorem Node.ObjectHolds.of_equal {as bs : List (String × Value)}
    (hab : (Value.object as).equal (.object bs)) (hba : (Value.object bs).equal (.object as))
    (hhere : ∀ schema ∈ n.children, here schema → here' schema)
    (hbelow : ∀ a ∈ (Value.object as).parts, ∀ b ∈ (Value.object bs).parts,
      b.equal a → ∀ schema ∈ n.children, below a schema → below' b schema)
    (h : n.ObjectHolds here below as) : n.ObjectHolds here' below' bs := by
  -- every member of the second object has an equal one of its name in the first
  have hmember : ∀ member ∈ bs, ∃ value, (member.1, value) ∈ as ∧
      ∀ schema ∈ n.children, below value schema → below' member.2 schema := by
    intro member hmem
    obtain ⟨value, hvalue, hequal⟩ := (equal_object_iff.mp hba).2 member hmem
    have hthere := Members.mem_of_lookup hvalue
    exact ⟨value, hthere, hbelow value (List.mem_append_left _ (List.mem_map.mpr ⟨_, hthere, rfl⟩))
      member.2 (List.mem_append_left _ (List.mem_map_of_mem hmem)) hequal⟩
  constructor
  · exact h.limits.of_equal hab
  · exact h.readable
  · intro member hmem schema hnames
    obtain ⟨value, hthere, hvalid⟩ := hmember member hmem
    exact hvalid schema (mem_children_of_names hnames) (h.named _ hthere schema hnames)
  · intro member hmem hnone schema hschema
    obtain ⟨value, hthere, hvalid⟩ := hmember member hmem
    exact hvalid schema (mem_children_of_additionalProperties hschema)
      (h.additional _ hthere hnone schema hschema)
  · intro schema hschema member hmem
    obtain ⟨value, hthere, -⟩ := hmember member hmem
    have hname : (Value.string member.1).equal (.string member.1) := by simp [Value.equal]
    exact hbelow _ (List.mem_append_right _ (List.mem_map.mpr ⟨_, hthere, rfl⟩)) _
      (List.mem_append_right _ (List.mem_map_of_mem hmem)) hname schema
      (mem_children_of_propertyNames hschema) (h.propertyNames schema hschema _ hthere)
  · rintro ⟨trigger, dependency⟩ hmem htrigger
    have hd := h.dependencies _ hmem (has_of_equal hba htrigger)
    cases dependency with
    | conforms schema => exact hhere schema (mem_children_of_conforms hmem) hd
    | requires names => exact fun name hname => has_of_equal hab (hd name hname)

theorem Node.KindHolds.of_equal (hmultiple : n.multipleOf = none) (hab : a.equal b)
    (hba : b.equal a) (hhere : ∀ schema ∈ n.children, here schema → here' schema)
    (hbelow : ∀ p ∈ a.parts, ∀ q ∈ b.parts, q.equal p → ∀ schema ∈ n.children,
      below p schema → below' q schema)
    (h : n.KindHolds here below a) : n.KindHolds here' below' b := by
  cases b with
  | null => trivial
  | bool y => trivial
  | number k =>
    cases a with
    | number m =>
      rw [Value.equal] at hab
      exact NumberLimits.Holds.of_equal hmultiple (Number.rank_eq_of_equal hab) h
    | _ => simp [Value.equal] at hab
  | string text =>
    cases a with
    | string other =>
      have heq : other = text := by simpa [Value.equal] using hab
      exact heq ▸ h
    | _ => simp [Value.equal] at hab
  | array bs =>
    cases a with
    | array as => exact Node.ArrayHolds.of_equal hab hba hbelow h
    | _ => simp [Value.equal] at hab
  | object bs =>
    cases a with
    | object as => exact Node.ObjectHolds.of_equal hab hba hhere hbelow h
    | _ => simp [Value.equal] at hab

theorem TypeSpec.accepts_eq_of_equal (spec : TypeSpec) (h : a.equal b) :
    spec.accepts a = spec.accepts b := by
  have hprimitive (primitive : Primitive) : primitive.accepts a = primitive.accepts b := by
    rw [Primitive.accepts, Primitive.accepts, ofValue_eq_of_equal h]
  cases spec <;> simp only [TypeSpec.accepts, hprimitive]

theorem Node.HoldsBesideOneOf.of_equal (hmultiple : n.multipleOf = none) (hab : a.equal b)
    (hba : b.equal a) (hhere : ∀ schema ∈ n.children, here schema → here' schema)
    (hbelow : ∀ p ∈ a.parts, ∀ q ∈ b.parts, q.equal p → ∀ schema ∈ n.children,
      below p schema → below' q schema)
    (h : n.HoldsBesideOneOf here below a) : n.HoldsBesideOneOf here' below' b where
  enum choices hchoices := by
    obtain ⟨choice, hmem, hequal⟩ := h.enum choices hchoices
    exact ⟨choice, hmem, equal_trans hba hequal⟩
  const expected hexpected := equal_trans hba (h.const expected hexpected)
  type := TypeSpec.accepts_eq_of_equal n.type hab ▸ h.type
  kind := h.kind.of_equal hmultiple hab hba hhere hbelow
  allOf branches hbranches branch hmem :=
    hhere branch (mem_children_of_allOf hbranches hmem) (h.allOf branches hbranches branch hmem)
  anyOf branches hbranches := by
    obtain ⟨branch, hmem, hbranch⟩ := h.anyOf branches hbranches
    exact ⟨branch, hmem, hhere branch (mem_children_of_anyOf hbranches hmem) hbranch⟩

theorem Node.Holds.of_equal (hmultiple : n.multipleOf = none) (hab : a.equal b) (hba : b.equal a)
    (hhere : ∀ schema ∈ n.children, here schema ↔ here' schema)
    (hbelow : ∀ p ∈ a.parts, ∀ q ∈ b.parts, q.equal p → ∀ schema ∈ n.children,
      below p schema → below' q schema)
    (h : n.Holds here below a) : n.Holds here' below' b := by
  refine ⟨h.toHoldsBesideOneOf.of_equal hmultiple hab hba
    (fun schema hmem => (hhere schema hmem).mp) hbelow, fun branches hbranches => ?_⟩
  rw [← h.oneOf branches hbranches]
  apply List.countP_congr
  intro branch hmem
  simpa using (hhere branch (mem_children_of_oneOf hbranches hmem)).symm

/-! ### All visits -/

def Schema.MultipleFree (schema : Schema) : Prop := schema.Everywhere fun n => n.multipleOf = none

theorem valid_iff_of_equal {root : Schema} (hroot : root.MultipleFree) {x : Visit}
    (hx : x.schema.MultipleFree) (hwell : x.value.WellFormed) {other : Value}
    (hother : other.WellFormed) (h : other.equal x.value) :
    Valid root x ↔ Valid root ⟨x.active, other, x.schema⟩ := by
  induction x using (Visit.wellFounded_needs root).induction generalizing other with
  | _ x ih =>
    obtain ⟨active, value, schema⟩ := x
    have hsymm : value.equal other := equal_symm hother h
    cases schema with
    | always accepted => rw [valid_always, valid_always]
    | node n =>
      cases href : n.ref with
      | some ref =>
        rw [valid_reference href, valid_reference href]
        by_cases hactive : ref ∈ active
        · simp only [hactive, true_or]
        · simp only [hactive, false_or]
          refine forall₂_congr fun target htarget => ?_
          exact ih _ (.target href hactive htarget)
            (hroot.of_occurs (Schema.occurs_of_resolveReference htarget)) hwell hother h
      | none =>
        have hmultiple : n.multipleOf = none := hx n (.refl _)
        have hhere : ∀ schema ∈ n.children,
            (Valid root ⟨active, value, schema⟩ ↔ Valid root ⟨active, other, schema⟩) :=
          fun schema hmem => ih _ (.here hmem)
            (hx.of_occurs (Schema.occurs_of_mem_children hmem)) hwell hother h
        have hbelow : ∀ p ∈ value.parts, ∀ q ∈ other.parts, q.equal p → ∀ schema ∈ n.children,
            (Valid root ⟨[], p, schema⟩ ↔ Valid root ⟨[], q, schema⟩) :=
          fun p hp q hq hequal schema hmem => ih _ (.below hp hmem)
            (hx.of_occurs (Schema.occurs_of_mem_children hmem)) (hwell.of_mem_parts hp)
            (hother.of_mem_parts hq) hequal
        rw [valid_node href, valid_node href]
        constructor
        · intro hholds
          exact hholds.of_equal hmultiple hsymm h hhere fun p hp q hq hequal schema hmem =>
            (hbelow p hp q hq hequal schema hmem).mp
        · intro hholds
          refine hholds.of_equal hmultiple h hsymm (fun schema hmem => (hhere schema hmem).symm) ?_
          intro q hq p hp hequal schema hmem
          have hequal' : q.equal p := equal_symm (hwell.of_mem_parts hp) hequal
          exact (hbelow p hp q hq hequal' schema hmem).mpr

/-- Without `multipleOf`, equal values get equal verdicts. -/
theorem isValid_eq_of_equal {root schema : Schema} (hroot : root.MultipleFree)
    (hschema : schema.MultipleFree) (ha : a.WellFormed) (hb : b.WellFormed) (h : a.equal b)
    {verdict verdict' : Bool} (hverdict : root.isValid schema a = .ok verdict)
    (hverdict' : root.isValid schema b = .ok verdict') : verdict = verdict' := by
  rw [Bool.eq_iff_iff, Schema.eq_true_iff_valid_of_isValid hverdict,
    Schema.eq_true_iff_valid_of_isValid hverdict']
  exact (valid_iff_of_equal (x := ⟨[], b, schema⟩) hroot hschema hb ha h).symm

def floatOne : Number :=
  .float (.finite false Binary64.one
    ⟨⟨1, 1074, by decide +kernel, by decide +kernel⟩, by decide +kernel⟩)

def entrySchema : Schema := .node {
  properties := some [
    ("number", .node { enum := some [.int 1, .int 2] }),
    ("marks", .node { uniqueItems := true, items := .uniform (.node { type := .single .integer }) })]
  additionalProperties := some (.always false) }

def entry : Value := .object [("number", .int 1), ("marks", .array [.int 1, .int 2])]

def reorderedEntry : Value :=
  .object [("marks", .array [.number floatOne, .int 2]), ("number", .number floatOne)]

theorem isValid_reorderedEntry_of_entry :
    entrySchema.isValid entrySchema entry = .ok true ∧ entry.equal reorderedEntry ∧
      entrySchema.isValid entrySchema reorderedEntry = .ok true := by
  have hvalid : entrySchema.isValid entrySchema entry = .ok true := by decide +kernel
  have hequal : entry.equal reorderedEntry := by decide +kernel
  have hfree : entrySchema.MultipleFree := by
    simp [entrySchema, Schema.MultipleFree, Schema.everywhere_node_iff, Schema.everywhere_always,
      Node.children, Items.children, Dependency.children]
  have hentry : entry.WellFormed := by
    simp [entry, Value.int, WellFormed, WellFormedMembers, WellFormedItems, Members.Distinct,
      Members.names]
  have hreordered : reorderedEntry.WellFormed := by
    simp [reorderedEntry, Value.int, WellFormed, WellFormedMembers, WellFormedItems,
      Members.Distinct, Members.names]
  obtain ⟨verdict, hverdict⟩ :
      ∃ verdict, entrySchema.isValid entrySchema reorderedEntry = .ok verdict :=
    ⟨true, by decide +kernel⟩
  have hsame := isValid_eq_of_equal hfree hfree hentry hreordered hequal hvalid hverdict
  exact ⟨hvalid, hequal, hsame ▸ hverdict⟩

end JsonSchema
