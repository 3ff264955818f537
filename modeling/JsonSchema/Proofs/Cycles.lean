import JsonSchema.Proofs.Walk
import JsonSchema.Validation
import Mathlib.Order.FixedPoints

/-!
# Cutting cyclic references

A walk takes a value for valid when it comes to a reference that is active already. Without `oneOf`
this changes no verdict: the valid pairs of a value and a schema are the greatest relation closed
under `Schema.unfolding`, which knows nothing of active references. In one direction the assumptions
that a walk makes are justified by the entries of the references, a stack that `Justified`
describes; in the other a pair of the relation is valid whatever is active, since activity only
removes conditions.
-/

namespace JsonSchema

namespace Schema

def OneOfFree (schema : Schema) : Prop :=
  ∀ n : Node Schema, (Schema.node n).Occurs schema → n.oneOf = none

theorem OneOfFree.of_occurs {inner schema : Schema} (h : schema.OneOfFree)
    (hocc : inner.Occurs schema) : inner.OneOfFree :=
  Everywhere.of_occurs h hocc

/-- The condition for a value and a schema, given a relation for sub-schemas: a reference that
resolves asks for its target, and any other node for all its keywords, `oneOf` apart. -/
def Unfolds (root : Schema) (conforms : Value → Schema → Prop) (value : Value) (schema : Schema) :
    Prop :=
  schema.Asks (fun ref => ∀ target ∈ root.resolveReference ref, conforms value target)
    fun n => n.HoldsBesideOneOf (conforms value) conforms value

variable {root : Schema} {value : Value}

theorem unfolds_always {conforms : Value → Schema → Prop} {accepted : Bool} :
    root.Unfolds conforms value (.always accepted) ↔ accepted = true := Iff.rfl

theorem unfolds_reference {conforms : Value → Schema → Prop} {n : Node Schema} {ref : String}
    (href : n.ref = some ref) :
    root.Unfolds conforms value (.node n) ↔
      ∀ target ∈ root.resolveReference ref, conforms value target := by
  simp only [Unfolds, Asks, href]

theorem unfolds_node {conforms : Value → Schema → Prop} {n : Node Schema} (href : n.ref = none) :
    root.Unfolds conforms value (.node n) ↔
      n.HoldsBesideOneOf (conforms value) conforms value := by
  simp only [Unfolds, Asks, href]

def unfolding (root : Schema) : (Value → Schema → Prop) →o (Value → Schema → Prop) where
  toFun := root.Unfolds
  monotone' := by
    intro conforms conforms' hle value schema
    cases schema with
    | always accepted => exact id
    | node n =>
      cases href : n.ref with
      | none =>
        rw [unfolds_node href, unfolds_node href]
        exact Node.HoldsBesideOneOf.mono (fun schema _ => hle value schema)
          fun part _ schema _ => hle part schema
      | some ref =>
        rw [unfolds_reference href, unfolds_reference href]
        exact fun h target htarget => hle value target (h target htarget)

/-- A value conforms to a schema if the greatest relation closed under unfolding relates them. -/
def Conforms (root : Schema) (value : Value) (schema : Schema) : Prop :=
  (unfolding root).gfp value schema

theorem conforms_iff {schema : Schema} :
    root.Conforms value schema ↔ root.Unfolds root.Conforms value schema :=
  Iff.of_eq (congrFun₂ (unfolding root).map_gfp.symm value schema)

theorem conforms_of_closed {conforms : Value → Schema → Prop}
    (hclosed : conforms ≤ root.Unfolds conforms) {schema : Schema} (h : conforms value schema) :
    root.Conforms value schema :=
  (unfolding root).le_gfp hclosed value schema h

theorem conforms_reference {n : Node Schema} {ref : String} (href : n.ref = some ref) :
    root.Conforms value (.node n) ↔
      ∀ target ∈ root.resolveReference ref, root.Conforms value target :=
  conforms_iff.trans (unfolds_reference href)

theorem conforms_node {n : Node Schema} (href : n.ref = none) :
    root.Conforms value (.node n) ↔
      n.HoldsBesideOneOf (root.Conforms value) root.Conforms value :=
  conforms_iff.trans (unfolds_node href)

theorem conforms_always {accepted : Bool} :
    root.Conforms value (.always accepted) ↔ accepted = true :=
  conforms_iff.trans unfolds_always

/-! ### From the relation to verdicts -/

theorem valid_of_conforms (hroot : root.OneOfFree) (x : Visit) (hx : x.schema.OneOfFree)
    (h : root.Conforms x.value x.schema) : Valid root x := by
  induction x using (Visit.wellFounded_needs root).induction with
  | _ x ih =>
    obtain ⟨active, value, schema⟩ := x
    cases schema with
    | always accepted => exact valid_always.mpr (conforms_always.mp h)
    | node n =>
      cases href : n.ref with
      | some ref =>
        rw [valid_reference href]
        by_cases hactive : ref ∈ active
        · exact .inl hactive
        · refine .inr fun target htarget => ?_
          exact ih _ (.target href hactive htarget)
            (hroot.of_occurs (occurs_of_resolveReference htarget))
            ((conforms_reference href).mp h target htarget)
      | none =>
        rw [valid_node href]
        refine ⟨((conforms_node href).mp h).mono ?_ ?_, ?_⟩
        · intro schema hmem hschema
          exact ih _ (.here hmem) (hx.of_occurs (occurs_of_mem_children hmem)) hschema
        · intro part hpart schema hmem hschema
          exact ih _ (.below hpart hmem) (hx.of_occurs (occurs_of_mem_children hmem)) hschema
        · intro branches hbranches
          rw [hx n (.refl _)] at hbranches
          cases hbranches

/-! ### From verdicts to the relation -/

/-- Every active reference was entered with those behind it active, and its target found valid. -/
def Justified (root : Schema) (value : Value) : List String → Prop
  | [] => True
  | ref :: rest => Justified root value rest ∧
      ∀ target ∈ root.resolveReference ref, Valid root ⟨ref :: rest, value, target⟩

theorem Justified.exists_entry {active : List String} {ref : String}
    (h : Justified root value active) (hmem : ref ∈ active) :
    ∃ rest, Justified root value (ref :: rest) := by
  induction active with
  | nil => cases hmem
  | cons first rest ih =>
    rcases List.mem_cons.mp hmem with rfl | hrest
    · exact ⟨rest, h⟩
    · exact ih h.1 hrest

def Supported (root : Schema) (value : Value) (schema : Schema) : Prop :=
  ∃ active, Justified root value active ∧ Valid root ⟨active, value, schema⟩

theorem supported_le_unfolds : Supported root ≤ root.Unfolds (Supported root) := by
  rintro value schema ⟨active, hactive, hvalid⟩
  cases schema with
  | always accepted => exact valid_always.mp hvalid
  | node n =>
    cases href : n.ref with
    | some ref =>
      rw [unfolds_reference href]
      intro target htarget
      rcases (valid_reference href).mp hvalid with hmem | hentered
      · obtain ⟨rest, hrest⟩ := hactive.exists_entry hmem
        exact ⟨ref :: rest, hrest, hrest.2 target htarget⟩
      · exact ⟨ref :: active, ⟨hactive, hentered⟩, hentered target htarget⟩
    | none =>
      rw [unfolds_node href]
      refine ((valid_node href).mp hvalid).toHoldsBesideOneOf.mono ?_ ?_
      · exact fun schema _ hschema => ⟨active, hactive, hschema⟩
      · exact fun part _ schema _ hschema => ⟨[], trivial, hschema⟩

theorem conforms_of_valid {schema : Schema} (h : Valid root ⟨[], value, schema⟩) :
    root.Conforms value schema :=
  conforms_of_closed supported_le_unfolds ⟨[], trivial, h⟩

theorem eq_true_iff_valid_of_isValid {schema : Schema} {b : Bool}
    (h : root.isValid schema value = .ok b) : b = true ↔ Valid root ⟨[], value, schema⟩ :=
  (walk_decides root _ [] value schema).of_passes h

theorem isValid_ne_outOfFuel (schema : Schema) : root.isValid schema value ≠ .error .outOfFuel := by
  intro h
  have hwithin := within_walk_of_fuel_le (Nat.le_refl (root.fuel schema value)) []
  exact hwithin.fault.of_passes h rfl

/-- Without `oneOf`, cutting cycles is exact: a value is valid if and only if it conforms, and so a
reference that resolves has the verdict of its target. No verdict is missed for lack of fuel. -/
theorem isValid_iff_conforms (hroot : root.OneOfFree) (value : Value) :
    (∀ schema b, schema.OneOfFree → root.isValid schema value = .ok b →
      (b = true ↔ root.Conforms value schema)) ∧
    (∀ n ref target b b', n.ref = some ref → root.resolveReference ref = some target →
      root.isValid (.node n) value = .ok b → root.isValid target value = .ok b' → b = b') ∧
    ∀ schema, root.isValid schema value ≠ .error .outOfFuel := by
  have hiff : ∀ schema, schema.OneOfFree →
      (Valid root ⟨[], value, schema⟩ ↔ root.Conforms value schema) :=
    fun schema hschema => ⟨conforms_of_valid, valid_of_conforms hroot ⟨[], value, schema⟩ hschema⟩
  refine ⟨fun schema b hschema hb =>
    (eq_true_iff_valid_of_isValid hb).trans (hiff schema hschema), ?_, isValid_ne_outOfFuel⟩
  intro n ref target b b' href htarget hb hb'
  have hfree := hroot.of_occurs (occurs_of_resolveReference htarget)
  have hreference : Valid root ⟨[], value, .node n⟩ ↔ root.Conforms value target := by
    constructor
    · intro hvalid
      exact (conforms_reference href).mp (conforms_of_valid hvalid) target htarget
    · intro hconforms
      refine (valid_reference href).mpr (.inr fun other hother => ?_)
      rw [htarget] at hother
      cases hother
      exact valid_of_conforms hroot ⟨[ref], value, target⟩ hfree hconforms
  rw [Bool.eq_iff_iff, eq_true_iff_valid_of_isValid hb, eq_true_iff_valid_of_isValid hb',
    hreference, hiff target hfree]

theorem oneOfFree_node_iff {n : Node Schema} :
    (Schema.node n).OneOfFree ↔ n.oneOf = none ∧ ∀ schema ∈ n.children, schema.OneOfFree :=
  everywhere_node_iff

theorem oneOfFree_nestedArrays : nestedArrays.OneOfFree := by
  simp [nestedArrays, oneOfFree_node_iff, Node.children, Items.children, Dependency.children]

/-- The root and the definition that it refers to agree, although only the first walk enters the
definition with the reference active. -/
theorem conforms_nestedArrays :
    nestedArrays.isValid nestedArrays (.array [.array [], .array [.array []]]) = .ok true ∧
      nestedArrays.Conforms (.array [.array [], .array [.array []]]) nestedArrays := by
  have hvalid :
      nestedArrays.isValid nestedArrays (.array [.array [], .array [.array []]]) = .ok true := by
    rfl
  exact ⟨hvalid, ((isValid_iff_conforms oneOfFree_nestedArrays _).1 _ _ oneOfFree_nestedArrays
    hvalid).mp rfl⟩

end Schema

end JsonSchema
