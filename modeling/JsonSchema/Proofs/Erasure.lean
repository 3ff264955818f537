import JsonSchema.Proofs.Rewriting
import JsonSchema.Validation

/-!
# What validation never looks at

Erasing a schema takes from each of its nodes the annotations, and all that stands beside a reference.
`Schema.eraseRoot` leaves a root its definitions, which are also looked up where the root itself is a
reference. A validation of the erased schema against the erased root finds what that of the schema
finds, in the same order and with the same fault behind it.
-/

namespace JsonSchema

variable {σ τ : Type}

namespace Node

/-- A node without annotations, and with nothing beside a reference. -/
def erased (n : Node σ) : Node σ :=
  if n.ref.isSome then { ref := n.ref } else { n with toAnnotations := {} }

theorem erased_of_ref {n : Node σ} {ref : String} (h : n.ref = some ref) :
    n.erased = { ref := some ref } := by
  simp only [erased, h, Option.isSome_some, if_true]

theorem erased_of_ref_eq_none {n : Node σ} (h : n.ref = none) :
    n.erased = { n with toAnnotations := {} } := by
  simp [erased, h]

theorem ref_erased (n : Node σ) : n.erased.ref = n.ref := by
  cases h : n.ref with
  | none => rw [erased_of_ref_eq_none h, h]
  | some ref => rw [erased_of_ref h]

theorem erased_erased (n : Node σ) : n.erased.erased = n.erased := by
  cases h : n.ref with
  | none =>
    rw [erased_of_ref_eq_none h]
    exact erased_of_ref_eq_none h
  | some ref =>
    rw [erased_of_ref h]
    exact erased_of_ref rfl

theorem mem_children_of_mem_erased {n : Node σ} {schema : σ} (h : schema ∈ n.erased.children) :
    schema ∈ n.children := by
  cases href : n.ref with
  | none =>
    rw [erased_of_ref_eq_none href] at h
    exact h
  | some ref =>
    rw [erased_of_ref href] at h
    cases h

end Node

namespace Schema

def erase : Schema → Schema := fold .always fun n => .node n.erased

/-- An erased schema that keeps its own definitions, which are those that references name if it is a
root. -/
def eraseRoot : Schema → Schema
  | .always accepted => .always accepted
  | .node n =>
    .node { (n.map erase).erased with definitions := n.definitions.map (mapMembers erase) }

theorem erase_always (accepted : Bool) : (always accepted).erase = .always accepted :=
  fold_always _ _ accepted

theorem erase_node (n : Node Schema) : (node n).erase = .node (n.map erase).erased :=
  fold_node _ _ n

/-- Nothing is left to be erased. -/
theorem everywhere_erased (schema : Schema) : schema.erase.Everywhere fun n => n.erased = n := by
  induction schema using Schema.induction with
  | always accepted =>
    rw [erase_always]
    exact everywhere_always accepted
  | node n ih =>
    rw [erase_node, everywhere_node_iff]
    refine ⟨Node.erased_erased _, fun child hmem => ?_⟩
    have hchild := Node.mem_children_of_mem_erased hmem
    rw [Node.children_map] at hchild
    obtain ⟨inner, hinner, rfl⟩ := List.mem_map.mp hchild
    exact ih inner hinner

/-! ### Erasing is rewriting -/

theorem rewriting_erase : Rewriting id erase where
  always := erase_always
  node n := by
    refine ⟨(n.map erase).erased, erase_node n, Node.ref_erased _, fun href => ?_⟩
    have herased : (n.map erase).erased = { n.map erase with toAnnotations := {} } :=
      Node.erased_of_ref_eq_none href
    refine ⟨{ n.toKeywords with toAnnotations := {} }, herased, ?_⟩
    exact ⟨rfl, rfl, rfl, rfl, rfl, fun _ => rfl, rfl, rfl, rfl⟩

theorem eraseRoot_always (accepted : Bool) : (always accepted).eraseRoot = .always accepted := rfl

/-- Only the siblings of a reference tell the two ways to erase apart. -/
theorem eraseRoot_of_ref_eq_none {n : Node Schema} (h : n.ref = none) :
    (node n).eraseRoot = (node n).erase := by
  have herased : (n.map erase).erased = { n.map erase with toAnnotations := {} } :=
    Node.erased_of_ref_eq_none h
  rw [erase_node, eraseRoot, herased]
  rfl

theorem ref?_eraseRoot (schema : Schema) : schema.eraseRoot.ref? = schema.ref? := by
  cases schema with
  | always accepted => rfl
  | node n => exact Node.ref_erased (n.map erase)

theorem definitions_eraseRoot (schema : Schema) :
    schema.eraseRoot.definitions = mapMembers erase schema.definitions := by
  cases schema with
  | always accepted => rfl
  | node n => exact getD_map_nil (mapMembers erase) rfl n.definitions

/-- A walk does not look at what stands beside a reference. -/
theorem walk_eraseRoot (root : Schema) (fuel : Nat) (active : List String) (value : Value)
    (schema : Schema) :
    walk root fuel active value schema.eraseRoot = walk root fuel active value schema.erase := by
  cases schema with
  | always accepted => rw [eraseRoot_always, erase_always]
  | node n =>
    cases href : n.ref with
    | none => rw [eraseRoot_of_ref_eq_none href]
    | some ref =>
      have herased : (n.map erase).erased = { ref := some ref } := Node.erased_of_ref href
      rw [erase_node, eraseRoot, herased]
      cases fuel with
      | zero => rfl
      | succ fuel => rw [walk_reference rfl, walk_reference rfl]

/-- A reference to the root leads to the root with its definitions, and any other to an erased
definition. -/
theorem follows_eraseRoot (root : Schema) : Follows erase root root.eraseRoot := by
  intro ref
  have hlength : root.eraseRoot.definitions.length = root.definitions.length := by
    rw [definitions_eraseRoot, mapMembers, List.length_map]
  have hrel : Option.Rel (fun target target' => target' = target.erase ∨ target' = target.eraseRoot)
      (root.resolveReference ref) (root.eraseRoot.resolveReference ref) := by
    refine resolveReference_related (.inr rfl) hlength (fun name => ?_) ?_ ref
    · rw [definitions_eraseRoot]
      exact rel_lookup_mapMembers (fun _ => .inl rfl) root.definitions name
    · rintro schema _ (rfl | rfl)
      · exact rewriting_erase.ref? schema
      · exact ref?_eraseRoot schema
  generalize root.resolveReference ref = target at hrel ⊢
  generalize root.eraseRoot.resolveReference ref = target' at hrel ⊢
  cases hrel with
  | none => exact .none
  | some hways =>
    refine .some fun fuel active value => ?_
    rcases hways with rfl | rfl
    · rfl
    · exact walk_eraseRoot root.eraseRoot fuel active value _

/-! ### Validation -/

theorem findings_erase (root schema : Schema) (value : Value) :
    root.eraseRoot.findings schema.erase value = root.findings schema value :=
  Findings.retold_id_iff.mp (retold_findings rewriting_erase (follows_eraseRoot root) schema value)

theorem findings_eraseRoot (root schema : Schema) (value : Value) :
    root.eraseRoot.findings schema.eraseRoot value = root.findings schema value := by
  have hleft := Nat.le_max_left (root.eraseRoot.fuel schema.eraseRoot value)
    (root.eraseRoot.fuel schema.erase value)
  have hright := Nat.le_max_right (root.eraseRoot.fuel schema.eraseRoot value)
    (root.eraseRoot.fuel schema.erase value)
  rw [← findings_erase root schema value, findings_eq_walk hleft, findings_eq_walk hright]
  exact walk_eraseRoot root.eraseRoot _ [] value schema

/-- Annotations, unknown members and siblings of references have no influence on a validation: erased
schemas give a value the same violations in the same order, the same fault behind them, and so the same
errors wherever the value stands and however many are asked for. If the schema is the root itself, it
keeps its definitions as the root does. -/
theorem errors_erase (root schema : Schema) (value : Value) :
    root.eraseRoot.findings schema.erase value = root.findings schema value ∧
    root.eraseRoot.findings schema.eraseRoot value = root.findings schema value ∧
    ∀ (start : String) (limit : Int),
      root.eraseRoot.errors schema.erase value start limit =
        root.errors schema value start limit ∧
      root.eraseRoot.errors schema.eraseRoot value start limit =
        root.errors schema value start limit := by
  have hschema := findings_erase root schema value
  have hroot := findings_eraseRoot root schema value
  refine ⟨hschema, hroot, fun start limit => ⟨?_, ?_⟩⟩
  · rw [errors, errors, hschema]
  · rw [errors, errors, hroot]

end Schema

end JsonSchema
