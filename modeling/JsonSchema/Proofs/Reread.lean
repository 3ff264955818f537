import JsonSchema.Proofs.Decoding

/-!
# The schema that is read back

`Schema.reread` brings every type of a schema into the form in which types are read. It accepts the same
values there, and a schema that was read before is left alone (`Regular.reread_eq`).
-/

namespace JsonSchema

namespace TypeSpec

/-- The types that a list stands for are those in the list. -/
theorem accepts_ofPrimitives (primitives : List Primitive) (value : Value) :
    (ofPrimitives primitives).accepts value = primitives.any (·.accepts value) := by
  match primitives with
  | [] => rfl
  | [p] => simp [ofPrimitives, accepts]
  | [first, second] =>
    simp only [ofPrimitives]
    split_ifs with hsecond hfirst
    · simp [accepts, hsecond.2, Bool.or_comm]
    · simp [accepts, hfirst.1]
    · rfl
  | _ :: _ :: _ :: _ => rfl

theorem accepts_reread (spec : TypeSpec) (value : Value) :
    spec.reread.accepts value = spec.accepts value := by
  cases spec with
  | any => rfl
  | single primitive => rfl
  | nullable primitive =>
    rw [reread, accepts_ofPrimitives]
    simp [accepts, Bool.or_comm]
  | union primitives => exact accepts_ofPrimitives primitives value

end TypeSpec

/-! ### Nodes -/

namespace Node

variable {σ τ : Type}

def reread (read : σ → τ) (n : Node σ) : Node τ := { n.map read with type := n.type.reread }

/-- What a node needs in order to be read back with all its keywords. -/
structure Writable (n : Node σ) : Prop where
  title : n.title ≠ some .null
  description : n.description ≠ some .null
  extras : ∀ member ∈ n.extras, member.1 ∉ keywordNames

theorem Regular.writable {n : Node σ} (h : n.Regular) : n.Writable :=
  ⟨h.title, h.description, h.extras⟩

theorem Regular.reread_type {n : Node σ} (h : n.Regular) : n.type.reread = n.type := by
  cases hwritten : n.type.toValue? with
  | none =>
    cases htype : n.type with
    | any => rfl
    | _ => rw [htype] at hwritten; cases hwritten
  | some written =>
    have hread := TypeSpec.ofValue_of_toValue? hwritten
    exact Except.ok.inj (hread.symm.trans (h.type written hwritten))

theorem Regular.reread_eq {n : Node σ} {read : σ → σ} (hn : n.Regular)
    (h : ∀ schema ∈ n.children, read schema = schema) : n.reread read = n := by
  rw [reread, hn.reread_type, map_eq_self h]

end Node

/-! ### Schemas -/

namespace Schema

def reread : Schema → Schema := fold .always fun n => .node { n with type := n.type.reread }

theorem reread_always (accepted : Bool) : (always accepted).reread = always accepted :=
  fold_always _ _ accepted

theorem reread_node (n : Node Schema) : (node n).reread = .node (n.reread reread) :=
  fold_node _ _ n

/-- A schema that was read is in the form in which it is read back. -/
theorem Regular.reread_eq {schema : Schema} (h : schema.Regular) : schema.reread = schema := by
  induction schema using Schema.induction with
  | always accepted => exact reread_always accepted
  | node n ih =>
    have hchildren : ∀ child ∈ n.children, child.reread = child :=
      fun child hmem => ih child hmem (h.of_mem_children hmem)
    rw [reread_node, (h n (.refl _)).reread_eq hchildren]

end Schema

end JsonSchema
