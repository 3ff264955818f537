import JsonSchema.Proofs.Cycles
import JsonSchema.Proofs.Lens

/-!
# The node at a pointer is enforced there

Where one keyword at most can describe a part of a value, `Schema.property` finds the schema that
validation applies to that part, `conforms_property`. Resolving a reference changes nothing about
conformance, so each step down a pointer leads from a node that the value conforms to, to a node that
the part conforms to. For the node at the end this is a verdict, since without `oneOf` the cut of
cyclic references is exact.
-/

namespace JsonSchema

/-- Each part of a value is described by one keyword at most: types keep properties and items apart,
and there are neither patterns nor alternatives. -/
@[mk_iff] structure Node.Unambiguous (n : Node Schema) : Prop where
  patternProperties : n.patternProperties = none
  anyOf : n.anyOf = none
  oneOf : n.oneOf = none
  object : n.properties.isSome ∨ n.additionalProperties.isSome →
    n.type = .single .object ∧ n.items = .unconstrained
  array : n.items ≠ .unconstrained →
    n.type = .single .array ∧ n.properties = none ∧ n.additionalProperties = none

namespace Node.Unambiguous

variable {n : Node Schema} {schema : Schema} {name : String} {index : Nat}

theorem type_of_lookup (hn : n.Unambiguous) (h : (n.properties.getD []).lookup name = some schema) :
    n.type = .single .object := by
  have hproperties : n.properties.isSome := by
    cases hnone : n.properties with
    | none => simp [hnone] at h
    | some members => rfl
  exact (hn.object (.inl hproperties)).1

theorem type_of_itemAt (hn : n.Unambiguous) (h : Schema.itemAt n index = some schema) :
    n.type = .single .array := by
  have hitems : n.items ≠ .unconstrained := by
    intro hnone
    simp [Schema.itemAt, hnone] at h
  exact (hn.array hitems).1

theorem type_of_additionalProperties (hn : n.Unambiguous)
    (h : n.additionalProperties = some schema) : n.type = .single .object := by
  have hadditional : n.additionalProperties.isSome := by rw [h]; rfl
  exact (hn.object (.inr hadditional)).1

theorem names_iff (hn : n.Unambiguous) :
    n.Names name schema ↔ (n.properties.getD []).lookup name = some schema := by
  simp [Names, hn.patternProperties]

theorem notMem_anyOf (hn : n.Unambiguous) : schema ∉ n.anyOf.getD [] := by
  rw [hn.anyOf]
  exact List.not_mem_nil

end Node.Unambiguous

/-! ### Values of one kind -/

theorem Primitive.ofValue_eq_of_accepts {expected : Primitive} {value : Value}
    (h : expected.accepts value) (hne : expected ≠ .number) : ofValue value = expected := by
  simpa [accepts, hne] using h

theorem TypeSpec.exists_of_accepts_object {value : Value}
    (h : (TypeSpec.single .object).accepts value) : ∃ members, value = .object members := by
  have hkind : Primitive.ofValue value = .object := Primitive.ofValue_eq_of_accepts h nofun
  cases value with
  | object members => exact ⟨members, rfl⟩
  | number n =>
    rw [Primitive.ofValue] at hkind
    split_ifs at hkind
  | _ => cases hkind

theorem TypeSpec.exists_of_accepts_array {value : Value}
    (h : (TypeSpec.single .array).accepts value) : ∃ items, value = .array items := by
  have hkind : Primitive.ofValue value = .array := Primitive.ofValue_eq_of_accepts h nofun
  cases value with
  | array items => exact ⟨items, rfl⟩
  | number n =>
    rw [Primitive.ofValue] at hkind
    split_ifs at hkind
  | _ => cases hkind

namespace Schema

variable {root schema : Schema} {value part : Value} {n m : Node Schema} {segment : String}

/-! ### Resolving a reference -/

theorem kindHolds_blank {here : Schema → Prop} {below : Value → Schema → Prop} :
    blank.KindHolds here below value := by
  cases value with
  | null => trivial
  | bool b => trivial
  | number number => constructor <;> intro bound hbound <;> cases hbound
  | string text => exact ⟨nofun, nofun, nofun⟩
  | array items =>
    refine ⟨⟨nofun, nofun, nofun⟩, fun index item _ schema hschema => ?_, nofun⟩
    have hnone : itemAt blank index = none := rfl
    simp [hnone] at hschema
  | object members =>
    refine ⟨⟨nofun, nofun, nofun⟩, nofun, fun member _ schema hnames => ?_,
      fun member _ _ => nofun, nofun, nofun⟩
    simp [Node.Names, blank] at hnames

theorem conforms_blank : root.Conforms value (.node blank) := by
  rw [conforms_node rfl]
  exact {
    enum := nofun
    const := nofun
    type := rfl
    kind := kindHolds_blank
    allOf := nofun
    anyOf := nofun }

/-- A reference that leads somewhere has the verdict of its target, and any other stands for itself. -/
theorem conforms_resolve : root.Conforms value (root.resolve schema) ↔ root.Conforms value schema := by
  cases schema with
  | always accepted => rfl
  | node n =>
    cases href : n.ref with
    | none =>
      have hresolve : root.resolve (.node n) = .node n := by simp [resolve, ref?, href]
      rw [hresolve]
    | some ref =>
      cases htarget : root.resolveReference ref with
      | none =>
        have hresolve : root.resolve (.node n) = .node n := by simp [resolve, ref?, href, htarget]
        rw [hresolve]
      | some target =>
        have hresolve : root.resolve (.node n) = target := by simp [resolve, ref?, href, htarget]
        rw [hresolve, conforms_reference href, htarget]
        simp

theorem resolvedNode?_eq_some_iff : root.resolvedNode? schema = some n ↔
    root.resolve schema = .node n ∨ root.resolve schema = .always true ∧ blank = n := by
  unfold resolvedNode?
  cases root.resolve schema with
  | node target => simp [toNode?]
  | always accepted => cases accepted <;> simp [toNode?]

theorem conforms_of_resolvedNode? (h : root.Conforms value schema)
    (hnode : root.resolvedNode? schema = some n) : root.Conforms value (.node n) := by
  rcases resolvedNode?_eq_some_iff.mp hnode with hresolve | ⟨-, rfl⟩
  · rw [← hresolve]
    exact conforms_resolve.mpr h
  · exact conforms_blank

theorem occurs_resolve : (root.resolve schema).Occurs schema ∨ (root.resolve schema).Occurs root := by
  unfold resolve
  split
  · rename_i ref _
    cases htarget : root.resolveReference ref with
    | none => exact .inl (.refl schema)
    | some target => exact .inr (occurs_of_resolveReference htarget)
  · exact .inl (.refl schema)

theorem unambiguous_blank : (Schema.node blank).Everywhere Node.Unambiguous := by
  have hchildren : blank.children = [] := rfl
  rw [everywhere_node_iff, hchildren]
  exact ⟨⟨rfl, rfl, rfl, by simp [blank], by simp [blank]⟩, nofun⟩

/-! ### One step down -/

theorem property_node (href : n.ref = none) :
    root.property segment (.node n) =
      (root.propertyOfNode segment n).getD (.node blank) := by
  simp [property, resolvedNode?, resolve, ref?, toNode?, href]

/-- A step down from a schema is one from the node that it has or refers to. -/
theorem property_of_resolvedNode? (hnode : root.resolvedNode? schema = some n) (href : n.ref = none) :
    root.property segment schema = root.property segment (.node n) := by
  rw [property_node href, property, hnode]
  simp [href]

/-- What a node says about a member comes from its properties, from its items, from its additional
properties, or from an alternative. -/
theorem propertyOfNode_cases (h : root.propertyOfNode segment n = some schema) :
    (n.properties.getD []).lookup segment = some schema ∨
      (∃ index, Pointer.index? segment = some index ∧ itemAt n index = some schema) ∨
      ((n.properties.getD []).lookup segment = none ∧ n.additionalProperties = some schema) ∨
      ∃ alternative ∈ n.anyOf.getD [],
        root.propertyOfAlternative segment alternative = some schema := by
  unfold propertyOfNode at h
  cases hlookup : (n.properties.getD []).lookup segment with
  | some found =>
    have hfound : found = schema := by simpa [hlookup] using h
    exact .inl (congrArg some hfound)
  | none =>
    cases hitem : (Pointer.index? segment).bind (itemAt n) with
    | some found =>
      have hfound : found = schema := by simpa [hlookup, hitem] using h
      obtain ⟨index, hindex, hat⟩ := Option.bind_eq_some_iff.mp hitem
      exact .inr (.inl ⟨index, hindex, hfound ▸ hat⟩)
    | none =>
      cases hadditional : n.additionalProperties with
      | some found =>
        have hfound : found = schema := by simpa [hlookup, hitem, hadditional] using h
        exact .inr (.inr (.inl ⟨rfl, congrArg some hfound⟩))
      | none =>
        have hamong : (n.anyOf.getD []).findSome? (root.propertyOfAlternative segment) =
            some schema := by
          simpa [hlookup, hitem, hadditional] using h
        exact .inr (.inr (.inr (List.exists_of_findSome?_eq_some hamong)))

/-- The schema that is looked up for a part is one that the part has to conform to. The type of the
node tells which of its keywords the look-up has come upon. -/
theorem conforms_of_propertyOfNode (hn : n.Unambiguous) (href : n.ref = none)
    (h : root.Conforms value (.node n)) (hpart : value.child? segment = some part)
    (hschema : root.propertyOfNode segment n = some schema) : root.Conforms part schema := by
  have hholds := (conforms_node href).mp h
  have htype := hholds.type
  have hkind := hholds.kind
  rcases propertyOfNode_cases hschema with
    hlookup | ⟨index, hindex, hitem⟩ | ⟨hnone, hadditional⟩ | ⟨alternative, hmem, -⟩
  · rw [hn.type_of_lookup hlookup] at htype
    obtain ⟨members, rfl⟩ := TypeSpec.exists_of_accepts_object htype
    exact hkind.named _ (Members.mem_of_lookup hpart) schema (.inl hlookup)
  · rw [hn.type_of_itemAt hitem] at htype
    obtain ⟨items, rfl⟩ := TypeSpec.exists_of_accepts_array htype
    rw [Value.child?_array hindex] at hpart
    exact hkind.every index part hpart schema hitem
  · rw [hn.type_of_additionalProperties hadditional] at htype
    obtain ⟨members, rfl⟩ := TypeSpec.exists_of_accepts_object htype
    have hunnamed : ∀ other, ¬ n.Names segment other := by
      intro other hnames
      rw [hn.names_iff, hnone] at hnames
      cases hnames
    exact hkind.additional _ (Members.mem_of_lookup hpart) hunnamed schema hadditional
  · exact absurd hmem hn.notMem_anyOf

theorem conforms_property (hn : n.Unambiguous) (href : n.ref = none)
    (h : root.Conforms value (.node n)) (hpart : value.child? segment = some part) :
    root.Conforms part (root.property segment (.node n)) := by
  rw [property_node href]
  cases hschema : root.propertyOfNode segment n with
  | none => exact conforms_blank
  | some schema => exact conforms_of_propertyOfNode hn href h hpart hschema

/-! ### What a descent comes upon -/

/-- A property of the root and of the blank schema that goes over to what occurs in a schema. -/
structure Inherited (root : Schema) (P : Schema → Prop) : Prop where
  root : P root
  blank : P (.node blank)
  occurs {inner schema : Schema} (hocc : inner.Occurs schema) (h : P schema) : P inner

namespace Inherited

variable {P : Schema → Prop}

theorem of_resolvedNode? (hP : Inherited root P) (h : P schema)
    (hnode : root.resolvedNode? schema = some n) : P (.node n) := by
  rcases resolvedNode?_eq_some_iff.mp hnode with hresolve | ⟨-, rfl⟩
  · rw [← hresolve]
    have hoccurs : (root.resolve schema).Occurs schema ∨ (root.resolve schema).Occurs root :=
      occurs_resolve
    rcases hoccurs with hhere | hthere
    · exact hP.occurs hhere h
    · exact hP.occurs hthere hP.root
  · exact hP.blank

theorem of_propertyOfNode (hP : Inherited root P) (h : P (.node n))
    (hschema : root.propertyOfNode segment n = some schema) : P schema := by
  rcases propertyOfNode_cases hschema with
    hlookup | ⟨index, -, hitem⟩ | ⟨-, hadditional⟩ | ⟨alternative, hmem, halternative⟩
  · exact hP.occurs (occurs_of_mem_children (Node.mem_children_of_names (.inl hlookup))) h
  · exact hP.occurs (occurs_of_mem_children (Node.mem_children_of_itemAt hitem)) h
  · exact hP.occurs
      (occurs_of_mem_children (Node.mem_children_of_additionalProperties hadditional)) h
  · obtain ⟨branches, hbranches, hbranch⟩ : ∃ branches, n.anyOf = some branches ∧
        alternative ∈ branches := by
      cases hanyOf : n.anyOf with
      | none => simp [hanyOf] at hmem
      | some branches => exact ⟨branches, rfl, by simpa [hanyOf] using hmem⟩
    have hchild := occurs_of_mem_children (Node.mem_children_of_anyOf hbranches hbranch)
    obtain ⟨m, hnode, hlookup⟩ := Option.bind_eq_some_iff.mp halternative
    have hm := hP.of_resolvedNode? (hP.occurs hchild h) hnode
    obtain ⟨members, hmembers, hfound⟩ := Option.bind_eq_some_iff.mp hlookup
    have hnames : m.Names segment schema := .inl (by simpa [hmembers] using hfound)
    exact hP.occurs (occurs_of_mem_children (Node.mem_children_of_names hnames)) hm

theorem property (hP : Inherited root P) (h : P schema) : P (root.property segment schema) := by
  unfold Schema.property
  cases hnode : root.resolvedNode? schema with
  | none => exact hP.blank
  | some n =>
    dsimp only
    split_ifs with href
    · exact hP.blank
    · cases hschema : root.propertyOfNode segment n with
      | none => exact hP.blank
      | some found => exact hP.of_propertyOfNode (hP.of_resolvedNode? h hnode) hschema

end Inherited

/-- Below an unambiguous root, a descent comes upon nothing that is ambiguous. -/
theorem inherited_unambiguous (hroot : root.Everywhere Node.Unambiguous) :
    Inherited root fun schema => schema.Everywhere Node.Unambiguous where
  root := hroot
  blank := unambiguous_blank
  occurs hocc h := h.of_occurs hocc

theorem unambiguous_of_resolvedNode? (hroot : root.Everywhere Node.Unambiguous)
    (h : schema.Everywhere Node.Unambiguous) (hnode : root.resolvedNode? schema = some n) :
    (Schema.node n).Everywhere Node.Unambiguous :=
  (inherited_unambiguous hroot).of_resolvedNode? h hnode

/-! ### All steps down -/

theorem settled?_eq_some_iff {current : Option (Node Schema)} :
    settled? current = some n ↔ current = some n ∧ n.ref = none := by
  cases current with
  | none => simp [settled?]
  | some m =>
    cases href : m.ref with
    | none =>
      simp only [settled?, href, Option.isSome_none, Bool.false_eq_true, if_false, Option.some.injEq,
        iff_self_and]
      rintro rfl
      exact href
    | some ref =>
      simp only [settled?, href, Option.isSome_some, if_true, reduceCtorEq, Option.some.injEq,
        false_iff, not_and]
      rintro rfl
      simp [href]

/-- References followed after each step lead where references followed at the end do. -/
theorem resolvedNode?_along {segments : List String}
    (h : root.descend (root.resolvedNode? schema) segments = some n) :
    root.resolvedNode? (root.along schema segments) = some n ∧ n.ref = none := by
  induction segments generalizing schema with
  | nil => exact settled?_eq_some_iff.mp h
  | cons segment rest ih =>
    rw [descend] at h
    cases hsettled : settled? (root.resolvedNode? schema) with
    | none => simp [hsettled] at h
    | some m =>
      rw [hsettled] at h
      obtain ⟨hnode, href⟩ := settled?_eq_some_iff.mp hsettled
      rw [along, List.foldl_cons, property_of_resolvedNode? hnode href]
      exact ih h

theorem Inherited.of_descend {P : Schema → Prop} (hP : Inherited root P)
    {current : Option (Node Schema)} {segments : List String}
    (hcurrent : ∀ n ∈ current, P (.node n)) (hnode : root.descend current segments = some m) :
    P (.node m) := by
  induction segments generalizing current with
  | nil => exact hcurrent m (settled?_eq_some_iff.mp hnode).1
  | cons segment rest ih =>
    rw [descend] at hnode
    cases hsettled : settled? current with
    | none => simp [hsettled] at hnode
    | some n =>
      rw [hsettled] at hnode
      have hmember : P (root.property segment (.node n)) :=
        hP.property (hcurrent n (settled?_eq_some_iff.mp hsettled).1)
      exact ih (fun next hnext => hP.of_resolvedNode? hmember hnext) hnode

theorem Inherited.of_nodeAt {P : Schema → Prop} (hP : Inherited root P) {pointer : String}
    (hnode : root.nodeAt pointer = some n) : P (.node n) := by
  unfold nodeAt at hnode
  split at hnode
  · exact hP.of_descend (fun _ hn => hP.of_resolvedNode? hP.root hn) hnode
  · cases hnode

/-- Conformance is handed down along a pointer, together with what makes the next step possible. -/
theorem conforms_of_descend (hroot : root.Everywhere Node.Unambiguous)
    {current : Option (Node Schema)} {segments : List String}
    (hcurrent : ∀ n ∈ current,
      root.Conforms value (.node n) ∧ (Schema.node n).Everywhere Node.Unambiguous)
    (hpart : value.at? segments = some part) (hnode : root.descend current segments = some m) :
    root.Conforms part (.node m) ∧ (Schema.node m).Everywhere Node.Unambiguous := by
  induction segments generalizing value current with
  | nil =>
    cases hpart
    exact hcurrent m (settled?_eq_some_iff.mp hnode).1
  | cons segment rest ih =>
    rw [Value.at?_cons] at hpart
    obtain ⟨child, hchild, hrest⟩ := Option.bind_eq_some_iff.mp hpart
    rw [descend] at hnode
    cases hsettled : settled? current with
    | none => simp [hsettled] at hnode
    | some n =>
      rw [hsettled] at hnode
      obtain ⟨hcurrent', href⟩ := settled?_eq_some_iff.mp hsettled
      obtain ⟨hconforms, hplain⟩ := hcurrent n hcurrent'
      have hmember := conforms_property (hplain n (.refl _)) href hconforms hchild
      have hmember' : (root.property segment (.node n)).Everywhere Node.Unambiguous :=
        (inherited_unambiguous hroot).property hplain
      refine ih (fun next hnext => ?_) hrest hnode
      exact ⟨conforms_of_resolvedNode? hmember hnext,
        unambiguous_of_resolvedNode? hroot hmember' hnext⟩

theorem oneOfFree_of_unambiguous (h : schema.Everywhere Node.Unambiguous) : schema.OneOfFree :=
  fun n hn => (h n hn).oneOf

/-- Where keywords cannot be confused, a part of a valid value is valid against the node that is found
for its place: its validation has no other verdict, and does not lack fuel. -/
theorem isValid_of_nodeAt {pointer : String} {segments : List String}
    (hroot : root.Everywhere Node.Unambiguous) (hvalue : root.isValid root value = .ok true)
    (hpointer : Pointer.parse pointer = .ok segments) (hpart : value.at? segments = some part)
    (hnode : root.nodeAt pointer = some n) :
    (∀ verdict, root.isValid (.node n) part = .ok verdict → verdict = true) ∧
      root.isValid (.node n) part ≠ .error .outOfFuel := by
  have hfree := oneOfFree_of_unambiguous hroot
  have hconforms : root.Conforms value root :=
    conforms_of_valid ((eq_true_iff_valid_of_isValid hvalue).mp rfl)
  have hdescend : root.descend (root.resolvedNode? root) segments = some n := by
    simpa only [nodeAt, hpointer] using hnode
  obtain ⟨hpartConforms, hplain⟩ := conforms_of_descend hroot
    (fun m hm => ⟨conforms_of_resolvedNode? hconforms hm, unambiguous_of_resolvedNode? hroot hroot hm⟩)
    hpart hdescend
  refine ⟨fun verdict hverdict => ?_, isValid_ne_outOfFuel _⟩
  exact (eq_true_iff_valid_of_isValid hverdict).mpr
    (valid_of_conforms hfree ⟨[], part, .node n⟩ (oneOfFree_of_unambiguous hplain) hpartConforms)

def directory : Schema := .node {
  definitions := some [("entry", .node { ref := some "#" })]
  type := .single .object
  properties := some [
    ("entries", .node {
      type := .single .array
      items := .uniform (.node { ref := some "#/definitions/entry" }) }),
    ("marks", .node {
      type := .single .array
      items := .positional [.always true]
      additionalItems := some (.node { maximum := some (.int 9) }) })]
  additionalProperties := some (.node { type := .single .integer }) }

def directoryTree : Value := .object [
  ("entries", .array [.object [("marks", .array [.null, .int 7]), ("size", .int 3)]])]

theorem isValid_mark_of_directoryTree :
    directory.isValid directory directoryTree = .ok true ∧
      ∃ mark, directory.nodeAt "#/entries/0/marks/1" = some mark ∧
        mark.maximum = some (.int 9) ∧ directory.isValid (.node mark) (.int 7) = .ok true := by
  have hplain : directory.Everywhere Node.Unambiguous := by
    simp [directory, everywhere_node_iff, everywhere_always, Node.children, Items.children,
      Dependency.children, Node.unambiguous_iff]
  have hvalid : directory.isValid directory directoryTree = .ok true := by decide +kernel
  have hparse : Pointer.parse "#/entries/0/marks/1" = .ok ["entries", "0", "marks", "1"] := by rfl
  have hpart : directoryTree.at? ["entries", "0", "marks", "1"] = some (.int 7) := by rfl
  have hnode : directory.nodeAt "#/entries/0/marks/1" =
      some { maximum := some (.int 9) } := by rfl
  obtain ⟨verdict, hverdict⟩ :
      ∃ verdict, directory.isValid (.node { maximum := some (.int 9) }) (.int 7) = .ok verdict :=
    ⟨true, by decide +kernel⟩
  have htrue := (isValid_of_nodeAt hplain hvalid hparse hpart hnode).1 verdict hverdict
  exact ⟨hvalid, _, hnode, rfl, htrue ▸ hverdict⟩

end Schema

end JsonSchema
