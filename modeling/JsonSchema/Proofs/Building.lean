import JsonSchema.Proofs.Rewriting
import JsonSchema.Proofs.RoundTrip
import JsonSchema.Schema.Builder
import JsonSchema.Validation

/-!
# Built schemas survive their documents

A step of a builder keeps a node writable and puts no schemas into it but those that it is given
(`apply_ok`), so every node of a schema that was built from booleans, read schemas and other built ones
is writable and the schema is read back. What is read has its types in another form, which accepts the
same values; a validation cannot tell the two apart but by its messages.
-/

namespace JsonSchema

theorem Members.mem_insert {α : Type} {name : String} {value : α} {members : List (String × α)}
    {member : String × α} (h : member ∈ insert name value members) :
    member = (name, value) ∨ member ∈ members := by
  induction members with
  | nil => exact .inl (List.mem_singleton.mp h)
  | cons first rest ih =>
    obtain ⟨other, old⟩ := first
    rw [insert] at h
    split_ifs at h
    · rcases List.mem_cons.mp h with hnew | hrest
      · exact .inl hnew
      · exact .inr (List.mem_cons_of_mem _ hrest)
    · rcases List.mem_cons.mp h with hfirst | hrest
      · exact .inr (hfirst ▸ List.mem_cons_self)
      · exact (ih hrest).imp_right (List.mem_cons_of_mem _)

def BuildStep.schemas : BuildStep → List Schema
  | .definitions members => members.map Prod.snd
  | .item schema => [schema]
  | .items schemas => schemas
  | .additionalItems schema => [schema]
  | .contains schema => [schema]
  | .properties members => members.map Prod.snd
  | .patternProperties members => members.map Prod.snd
  | .additionalProperties schema => [schema]
  | .propertyNames schema => [schema]
  | .schemaDependency _ schema => [schema]
  | .allOf schemas => schemas
  | .anyOf schemas => schemas
  | .oneOf schemas => schemas
  | _ => []

namespace Build

variable {n n' : Node Schema} {step : BuildStep}

theorem unlessNull_ne_null (value : Value) : unlessNull value ≠ some .null := by
  cases value <;> simp [unlessNull]

theorem mem_children_withDependency (name : String) (dependency : Dependency Schema) :
    ∀ schema ∈ (withDependency name dependency n).children,
      schema ∈ n.children ∨ schema ∈ dependency.children := by
  obtain ⟨hdefinitions, hitems, hadditionalItems, hcontains, hproperties, hpatternProperties,
    hadditionalProperties, hpropertyNames, hdependencies, hallOf, hanyOf, honeOf⟩ :=
    Node.forall_mem_children.mp fun schema (hmem : schema ∈ n.children) =>
      (.inl hmem : schema ∈ n.children ∨ schema ∈ dependency.children)
  refine Node.forall_mem_children.mpr ⟨hdefinitions, hitems, hadditionalItems, hcontains,
    hproperties, hpatternProperties, hadditionalProperties, hpropertyNames, ?_, hallOf, hanyOf,
    honeOf⟩
  intro schema hmem
  obtain ⟨entry, hentry, hschema⟩ := List.mem_flatMap.mp hmem
  rcases Members.mem_insert hentry with rfl | hold
  · exact .inr hschema
  · exact hdependencies schema (List.mem_flatMap.mpr ⟨entry, hold, hschema⟩)

/-- A step keeps a node writable, and the children of the result are old ones or were given. -/
theorem apply_ok (h : apply n step = .ok n') :
    (n.Writable → n'.Writable) ∧
      ∀ schema ∈ n'.children, schema ∈ n.children ∨ schema ∈ step.schemas := by
  have hsame (keywords : Keywords) (htitle : keywords.title = n.title)
      (hdescription : keywords.description = n.description) (hextras : keywords.extras = n.extras) :
      (n.Writable → ({ n with toKeywords := keywords } : Node Schema).Writable) :=
    fun hn => ⟨htitle ▸ hn.title, hdescription ▸ hn.description, hextras ▸ hn.extras⟩
  obtain ⟨hdefinitions, hitems, hadditionalItems, hcontains, hproperties, hpatternProperties,
    hadditionalProperties, hpropertyNames, hdependencies, hallOf, hanyOf, honeOf⟩ :=
    Node.forall_mem_children.mp fun schema (hmem : schema ∈ n.children) =>
      (.inl hmem : schema ∈ n.children ∨ schema ∈ step.schemas)
  cases step
  case title title =>
    cases h
    exact ⟨fun hn => ⟨unlessNull_ne_null title, hn.description, hn.extras⟩, fun _ => .inl⟩
  case description description =>
    cases h
    exact ⟨fun hn => ⟨hn.title, unlessNull_ne_null description, hn.extras⟩, fun _ => .inl⟩
  case multipleOf divisor =>
    rw [apply] at h
    split_ifs at h
    cases h
    exact ⟨hsame _ rfl rfl rfl, fun _ => .inl⟩
  case type | nullableType | unionType | maxLength | minLength | maxItems | minItems
      | maxProperties | minProperties | required | enum =>
    obtain ⟨_, -, hresult⟩ := Except.bind_eq_ok_iff.mp h
    cases hresult
    exact ⟨hsame _ rfl rfl rfl, fun _ => .inl⟩
  case anyType | ref | default | maximum | exclusiveMaximum | minimum | exclusiveMinimum | pattern
      | uniqueItems | const =>
    cases h
    exact ⟨hsame _ rfl rfl rfl, fun _ => .inl⟩
  case schemaDependency name schema =>
    cases h
    exact ⟨fun hn => ⟨hn.title, hn.description, hn.extras⟩, mem_children_withDependency name _⟩
  case propertyDependency name names =>
    obtain ⟨_, -, hresult⟩ := Except.bind_eq_ok_iff.mp h
    cases hresult
    exact ⟨fun hn => ⟨hn.title, hn.description, hn.extras⟩, mem_children_withDependency name _⟩
  -- what is left are the steps that set one keyword to the schemas that they are given
  all_goals
    cases h
    refine ⟨fun hn => ⟨hn.title, hn.description, hn.extras⟩,
      Node.forall_mem_children.mpr ⟨?_, ?_, ?_, ?_, ?_, ?_, ?_, ?_, ?_, ?_, ?_, ?_⟩⟩ <;>
      first
        | assumption
        | exact fun _ => .inr
        | exact fun _ hmem => .inr (List.mem_singleton.mpr (Option.some.inj hmem).symm)

/-- What a step is given takes part in the result like what was there before. -/
theorem everywhere_writable_of_apply (hn : (Schema.node n).Everywhere Node.Writable)
    (hschemas : ∀ schema ∈ step.schemas, schema.Everywhere Node.Writable)
    (h : apply n step = .ok n') : (Schema.node n').Everywhere Node.Writable := by
  obtain ⟨hwritable, hchildren⟩ := Schema.everywhere_node_iff.mp hn
  obtain ⟨hkeeps, hgiven⟩ := apply_ok h
  refine Schema.everywhere_node_iff.mpr ⟨hkeeps hwritable, fun schema hmem => ?_⟩
  rcases hgiven schema hmem with hold | hnew
  · exact hchildren schema hold
  · exact hschemas schema hnew

theorem everywhere_writable_of_applyAll {steps : List BuildStep}
    (hn : (Schema.node n).Everywhere Node.Writable)
    (hschemas : ∀ step ∈ steps, ∀ schema ∈ step.schemas, schema.Everywhere Node.Writable)
    (h : applyAll n steps = .ok n') : (Schema.node n').Everywhere Node.Writable := by
  induction steps generalizing n with
  | nil =>
    cases h
    exact hn
  | cons step rest ih =>
    obtain ⟨hfirst, hrest⟩ := List.forall_mem_cons.mp hschemas
    obtain ⟨next, hnext, hlater⟩ := Except.bind_eq_ok_iff.mp h
    exact ih (everywhere_writable_of_apply hn hfirst hnext) hrest hlater

end Build

namespace Schema

/-- What can be built: booleans, schemas that were read, and the results of steps from a blank node or
one that can be built, where the steps are given schemas that can be built. -/
inductive Buildable : Schema → Prop where
  | always (accepted : Bool) : Buildable (.always accepted)
  | read {document : Value} {schema : Schema} (h : decode document = .ok schema) : Buildable schema
  | blank : Buildable (.node blank)
  | built {start n : Node Schema} {steps : List BuildStep} (hstart : Buildable (.node start))
      (hschemas : ∀ step ∈ steps, ∀ schema ∈ step.schemas, Buildable schema)
      (h : Build.applyAll start steps = .ok n) : Buildable (.node n)

theorem Buildable.everywhere_writable {schema : Schema} (h : schema.Buildable) :
    schema.Everywhere Node.Writable := by
  induction h with
  | always accepted => exact everywhere_always accepted
  | read h => exact fun n hocc => (regular_of_decodeWithin h n hocc).writable
  | blank =>
    have hchildren : Schema.blank.children = [] := rfl
    rw [everywhere_node_iff, hchildren]
    exact ⟨⟨nofun, nofun, nofun⟩, nofun⟩
  | built _ _ h ihstart ihschemas =>
    exact Build.everywhere_writable_of_applyAll ihstart ihschemas h

/-! ### The schema that is read back -/

theorem rewriting_reread : Rewriting TypeSpec.reread reread where
  always := reread_always
  node n := by
    refine ⟨n.reread reread, reread_node n, rfl, fun _ => ?_⟩
    refine ⟨{ n.toKeywords with type := n.type.reread }, rfl, ?_⟩
    exact ⟨rfl, rfl, rfl, rfl, rfl, TypeSpec.accepts_reread n.type, rfl, rfl, rfl⟩

theorem definitions_reread (root : Schema) :
    root.reread.definitions = mapMembers reread root.definitions := by
  cases root with
  | always accepted => rw [reread_always]; rfl
  | node n =>
    rw [reread_node]
    exact getD_map_nil (mapMembers reread) rfl n.definitions

theorem retold_findings_reread (root schema : Schema) (value : Value) :
    (root.findings schema value).Retold TypeSpec.reread
      (root.reread.findings schema.reread value) :=
  retold_findings rewriting_reread
    (follows_rewritten rewriting_reread (definitions_reread root)) schema value

/-- The pointers and the labels of the violations in a value that stands at the pointer `start`. -/
def places (found : Findings) (start : String) : List (String × List String) :=
  found.violations.map fun violation =>
    ((violation.diagnostic start).path, (violation.diagnostic start).context)

theorem places_of_retold {t : TypeSpec → TypeSpec} {found found' : Findings}
    (h : found.Retold t found') (start : String) : places found' start = places found start := by
  have hplaces (found : Findings) : places found start =
      (found.violations.map Violation.steps).map fun steps =>
        (Pointer.extend start (steps.map Step.segment), steps.map Step.label) := by
    rw [List.map_map]
    rfl
  rw [hplaces, hplaces, h.steps]

/-- A schema that was built is read back from its document, and a validation against what was read finds
violations at the same places in the same order, with the same fault behind them, and comes to the same
verdict. -/
theorem decode_encode_of_buildable {n : Node Schema} (h : (node n).Buildable) :
    ∃ n', decode (node n).encode = .ok (.node n') ∧ ∀ value,
      (∀ start, places ((node n').findings (.node n') value) start =
        places ((node n).findings (.node n) value) start) ∧
      ((node n').findings (.node n') value).fault = ((node n).findings (.node n) value).fault ∧
      (node n').isValid (.node n') value = (node n).isValid (.node n) value := by
  have hread : decode (node n).encode = .ok (node n).reread :=
    decodeWithin_encode_reread h.everywhere_writable (Nat.le_refl _)
  rw [reread_node] at hread
  refine ⟨_, hread, fun value => ?_⟩
  have hretold := retold_findings_reread (node n) (node n) value
  rw [reread_node] at hretold
  exact ⟨places_of_retold hretold, hretold.fault, hretold.passes⟩

def labelledSteps : List BuildStep := [
  .unionType (.array [.string "object"]),
  .definitions [("text", .node { type := .union [.null, .string] })],
  .properties [("label", .node { ref := some "#/definitions/text" })],
  .propertyDependency "label" (.array [.string "size"])]

def labelled : Node Schema := {
  type := .union [.object]
  definitions := some [("text", .node { type := .union [.null, .string] })]
  properties := some [("label", .node { ref := some "#/definitions/text" })]
  dependencies := some [("label", .requires ["size"])] }

/-- The types are read back in other forms, in the definition too, and refuse the same values. -/
theorem decode_encode_labelled :
    (node labelled).Buildable ∧
      ∃ n', decode (node labelled).encode = .ok (.node n') ∧ n'.type = .single .object ∧
        (node n').isValid (.node n') (.object [("label", .bool true)]) = .ok false ∧
        places ((node n').findings (.node n') (.object [("label", .bool true)])) "#" =
          [("#/label", ["Invalid property 'label'"])] := by
  have htext : Build.applyAll blank [.unionType (.array [.string "null", .string "string"])] =
      .ok { type := .union [.null, .string] } := by rfl
  have hlabel : Build.applyAll blank [.ref (some "#/definitions/text")] =
      .ok { ref := some "#/definitions/text" } := by rfl
  have hlabelled : Build.applyAll blank labelledSteps = .ok labelled := by rfl
  have hbuildable : (node labelled).Buildable := by
    refine .built .blank ?_ hlabelled
    simp only [labelledSteps, BuildStep.schemas, List.forall_mem_cons, List.map_cons, List.map_nil]
    exact ⟨nofun, ⟨.built .blank (by simp [BuildStep.schemas]) htext, nofun⟩,
      ⟨.built .blank (by simp [BuildStep.schemas]) hlabel, nofun⟩, List.forall_mem_nil _,
      List.forall_mem_nil _⟩
  obtain ⟨n', hread, hsame⟩ := decode_encode_of_buildable hbuildable
  have hreread : decode (node labelled).encode = .ok (node labelled).reread :=
    decodeWithin_encode_reread hbuildable.everywhere_writable (Nat.le_refl _)
  rw [reread_node, hread] at hreread
  cases hreread
  obtain ⟨hplaces, -, hverdict⟩ := hsame (.object [("label", .bool true)])
  refine ⟨hbuildable, _, hread, rfl, ?_, ?_⟩
  · rw [hverdict]
    decide +kernel
  · rw [hplaces]
    decide +kernel

end Schema

end JsonSchema
