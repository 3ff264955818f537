import JsonSchema.Schema.Reference
import Mathlib.Tactic.Common

/-!
# Schemas that occur in a schema

A schema occurs in itself and in whatever has it among the children of a node. Depth and references
only grow outwards, induction along children reaches every schema, and what a reference resolves to
occurs in the root.
-/

namespace JsonSchema

variable {σ τ : Type}

theorem Items.children_map (f : σ → τ) (items : Items σ) :
    (items.map f).children = items.children.map f := by
  cases items <;> simp [Items.map, Items.children]

theorem Dependency.children_map (f : σ → τ) (dependency : Dependency σ) :
    (dependency.map f).children = dependency.children.map f := by
  cases dependency <;> simp [Dependency.map, Dependency.children]

theorem map_snd_getD_mapMembers (f : σ → τ) (members : Option (List (String × σ))) :
    ((members.map (mapMembers f)).getD []).map Prod.snd =
      ((members.getD []).map Prod.snd).map f := by
  cases members <;> simp [mapMembers]

theorem Node.children_map (f : σ → τ) (n : Node σ) : (n.map f).children = n.children.map f := by
  have hlist (schemas : Option (List σ)) :
      (schemas.map (List.map f)).getD [] = (schemas.getD []).map f := by cases schemas <;> simp
  have hoption (schema : Option σ) : (schema.map f).toList = schema.toList.map f := by
    cases schema <;> simp
  have hdependencies : ((n.dependencies.map (mapMembers (Dependency.map f))).getD []).flatMap
      (fun dependency => dependency.2.children) =
      ((n.dependencies.getD []).flatMap fun dependency => dependency.2.children).map f := by
    cases n.dependencies <;>
      simp [mapMembers, List.flatMap_map, List.map_flatMap, Dependency.children_map]
  simp only [Node.children, Node.map, map_snd_getD_mapMembers, Items.children_map, hoption, hlist,
    hdependencies, List.map_append]

/-- What holds of all children holds keyword by keyword. -/
theorem Node.forall_mem_children {n : Node σ} {p : σ → Prop} :
    (∀ schema ∈ n.children, p schema) ↔
      (∀ schema ∈ (n.definitions.getD []).map Prod.snd, p schema) ∧
      (∀ schema ∈ n.items.children, p schema) ∧
      (∀ schema ∈ n.additionalItems, p schema) ∧
      (∀ schema ∈ n.contains, p schema) ∧
      (∀ schema ∈ (n.properties.getD []).map Prod.snd, p schema) ∧
      (∀ schema ∈ (n.patternProperties.getD []).map Prod.snd, p schema) ∧
      (∀ schema ∈ n.additionalProperties, p schema) ∧
      (∀ schema ∈ n.propertyNames, p schema) ∧
      (∀ schema ∈ (n.dependencies.getD []).flatMap fun dependency => dependency.2.children,
        p schema) ∧
      (∀ schema ∈ n.allOf.getD [], p schema) ∧
      (∀ schema ∈ n.anyOf.getD [], p schema) ∧
      ∀ schema ∈ n.oneOf.getD [], p schema := by
  simp only [children, List.mem_append, Option.mem_toList, Option.mem_def, or_imp, forall_and,
    and_assoc]

namespace Node

theorem map_eq_self_of_mem {f : σ → σ} {schemas : List σ} (h : ∀ schema ∈ schemas, f schema = schema) :
    schemas.map f = schemas :=
  (List.map_congr_left h).trans (List.map_id schemas)

theorem mapMembers_eq_self {f : σ → σ} {members : List (String × σ)}
    (h : ∀ schema ∈ members.map Prod.snd, f schema = schema) : mapMembers f members = members :=
  map_eq_self_of_mem fun member hmem =>
    Prod.ext rfl (h member.2 (List.mem_map_of_mem hmem))

theorem mapDependencies_eq_self {f : σ → σ} {members : List (String × Dependency σ)}
    (h : ∀ schema ∈ members.flatMap fun dependency => dependency.2.children, f schema = schema) :
    mapMembers (Dependency.map f) members = members := by
  apply map_eq_self_of_mem
  rintro ⟨name, dependency⟩ hmem
  cases dependency with
  | requires names => rfl
  | conforms schema =>
    have hschema : f schema = schema :=
      h schema (List.mem_flatMap.mpr ⟨_, hmem, List.mem_singleton_self schema⟩)
    rw [Dependency.map, hschema]

theorem map_option_eq_self {f : σ → σ} {found : Option σ} (h : ∀ schema ∈ found, f schema = schema) :
    found.map f = found := by
  cases found with
  | none => rfl
  | some schema => rw [Option.map_some, h schema rfl]

theorem map_getD_eq_self {α : Type} {f : List α → List α} {found : Option (List α)}
    (h : f (found.getD []) = found.getD []) : found.map f = found := by
  cases found with
  | none => rfl
  | some values => exact congrArg some h

/-- A function that leaves alone all children leaves alone the node. -/
theorem map_eq_self {n : Node σ} {f : σ → σ} (h : ∀ schema ∈ n.children, f schema = schema) :
    n.map f = n := by
  obtain ⟨hdefinitions, hitems, hadditionalItems, hcontains, hproperties, hpatternProperties,
    hadditionalProperties, hpropertyNames, hdependencies, hallOf, hanyOf, honeOf⟩ :=
    forall_mem_children.mp h
  obtain ⟨keywords, definitions, items, additionalItems, contains, properties, patternProperties,
    additionalProperties, propertyNames, dependencies, allOf, anyOf, oneOf⟩ := n
  simp only [map, Node.mk.injEq, true_and]
  have hitems' : items.map f = items := by
    cases items with
    | unconstrained => rfl
    | uniform schema => exact congrArg Items.uniform (hitems schema (List.mem_singleton_self schema))
    | positional schemas => exact congrArg Items.positional (map_eq_self_of_mem hitems)
  exact ⟨map_getD_eq_self (mapMembers_eq_self hdefinitions), hitems',
    map_option_eq_self hadditionalItems, map_option_eq_self hcontains,
    map_getD_eq_self (mapMembers_eq_self hproperties),
    map_getD_eq_self (mapMembers_eq_self hpatternProperties),
    map_option_eq_self hadditionalProperties, map_option_eq_self hpropertyNames,
    map_getD_eq_self (mapDependencies_eq_self hdependencies),
    map_getD_eq_self (map_eq_self_of_mem hallOf), map_getD_eq_self (map_eq_self_of_mem hanyOf),
    map_getD_eq_self (map_eq_self_of_mem honeOf)⟩

end Node

namespace Schema

inductive Occurs : Schema → Schema → Prop where
  | refl (schema : Schema) : Occurs schema schema
  | child {inner schema : Schema} {n : Node Schema} (hmem : schema ∈ n.children)
      (h : Occurs inner schema) : Occurs inner (.node n)

theorem Occurs.trans {a b c : Schema} (hab : Occurs a b) (hbc : Occurs b c) : Occurs a c := by
  induction hbc with
  | refl => exact hab
  | child hmem _ ih => exact .child hmem ih

theorem occurs_of_mem_children {schema : Schema} {n : Node Schema} (h : schema ∈ n.children) :
    Occurs schema (.node n) := .child h (.refl schema)

/-- A property of all nodes of a schema, those of its definitions included. -/
def Everywhere (p : Node Schema → Prop) (schema : Schema) : Prop :=
  ∀ n : Node Schema, (Schema.node n).Occurs schema → p n

theorem Everywhere.of_occurs {p : Node Schema → Prop} {inner schema : Schema}
    (h : schema.Everywhere p) (hocc : inner.Occurs schema) : inner.Everywhere p :=
  fun n hn => h n (hn.trans hocc)

theorem everywhere_always {p : Node Schema → Prop} (accepted : Bool) :
    (Schema.always accepted).Everywhere p := by
  intro n hn
  cases hn

theorem everywhere_node_iff {p : Node Schema → Prop} {n : Node Schema} :
    (Schema.node n).Everywhere p ↔ p n ∧ ∀ schema ∈ n.children, schema.Everywhere p := by
  constructor
  · intro h
    exact ⟨h n (.refl _), fun schema hmem => h.of_occurs (occurs_of_mem_children hmem)⟩
  · rintro ⟨hn, hchildren⟩ m hm
    cases hm with
    | refl => exact hn
    | child hmem hocc => exact hchildren _ hmem m hocc

/-! ### Depth and references -/

theorem depth_node (n : Node Schema) :
    (Schema.node n).depth = (n.children.map depth).foldl max 0 + 1 := by
  unfold depth
  rw [fold_node, Node.children_map]

theorem refs_node (n : Node Schema) :
    (Schema.node n).refs = n.ref.toList ++ (n.children.map refs).flatten := by
  unfold refs
  rw [fold_node, Node.children_map]
  rfl

theorem depth_pos (schema : Schema) : 0 < schema.depth := by
  cases schema with
  | always accepted => simp [depth]
  | node n => rw [depth_node]; omega

theorem le_foldl_max {a : Nat} {as : List Nat} (h : a ∈ as) : a ≤ as.foldl max 0 := by
  rw [List.foldl_max]
  cases hm : as.max? with
  | none => rw [List.max?_eq_none_iff.mp hm] at h; cases h
  | some b =>
    have := (List.max?_eq_some_iff.mp hm).2 a h
    simpa using this

theorem depth_lt_of_mem_children {schema : Schema} {n : Node Schema} (h : schema ∈ n.children) :
    schema.depth < (Schema.node n).depth := by
  rw [depth_node]
  have := le_foldl_max (List.mem_map_of_mem (f := depth) h)
  omega

theorem Occurs.depth_le {inner schema : Schema} (h : Occurs inner schema) :
    inner.depth ≤ schema.depth := by
  induction h with
  | refl => exact Nat.le_refl _
  | child hmem _ ih =>
    have := depth_lt_of_mem_children hmem
    omega

theorem Occurs.refs_subset {inner schema : Schema} (h : Occurs inner schema) :
    inner.refs ⊆ schema.refs := by
  induction h with
  | refl => exact fun _ hr => hr
  | child hmem _ ih =>
    intro r hr
    rw [refs_node]
    exact List.mem_append_right _
      (List.mem_flatten.mpr ⟨_, List.mem_map_of_mem (f := refs) hmem, ih hr⟩)

theorem mem_refs_of_ref {n : Node Schema} {ref : String} (h : n.ref = some ref) :
    ref ∈ (Schema.node n).refs := by
  rw [refs_node, h]
  simp

/-- What holds of the booleans and passes from the children of a node to the node holds of all. -/
theorem induction {motive : Schema → Prop} (always : ∀ accepted, motive (.always accepted))
    (node : ∀ n, (∀ schema ∈ n.children, motive schema) → motive (.node n)) (schema : Schema) :
    motive schema := by
  induction hd : schema.depth using Nat.strongRecOn generalizing schema with
  | ind d ih =>
    cases schema with
    | always accepted => exact always accepted
    | node n =>
      apply node
      intro child hmem
      exact ih child.depth (hd ▸ depth_lt_of_mem_children hmem) child rfl

/-! ### What references resolve to -/

theorem occurs_of_lookup_definitions {root target : Schema} {name : String}
    (h : root.definitions.lookup name = some target) : Occurs target root := by
  cases root with
  | always accepted => cases h
  | node n =>
    apply occurs_of_mem_children
    have hmem : target ∈ (n.definitions.getD []).map Prod.snd := by
      obtain ⟨before, after, heq, _⟩ := List.lookup_eq_some_iff.mp h
      have hd : n.definitions.getD [] = before ++ (name, target) :: after := heq
      rw [hd]
      simp
    simp only [Node.children, List.mem_append]
    tauto

theorem occurs_of_chase {root target : Schema} {fuel : Nat} {seen : List String} {ref : String}
    (h : root.chase fuel seen ref = .found target) : Occurs target root := by
  induction fuel generalizing seen ref with
  | zero => cases h
  | succ fuel ih =>
    rw [chase] at h
    split_ifs at h with hseen hroot
    · cases h
      exact .refl root
    · split at h
      · cases h
      · split at h
        · cases h
        · rename_i hlookup
          split at h
          · exact ih h
          · cases h
            exact occurs_of_lookup_definitions hlookup

theorem occurs_of_resolveReference {root target : Schema} {ref : String}
    (h : root.resolveReference ref = some target) : Occurs target root := by
  unfold resolveReference at h
  split at h
  · cases h
    exact occurs_of_chase ‹_›
  · cases h

end Schema

end JsonSchema
