import JsonSchema.Proofs.Keywords
import JsonSchema.Proofs.Retold

/-!
# Checks of rewritten nodes

Checks look no further than the children of a node, for the value itself and for its parts. So if what
they find there is retold when the children are rewritten, then the findings of the rewritten node are
those of the node, retold (`retold_checkNode`). Where nothing is rewritten, two ways to check that agree
on the children give the node the same findings (`checkNode_congr`).
-/

namespace JsonSchema

open Findings

/-! ### Rewritten nodes -/

theorem lookup_mapMembers {σ τ : Type} (f : σ → τ) (members : List (String × σ)) (name : String) :
    (mapMembers f members).lookup name = (members.lookup name).map f := by
  induction members with
  | nil => rfl
  | cons member rest ih =>
    have hcons : mapMembers f (member :: rest) = (member.1, f member.2) :: mapMembers f rest := rfl
    rw [hcons, List.lookup_cons, List.lookup_cons]
    split
    · rfl
    · exact ih

theorem getD_map_nil {α β : Type} (f : List α → List β) (hf : f [] = []) (found : Option (List α)) :
    (found.map f).getD [] = f (found.getD []) := by
  cases found with
  | none => exact hf.symm
  | some values => rfl

def Node.rewrite {σ τ : Type} (f : σ → τ) (keywords : Keywords) (n : Node σ) : Node τ :=
  { n.map f with toKeywords := keywords }

theorem Node.rewrite_id {σ : Type} (n : Node σ) : n.rewrite id n.toKeywords = n := by
  have hmap : n.map id = n := map_eq_self fun _ _ => rfl
  rw [rewrite, hmap]

theorem Schema.itemAt_rewrite {f : Schema → Schema} {keywords : Keywords} (n : Node Schema)
    (index : Nat) :
    Schema.itemAt (n.rewrite f keywords) index = (Schema.itemAt n index).map f := by
  have hitems : (n.rewrite f keywords).items = n.items.map f := rfl
  have hadditional : (n.rewrite f keywords).additionalItems = n.additionalItems.map f := rfl
  unfold itemAt
  rw [hitems, hadditional]
  cases n.items with
  | unconstrained => rfl
  | uniform schema => rfl
  | positional schemas =>
    simp only [Items.map, List.length_map, List.getElem_map]
    split_ifs <;> rfl

theorem isOverflow_map (f : Schema → Schema) (items : Items Schema) (index : Nat) :
    isOverflow (items.map f) index = isOverflow items index := by
  cases items with
  | positional schemas => simp [isOverflow, Items.map]
  | _ => rfl

theorem readPatterns_mapMembers (f : Schema → Schema) (members : List (String × Schema)) :
    readPatterns (mapMembers f members) =
      (readPatterns members).map (List.map fun entry => (entry.1, f entry.2)) := by
  induction members with
  | nil => rfl
  | cons member rest ih =>
    obtain ⟨text, schema⟩ := member
    have hcons : mapMembers f ((text, schema) :: rest) = (text, f schema) :: mapMembers f rest := rfl
    rw [hcons, readPatterns, readPatterns, ih]
    cases Pattern.parse text with
    | error defect => rfl
    | ok pattern => cases readPatterns rest <;> rfl

theorem retold_of_readPatterns {t : TypeSpec → TypeSpec} {members : List (String × Schema)}
    {found : Findings} (h : readPatterns members = .error found) : found.Retold t found := by
  induction members with
  | nil => cases h
  | cons member rest ih =>
    obtain ⟨text, schema⟩ := member
    rw [readPatterns] at h
    cases hparse : Pattern.parse text with
    | error defect =>
      rw [hparse] at h
      cases h
      exact retold_withPattern text fun _ => retold_clean
    | ok pattern =>
      rw [hparse] at h
      cases hrest : readPatterns rest with
      | error found' =>
        rw [hrest] at h
        cases h
        exact ih hrest
      | ok patterns =>
        rw [hrest] at h
        cases h

theorem schemasFor_map (f : Schema → Schema) (properties : List (String × Schema))
    (patterns : List (Pattern × Schema)) (name : String) :
    schemasFor (mapMembers f properties) (patterns.map fun entry => (entry.1, f entry.2)) name =
      (schemasFor properties patterns name).map f := by
  have hnamed : (((mapMembers f properties).lookup name).toList) =
      ((properties.lookup name).toList).map f := by
    rw [lookup_mapMembers]
    cases properties.lookup name <;> rfl
  simp only [schemasFor, hnamed, List.map_append, List.filter_map, List.map_map]
  rfl

/-- A function on schemas that keeps the booleans and the references, and rewrites any other node from
its children up. -/
structure Schema.Rewriting (t : TypeSpec → TypeSpec) (f : Schema → Schema) : Prop where
  always : ∀ accepted, f (.always accepted) = .always accepted
  node : ∀ n : Node Schema, ∃ n', f (.node n) = .node n' ∧ n'.ref = n.ref ∧
    (n.ref = none → ∃ keywords, n' = n.rewrite f keywords ∧ n.toKeywords.Rewritten t keywords)

theorem Schema.rewriting_id : Rewriting id id where
  always _ := rfl
  node n := ⟨n, rfl, rfl, fun _ => ⟨n.toKeywords, n.rewrite_id.symm, n.toKeywords.rewritten_id⟩⟩

/-! ### Keywords with sub-schemas -/

section SubSchemas

variable {t : TypeSpec → TypeSpec} {f : Schema → Schema} {here here' : Schema → Findings}
  {below below' : Value → Schema → Findings} {n : Node Schema} {keywords : Keywords}

theorem retold_checkItemBy (hf : Schema.Rewriting t f) (index : Nat) {item : Value}
    (hbelow : ∀ schema ∈ n.children, (below item schema).Retold t (below' item (f schema))) :
    (checkItemBy below n index item).Retold t
      (checkItemBy below' (n.rewrite f keywords) index item) := by
  have hoverflow : isOverflow (n.rewrite f keywords).items index = isOverflow n.items index :=
    isOverflow_map f n.items index
  unfold checkItemBy
  rw [Schema.itemAt_rewrite, hoverflow]
  cases hitem : Schema.itemAt n index with
  | none => exact retold_clean
  | some schema =>
    have hschema := hbelow schema (Node.mem_children_of_itemAt hitem)
    rw [Option.map_some]
    cases schema with
    | always accepted =>
      rw [hf.always] at hschema ⊢
      cases accepted with
      | true => exact hschema
      | false =>
        cases isOverflow n.items index with
        | true => exact retold_report .extraItem
        | false => exact hschema
    | node m =>
      obtain ⟨m', hm', -⟩ := hf.node m
      rw [hm'] at hschema ⊢
      exact hschema

theorem retold_checkItems (hf : Schema.Rewriting t f) (first : Nat) {items : List Value}
    (hbelow : ∀ item ∈ items, ∀ schema ∈ n.children,
      (below item schema).Retold t (below' item (f schema))) :
    (checkItems below n first items).Retold t
      (checkItems below' (n.rewrite f keywords) first items) := by
  induction items generalizing first with
  | nil => exact retold_clean
  | cons item rest ih =>
    obtain ⟨hitem, hrest⟩ := List.forall_mem_cons.mp hbelow
    exact .append (.under (retold_checkItemBy hf first hitem) (.item first)) (ih (first + 1) hrest)

theorem retold_checkContains {contains : Option Schema} {items : List Value}
    (hbelow : ∀ item ∈ items, ∀ schema ∈ contains,
      (below item schema).Retold t (below' item (f schema))) :
    (checkContains below contains items).Retold t
      (checkContains below' (contains.map f) items) := by
  cases contains with
  | none => exact retold_clean
  | some schema =>
    rw [Option.map_some]
    unfold checkContains
    dsimp only
    rw [anyPasses_of_retold fun item hitem => hbelow item hitem schema rfl]
    exact retold_ofResult _ fun found => retold_require found .nothingContained

theorem retold_checkMemberBy (hf : Schema.Rewriting t f) {schemas : List Schema}
    {additional : Option Schema} {value : Value}
    (hschemas : ∀ schema ∈ schemas, (below value schema).Retold t (below' value (f schema)))
    (hadditional : ∀ schema ∈ additional,
      (below value schema).Retold t (below' value (f schema))) :
    (checkMemberBy below schemas additional value).Retold t
      (checkMemberBy below' (schemas.map f) (additional.map f) value) := by
  cases schemas with
  | nil =>
    cases additional with
    | none => exact retold_clean
    | some schema =>
      have hschema := hadditional schema rfl
      rw [Option.map_some]
      cases schema with
      | always accepted =>
        rw [hf.always] at hschema ⊢
        cases accepted with
        | true => exact hschema
        | false => exact retold_report .extraProperty
      | node m =>
        obtain ⟨m', hm', -⟩ := hf.node m
        rw [hm'] at hschema ⊢
        exact hschema
  | cons schema rest =>
    have hmap : ((schema :: rest).map f).map (below' value) =
        (schema :: rest).map fun other => below' value (f other) := List.map_map
    have hconcat : (concat ((schema :: rest).map (below value))).Retold t
        (concat (((schema :: rest).map f).map (below' value))) := by
      rw [hmap]
      exact retold_concat hschemas
    exact hconcat

theorem retold_checkProperties (hf : Schema.Rewriting t f) {members : List (String × Value)}
    (hbelow : ∀ member ∈ members, ∀ schema ∈ n.children,
      (below member.2 schema).Retold t (below' member.2 (f schema))) :
    (checkProperties below n members).Retold t
      (checkProperties below' (n.rewrite f keywords) members) := by
  have hpatterns : (n.rewrite f keywords).patternProperties.getD [] =
      mapMembers f (n.patternProperties.getD []) := getD_map_nil _ rfl _
  have hproperties : (n.rewrite f keywords).properties.getD [] =
      mapMembers f (n.properties.getD []) := getD_map_nil _ rfl _
  unfold checkProperties
  rw [hpatterns, readPatterns_mapMembers]
  cases hread : readPatterns (n.patternProperties.getD []) with
  | error found => exact retold_of_readPatterns hread
  | ok patterns =>
    apply retold_concat
    intro member hmember
    apply Retold.under
    rw [hproperties, schemasFor_map]
    have hnamed : ∀ schema ∈ schemasFor (n.properties.getD []) patterns member.1,
        (below member.2 schema).Retold t (below' member.2 (f schema)) := by
      intro schema hschema
      have hnames := (mem_schemasFor hread member.1 schema).mp hschema
      exact hbelow member hmember schema (Node.mem_children_of_names hnames)
    have hadditional : ∀ schema ∈ n.additionalProperties,
        (below member.2 schema).Retold t (below' member.2 (f schema)) :=
      fun schema hschema =>
        hbelow member hmember schema (Node.mem_children_of_additionalProperties hschema)
    exact retold_checkMemberBy hf hnamed hadditional

theorem retold_checkPropertyNames {propertyNames : Option Schema} {members : List (String × Value)}
    (hbelow : ∀ member ∈ members, ∀ schema ∈ propertyNames,
      (below (.string member.1) schema).Retold t (below' (.string member.1) (f schema))) :
    (checkPropertyNames below propertyNames members).Retold t
      (checkPropertyNames below' (propertyNames.map f) members) := by
  cases propertyNames with
  | none => exact retold_clean
  | some schema =>
    exact retold_concat fun member hmember => (hbelow member hmember schema rfl).under _

theorem retold_checkDependencies {members : List (String × Value)}
    {entries : List (String × Dependency Schema)}
    (hhere : ∀ trigger schema, (trigger, .conforms schema) ∈ entries →
      (here schema).Retold t (here' (f schema))) :
    (checkDependencies here members entries).Retold t
      (checkDependencies here' members (mapMembers (Dependency.map f) entries)) := by
  induction entries with
  | nil => exact retold_clean
  | cons entry rest ih =>
    obtain ⟨trigger, dependency⟩ := entry
    have hrest := ih fun other schema hother => hhere other schema (List.mem_cons_of_mem _ hother)
    have hcons : mapMembers (Dependency.map f) ((trigger, dependency) :: rest) =
        (trigger, dependency.map f) :: mapMembers (Dependency.map f) rest := rfl
    rw [hcons]
    cases dependency with
    | conforms schema =>
      have hschema := hhere trigger schema List.mem_cons_self
      simp only [checkDependencies, Dependency.map]
      split_ifs
      · exact hschema.append hrest
      · exact hrest
    | requires names =>
      simp only [checkDependencies, Dependency.map]
      split_ifs
      · exact hrest
      · exact retold_report .missingProperties
      · exact hrest

theorem retold_checkAllOf {branches : List Schema}
    (hhere : ∀ branch ∈ branches, (here branch).Retold t (here' (f branch))) :
    (checkAllOf here branches).Retold t (checkAllOf here' (branches.map f)) := by
  induction branches with
  | nil => exact retold_clean
  | cons branch rest ih =>
    obtain ⟨hbranch, hrest⟩ := List.forall_mem_cons.mp hhere
    have hretold : here' (f branch) = (here branch).mapTypes t := hbranch
    rw [List.map_cons, checkAllOf, checkAllOf, hretold]
    obtain ⟨violations, fault⟩ := here branch
    cases fault with
    | some fault => exact retold_raise fault
    | none =>
      cases violations with
      | nil => exact ih hrest
      | cons first others => rfl

theorem retold_checkAnyOf {anyOf : Option (List Schema)}
    (hhere : ∀ branches ∈ anyOf, ∀ branch ∈ branches,
      (here branch).Retold t (here' (f branch))) :
    (checkAnyOf here anyOf).Retold t (checkAnyOf here' (anyOf.map (List.map f))) := by
  cases anyOf with
  | none => exact retold_clean
  | some branches =>
    rw [Option.map_some]
    unfold checkAnyOf
    dsimp only
    rw [List.map_map, ← anyPasses_of_retold (hhere branches rfl)]
    exact retold_ofResult _ fun found => retold_require found .noneOfAny

theorem retold_checkOneOf {oneOf : Option (List Schema)}
    (hhere : ∀ branches ∈ oneOf, ∀ branch ∈ branches,
      (here branch).Retold t (here' (f branch))) :
    (checkOneOf here oneOf).Retold t (checkOneOf here' (oneOf.map (List.map f))) := by
  cases oneOf with
  | none => exact retold_clean
  | some branches =>
    rw [Option.map_some]
    unfold checkOneOf
    dsimp only
    rw [List.map_map, ← countPasses_of_retold (hhere branches rfl)]
    refine retold_ofResult _ fun count => ?_
    split_ifs
    · exact retold_report .noneOfOne
    · exact retold_require _ (.severalOfOne count)

/-! ### All keywords -/

theorem retold_checkKind (hf : Schema.Rewriting t f) (hkeywords : n.toKeywords.Rewritten t keywords)
    {value : Value} (hhere : ∀ schema ∈ n.children, (here schema).Retold t (here' (f schema)))
    (hbelow : ∀ part ∈ value.parts, ∀ schema ∈ n.children,
      (below part schema).Retold t (below' part (f schema))) :
    (checkKind here below n value).Retold t
      (checkKind here' below' (n.rewrite f keywords) value) := by
  cases value with
  | null => exact retold_clean
  | bool accepted => exact retold_clean
  | number number =>
    have hlimits : (n.rewrite f keywords).toNumberLimits = n.toNumberLimits := hkeywords.number
    rw [checkKind, checkKind, hlimits]
    exact retold_numberLimits _ number
  | string text =>
    have hlimits : (n.rewrite f keywords).toStringLimits = n.toStringLimits := hkeywords.string
    rw [checkKind, checkKind, hlimits]
    exact retold_stringLimits _ text
  | array items =>
    have hlimits : (n.rewrite f keywords).toArrayLimits = n.toArrayLimits := hkeywords.array
    have hcontains : (checkContains below n.contains items).Retold t
        (checkContains below' (n.contains.map f) items) :=
      retold_checkContains fun item hitem schema hschema =>
        hbelow item hitem schema (Node.mem_children_of_contains hschema)
    rw [checkKind, checkKind, checkArray, checkArray, hlimits]
    exact .firstOf_cons (retold_arrayLimits _ items)
      (.firstOf_cons (retold_checkItems hf 0 hbelow)
      (.firstOf_cons hcontains retold_firstOf_nil))
  | object members =>
    have hlimits : (n.rewrite f keywords).toObjectLimits = n.toObjectLimits := hkeywords.object
    have hdependencies : (n.rewrite f keywords).dependencies.getD [] =
        mapMembers (Dependency.map f) (n.dependencies.getD []) := getD_map_nil _ rfl _
    have hproperties : (checkProperties below n members).Retold t
        (checkProperties below' (n.rewrite f keywords) members) :=
      retold_checkProperties hf fun member hmember =>
        hbelow _ (List.mem_append_left _ (List.mem_map_of_mem hmember))
    have hnames : (checkPropertyNames below n.propertyNames members).Retold t
        (checkPropertyNames below' (n.propertyNames.map f) members) :=
      retold_checkPropertyNames fun member hmember schema hschema =>
        hbelow _ (List.mem_append_right _ (List.mem_map_of_mem hmember)) schema
          (Node.mem_children_of_propertyNames hschema)
    rw [checkKind, checkKind, checkObject, checkObject, hlimits, hdependencies]
    exact .firstOf_cons (retold_objectLimits _ members)
      (.firstOf_cons hproperties
      (.firstOf_cons hnames
      (.firstOf_cons (retold_checkDependencies fun trigger schema hmem =>
        hhere schema (Node.mem_children_of_conforms hmem)) retold_firstOf_nil)))

/-- If the findings of the children are retold, so are those of the node. -/
theorem retold_checkNode (hf : Schema.Rewriting t f) (hkeywords : n.toKeywords.Rewritten t keywords)
    {value : Value} (hhere : ∀ schema ∈ n.children, (here schema).Retold t (here' (f schema)))
    (hbelow : ∀ part ∈ value.parts, ∀ schema ∈ n.children,
      (below part schema).Retold t (below' part (f schema))) :
    (checkNode here below n value).Retold t
      (checkNode here' below' (n.rewrite f keywords) value) := by
  have henum : (n.rewrite f keywords).enum = n.enum := hkeywords.enum
  have hconst : (n.rewrite f keywords).const = n.const := hkeywords.const
  have hbranches : (n.rewrite f keywords).allOf.getD [] = (n.allOf.getD []).map f :=
    getD_map_nil _ rfl _
  have hallOf : (checkAllOf here (n.allOf.getD [])).Retold t
      (checkAllOf here' ((n.allOf.getD []).map f)) := by
    obtain ⟨-, -, -, -, -, -, -, -, -, hall, -, -⟩ := Node.forall_mem_children.mp hhere
    exact retold_checkAllOf hall
  have hanyOf : (checkAnyOf here n.anyOf).Retold t (checkAnyOf here' (n.anyOf.map (List.map f))) :=
    retold_checkAnyOf fun branches hbranches branch hmem =>
      hhere branch (Node.mem_children_of_anyOf hbranches hmem)
  have honeOf : (checkOneOf here n.oneOf).Retold t (checkOneOf here' (n.oneOf.map (List.map f))) :=
    retold_checkOneOf fun branches hbranches branch hmem =>
      hhere branch (Node.mem_children_of_oneOf hbranches hmem)
  rw [checkNode, checkNode, henum, hconst, hbranches]
  exact .firstOf_cons (retold_checkEnum _ value)
    (.firstOf_cons (retold_checkConst _ value)
    (.firstOf_cons (hkeywords.retold_checkType value)
    (.firstOf_cons (retold_checkKind hf hkeywords hhere hbelow)
    (.firstOf_cons hallOf (.firstOf_cons hanyOf (.firstOf_cons honeOf retold_firstOf_nil))))))

/-- A check asks for nothing but the findings of the children. -/
theorem checkNode_congr {value : Value} (hhere : ∀ schema ∈ n.children, here schema = here' schema)
    (hbelow : ∀ part ∈ value.parts, ∀ schema ∈ n.children,
      below part schema = below' part schema) :
    checkNode here below n value = checkNode here' below' n value := by
  have hretold : (checkNode here below n value).Retold id
      (checkNode here' below' (n.rewrite id n.toKeywords) value) :=
    retold_checkNode Schema.rewriting_id n.toKeywords.rewritten_id
      (fun schema hmem => retold_id_iff.mpr (hhere schema hmem).symm)
      fun part hpart schema hmem => retold_id_iff.mpr (hbelow part hpart schema hmem).symm
  rw [n.rewrite_id] at hretold
  exact (retold_id_iff.mp hretold).symm

end SubSchemas

end JsonSchema
