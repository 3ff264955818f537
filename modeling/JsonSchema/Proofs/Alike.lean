import JsonSchema.Proofs.Cycles
import JsonSchema.Proofs.Matching
import JsonSchema.Proofs.References
import Mathlib.Tactic.MkIffOfInductiveProp

/-!
# Schemas that are valid alike

Two nodes are alike if their keywords ask for the same, with related schemas in them, and if lists
whose order does not count match. A relation under which related schemas are alike, node by node, is a
likeness. Schemas and roots that are related by a likeness have the same valid visits, by recursion
along needed visits; cycles are cut in both alike.
-/

open scoped Classical

namespace JsonSchema

attribute [mk_iff] Node.ArrayHolds Node.ObjectHolds Node.HoldsBesideOneOf Node.Holds

attribute [mk_iff] ObjectLimits.Holds

variable {σ τ : Type} {R : σ → τ → Prop}

/-- Related options hold related values, so a condition on these holds of both or of neither. -/
theorem forall_mem_iff_of_rel {p : σ → Prop} {q : τ → Prop} {a : Option σ} {b : Option τ}
    (h : Option.Rel R a b) (hiff : ∀ x ∈ a, ∀ y, R x y → (p x ↔ q y)) :
    (∀ x ∈ a, p x) ↔ ∀ y ∈ b, q y := by
  cases h with
  | none => exact iff_of_true nofun nofun
  | @some x y hxy => simpa using hiff x rfl y hxy

/-! ### Nodes -/

structure Members.Alike (R : σ → τ → Prop) (as : List (String × σ)) (bs : List (String × τ)) :
    Prop where
  matched : Matched (SameName R) as bs
  distinct : Members.Distinct bs

theorem Members.Alike.rel_lookup {as : List (String × σ)} {bs : List (String × τ)}
    (h : Members.Alike R as bs) (name : String) :
    Option.Rel R (as.lookup name) (bs.lookup name) := by
  have hname (a : String × σ) (b : String × τ) (hsame : SameName R a b) : a.1 = b.1 := by
    cases hsame
    rfl
  have hrel := rel_lookup_of_matched hname h.matched h.distinct name
  generalize as.lookup name = found at hrel ⊢
  generalize bs.lookup name = found' at hrel ⊢
  cases hrel with
  | none => exact .none
  | some hsame =>
    cases hsame with
    | mk hrelated => exact .some hrelated

inductive Items.Alike (R : σ → τ → Prop) : Items σ → Items τ → Prop
  | unconstrained : Alike R .unconstrained .unconstrained
  | uniform {schema : σ} {other : τ} (h : R schema other) : Alike R (.uniform schema) (.uniform other)
  | positional {schemas : List σ} {others : List τ} (h : List.Forall₂ R schemas others) :
      Alike R (.positional schemas) (.positional others)

inductive Dependency.Alike (R : σ → τ → Prop) : Dependency σ → Dependency τ → Prop
  | conforms {schema : σ} {other : τ} (h : R schema other) :
      Alike R (.conforms schema) (.conforms other)
  | requires {names others : List String} (h : names.Perm others) :
      Alike R (.requires names) (.requires others)

/-- Two nodes whose keywords ask for the same, if related schemas do. -/
structure Node.Alike (R : σ → τ → Prop) (n : Node σ) (n' : Node τ) : Prop where
  type : ∀ value, n.type.accepts value = n'.type.accepts value
  ref : n.ref = n'.ref
  enum : Option.Rel List.Perm n.enum n'.enum
  const : n.const = n'.const
  number : n.toNumberLimits = n'.toNumberLimits
  string : n.toStringLimits = n'.toStringLimits
  array : n.toArrayLimits = n'.toArrayLimits
  maxProperties : n.maxProperties = n'.maxProperties
  minProperties : n.minProperties = n'.minProperties
  required : Option.Rel List.Perm n.required n'.required
  definitions : Members.Alike R (n.definitions.getD []) (n'.definitions.getD [])
  items : n.items.Alike R n'.items
  additionalItems : Option.Rel R n.additionalItems n'.additionalItems
  contains : Option.Rel R n.contains n'.contains
  properties : Members.Alike R (n.properties.getD []) (n'.properties.getD [])
  patternProperties : Members.Alike R (n.patternProperties.getD []) (n'.patternProperties.getD [])
  additionalProperties : Option.Rel R n.additionalProperties n'.additionalProperties
  propertyNames : Option.Rel R n.propertyNames n'.propertyNames
  dependencies :
    Members.Alike (Dependency.Alike R) (n.dependencies.getD []) (n'.dependencies.getD [])
  allOf : Option.Rel (Matched R) n.allOf n'.allOf
  anyOf : Option.Rel (Matched R) n.anyOf n'.anyOf
  oneOf : Option.Rel (Matched R) n.oneOf n'.oneOf

namespace Node

theorem forall_names_iff {n : Node Schema} {name : String} {p : Schema → Prop} :
    (∀ schema, n.Names name schema → p schema) ↔
      (∀ schema ∈ (n.properties.getD []).lookup name, p schema) ∧
      ∀ entry ∈ n.patternProperties.getD [],
        (∃ pattern, Pattern.parse entry.1 = .ok pattern ∧ pattern.search name) → p entry.2 := by
  constructor
  · intro h
    refine ⟨fun schema hmem => h schema (.inl hmem), fun entry hmem => ?_⟩
    rintro ⟨pattern, hparse, hsearch⟩
    exact h entry.2 (.inr ⟨entry.1, pattern, hmem, hparse, hsearch⟩)
  · rintro ⟨hproperties, hpatterns⟩ schema (hlookup | ⟨written, pattern, hmem, hparse, hsearch⟩)
    · exact hproperties schema hlookup
    · exact hpatterns _ hmem ⟨pattern, hparse, hsearch⟩

end Node

section Nodes

variable {R : Schema → Schema → Prop} {n n' : Node Schema} {here here' : Schema → Prop}
  {below below' : Value → Schema → Prop}

theorem Schema.itemAt_alike (h : n.Alike R n') (index : Nat) :
    Option.Rel R (itemAt n index) (itemAt n' index) := by
  have hitems := h.items
  unfold itemAt
  generalize n.items = items at hitems ⊢
  generalize n'.items = items' at hitems ⊢
  cases hitems with
  | unconstrained => exact .none
  | uniform hschema => exact .some hschema
  | @positional schemas others hall =>
    have hlength := hall.length_eq
    dsimp only
    split_ifs with hlt hlt' hlt'
    · exact .some (hall.get hlt hlt')
    · omega
    · omega
    · exact h.additionalItems

/-- A condition on the schemas that are named for a member holds of those of both nodes or of
neither. -/
theorem Node.Alike.forall_names_congr (h : n.Alike R n') {name : String} {p q : Schema → Prop}
    (hiff : ∀ schema ∈ n.children, ∀ other, R schema other → (p schema ↔ q other)) :
    (∀ schema, n.Names name schema → p schema) ↔ ∀ schema, n'.Names name schema → q schema := by
  rw [forall_names_iff, forall_names_iff]
  refine and_congr (forall_mem_iff_of_rel (h.properties.rel_lookup name) fun schema hmem => ?_)
    (h.patternProperties.matched.forall_iff ?_)
  · exact hiff schema (mem_children_of_names (.inl hmem))
  · rintro _ hmem _ ⟨hrelated⟩
    refine forall_congr' fun ⟨pattern, hpattern⟩ => ?_
    exact hiff _ (mem_children_of_names (.inr ⟨_, pattern, hmem, hpattern⟩)) _ hrelated

theorem ObjectLimits.holds_iff_of_perm {limits limits' : ObjectLimits}
    (hmaximum : limits.maxProperties = limits'.maxProperties)
    (hminimum : limits.minProperties = limits'.minProperties)
    (hrequired : Option.Rel List.Perm limits.required limits'.required)
    (members : List (String × Value)) : limits.Holds members ↔ limits'.Holds members := by
  rw [holds_iff, holds_iff, hmaximum, hminimum]
  refine and_congr_right fun _ => and_congr_right fun _ => ?_
  exact forall_mem_iff_of_rel hrequired fun names _ others hperm =>
    forall_congr' fun name => imp_congr_left hperm.mem_iff

variable (h : n.Alike R n')
include h

theorem Node.Alike.arrayHolds_iff {items : List Value}
    (hbelow : ∀ item ∈ items, ∀ schema ∈ n.children, ∀ other, R schema other →
      (below item schema ↔ below' item other)) :
    n.ArrayHolds below items ↔ n'.ArrayHolds below' items := by
  rw [Node.arrayHolds_iff, Node.arrayHolds_iff, h.array]
  refine and_congr_right fun _ => and_congr ?_ ?_
  · refine forall_congr' fun index => forall_congr' fun item => forall_congr' fun hitem => ?_
    refine forall_mem_iff_of_rel (Schema.itemAt_alike h index) fun schema hmem => ?_
    exact hbelow item (List.mem_of_getElem? hitem) schema (mem_children_of_itemAt hmem)
  · refine forall_mem_iff_of_rel h.contains fun schema hmem other hrelated => ?_
    refine exists_congr fun item => and_congr_right fun hitem => ?_
    exact hbelow item hitem schema (mem_children_of_contains hmem) other hrelated

theorem Node.Alike.objectHolds_iff {members : List (String × Value)}
    (hhere : ∀ schema ∈ n.children, ∀ other, R schema other → (here schema ↔ here' other))
    (hbelow : ∀ part ∈ (Value.object members).parts, ∀ schema ∈ n.children, ∀ other,
      R schema other → (below part schema ↔ below' part other)) :
    n.ObjectHolds here below members ↔ n'.ObjectHolds here' below' members := by
  have hvalue : ∀ member ∈ members, member.2 ∈ (Value.object members).parts :=
    fun member hmem => List.mem_append_left _ (List.mem_map_of_mem hmem)
  have hname : ∀ member ∈ members, .string member.1 ∈ (Value.object members).parts :=
    fun member hmem => List.mem_append_right _ (List.mem_map_of_mem hmem)
  rw [Node.objectHolds_iff, Node.objectHolds_iff]
  refine and_congr ?_ (and_congr ?_ (and_congr ?_ (and_congr ?_ (and_congr ?_ ?_))))
  · exact ObjectLimits.holds_iff_of_perm h.maxProperties h.minProperties h.required members
  · refine h.patternProperties.matched.forall_iff ?_
    rintro _ _ _ ⟨-⟩
    exact Iff.rfl
  · refine forall₂_congr fun member hmem => h.forall_names_congr fun schema hschema => ?_
    exact hbelow member.2 (hvalue member hmem) schema hschema
  · refine forall₂_congr fun member hmem => imp_congr ?_ ?_
    · exact h.forall_names_congr fun _ _ _ _ => Iff.rfl
    · refine forall_mem_iff_of_rel h.additionalProperties fun schema hschema => ?_
      exact hbelow member.2 (hvalue member hmem) schema
        (mem_children_of_additionalProperties hschema)
  · refine forall_mem_iff_of_rel h.propertyNames fun schema hschema other hrelated => ?_
    refine forall₂_congr fun member hmem => ?_
    exact hbelow _ (hname member hmem) schema (mem_children_of_propertyNames hschema) other hrelated
  · refine h.dependencies.matched.forall_iff ?_
    rintro _ hmem _ ⟨hrelated⟩
    refine forall_congr' fun _ => ?_
    cases hrelated with
    | conforms hschema => exact hhere _ (mem_children_of_conforms hmem) _ hschema
    | requires hperm => exact forall_congr' fun name => imp_congr_left hperm.mem_iff

theorem Node.Alike.kindHolds_iff {value : Value}
    (hhere : ∀ schema ∈ n.children, ∀ other, R schema other → (here schema ↔ here' other))
    (hbelow : ∀ part ∈ value.parts, ∀ schema ∈ n.children, ∀ other,
      R schema other → (below part schema ↔ below' part other)) :
    n.KindHolds here below value ↔ n'.KindHolds here' below' value := by
  cases value with
  | null => exact Iff.rfl
  | bool b => exact Iff.rfl
  | number number => exact iff_of_eq (congrArg (NumberLimits.Holds · number) h.number)
  | string text => exact iff_of_eq (congrArg (StringLimits.Holds · text) h.string)
  | array items => exact h.arrayHolds_iff hbelow
  | object members => exact h.objectHolds_iff hhere hbelow

/-- All keywords of two nodes that are alike hold, or not all of either, if related children are judged
alike. -/
theorem Node.Alike.holds_iff {value : Value}
    (hhere : ∀ schema ∈ n.children, ∀ other, R schema other → (here schema ↔ here' other))
    (hbelow : ∀ part ∈ value.parts, ∀ schema ∈ n.children, ∀ other,
      R schema other → (below part schema ↔ below' part other)) :
    n.Holds here below value ↔ n'.Holds here' below' value := by
  rw [Node.holds_iff, Node.holds_iff, Node.holdsBesideOneOf_iff,
    Node.holdsBesideOneOf_iff]
  refine and_congr (and_congr ?_ (and_congr ?_ (and_congr ?_ (and_congr ?_ (and_congr ?_ ?_))))) ?_
  · refine forall_mem_iff_of_rel h.enum fun choices _ others hperm => ?_
    exact exists_congr fun choice => and_congr_left fun _ => hperm.mem_iff
  · rw [h.const]
  · rw [h.type]
  · exact h.kindHolds_iff hhere hbelow
  · refine forall_mem_iff_of_rel h.allOf fun branches hbranches others hmatched => ?_
    exact hmatched.forall_iff fun branch hmem => hhere branch (mem_children_of_allOf hbranches hmem)
  · refine forall_mem_iff_of_rel h.anyOf fun branches hbranches others hmatched => ?_
    exact hmatched.exists_iff fun branch hmem => hhere branch (mem_children_of_anyOf hbranches hmem)
  · refine forall_mem_iff_of_rel h.oneOf fun branches hbranches others hmatched => ?_
    refine iff_of_eq (congrArg (· = 1) (hmatched.countP_eq fun branch hmem other hrelated => ?_))
    exact decide_eq_decide.mpr (hhere branch (mem_children_of_oneOf hbranches hmem) other hrelated)

end Nodes

/-! ### Schemas -/

inductive Schema.Alike (R : Schema → Schema → Prop) : Schema → Schema → Prop
  | always (accepted : Bool) : Alike R (.always accepted) (.always accepted)
  | node {n n' : Node Schema} (h : n.Alike R n') : Alike R (.node n) (.node n')

/-- Related schemas are alike, and their children are related again. -/
def Schema.Likeness (R : Schema → Schema → Prop) : Prop :=
  ∀ schema other, R schema other → Alike R schema other

namespace Schema

variable {R : Schema → Schema → Prop} {root root' : Schema}

theorem Likeness.ref? (hR : Likeness R) {schema other : Schema} (h : R schema other) :
    other.ref? = schema.ref? := by
  cases hR schema other h with
  | always => rfl
  | node hn => exact hn.ref.symm

theorem Likeness.definitions (hR : Likeness R) (h : R root root') :
    Members.Alike R root.definitions root'.definitions := by
  cases hR root root' h with
  | always => exact ⟨.nil, List.nodup_nil⟩
  | node hn => exact hn.definitions

theorem Likeness.rel_resolveReference (hR : Likeness R) (h : R root root') (ref : String) :
    Option.Rel R (root.resolveReference ref) (root'.resolveReference ref) :=
  resolveReference_related h (hR.definitions h).matched.length_eq.symm
    (hR.definitions h).rel_lookup (fun _ _ => hR.ref?) ref

/-- Schemas that are related by a likeness, as are their roots, are valid alike. -/
theorem valid_iff_of_likeness (hR : Likeness R) (hroot : R root root') {x : Visit} {other : Schema}
    (h : R x.schema other) : Valid root x ↔ Valid root' ⟨x.active, x.value, other⟩ := by
  induction x using (Visit.wellFounded_needs root).induction generalizing other with
  | _ x ih =>
    obtain ⟨active, value, schema⟩ := x
    cases hR schema other h with
    | always accepted => rw [valid_always, valid_always]
    | @node n n' hn =>
      cases href : n.ref with
      | some ref =>
        rw [valid_reference href, valid_reference (hn.ref.symm.trans href)]
        -- a cycle is cut by the text of the reference, which both nodes share
        by_cases hactive : ref ∈ active
        · simp only [hactive, true_or]
        · simp only [hactive, false_or]
          exact forall_mem_iff_of_rel (hR.rel_resolveReference hroot ref)
            fun target htarget other hrelated => ih _ (.target href hactive htarget) hrelated
      | none =>
        rw [valid_node href, valid_node (hn.ref.symm.trans href)]
        exact hn.holds_iff (fun schema hmem other hrelated => ih _ (.here hmem) hrelated)
          fun part hpart schema hmem other hrelated => ih _ (.below hpart hmem) hrelated

/-- Where two validations by a likeness come to verdicts, the verdicts are the same. -/
theorem isValid_eq_of_likeness (hR : Likeness R) (hroot : R root root') {schema other : Schema}
    (h : R schema other) {value : Value} {verdict verdict' : Bool}
    (hverdict : root.isValid schema value = .ok verdict)
    (hverdict' : root'.isValid other value = .ok verdict') : verdict = verdict' := by
  rw [Bool.eq_iff_iff, eq_true_iff_valid_of_isValid hverdict,
    eq_true_iff_valid_of_isValid hverdict']
  exact @valid_iff_of_likeness R root root' hR hroot ⟨[], value, schema⟩ other h

end Schema

end JsonSchema
