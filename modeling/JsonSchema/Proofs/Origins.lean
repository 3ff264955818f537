import JsonSchema.Proofs.Keywords

/-!
# Where findings come from

A check finds nothing but what its parts find. `Findings.Within` bounds both the violations that are
reported and the fault that may follow them. `within_checkNode` traces what a node finds: its
violations to its own keywords, which report at the value itself or at one of its parts, and to the
checks of its children on the value and on the parts, from where they are seen one step further out;
its faults to the division for `multipleOf`, to the patterns of the node, and to the same checks of
children. No other sub-schema is ever looked into.
-/

namespace JsonSchema

namespace Findings

variable {α : Type} {reported : Violation → Prop} {allowed : Fault → Prop} {f g : Findings}

def FaultsIn (allowed : Fault → Prop) (f : Findings) : Prop := ∀ fault ∈ f.fault, allowed fault

structure Within (reported : Violation → Prop) (allowed : Fault → Prop) (f : Findings) : Prop where
  violations : ∀ violation ∈ f.violations, reported violation
  fault : f.FaultsIn allowed

theorem within_clean : clean.Within reported allowed where
  violations violation hviolation := by cases hviolation
  fault fault hfault := by cases hfault

theorem within_report {cause : Cause} (h : reported ⟨[], cause⟩) :
    (report cause).Within reported allowed where
  violations violation hviolation := by
    cases List.mem_singleton.mp hviolation
    exact h
  fault fault hfault := by cases hfault

theorem within_raise {fault : Fault} (h : allowed fault) :
    (raise fault).Within reported allowed where
  violations violation hviolation := by cases hviolation
  fault other hother := by
    cases hother
    exact h

theorem within_require (holds : Bool) {cause : Cause} (h : reported ⟨[], cause⟩) :
    (require holds cause).Within reported allowed := by
  cases holds with
  | true => exact within_clean
  | false => exact within_report h

theorem Within.append (hf : f.Within reported allowed) (hg : g.Within reported allowed) :
    (f.append g).Within reported allowed := by
  obtain ⟨violations, fault⟩ := f
  cases fault with
  | some fault => exact hf
  | none =>
    refine ⟨fun violation hviolation => ?_, hg.fault⟩
    rcases List.mem_append.mp hviolation with hleft | hright
    · exact hf.violations violation hleft
    · exact hg.violations violation hright

theorem within_concat {checks : List Findings}
    (h : ∀ check ∈ checks, check.Within reported allowed) :
    (concat checks).Within reported allowed := by
  induction checks with
  | nil => exact within_clean
  | cons check rest ih =>
    have hrest := ih fun other hother => h other (List.mem_cons_of_mem check hother)
    exact (h check List.mem_cons_self).append hrest

theorem within_under {step : Step}
    (h : f.Within (fun violation => reported (violation.under step)) allowed) :
    (f.under step).Within reported allowed := by
  refine ⟨fun violation hviolation => ?_, h.fault⟩
  obtain ⟨inner, hinner, rfl⟩ := List.mem_map.mp hviolation
  exact h.violations inner hinner

theorem within_firstOf {checks : List (Unit → Findings)}
    (h : ∀ check ∈ checks, (check ()).Within reported allowed) :
    (firstOf checks).Within reported allowed := by
  induction checks with
  | nil => exact within_clean
  | cons check rest ih =>
    rw [firstOf]
    split_ifs with hclean
    · exact ih fun other hother => h other (List.mem_cons_of_mem check hother)
    · exact h check List.mem_cons_self

theorem within_ofResult {result : Except Fault α} {next : α → Findings}
    (herror : ∀ fault, result = .error fault → allowed fault)
    (hnext : ∀ a, (next a).Within reported allowed) :
    (ofResult result next).Within reported allowed := by
  cases result with
  | ok a => exact hnext a
  | error fault => exact within_raise (herror fault rfl)

theorem Within.mono {reported' : Violation → Prop} (h : f.Within reported allowed)
    (himp : ∀ violation, reported violation → reported' violation) :
    f.Within reported' allowed where
  violations violation hviolation := himp violation (h.violations violation hviolation)
  fault := h.fault

theorem FaultsIn.of_passes {fault : Fault} (h : f.FaultsIn allowed) (hf : f.passes = .error fault) :
    allowed fault := by
  obtain ⟨violations, ended⟩ := f
  cases violations with
  | cons violation rest => cases hf
  | nil =>
    cases ended with
    | none => cases hf
    | some ended =>
      cases hf
      exact h fault rfl

end Findings

open Findings

variable {reported : Violation → Prop} {allowed : Fault → Prop} {fault : Fault}

theorem allowed_of_anyPasses {checks : List (Unit → Findings)}
    (h : ∀ check ∈ checks, (check ()).FaultsIn allowed) (hf : anyPasses checks = .error fault) :
    allowed fault := by
  induction checks with
  | nil => cases hf
  | cons check rest ih =>
    rcases Except.bind_eq_error_iff.mp hf with hpasses | ⟨passed, -, hnext⟩
    · exact (h check List.mem_cons_self).of_passes hpasses
    · cases passed with
      | true => cases hnext
      | false => exact ih (fun other hother => h other (List.mem_cons_of_mem check hother)) hnext

theorem allowed_of_countPasses {checks : List (Unit → Findings)}
    (h : ∀ check ∈ checks, (check ()).FaultsIn allowed) (hf : countPasses checks = .error fault) :
    allowed fault := by
  induction checks with
  | nil => cases hf
  | cons check rest ih =>
    rcases Except.bind_eq_error_iff.mp hf with hpasses | ⟨passed, -, hnext⟩
    · exact (h check List.mem_cons_self).of_passes hpasses
    · rcases Except.bind_eq_error_iff.mp hnext with hothers | ⟨others, -, hsum⟩
      · exact ih (fun other hother => h other (List.mem_cons_of_mem check hother)) hothers
      · cases hsum

/-- A step leads from a value to a part of it: to an item, to a member, or to the name of one. -/
inductive Step.Between : Step → Value → Value → Prop where
  | item {index : Nat} {items : List Value} {item : Value} (h : items[index]? = some item) :
      Between (.item index) (.array items) item
  | property {name : String} {members : List (String × Value)} {value : Value}
      (h : (name, value) ∈ members) : Between (.property name) (.object members) value
  | propertyName {name : String} {members : List (String × Value)} {value : Value}
      (h : (name, value) ∈ members) : Between (.propertyName name) (.object members) (.string name)

/-- Steps lead from a value down to one of its places. Nothing lies below the name of a member. -/
inductive Value.HasPlace : Value → List Step → Prop where
  | here (value : Value) : HasPlace value []
  | inside {value part : Value} {step : Step} {steps : List Step} (h : step.Between value part)
      (hrest : HasPlace part steps) : HasPlace value (step :: steps)

theorem Step.Between.mem_parts {step : Step} {value part : Value} (h : step.Between value part) :
    part ∈ value.parts := by
  cases h with
  | item h => exact List.mem_of_getElem? h
  | property h => exact List.mem_append_left _ (List.mem_map.mpr ⟨_, h, rfl⟩)
  | propertyName h => exact List.mem_append_right _ (List.mem_map.mpr ⟨_, h, rfl⟩)

/-! ### Keywords without sub-schemas -/

theorem within_withPattern {written : String} {check : Pattern → Findings}
    (hwritten : (withPattern written fun _ => clean).Within reported allowed)
    (hcheck : ∀ pattern, (check pattern).Within reported allowed) :
    (withPattern written check).Within reported allowed := by
  unfold withPattern at hwritten ⊢
  cases hparse : Pattern.parse written with
  | ok pattern => exact hcheck pattern
  | error defect =>
    rw [hparse] at hwritten
    cases defect <;> exact hwritten

section Reports

variable (hreport : ∀ cause, reported ⟨[], cause⟩)
include hreport

theorem within_checkBound {α : Type} (bound : Option α) (violated : α → Bool)
    (cause : α → Cause) : (checkBound bound violated cause).Within reported allowed := by
  cases bound with
  | none => exact within_clean
  | some b => exact within_require _ (hreport _)

theorem within_numberLimits {limits : NumberLimits} {n : Number}
    (hmultiple : (checkMultiple limits.multipleOf n).Within reported allowed) :
    (limits.check n).Within reported allowed := by
  apply within_firstOf
  simp only [List.forall_mem_cons]
  exact ⟨hmultiple, within_checkBound hreport _ _ _,
    within_checkBound hreport _ _ _, within_checkBound hreport _ _ _,
    within_checkBound hreport _ _ _, nofun⟩

theorem within_checkPattern {pattern : Option String} (text : String)
    (hpattern : ∀ written ∈ pattern,
      (withPattern written fun _ => clean).Within reported allowed) :
    (checkPattern pattern text).Within reported allowed := by
  cases pattern with
  | none => exact within_clean
  | some written =>
    exact within_withPattern (hpattern written rfl) fun _ => within_require _ (hreport _)

theorem within_stringLimits {limits : StringLimits} (text : String)
    (hpattern : ∀ written ∈ limits.pattern,
      (withPattern written fun _ => clean).Within reported allowed) :
    (limits.check text).Within reported allowed := by
  apply within_firstOf
  simp only [List.forall_mem_cons]
  exact ⟨within_checkBound hreport _ _ _, within_checkBound hreport _ _ _,
    within_checkPattern hreport text hpattern, nofun⟩

theorem within_arrayLimits (limits : ArrayLimits) (items : List Value) :
    (limits.check items).Within reported allowed := by
  apply within_firstOf
  simp only [List.forall_mem_cons]
  exact ⟨within_checkBound hreport _ _ _, within_checkBound hreport _ _ _,
    within_require _ (hreport _), nofun⟩

theorem within_objectLimits (limits : ObjectLimits) (members : List (String × Value)) :
    (limits.check members).Within reported allowed := by
  apply within_firstOf
  simp only [List.forall_mem_cons]
  exact ⟨within_checkBound hreport _ _ _, within_checkBound hreport _ _ _,
    within_require _ (hreport _), nofun⟩

theorem within_checkEnum (enum : Option (List Value)) (value : Value) :
    (checkEnum enum value).Within reported allowed := by
  cases enum with
  | none => exact within_clean
  | some choices => exact within_require _ (hreport _)

theorem within_checkConst (const : Option Value) (value : Value) :
    (checkConst const value).Within reported allowed := by
  cases const with
  | none => exact within_clean
  | some expected => exact within_require _ (hreport _)

end Reports

/-! ### Keywords with sub-schemas -/

section SubSchemas

variable {here : Schema → Findings} {below : Value → Schema → Findings} {n : Node Schema}

theorem within_checkItems {items : List Value} (first : Nat)
    (hreport : ∀ index item, items[index]? = some item → ∀ cause,
      reported ⟨[.item (first + index)], cause⟩)
    (hbelow : ∀ index item, items[index]? = some item → ∀ schema ∈ n.children,
      (below item schema).Within (fun violation => reported (violation.under (.item (first + index))))
        allowed) :
    (checkItems below n first items).Within reported allowed := by
  induction items generalizing first with
  | nil => exact within_clean
  | cons item rest ih =>
    have hitem : (checkItem below n first item).Within reported allowed := by
      apply within_under
      unfold checkItemBy
      split
      · exact within_clean
      · exact within_report (hreport 0 item rfl _)
      · rename_i schema hschema _
        exact hbelow 0 item rfl schema (Node.mem_children_of_itemAt hschema)
    have hshift (index : Nat) : first + 1 + index = first + (index + 1) := by omega
    refine hitem.append (ih (first + 1) ?_ ?_)
    · intro index other hother cause
      rw [hshift]
      exact hreport (index + 1) other hother cause
    · intro index other hother schema hschema
      rw [hshift]
      exact hbelow (index + 1) other hother schema hschema

theorem within_checkContains {items : List Value} (hreport : ∀ cause, reported ⟨[], cause⟩)
    (hbelow : ∀ item ∈ items, ∀ schema ∈ n.children, (below item schema).FaultsIn allowed) :
    (checkContains below n.contains items).Within reported allowed := by
  cases hcontains : n.contains with
  | none => exact within_clean
  | some schema =>
    refine within_ofResult (fun fault hfault => ?_) fun _ => within_require _ (hreport _)
    refine allowed_of_anyPasses (fun check hcheck => ?_) hfault
    obtain ⟨item, hitem, rfl⟩ := List.mem_map.mp hcheck
    exact hbelow item hitem schema (Node.mem_children_of_contains hcontains)

theorem within_checkArray {items : List Value} (hreport : ∀ cause, reported ⟨[], cause⟩)
    (hstep : ∀ step part, step.Between (.array items) part → ∀ cause, reported ⟨[step], cause⟩)
    (hbelow : ∀ step part, step.Between (.array items) part → ∀ schema ∈ n.children,
      (below part schema).Within (fun violation => reported (violation.under step)) allowed) :
    (checkArray below n items).Within reported allowed := by
  have hitems : (checkItems below n 0 items).Within reported allowed := by
    apply within_checkItems
    · intro index item hitem cause
      exact hstep (.item (0 + index)) item (.item (by rwa [Nat.zero_add])) cause
    · intro index item hitem schema hschema
      exact hbelow (.item (0 + index)) item (.item (by rwa [Nat.zero_add])) schema hschema
  have hcontains : (checkContains below n.contains items).Within reported allowed := by
    refine within_checkContains hreport fun item hmem schema hschema => ?_
    obtain ⟨index, hitem⟩ := List.getElem?_of_mem hmem
    exact (hbelow _ item (.item hitem) schema hschema).fault
  apply within_firstOf
  simp only [List.forall_mem_cons]
  exact ⟨within_arrayLimits hreport _ _, hitems, hcontains, nofun⟩

theorem within_of_readPatterns {entries : List (String × Schema)} {found : Findings}
    (hpatterns : ∀ entry ∈ entries, (withPattern entry.1 fun _ => clean).Within reported allowed)
    (h : readPatterns entries = .error found) : found.Within reported allowed := by
  induction entries with
  | nil => cases h
  | cons entry rest ih =>
    obtain ⟨written, schema⟩ := entry
    rw [readPatterns] at h
    split at h
    · cases hrest : readPatterns rest with
      | ok patterns =>
        rw [hrest] at h
        cases h
      | error other =>
        rw [hrest] at h
        cases h
        exact ih (fun other hother => hpatterns other (List.mem_cons_of_mem _ hother)) hrest
    · cases h
      exact hpatterns (written, schema) List.mem_cons_self

theorem within_checkMemberBy {schemas : List Schema} {additional : Option Schema} {value : Value}
    (hreport : ∀ cause, reported ⟨[], cause⟩)
    (hschemas : ∀ schema ∈ schemas, (below value schema).Within reported allowed)
    (hadditional : ∀ schema ∈ additional, (below value schema).Within reported allowed) :
    (checkMemberBy below schemas additional value).Within reported allowed := by
  unfold checkMemberBy
  split
  · exact within_clean
  · exact within_report (hreport _)
  · exact hadditional _ rfl
  · apply within_concat
    intro check hcheck
    obtain ⟨schema, hschema, rfl⟩ := List.mem_map.mp hcheck
    exact hschemas schema hschema

theorem within_checkProperties {members : List (String × Value)}
    (hstep : ∀ step part, step.Between (.object members) part → ∀ cause, reported ⟨[step], cause⟩)
    (hpatterns : ∀ entry ∈ n.patternProperties.getD [],
      (withPattern entry.1 fun _ => clean).Within reported allowed)
    (hbelow : ∀ step part, step.Between (.object members) part → ∀ schema ∈ n.children,
      (below part schema).Within (fun violation => reported (violation.under step)) allowed) :
    (checkProperties below n members).Within reported allowed := by
  unfold checkProperties
  cases hread : readPatterns (n.patternProperties.getD []) with
  | error found => exact within_of_readPatterns hpatterns hread
  | ok patterns =>
    apply within_concat
    intro check hcheck
    obtain ⟨member, hmember, rfl⟩ := List.mem_map.mp hcheck
    have hbetween : (Step.property member.1).Between (.object members) member.2 := .property hmember
    apply within_under
    apply within_checkMemberBy (hstep _ _ hbetween)
    · intro schema hschema
      exact hbelow _ _ hbetween schema
        (Node.mem_children_of_names ((mem_schemasFor hread member.1 schema).mp hschema))
    · intro schema hschema
      exact hbelow _ _ hbetween schema (Node.mem_children_of_additionalProperties hschema)

theorem within_checkPropertyNames {members : List (String × Value)}
    (hbelow : ∀ step part, step.Between (.object members) part → ∀ schema ∈ n.children,
      (below part schema).Within (fun violation => reported (violation.under step)) allowed) :
    (checkPropertyNames below n.propertyNames members).Within reported allowed := by
  cases hnames : n.propertyNames with
  | none => exact within_clean
  | some schema =>
    apply within_concat
    intro check hcheck
    obtain ⟨member, hmember, rfl⟩ := List.mem_map.mp hcheck
    exact within_under (hbelow _ _ (.propertyName hmember) schema
      (Node.mem_children_of_propertyNames hnames))

theorem within_checkDependencies {members : List (String × Value)}
    {entries : List (String × Dependency Schema)} (hreport : ∀ cause, reported ⟨[], cause⟩)
    (hhere : ∀ trigger schema, (trigger, .conforms schema) ∈ entries →
      (here schema).Within reported allowed) :
    (checkDependencies here members entries).Within reported allowed := by
  induction entries with
  | nil => exact within_clean
  | cons entry rest ih =>
    obtain ⟨trigger, dependency⟩ := entry
    have hrest := ih fun other schema hother =>
      hhere other schema (List.mem_cons_of_mem _ hother)
    cases dependency with
    | conforms schema =>
      rw [checkDependencies]
      split_ifs
      · exact (hhere trigger schema List.mem_cons_self).append hrest
      · exact hrest
    | requires names =>
      rw [checkDependencies]
      split_ifs
      · exact hrest
      · exact within_report (hreport _)
      · exact hrest

theorem within_checkObject {members : List (String × Value)}
    (hreport : ∀ cause, reported ⟨[], cause⟩)
    (hstep : ∀ step part, step.Between (.object members) part → ∀ cause, reported ⟨[step], cause⟩)
    (hpatterns : ∀ entry ∈ n.patternProperties.getD [],
      (withPattern entry.1 fun _ => clean).Within reported allowed)
    (hhere : ∀ schema ∈ n.children, (here schema).Within reported allowed)
    (hbelow : ∀ step part, step.Between (.object members) part → ∀ schema ∈ n.children,
      (below part schema).Within (fun violation => reported (violation.under step)) allowed) :
    (checkObject here below n members).Within reported allowed := by
  apply within_firstOf
  simp only [List.forall_mem_cons]
  refine ⟨within_objectLimits hreport _ _, within_checkProperties hstep hpatterns hbelow,
    within_checkPropertyNames hbelow, within_checkDependencies hreport ?_, nofun⟩
  intro trigger schema hmem
  exact hhere schema (Node.mem_children_of_conforms hmem)

theorem within_checkAllOf {branches : List Schema}
    (hhere : ∀ branch ∈ branches, (here branch).Within reported allowed) :
    (checkAllOf here branches).Within reported allowed := by
  induction branches with
  | nil => exact within_clean
  | cons branch rest ih =>
    have hbranch := hhere branch List.mem_cons_self
    rw [checkAllOf]
    split
    · rename_i fault hfault
      rw [hfault] at hbranch
      exact within_raise (hbranch.fault fault rfl)
    · exact ih fun other hother => hhere other (List.mem_cons_of_mem branch hother)
    · exact hbranch

theorem within_checkAnyOf (hreport : ∀ cause, reported ⟨[], cause⟩)
    (hhere : ∀ schema ∈ n.children, (here schema).FaultsIn allowed) :
    (checkAnyOf here n.anyOf).Within reported allowed := by
  cases hbranches : n.anyOf with
  | none => exact within_clean
  | some branches =>
    refine within_ofResult (fun fault hfault => ?_) fun _ => within_require _ (hreport _)
    refine allowed_of_anyPasses (fun check hcheck => ?_) hfault
    obtain ⟨branch, hmem, rfl⟩ := List.mem_map.mp hcheck
    exact hhere branch (Node.mem_children_of_anyOf hbranches hmem)

theorem within_checkOneOf (hreport : ∀ cause, reported ⟨[], cause⟩)
    (hhere : ∀ schema ∈ n.children, (here schema).FaultsIn allowed) :
    (checkOneOf here n.oneOf).Within reported allowed := by
  cases hbranches : n.oneOf with
  | none => exact within_clean
  | some branches =>
    refine within_ofResult (fun fault hfault => ?_) fun count => ?_
    · refine allowed_of_countPasses (fun check hcheck => ?_) hfault
      obtain ⟨branch, hmem, rfl⟩ := List.mem_map.mp hcheck
      exact hhere branch (Node.mem_children_of_oneOf hbranches hmem)
    · split_ifs
      · exact within_report (hreport _)
      · exact within_require _ (hreport _)

theorem within_checkNode {value : Value} (hreport : ∀ cause, reported ⟨[], cause⟩)
    (hstep : ∀ step part, step.Between value part → ∀ cause, reported ⟨[step], cause⟩)
    (hmultiple : ∀ number, value = .number number →
      (checkMultiple n.multipleOf number).Within reported allowed)
    (hpattern : ∀ written ∈ n.pattern, (withPattern written fun _ => clean).Within reported allowed)
    (hpatterns : ∀ entry ∈ n.patternProperties.getD [],
      (withPattern entry.1 fun _ => clean).Within reported allowed)
    (hhere : ∀ schema ∈ n.children, (here schema).Within reported allowed)
    (hbelow : ∀ step part, step.Between value part → ∀ schema ∈ n.children,
      (below part schema).Within (fun violation => reported (violation.under step)) allowed) :
    (checkNode here below n value).Within reported allowed := by
  have hkind : (checkKind here below n value).Within reported allowed := by
    cases value with
    | null => exact within_clean
    | bool b => exact within_clean
    | number number => exact within_numberLimits hreport (hmultiple number rfl)
    | string text => exact within_stringLimits hreport text hpattern
    | array items => exact within_checkArray hreport hstep hbelow
    | object members => exact within_checkObject hreport hstep hpatterns hhere hbelow
  have hallOf : (checkAllOf here (n.allOf.getD [])).Within reported allowed := by
    apply within_checkAllOf
    cases hbranches : n.allOf with
    | none => exact nofun
    | some branches =>
      exact fun branch hmem => hhere branch (Node.mem_children_of_allOf hbranches hmem)
  have hfaults : ∀ schema ∈ n.children, (here schema).FaultsIn allowed :=
    fun schema hmem => (hhere schema hmem).fault
  apply within_firstOf
  simp only [List.forall_mem_cons]
  exact ⟨within_checkEnum hreport _ _, within_checkConst hreport _ _,
    within_require _ (hreport _), hkind, hallOf, within_checkAnyOf hreport hfaults,
    within_checkOneOf hreport hfaults, nofun⟩

end SubSchemas

end JsonSchema
