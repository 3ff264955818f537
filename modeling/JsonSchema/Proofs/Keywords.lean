import JsonSchema.Proofs.Decides
import JsonSchema.Proofs.Meaning

/-!
# The checks of keywords decide what the keywords ask for

Every group of keywords decides its part of `Node.Holds`, whatever the order in which the groups are
checked and wherever a check ends early, provided that the checks of sub-schemas decide theirs.
`decides_checkNode` puts the groups together.
-/

open scoped Classical

namespace JsonSchema

open Findings

/-! ### Keywords without sub-schemas -/

theorem decides_checkMultiple (divisor : Option Number) (n : Number) :
    (checkMultiple divisor n).Decides
      (∀ d ∈ divisor, Number.zero.lt d → n.isMultipleOf d = .ok true) := by
  cases divisor with
  | none => exact decides_clean (by simp)
  | some d =>
    simp only [checkMultiple]
    by_cases hd : Number.zero.lt d
    · rw [if_pos hd]
      apply decides_ofResult
      intro whole hwhole
      have hresult : n.isMultipleOf d = .ok whole := Except.mapError_eq_ok_iff.mp hwhole
      apply decides_require
      simp [hd, hresult]
    · rw [if_neg hd]
      exact decides_clean (by simp [hd])

theorem decides_checkBound {α : Type} (bound : Option α) (violated : α → Bool) (cause : α → Cause) :
    (checkBound bound violated cause).Decides (∀ b ∈ bound, ¬ violated b) := by
  cases bound with
  | none => exact decides_clean (by simp)
  | some b => exact decides_require _ (by simp)

theorem decides_numberLimits (limits : NumberLimits) (n : Number) :
    (limits.check n).Decides (limits.Holds n) := by
  refine Decides.congr
    (.firstOf_cons (decides_checkMultiple _ _)
    (.firstOf_cons (decides_checkBound _ _ _)
    (.firstOf_cons (decides_checkBound _ _ _)
    (.firstOf_cons (decides_checkBound _ _ _)
    (.firstOf_cons (decides_checkBound _ _ _) decides_firstOf_nil))))) ⟨?_, ?_⟩
  · rintro ⟨hmultiple, hmax, hexmax, hmin, hexmin, -⟩
    exact ⟨hmultiple, hmax, hexmax, hmin, hexmin⟩
  · rintro ⟨hmultiple, hmax, hexmax, hmin, hexmin⟩
    exact ⟨hmultiple, hmax, hexmax, hmin, hexmin, trivial⟩

theorem decides_withPattern {written : String} {check : Pattern → Findings} {P : Pattern → Prop}
    (h : ∀ pattern, (check pattern).Decides (P pattern)) :
    (withPattern written check).Decides
      (∃ pattern, Pattern.parse written = .ok pattern ∧ P pattern) := by
  unfold withPattern
  cases hparse : Pattern.parse written with
  | ok pattern => exact (h pattern).congr (by simp)
  | error defect =>
    cases defect with
    | invalid => exact decides_report _ (by simp)
    | hugeRepetition => exact decides_raise _
    | conflictingFlags => exact decides_raise _
    | hugeLookBehind => exact decides_raise _

theorem decides_checkPattern (pattern : Option String) (text : String) :
    (checkPattern pattern text).Decides (∀ written ∈ pattern,
      ∃ pattern, Pattern.parse written = .ok pattern ∧ pattern.search text) := by
  cases pattern with
  | none => exact decides_clean (by simp)
  | some written =>
    refine (decides_withPattern (P := fun pattern => pattern.search text) ?_).congr (by simp)
    intro pattern
    exact decides_require _ Iff.rfl

theorem decides_stringLimits (limits : StringLimits) (text : String) :
    (limits.check text).Decides (limits.Holds text) := by
  refine Decides.congr
    (.firstOf_cons (decides_checkBound _ _ _)
    (.firstOf_cons (decides_checkBound _ _ _)
    (.firstOf_cons (decides_checkPattern _ _) decides_firstOf_nil))) ⟨?_, ?_⟩
  · rintro ⟨hmax, hmin, hpattern, -⟩
    exact ⟨by simpa using hmax, by simpa using hmin, hpattern⟩
  · rintro ⟨hmax, hmin, hpattern⟩
    exact ⟨by simpa using hmax, by simpa using hmin, hpattern, trivial⟩

theorem hasDuplicates_eq_false_iff (items : List Value) :
    Value.hasDuplicates items = false ↔ items.Pairwise fun a b => ¬ a.equal b := by
  induction items with
  | nil => simp [Value.hasDuplicates]
  | cons item rest ih => simp [Value.hasDuplicates, List.pairwise_cons, ih]

theorem decides_arrayLimits (limits : ArrayLimits) (items : List Value) :
    (limits.check items).Decides (limits.Holds items) := by
  have hunique : (require (!(limits.uniqueItems && Value.hasDuplicates items))
      .repeatedItems).Decides
        (limits.uniqueItems → items.Pairwise fun a b => ¬ a.equal b) := by
    apply decides_require
    rw [← hasDuplicates_eq_false_iff]
    cases limits.uniqueItems <;> simp
  refine Decides.congr
    (.firstOf_cons (decides_checkBound _ _ _)
    (.firstOf_cons (decides_checkBound _ _ _)
    (.firstOf_cons hunique decides_firstOf_nil))) ⟨?_, ?_⟩
  · rintro ⟨hmax, hmin, hdistinct, -⟩
    exact ⟨by simpa using hmax, by simpa using hmin, hdistinct⟩
  · rintro ⟨hmax, hmin, hdistinct⟩
    exact ⟨by simpa using hmax, by simpa using hmin, hdistinct, trivial⟩

theorem decides_objectLimits (limits : ObjectLimits) (members : List (String × Value)) :
    (limits.check members).Decides (limits.Holds members) := by
  have hrequired : (require ((limits.required.getD []).all (Members.has · members))
      .missingProperties).Decides
        (∀ names ∈ limits.required, ∀ name ∈ names, Members.has name members) := by
    apply decides_require
    cases limits.required <;> simp
  refine Decides.congr
    (.firstOf_cons (decides_checkBound _ _ _)
    (.firstOf_cons (decides_checkBound _ _ _)
    (.firstOf_cons hrequired decides_firstOf_nil))) ⟨?_, ?_⟩
  · rintro ⟨hmax, hmin, hnames, -⟩
    exact ⟨by simpa using hmax, by simpa using hmin, hnames⟩
  · rintro ⟨hmax, hmin, hnames⟩
    exact ⟨by simpa using hmax, by simpa using hmin, hnames, trivial⟩

theorem decides_checkEnum (enum : Option (List Value)) (value : Value) :
    (checkEnum enum value).Decides
      (∀ choices ∈ enum, ∃ choice ∈ choices, value.equal choice) := by
  cases enum with
  | none => exact decides_clean (by simp)
  | some choices => exact decides_require _ (by simp)

theorem decides_checkConst (const : Option Value) (value : Value) :
    (checkConst const value).Decides (∀ expected ∈ const, value.equal expected) := by
  cases const with
  | none => exact decides_clean (by simp)
  | some expected => exact decides_require _ (by simp)

/-! ### Keywords with sub-schemas -/

section SubSchemas

variable {here : Schema → Findings} {below : Value → Schema → Findings} {H : Schema → Prop}
  {B : Value → Schema → Prop}

theorem decides_checkItemBy (hbelow : ∀ part schema, (below part schema).Decides (B part schema))
    (hfalse : ∀ part, ¬ B part (.always false)) (n : Node Schema) (index : Nat) (item : Value) :
    (checkItemBy below n index item).Decides (∀ schema ∈ Schema.itemAt n index, B item schema) := by
  unfold checkItemBy
  split
  · rename_i hnone
    exact decides_clean (by simp [hnone])
  · rename_i hsome _
    exact decides_report _ (by simp [hsome, hfalse])
  · rename_i schema hsome _
    exact (hbelow item schema).congr (by simp [hsome])

theorem decides_checkItems (hbelow : ∀ part schema, (below part schema).Decides (B part schema))
    (hfalse : ∀ part, ¬ B part (.always false)) (n : Node Schema) (first : Nat)
    (items : List Value) :
    (checkItems below n first items).Decides (∀ index item, items[index]? = some item →
      ∀ schema ∈ Schema.itemAt n (first + index), B item schema) := by
  induction items generalizing first with
  | nil => exact decides_clean (by simp)
  | cons item rest ih =>
    have hitem := (decides_checkItemBy hbelow hfalse n first item).under (.item first)
    refine (hitem.append (ih (first + 1))).congr ⟨?_, ?_⟩
    · rintro ⟨hfirst, hrest⟩ index other hother schema hschema
      cases index with
      | zero =>
        cases hother
        exact hfirst schema hschema
      | succ index =>
        have hat : first + (index + 1) = first + 1 + index := by omega
        exact hrest index other (by simpa using hother) schema (hat ▸ hschema)
    · intro h
      refine ⟨fun schema hschema => h 0 item rfl schema hschema, ?_⟩
      intro index other hother schema hschema
      have hat : first + (index + 1) = first + 1 + index := by omega
      exact h (index + 1) other (by simpa using hother) schema (hat ▸ hschema)

theorem decides_checkContains (hbelow : ∀ part schema, (below part schema).Decides (B part schema))
    (contains : Option Schema) (items : List Value) :
    (checkContains below contains items).Decides
      (∀ schema ∈ contains, ∃ item ∈ items, B item schema) := by
  cases contains with
  | none => exact decides_clean (by simp)
  | some schema =>
    apply decides_ofResult
    intro found hfound
    apply decides_require
    rw [anyPasses_eq_true_iff (fun item _ => hbelow item schema) hfound]
    simp

theorem decides_checkArray (hbelow : ∀ part schema, (below part schema).Decides (B part schema))
    (hfalse : ∀ part, ¬ B part (.always false)) (n : Node Schema) (items : List Value) :
    (checkArray below n items).Decides (n.ArrayHolds B items) := by
  refine Decides.congr
    (.firstOf_cons (decides_arrayLimits _ _)
    (.firstOf_cons (decides_checkItems hbelow hfalse _ _ _)
    (.firstOf_cons (decides_checkContains hbelow _ _) decides_firstOf_nil))) ⟨?_, ?_⟩
  · rintro ⟨hlimits, hevery, hcontains, -⟩
    exact ⟨hlimits, by simpa using hevery, hcontains⟩
  · rintro ⟨hlimits, hevery, hcontains⟩
    exact ⟨hlimits, by simpa using hevery, hcontains, trivial⟩

/-! ### Properties -/

theorem exists_parse_of_readPatterns {entries : List (String × Schema)}
    {patterns : List (Pattern × Schema)} (h : readPatterns entries = .ok patterns) :
    ∀ entry ∈ entries, ∃ pattern, Pattern.parse entry.1 = .ok pattern := by
  induction entries generalizing patterns with
  | nil => simp
  | cons entry rest ih =>
    obtain ⟨written, schema⟩ := entry
    cases hparse : Pattern.parse written with
    | error defect => simp [readPatterns, hparse] at h
    | ok pattern =>
      simp only [readPatterns, hparse] at h
      obtain ⟨others, hothers, -⟩ := Except.map_eq_ok_iff.mp h
      exact List.forall_mem_cons.mpr ⟨⟨pattern, hparse⟩, ih hothers⟩

theorem mem_of_readPatterns {entries : List (String × Schema)}
    {patterns : List (Pattern × Schema)} (h : readPatterns entries = .ok patterns)
    (pattern : Pattern) (schema : Schema) :
    (pattern, schema) ∈ patterns ↔
      ∃ written, (written, schema) ∈ entries ∧ Pattern.parse written = .ok pattern := by
  induction entries generalizing patterns with
  | nil =>
    cases h
    simp
  | cons entry rest ih =>
    obtain ⟨written, first⟩ := entry
    cases hparse : Pattern.parse written with
    | error defect => simp [readPatterns, hparse] at h
    | ok read =>
      simp only [readPatterns, hparse] at h
      obtain ⟨others, hothers, rfl⟩ := Except.map_eq_ok_iff.mp h
      rw [List.mem_cons, ih hothers]
      constructor
      · rintro (heq | ⟨other, hmem, hother⟩)
        · cases heq
          exact ⟨written, List.mem_cons_self, hparse⟩
        · exact ⟨other, List.mem_cons_of_mem _ hmem, hother⟩
      · rintro ⟨other, hmem, hother⟩
        rcases List.mem_cons.mp hmem with heq | hrest
        · cases heq
          rw [hparse] at hother
          cases hother
          exact .inl rfl
        · exact .inr ⟨other, hrest, hother⟩

/-- What is found in place of the patterns is no clean check, so it decides all that asks for the
patterns to be readable. -/
theorem decides_of_readPatterns {entries : List (String × Schema)} {found : Findings} {P : Prop}
    (h : readPatterns entries = .error found)
    (hP : P → ∀ entry ∈ entries, ∃ pattern, Pattern.parse entry.1 = .ok pattern) :
    found.Decides P := by
  induction entries with
  | nil => cases h
  | cons entry rest ih =>
    obtain ⟨written, schema⟩ := entry
    cases hparse : Pattern.parse written with
    | ok pattern =>
      simp only [readPatterns, hparse] at h
      cases hrest : readPatterns rest with
      | ok patterns =>
        rw [hrest] at h
        cases h
      | error other =>
        rw [hrest] at h
        cases h
        exact ih hrest fun hp entry hmem => hP hp entry (List.mem_cons_of_mem _ hmem)
    | error defect =>
      simp only [readPatterns, hparse] at h
      cases h
      refine (decides_withPattern (P := fun _ => True) fun _ => decides_clean trivial).congr ?_
      have hnot : ¬ P := fun hp => by
        obtain ⟨pattern, hpattern⟩ := hP hp _ List.mem_cons_self
        rw [hparse] at hpattern
        cases hpattern
      simp [hparse, hnot]

theorem mem_schemasFor {n : Node Schema} {patterns : List (Pattern × Schema)}
    (h : readPatterns (n.patternProperties.getD []) = .ok patterns) (name : String)
    (schema : Schema) :
    schema ∈ schemasFor (n.properties.getD []) patterns name ↔ n.Names name schema := by
  unfold schemasFor Node.Names
  rw [List.mem_append, Option.mem_toList]
  apply or_congr Iff.rfl
  simp only [List.mem_map, List.mem_filter, Prod.exists, exists_eq_right,
    mem_of_readPatterns h]
  constructor
  · rintro ⟨pattern, ⟨written, hmem, hparse⟩, hsearch⟩
    exact ⟨written, pattern, hmem, hparse, hsearch⟩
  · rintro ⟨written, pattern, hmem, hparse, hsearch⟩
    exact ⟨pattern, ⟨written, hmem, hparse⟩, hsearch⟩

theorem decides_checkMemberBy (hbelow : ∀ part schema, (below part schema).Decides (B part schema))
    (hfalse : ∀ part, ¬ B part (.always false)) (schemas : List Schema) (additional : Option Schema)
    (value : Value) :
    (checkMemberBy below schemas additional value).Decides ((∀ schema ∈ schemas, B value schema) ∧
      (schemas = [] → ∀ schema ∈ additional, B value schema)) := by
  unfold checkMemberBy
  split
  · exact decides_clean (by simp)
  · exact decides_report _ (by simp [hfalse])
  · rename_i schema _
    exact (hbelow value schema).congr (by simp)
  · rename_i hnonempty _ _
    have hne : schemas ≠ [] := by
      rintro rfl
      cases additional with
      | none => exact hnonempty rfl rfl
      | some schema => simp_all
    refine (decides_concat fun schema _ => hbelow value schema).congr ?_
    simp [hne]

theorem decides_checkProperties
    (hbelow : ∀ part schema, (below part schema).Decides (B part schema))
    (hfalse : ∀ part, ¬ B part (.always false)) (n : Node Schema)
    (members : List (String × Value)) :
    (checkProperties below n members).Decides
      ((∀ entry ∈ n.patternProperties.getD [],
          ∃ pattern, Pattern.parse entry.1 = .ok pattern) ∧
        ∀ member ∈ members, (∀ schema, n.Names member.1 schema → B member.2 schema) ∧
          ((∀ schema, ¬ n.Names member.1 schema) →
            ∀ schema ∈ n.additionalProperties, B member.2 schema)) := by
  unfold checkProperties
  cases hread : readPatterns (n.patternProperties.getD []) with
  | error found => exact decides_of_readPatterns hread And.left
  | ok patterns =>
    have hreadable := exists_parse_of_readPatterns hread
    refine Decides.congr (P := ∀ member ∈ members, _) ?_ (and_iff_right hreadable).symm
    apply decides_concat
    intro member _
    refine Decides.congr (.under _ (decides_checkMemberBy hbelow hfalse _ _ _)) ?_
    simp only [List.eq_nil_iff_forall_not_mem, mem_schemasFor hread]

theorem decides_checkPropertyNames
    (hbelow : ∀ part schema, (below part schema).Decides (B part schema))
    (propertyNames : Option Schema) (members : List (String × Value)) :
    (checkPropertyNames below propertyNames members).Decides
      (∀ schema ∈ propertyNames, ∀ member ∈ members, B (.string member.1) schema) := by
  cases propertyNames with
  | none => exact decides_clean (by simp)
  | some schema =>
    refine Decides.congr (decides_concat fun member _ =>
      (hbelow (.string member.1) schema).under (.propertyName member.1)) ?_
    simp

/-! ### Dependencies -/

/-- The list of names that ends the check stands behind no violation that it could hide. -/
theorem decides_checkDependencies (hhere : ∀ schema, (here schema).Decides (H schema))
    (members : List (String × Value)) (entries : List (String × Dependency Schema)) :
    (checkDependencies here members entries).Decides (∀ entry ∈ entries,
      Members.has entry.1 members → entry.2.Holds H members) := by
  induction entries with
  | nil => exact decides_clean (by simp)
  | cons entry rest ih =>
    obtain ⟨trigger, dependency⟩ := entry
    rw [List.forall_mem_cons]
    by_cases htrigger : Members.has trigger members
    · cases dependency with
      | conforms schema =>
        simp only [checkDependencies, if_pos htrigger]
        refine ((hhere schema).append ih).congr (and_congr_left' ?_)
        simp [htrigger, Dependency.Holds]
      | requires names =>
        simp only [checkDependencies, if_pos htrigger]
        split_ifs with hnames
        · refine ih.congr (and_iff_right fun _ => ?_).symm
          simpa [Dependency.Holds] using hnames
        · refine decides_report _ fun hboth => hnames ?_
          simpa [Dependency.Holds] using hboth.1 htrigger
    · have hskip : checkDependencies here members ((trigger, dependency) :: rest) =
          checkDependencies here members rest := by
        cases dependency <;> simp only [checkDependencies, if_neg htrigger]
      rw [hskip]
      exact ih.congr (and_iff_right fun h => absurd h htrigger).symm

theorem decides_checkObject (hhere : ∀ schema, (here schema).Decides (H schema))
    (hbelow : ∀ part schema, (below part schema).Decides (B part schema))
    (hfalse : ∀ part, ¬ B part (.always false)) (n : Node Schema)
    (members : List (String × Value)) :
    (checkObject here below n members).Decides (n.ObjectHolds H B members) := by
  refine Decides.congr
    (.firstOf_cons (decides_objectLimits _ _)
    (.firstOf_cons (decides_checkProperties hbelow hfalse _ _)
    (.firstOf_cons (decides_checkPropertyNames hbelow _ _)
    (.firstOf_cons (decides_checkDependencies hhere _ _) decides_firstOf_nil)))) ⟨?_, ?_⟩
  · rintro ⟨hlimits, ⟨hreadable, hmembers⟩, hpropertyNames, hdependencies, -⟩
    exact ⟨hlimits, hreadable, fun member hmem => (hmembers member hmem).1,
      fun member hmem => (hmembers member hmem).2, hpropertyNames, hdependencies⟩
  · rintro ⟨hlimits, hreadable, hnamed, hadditional, hpropertyNames, hdependencies⟩
    exact ⟨hlimits, ⟨hreadable, fun member hmem => ⟨hnamed member hmem, hadditional member hmem⟩⟩,
      hpropertyNames, hdependencies, trivial⟩

/-! ### Composition -/

theorem decides_checkAllOf (hhere : ∀ schema, (here schema).Decides (H schema))
    (branches : List Schema) :
    (checkAllOf here branches).Decides (∀ branch ∈ branches, H branch) := by
  induction branches with
  | nil => exact decides_clean (by simp)
  | cons branch rest ih =>
    have hbranch := hhere branch
    rw [List.forall_mem_cons, checkAllOf]
    split
    · exact decides_raise _
    · rename_i hclean
      rw [hclean] at hbranch
      exact ih.congr (and_iff_right (hbranch.holds rfl rfl)).symm
    · rename_i hfault hnil
      have hviolations : (here branch).violations ≠ [] := by
        intro hv
        cases hf : (here branch).fault with
        | none => exact hnil (by rw [← hv, ← hf])
        | some fault => exact hfault (here branch).violations fault (by rw [← hf])
      exact ⟨fun hv => absurd hv hviolations, fun hv hboth => hbranch.fails hv hboth.1⟩

theorem decides_checkAnyOf (hhere : ∀ schema, (here schema).Decides (H schema))
    (anyOf : Option (List Schema)) :
    (checkAnyOf here anyOf).Decides (∀ branches ∈ anyOf, ∃ branch ∈ branches, H branch) := by
  cases anyOf with
  | none => exact decides_clean (by simp)
  | some branches =>
    apply decides_ofResult
    intro found hfound
    apply decides_require
    rw [anyPasses_eq_true_iff (fun branch _ => hhere branch) hfound]
    simp

theorem decides_checkOneOf (hhere : ∀ schema, (here schema).Decides (H schema))
    (oneOf : Option (List Schema)) :
    (checkOneOf here oneOf).Decides
      (∀ branches ∈ oneOf, branches.countP (fun branch => H branch) = 1) := by
  cases oneOf with
  | none => exact decides_clean (by simp)
  | some branches =>
    apply decides_ofResult
    intro count hcount
    have heq := countPasses_eq_countP (fun branch _ => hhere branch) hcount
    split_ifs with hzero
    · exact decides_report _ (by simp [← heq, hzero])
    · exact decides_require _ (by simp [← heq])

/-! ### All keywords -/

theorem decides_checkKind (hhere : ∀ schema, (here schema).Decides (H schema))
    (hbelow : ∀ part schema, (below part schema).Decides (B part schema))
    (hfalse : ∀ part, ¬ B part (.always false)) (n : Node Schema) (value : Value) :
    (checkKind here below n value).Decides (n.KindHolds H B value) := by
  cases value with
  | null => exact decides_clean trivial
  | bool b => exact decides_clean trivial
  | number number => exact decides_numberLimits _ _
  | string text => exact decides_stringLimits _ _
  | array items => exact decides_checkArray hbelow hfalse n items
  | object members => exact decides_checkObject hhere hbelow hfalse n members

theorem decides_checkNode (hhere : ∀ schema, (here schema).Decides (H schema))
    (hbelow : ∀ part schema, (below part schema).Decides (B part schema))
    (hfalse : ∀ part, ¬ B part (.always false)) (n : Node Schema) (value : Value) :
    (checkNode here below n value).Decides (n.Holds H B value) := by
  have hallOf : (∀ branch ∈ n.allOf.getD [], H branch) ↔
      ∀ branches ∈ n.allOf, ∀ branch ∈ branches, H branch := by
    cases n.allOf <;> simp
  refine Decides.congr
    (.firstOf_cons (decides_checkEnum _ _)
    (.firstOf_cons (decides_checkConst _ _)
    (.firstOf_cons (decides_require _ Iff.rfl)
    (.firstOf_cons (decides_checkKind hhere hbelow hfalse _ _)
    (.firstOf_cons (decides_checkAllOf hhere _)
    (.firstOf_cons (decides_checkAnyOf hhere _)
    (.firstOf_cons (decides_checkOneOf hhere _) decides_firstOf_nil))))))) ⟨?_, ?_⟩
  · rintro ⟨henum, hconst, htype, hkind, hall, hany, hone, -⟩
    exact ⟨⟨henum, hconst, htype, hkind, hallOf.mp hall, hany⟩, hone⟩
  · rintro ⟨⟨henum, hconst, htype, hkind, hall, hany⟩, hone⟩
    exact ⟨henum, hconst, htype, hkind, hallOf.mpr hall, hany, hone, trivial⟩

end SubSchemas

end JsonSchema
