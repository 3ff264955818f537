import JsonSchema.Proofs.Pointers
import JsonSchema.Proofs.Visits
import Mathlib.Data.List.Infix
import Mathlib.Logic.Relation

/-!
# The ends of chains of references

A reference is resolved to the end of its chain, `resolveReference_chain`. One name has several written
forms, so a chain may come to one definition by different references; but a reference that it comes to
twice leads to itself, and then there is no end. Until that happens every step follows another of the
references that definitions consist of, which bounds the number of steps.
-/

namespace JsonSchema

open Relation (ReflTransGen TransGen)

namespace Reference

/-- The name of a definition stands in a written form behind `#/definitions/`. -/
def Names (ref name : String) : Prop :=
  ∃ written, ref = "#/definitions/" ++ written ∧ Pointer.unescape written = name

variable {ref name other : String}

theorem definitionName?_eq_some_iff : definitionName? ref = some name ↔ Names ref name := by
  rw [definitionName?, Option.map_eq_some_iff]
  constructor
  · rintro ⟨written, hwritten, rfl⟩
    have hchars := List.isPrefixOf?_eq_some_iff_append_eq.mp hwritten
    refine ⟨String.ofList written, ?_, ?_⟩
    · rw [← String.toList_inj, String.toList_append]
      exact hchars.symm.trans (congrArg (definitionsStart ++ ·) String.toList_ofList.symm)
    · rw [Pointer.unescape, String.toList_ofList]
  · rintro ⟨written, rfl, rfl⟩
    refine ⟨written.toList, ?_, rfl⟩
    rw [List.isPrefixOf?_eq_some_iff_append_eq, String.toList_append]
    rfl

theorem Names.unique (h : Names ref name) (hother : Names ref other) : name = other := by
  rw [← definitionName?_eq_some_iff] at h hother
  exact Option.some.inj (h.symm.trans hother)

theorem not_names_root : ¬ Names "#" name := by
  rw [← definitionName?_eq_some_iff]
  exact nofun

/-- The pointer to a definition names it, whatever characters are in its name. -/
theorem names_join : Names (Pointer.join "#/definitions" name) name := by
  refine ⟨Pointer.escape name, ?_, ?_⟩
  · rw [Pointer.join, if_neg (by decide)]
    rfl
  · rw [Pointer.unescape, Pointer.escape, String.toList_ofList, Pointer.unescapeChars_escapeChars,
      String.ofList_toList]

theorem names_join_iff : Names (Pointer.join "#/definitions" name) other ↔ other = name :=
  ⟨fun h => h.unique names_join, fun h => h ▸ names_join⟩

end Reference

namespace Schema

open Reference (Names)

variable {root target : Schema} {ref next last : String} {seen : List String} {fuel : Nat}

/-! ### Chains -/

/-- A reference leads on to another if it names a definition that is a reference to that one. -/
def LeadsOn (root : Schema) (ref next : String) : Prop :=
  ∃ name definition, Names ref name ∧ root.definitions.lookup name = some definition ∧
    definition.ref? = some next

/-- A chain ends at the root, or at a definition that is no reference. -/
inductive EndsIn (root : Schema) : String → Schema → Prop
  | root : EndsIn root "#" root
  | definition {ref name : String} {target : Schema} (hname : Names ref name)
      (hlookup : root.definitions.lookup name = some target) (href : target.ref? = none) :
      EndsIn root ref target

theorem LeadsOn.unique (h : root.LeadsOn ref next) {other : String} (hother : root.LeadsOn ref other) :
    next = other := by
  obtain ⟨name, definition, hname, hlookup, href⟩ := h
  obtain ⟨name', definition', hname', hlookup', href'⟩ := hother
  obtain rfl := hname.unique hname'
  obtain rfl := Option.some.inj (hlookup.symm.trans hlookup')
  exact Option.some.inj (href.symm.trans href')

theorem EndsIn.not_leadsOn (h : root.EndsIn ref target) : ¬ root.LeadsOn ref next := by
  rintro ⟨name, definition, hname, hlookup, href⟩
  cases h with
  | root => exact Reference.not_names_root hname
  | definition hname' hlookup' href' =>
    obtain rfl := hname.unique hname'
    obtain rfl := Option.some.inj (hlookup.symm.trans hlookup')
    cases href.symm.trans href'

/-- On a chain that starts on a cycle every reference leads back to itself. -/
theorem transGen_of_chain (hchain : ReflTransGen root.LeadsOn ref last)
    (hcycle : TransGen root.LeadsOn ref ref) : TransGen root.LeadsOn last last := by
  induction hchain with
  | refl => exact hcycle
  | tail _ hstep ih =>
    obtain ⟨next, hnext, hback⟩ := TransGen.head'_iff.mp ih
    obtain rfl := hstep.unique hnext
    exact TransGen.tail' hback hstep

theorem EndsIn.not_transGen (h : root.EndsIn last target)
    (hchain : ReflTransGen root.LeadsOn ref last) : ¬ TransGen root.LeadsOn ref ref := by
  intro hcycle
  obtain ⟨next, hnext, -⟩ := TransGen.head'_iff.mp (transGen_of_chain hchain hcycle)
  exact h.not_leadsOn hnext

/-- Where a chain has an end, the next step from its start is the first step to the end. -/
theorem EndsIn.chain_of_leadsOn (h : root.EndsIn last target)
    (hchain : ReflTransGen root.LeadsOn ref last) (hstep : root.LeadsOn ref next) :
    ReflTransGen root.LeadsOn next last := by
  rcases hchain.cases_head with rfl | ⟨other, hother, hrest⟩
  · exact absurd hstep h.not_leadsOn
  · exact hstep.unique hother ▸ hrest

/-! ### One step -/

inductive Link (root : Schema) (seen : List String) (ref : String) : Prop where
  | again (hseen : ref ∈ seen)
  | last {target : Schema} (hseen : ref ∉ seen) (hend : root.EndsIn ref target)
  | on {next : String} (hseen : ref ∉ seen) (hstep : root.LeadsOn ref next)
  | nowhere (hseen : ref ∉ seen) (hend : ∀ target, ¬ root.EndsIn ref target)
      (hstep : ∀ next, ¬ root.LeadsOn ref next)

theorem chase_again (hseen : ref ∈ seen) : root.chase (fuel + 1) seen ref = .dangling := by
  rw [chase, if_pos (List.contains_iff_mem.mpr hseen)]

theorem chase_last (hseen : ref ∉ seen) (hend : root.EndsIn ref target) :
    root.chase (fuel + 1) seen ref = .found target := by
  rw [chase, if_neg (mt List.contains_iff_mem.mp hseen)]
  cases hend with
  | root => exact if_pos rfl
  | definition hname hlookup href =>
    have hne : ref ≠ "#" := by
      rintro rfl
      exact Reference.not_names_root hname
    rw [if_neg hne, Reference.definitionName?_eq_some_iff.mpr hname]
    dsimp only
    rw [hlookup]
    dsimp only
    rw [href]

theorem chase_on (hseen : ref ∉ seen) (hstep : root.LeadsOn ref next) :
    root.chase (fuel + 1) seen ref = root.chase fuel (ref :: seen) next := by
  obtain ⟨name, definition, hname, hlookup, href⟩ := hstep
  have hne : ref ≠ "#" := by
    rintro rfl
    exact Reference.not_names_root hname
  rw [chase, if_neg (mt List.contains_iff_mem.mp hseen), if_neg hne,
    Reference.definitionName?_eq_some_iff.mpr hname]
  dsimp only
  rw [hlookup]
  dsimp only
  rw [href]

theorem chase_nowhere (hseen : ref ∉ seen) (hend : ∀ target, ¬ root.EndsIn ref target)
    (hstep : ∀ next, ¬ root.LeadsOn ref next) :
    root.chase (fuel + 1) seen ref = .dangling := by
  rw [chase, if_neg (mt List.contains_iff_mem.mp hseen)]
  have hne : ref ≠ "#" := by
    rintro rfl
    exact hend root .root
  rw [if_neg hne]
  cases hname : Reference.definitionName? ref with
  | none => rfl
  | some name =>
    rw [Reference.definitionName?_eq_some_iff] at hname
    dsimp only
    cases hlookup : root.definitions.lookup name with
    | none => rfl
    | some definition =>
      exfalso
      cases href : definition.ref? with
      | none => exact hend definition (.definition hname hlookup href)
      | some next => exact hstep next ⟨name, definition, hname, hlookup, href⟩

theorem link (root : Schema) (seen : List String) (ref : String) : Link root seen ref := by
  by_cases hseen : ref ∈ seen
  · exact .again hseen
  · by_cases hend : ∃ target, root.EndsIn ref target
    · obtain ⟨target, hend⟩ := hend
      exact .last hseen hend
    · by_cases hstep : ∃ next, root.LeadsOn ref next
      · obtain ⟨next, hstep⟩ := hstep
        exact .on hseen hstep
      · exact .nowhere hseen (not_exists.mp hend) (not_exists.mp hstep)

/-! ### Whole chains -/

/-- What is found is the end of the chain. -/
theorem exists_end_of_chase (h : root.chase fuel seen ref = .found target) :
    ∃ last, ReflTransGen root.LeadsOn ref last ∧ root.EndsIn last target := by
  induction fuel generalizing seen ref with
  | zero => cases h
  | succ fuel ih =>
    cases link root seen ref with
    | again hseen => cases (chase_again hseen).symm.trans h
    | last hseen hend =>
      cases (chase_last hseen hend).symm.trans h
      exact ⟨ref, .refl, hend⟩
    | on hseen hstep =>
      rw [chase_on hseen hstep] at h
      obtain ⟨last, hchain, hend⟩ := ih h
      exact ⟨last, .head hstep hchain, hend⟩
    | nowhere hseen hend hstep => cases (chase_nowhere hseen hend hstep).symm.trans h

/-- A chain with an end is followed to it: each reference that was followed before leads to the present
one, so if that were among them it would be on a cycle. -/
theorem chase_eq_found (hfinished : root.chase fuel seen ref ≠ .unfinished)
    (hseen : ∀ earlier ∈ seen, TransGen root.LeadsOn earlier ref)
    (hchain : ReflTransGen root.LeadsOn ref last) (hend : root.EndsIn last target) :
    root.chase fuel seen ref = .found target := by
  induction fuel generalizing seen ref with
  | zero => exact absurd rfl hfinished
  | succ fuel ih =>
    cases link root seen ref with
    | again hagain => exact absurd (hseen ref hagain) (hend.not_transGen hchain)
    | last hnew hhere =>
      rcases hchain.cases_head with rfl | ⟨next, hstep, -⟩
      · rw [chase_last hnew hend]
      · exact absurd hstep hhere.not_leadsOn
    | on hnew hstep =>
      rw [chase_on hnew hstep] at hfinished ⊢
      refine ih hfinished (List.forall_mem_cons.mpr ⟨.single hstep, fun earlier hearlier => ?_⟩)
        (hend.chain_of_leadsOn hchain hstep)
      exact (hseen earlier hearlier).tail hstep
    | nowhere hnew hnoEnd hnoStep =>
      rcases hchain.cases_head with rfl | ⟨next, hstep, -⟩
      · exact absurd hend (hnoEnd target)
      · exact absurd hstep (hnoStep next)

/-! ### The number of steps -/

def definitionRefs (root : Schema) : List String :=
  root.definitions.filterMap fun definition => definition.2.ref?

theorem LeadsOn.mem_definitionRefs (h : root.LeadsOn ref next) : next ∈ root.definitionRefs := by
  obtain ⟨name, definition, -, hlookup, href⟩ := h
  exact List.mem_filterMap.mpr ⟨_, Members.mem_of_lookup hlookup, href⟩

theorem chase_ne_unfinished (href : ref ∈ root.definitionRefs)
    (hfuel : (Visit.unentered root.definitionRefs seen).length < fuel) :
    root.chase fuel seen ref ≠ .unfinished := by
  induction fuel generalizing seen ref with
  | zero => omega
  | succ fuel ih =>
    cases link root seen ref with
    | again hseen =>
      rw [chase_again hseen]
      exact nofun
    | last hseen hend =>
      rw [chase_last hseen hend]
      exact nofun
    | on hseen hstep =>
      have hfewer := Visit.length_unentered_cons_lt href hseen
      rw [chase_on hseen hstep]
      exact ih hstep.mem_definitionRefs (by omega)
    | nowhere hseen hend hstep =>
      rw [chase_nowhere hseen hend hstep]
      exact nofun

/-- One step for each definition, one for the reference at the start, and one that finds it again. -/
theorem chase_length_ne_unfinished (root : Schema) (ref : String) :
    root.chase (root.definitions.length + 2) [] ref ≠ .unfinished := by
  have hnew : ref ∉ [] := List.not_mem_nil
  cases link root [] ref with
  | again hseen => exact absurd hseen hnew
  | last hseen hend =>
    rw [chase_last hseen hend]
    exact nofun
  | on hseen hstep =>
    have hall : (Visit.unentered root.definitionRefs [ref]).length ≤ root.definitions.length :=
      Nat.le_trans (List.length_filter_le _ _) (List.length_filterMap_le _ _)
    rw [chase_on hseen hstep]
    exact chase_ne_unfinished hstep.mem_definitionRefs (by omega)
  | nowhere hseen hend hstep =>
    rw [chase_nowhere hseen hend hstep]
    exact nofun

theorem chase_add (h : root.chase fuel seen ref ≠ .unfinished) (further : Nat) :
    root.chase (fuel + further) seen ref = root.chase fuel seen ref := by
  induction fuel generalizing seen ref with
  | zero => exact absurd rfl h
  | succ fuel ih =>
    rw [Nat.succ_add]
    cases link root seen ref with
    | again hseen => rw [chase_again hseen, chase_again hseen]
    | last hseen hend => rw [chase_last hseen hend, chase_last hseen hend]
    | on hseen hstep =>
      rw [chase_on hseen hstep] at h ⊢
      rw [chase_on hseen hstep]
      exact ih h
    | nowhere hseen hend hstep =>
      rw [chase_nowhere hseen hend hstep, chase_nowhere hseen hend hstep]

theorem resolveReference_eq_some_iff : root.resolveReference ref = some target ↔
    root.chase (root.definitions.length + 2) [] ref = .found target := by
  unfold resolveReference
  split <;> simp_all

/-- A reference is resolved to the end of its chain, if the chain has one; otherwise it is not
resolved. Two steps more than there are definitions are always enough to tell. The pointer to a
definition starts the chain at this definition. -/
theorem resolveReference_chain (root : Schema) (ref : String) :
    (∀ target, root.resolveReference ref = some target ↔
      ∃ last, ReflTransGen root.LeadsOn ref last ∧ root.EndsIn last target) ∧
    root.chase (root.definitions.length + 2) [] ref ≠ .unfinished ∧
    (∀ further, root.chase (root.definitions.length + 2 + further) [] ref =
      root.chase (root.definitions.length + 2) [] ref) ∧
    ∀ name other, Names (Pointer.join "#/definitions" name) other ↔ other = name := by
  have hfinished := chase_length_ne_unfinished root ref
  refine ⟨fun target => ?_, hfinished, chase_add hfinished, fun _ _ => Reference.names_join_iff⟩
  rw [resolveReference_eq_some_iff]
  exact ⟨exists_end_of_chase, fun ⟨last, hchain, hend⟩ =>
    chase_eq_found hfinished nofun hchain hend⟩

def knot : Schema := .node { definitions := some [("a/b", .node { ref := some "#/definitions/a/b" })] }

/-- The third step finds the second reference again, so no smaller number of steps would do. -/
example : knot.chase 2 [] "#/definitions/a~1b" = .unfinished ∧
    knot.chase 3 [] "#/definitions/a~1b" = .dangling := ⟨rfl, rfl⟩

end Schema

end JsonSchema
