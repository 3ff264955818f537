import JsonSchema.Proofs.Inference

/-!
# Calls of inference

A call comes upon one of five things, `Call`, and for each there is an equation that says what it does.
Results do not depend on fuel, and there is always enough of it: the calls go the way of visits that a
validation could need, so they are bounded by the rank of these. Inference itself never fails; all
faults are those of the validations that decide between branches.
-/

namespace JsonSchema.Schema

variable {root schema branch target : Schema} {actual : Option Value} {n : Node Schema}
  {fuel fuel' : Nat} {seen : List String} {ref : String} {found : Option Implied}
  {f g : Schema → Except Fault (Option Implied)} {rest schemas : List Schema}

/-! ### The branches of a node -/

/-- A branch that inference tries: it accepts the value, if there is one. -/
def Admits (root : Schema) (actual : Option Value) (branch : Schema) : Prop :=
  ∀ value ∈ actual, root.isValid branch value = .ok true

theorem admits_iff :
    root.Admits actual branch ↔ actual.elim (.ok true) (root.isValid branch) = .ok true := by
  cases actual <;> simp [Admits]

theorem exists_refused_iff :
    (∃ value ∈ actual, root.isValid branch value = .ok false) ↔
      actual.elim (.ok true) (root.isValid branch) = .ok false := by
  cases actual <;> simp

/-- Branches are passed over or tried, and what the first of them to have a type has is found. -/
theorem firstBranch_cons_eq_ok_iff :
    firstBranch root actual f (branch :: rest) = .ok found ↔
      (∃ value ∈ actual, root.isValid branch value = .ok false) ∧
        firstBranch root actual f rest = .ok found ∨
      root.Admits actual branch ∧
        (f branch = .ok none ∧ firstBranch root actual f rest = .ok found ∨
          ∃ implied, f branch = .ok (some implied) ∧ found = some implied) := by
  rw [firstBranch_cons, Except.bind_eq_ok_iff, exists_refused_iff, admits_iff]
  constructor
  · rintro ⟨_ | _, haccepted, hnext⟩
    · exact .inl ⟨haccepted, hnext⟩
    · obtain ⟨_ | implied, hbranch, hrest⟩ := Except.bind_eq_ok_iff.mp hnext
      · exact .inr ⟨haccepted, .inl ⟨hbranch, hrest⟩⟩
      · cases hrest
        exact .inr ⟨haccepted, .inr ⟨implied, hbranch, rfl⟩⟩
  · rintro (⟨hrefused, hrest⟩ | ⟨haccepted, ⟨hbranch, hrest⟩ | ⟨implied, hbranch, rfl⟩⟩)
    · exact ⟨false, hrefused, hrest⟩
    · exact ⟨true, haccepted, Except.bind_eq_ok_iff.mpr ⟨none, hbranch, hrest⟩⟩
    · exact ⟨true, haccepted, Except.bind_eq_ok_iff.mpr ⟨some implied, hbranch, rfl⟩⟩

theorem not_admits (h : ∃ value ∈ actual, root.isValid branch value = .ok false) :
    ¬ root.Admits actual branch := by
  obtain ⟨value, hvalue, hfalse⟩ := h
  intro hadmits
  have htrue := hadmits value hvalue
  rw [hfalse] at htrue
  cases htrue

theorem firstBranch_mono
    (hstep : ∀ branch ∈ schemas, ∀ found, f branch = .ok found → g branch = .ok found)
    (h : firstBranch root actual f schemas = .ok found) :
    firstBranch root actual g schemas = .ok found := by
  induction schemas with
  | nil => exact h
  | cons branch rest ih =>
    obtain ⟨hbranch, hothers⟩ := List.forall_mem_cons.mp hstep
    rw [firstBranch_cons_eq_ok_iff] at h ⊢
    rcases h with ⟨hpassed, hnext⟩ | ⟨hadmits, ⟨hnone, hnext⟩ | ⟨implied, hsome, hfound⟩⟩
    · exact .inl ⟨hpassed, ih hothers hnext⟩
    · exact .inr ⟨hadmits, .inl ⟨hbranch _ hnone, ih hothers hnext⟩⟩
    · exact .inr ⟨hadmits, .inr ⟨implied, hbranch _ hsome, hfound⟩⟩

/-- Only the branches that are tried count. -/
theorem firstBranch_congr
    (h : ∀ branch ∈ schemas, root.Admits actual branch → f branch = g branch) :
    firstBranch root actual f schemas = firstBranch root actual g schemas := by
  induction schemas with
  | nil => rfl
  | cons branch rest ih =>
    obtain ⟨hbranch, hothers⟩ := List.forall_mem_cons.mp h
    rw [firstBranch_cons, firstBranch_cons, ih hothers]
    cases haccepted : actual.elim (.ok true) (root.isValid branch) with
    | error fault => rfl
    | ok accepted =>
      cases accepted with
      | false => rfl
      | true => rw [hbranch (admits_iff.mpr haccepted)]

/-- If no branch has a type, then none that is tried has. -/
theorem eq_none_of_firstBranch (h : firstBranch root actual f schemas = .ok none)
    (hmem : branch ∈ schemas) (hadmits : root.Admits actual branch) : f branch = .ok none := by
  induction schemas with
  | nil => cases hmem
  | cons first rest ih =>
    rcases firstBranch_cons_eq_ok_iff.mp h with
      ⟨hpassed, hnext⟩ | ⟨-, ⟨hnone, hnext⟩ | ⟨implied, -, hfound⟩⟩
    · rcases List.mem_cons.mp hmem with rfl | hrest
      · exact absurd hadmits (not_admits hpassed)
      · exact ih hnext hrest
    · rcases List.mem_cons.mp hmem with rfl | hrest
      · exact hnone
      · exact ih hnext hrest
    · cases hfound

/-! ### One call -/

/-- What a call of inference comes upon when it is entered with some references followed. -/
inductive Call (root : Schema) (seen : List String) : Schema → Prop where
  | refused : Call root seen (.always false)
  | cut {n : Node Schema} {ref : String} (href : n.ref = some ref)
      (hcut : ref ∈ seen ∨ root.resolveReference ref = none) : Call root seen (.node n)
  | target {n : Node Schema} {ref : String} {target : Schema} (href : n.ref = some ref)
      (hseen : ref ∉ seen) (htarget : root.resolveReference ref = some target) :
      Call root seen (.node n)
  | undeclared {schema : Schema} {n : Node Schema} (hnode : schema.toNode? = some n)
      (href : n.ref = none) (htype : n.type = .any) : Call root seen schema
  | declared {n : Node Schema} (href : n.ref = none) (htype : n.type ≠ .any) :
      Call root seen (.node n)

theorem call (root : Schema) (seen : List String) (schema : Schema) : Call root seen schema := by
  cases schema with
  | always accepted =>
    cases accepted with
    | true => exact .undeclared (n := blank) rfl rfl rfl
    | false => exact .refused
  | node n =>
    cases href : n.ref with
    | none =>
      by_cases htype : n.type = .any
      · exact .undeclared rfl href htype
      · exact .declared href htype
    | some ref =>
      by_cases hseen : ref ∈ seen
      · exact .cut href (.inl hseen)
      · cases htarget : root.resolveReference ref with
        | none => exact .cut href (.inr htarget)
        | some target => exact .target href hseen htarget

theorem inferWithin_refused :
    inferWithin root actual (fuel + 1) seen (.always false) = .ok none := rfl

theorem inferWithin_cut (href : n.ref = some ref)
    (hcut : ref ∈ seen ∨ root.resolveReference ref = none) :
    inferWithin root actual (fuel + 1) seen (.node n) = .ok none := by
  rw [inferWithin_reference href]
  rcases hcut with hseen | hnone
  · rw [if_pos hseen]
  · rw [hnone, Option.elim_none, ite_self]

theorem inferWithin_target (href : n.ref = some ref) (hseen : ref ∉ seen)
    (htarget : root.resolveReference ref = some target) :
    inferWithin root actual (fuel + 1) seen (.node n) =
      inferWithin root actual fuel (ref :: seen) target := by
  rw [inferWithin_reference href, if_neg hseen, htarget, Option.elim_some]

/-- A declared type is found with whatever has been followed. -/
theorem inferWithin_declared_eq (href : n.ref = none) (htype : n.type ≠ .any) :
    inferWithin root actual (fuel + 1) seen (.node n) = inferWithin root actual 1 [] (.node n) := by
  cases hdeclared : n.type with
  | any => exact absurd hdeclared htype
  | _ => simp only [inferWithin, toNode?, href, hdeclared]

theorem eq_node_of_mem_branches (hnode : schema.toNode? = some n) (hmem : branch ∈ branches n) :
    schema = .node n := by
  cases schema with
  | node m =>
    cases hnode
    rfl
  | always accepted =>
    cases accepted with
    | true =>
      cases hnode
      cases hmem
    | false => cases hnode

theorem mem_children_of_mem_branches (hmem : branch ∈ branches n) : branch ∈ n.children := by
  simp only [branches, Node.children, List.mem_append] at hmem ⊢
  tauto

/-! ### Fuel -/

/-- Fuel that is enough for a result leads to the same result as any more of it. -/
theorem inferWithin_mono (h : inferWithin root actual fuel seen schema = .ok found)
    (hle : fuel ≤ fuel') : inferWithin root actual fuel' seen schema = .ok found := by
  induction fuel generalizing fuel' seen schema found with
  | zero => cases h
  | succ fuel ih =>
    obtain ⟨more, rfl⟩ : ∃ more, fuel' = more + 1 := ⟨fuel' - 1, by omega⟩
    have hmore : fuel ≤ more := by omega
    cases root.call seen schema with
    | refused => exact h
    | cut href hcut =>
      rw [inferWithin_cut href hcut] at h ⊢
      exact h
    | target href hseen htarget =>
      rw [inferWithin_target href hseen htarget] at h ⊢
      exact ih h hmore
    | undeclared hnode href htype =>
      rw [inferWithin_any hnode href htype, Except.map_eq_ok_iff] at h ⊢
      obtain ⟨among, hbranches, hfound⟩ := h
      exact ⟨among, firstBranch_mono (fun _ _ _ hbranch => ih hbranch hmore) hbranches, hfound⟩
    | declared href htype =>
      rw [inferWithin_declared_eq href htype] at h ⊢
      exact h

theorem inferWithin_agree (h : inferWithin root actual fuel seen schema = .ok found)
    {found' : Option Implied} (h' : inferWithin root actual fuel' seen schema = .ok found') :
    found = found' := by
  have hboth := inferWithin_mono h (Nat.le_max_left fuel fuel')
  rw [inferWithin_mono h' (Nat.le_max_right fuel fuel')] at hboth
  exact (Except.ok.inj hboth).symm

theorem errorsIn_firstBranch {allowed : Fault → Prop}
    (hvalid : ∀ value ∈ actual, ∀ branch ∈ schemas, (root.isValid branch value).ErrorsIn allowed)
    (hstep : ∀ branch ∈ schemas, (f branch).ErrorsIn allowed) :
    (firstBranch root actual f schemas).ErrorsIn allowed := by
  induction schemas with
  | nil => exact Except.errorsIn_ok none
  | cons branch rest ih =>
    have hrest := ih (fun value hvalue other hother =>
      hvalid value hvalue other (List.mem_cons_of_mem branch hother))
      fun other hother => hstep other (List.mem_cons_of_mem branch hother)
    have hbranch := hstep branch List.mem_cons_self
    rw [firstBranch_cons]
    refine Except.ErrorsIn.bind ?_ fun accepted => ?_
    · cases actual with
      | none => exact Except.errorsIn_ok true
      | some value => exact hvalid value rfl branch List.mem_cons_self
    · cases accepted with
      | false => exact hrest
      | true =>
        refine hbranch.bind fun found => ?_
        cases found with
        | none => exact hrest
        | some implied => exact Except.errorsIn_ok (some implied)

/-- The calls of inference are visits that validation could need, so their ranks bound the fuel. All
faults are those of validations of the value. -/
theorem errorsIn_inferWithin {refs : List String} {height : Nat}
    (hroot : Visit.Fits refs height root) (hschema : Visit.Fits refs height schema)
    (hfuel : Visit.rank refs height ⟨seen, .null, schema⟩ ≤ fuel) :
    (inferWithin root actual fuel seen schema).ErrorsIn fun fault =>
      ∃ value ∈ actual, ∃ branch, root.isValid branch value = .error fault := by
  induction fuel generalizing seen schema with
  | zero =>
    have := schema.depth_pos
    simp only [Visit.rank] at hfuel
    omega
  | succ fuel ih =>
    cases root.call seen schema with
    | refused =>
      rw [inferWithin_refused]
      exact Except.errorsIn_ok none
    | cut href hcut =>
      rw [inferWithin_cut href hcut]
      exact Except.errorsIn_ok none
    | @target _ _ target href hseen htarget =>
      rw [inferWithin_target href hseen htarget]
      have hneeds : Visit.Needs root ⟨seen, .null, _⟩ ⟨_, .null, target⟩ :=
        .target href hseen htarget
      have hlt := Visit.rank_lt_of_needs hroot hschema hneeds
      exact ih (hroot.of_needs hschema hneeds) (by omega)
    | @undeclared _ n hnode href htype =>
      rw [inferWithin_any hnode href htype]
      refine Except.ErrorsIn.map _ (errorsIn_firstBranch ?_ ?_)
      · exact fun value hvalue branch _ fault hfault => ⟨value, hvalue, branch, hfault⟩
      · intro branch hmem
        obtain rfl := eq_node_of_mem_branches hnode hmem
        have hneeds : Visit.Needs root ⟨seen, .null, .node n⟩ ⟨seen, .null, branch⟩ :=
          .here (mem_children_of_mem_branches hmem)
        have hlt := Visit.rank_lt_of_needs hroot hschema hneeds
        exact ih (hroot.of_needs hschema hneeds) (by omega)
    | @declared n href htype =>
      obtain ⟨type, hresult, -⟩ := @inferWithin_declared root actual n fuel seen href htype
      rw [hresult]
      exact Except.errorsIn_ok _

theorem rank_le_levelsPerValue (root schema : Schema) :
    Visit.rank (root.refs ++ schema.refs).eraseDups (max root.depth schema.depth)
      ⟨[], .null, schema⟩ ≤ levelsPerValue root schema := by
  have hfuel : root.fuel schema .null = levelsPerValue root schema := Nat.one_mul _
  rw [← hfuel]
  exact rank_le_fuel root [] .null schema

theorem exists_isValid_of_infer {fault : Fault} (h : root.infer actual schema = .error fault) :
    ∃ value ∈ actual, ∃ branch, root.isValid branch value = .error fault :=
  errorsIn_inferWithin (Visit.fits_root root schema) (Visit.fits_schema root schema)
    (rank_le_levelsPerValue root schema) fault h

theorem errorsIn_infer (root schema : Schema) (actual : Option Value) :
    (root.infer actual schema).ErrorsIn fun fault => fault ≠ .outOfFuel ∧ actual.isSome := by
  intro fault hfault
  obtain ⟨value, hvalue, branch, hbranch⟩ := exists_isValid_of_infer hfault
  refine ⟨?_, Option.isSome_of_mem hvalue⟩
  rintro rfl
  exact isValid_ne_outOfFuel branch hbranch

/-- Without a value nothing is validated, and so inference always comes to an end. -/
theorem exists_infer_none (root schema : Schema) : ∃ found, root.infer none schema = .ok found := by
  cases h : root.infer none schema with
  | ok found => exact ⟨found, rfl⟩
  | error fault => cases (errorsIn_infer root schema none fault h).2

end JsonSchema.Schema
