import JsonSchema.Proofs.Calls
import JsonSchema.Proofs.Descent

/-!
# A reference and its target

Inference comes to the target of a reference with the reference followed, and to the target by itself
with nothing followed. Whether a type is found does not depend on this: `Declares` says in terms of the
schemas that there is one to be found, and a way to it that follows a reference twice can be cut short.
Which type is found can depend on it, but only if some other reference that the target meets leads back
to the first one. Otherwise inference does, where the target comes to the reference, what it does behind
the reference anyway, `sameOr_of_not_recurs`.
-/

namespace JsonSchema.Schema

variable {root schema branch target : Schema} {actual : Option Value} {n : Node Schema}
  {fuel fuel' : Nat} {seen seen' : List String} {ref : String} {found : Option Implied}
  {f g : Schema → Except Fault (Option Implied)} {schemas : List Schema}

/-! ### Whether a type is found -/

structure Tries (root : Schema) (actual : Option Value) (n : Node Schema) (branch : Schema) :
    Prop where
  ref : n.ref = none
  type : n.type = .any
  mem : branch ∈ branches n
  admitted : root.Admits actual branch

/-- Inference can come to a node with a type without following any reference in `seen`, nor any other
one twice. -/
inductive Declares (root : Schema) (actual : Option Value) : List String → Schema → Prop where
  | here {seen : List String} {schema : Schema} {n : Node Schema} (hnode : schema.toNode? = some n)
      (href : n.ref = none) (htype : n.type ≠ .any ∨ (inferFromKeywords n).isSome) :
      Declares root actual seen schema
  | inside {seen : List String} {n : Node Schema} {branch : Schema}
      (htries : root.Tries actual n branch) (h : Declares root actual seen branch) :
      Declares root actual seen (.node n)
  | target {seen : List String} {n : Node Schema} {ref : String} {target : Schema}
      (href : n.ref = some ref) (hseen : ref ∉ seen)
      (htarget : root.resolveReference ref = some target)
      (h : Declares root actual (ref :: seen) target) : Declares root actual seen (.node n)

theorem declares_reference_iff (href : n.ref = some ref) :
    root.Declares actual seen (.node n) ↔
      ref ∉ seen ∧ ∃ target, root.resolveReference ref = some target ∧
        root.Declares actual (ref :: seen) target := by
  constructor
  · intro h
    cases h with
    | here hnode hnone =>
      cases hnode
      rw [href] at hnone
      cases hnone
    | inside htries =>
      have hnone := htries.ref
      rw [href] at hnone
      cases hnone
    | target href' hseen htarget hbelow =>
      rw [href] at href'
      cases href'
      exact ⟨hseen, _, htarget, hbelow⟩
  · rintro ⟨hseen, target, htarget, hbelow⟩
    exact .target href hseen htarget hbelow

theorem declares_undeclared_iff (hnode : schema.toNode? = some n) (href : n.ref = none)
    (htype : n.type = .any) :
    root.Declares actual seen schema ↔
      (∃ branch, root.Tries actual n branch ∧ root.Declares actual seen branch) ∨
        (inferFromKeywords n).isSome := by
  constructor
  · intro h
    cases h with
    | here hnode' _ hdeclared =>
      rw [hnode] at hnode'
      cases hnode'
      exact .inr (hdeclared.resolve_left fun hne => hne htype)
    | inside htries hbelow =>
      cases hnode
      exact .inl ⟨_, htries, hbelow⟩
    | target href' =>
      cases hnode
      rw [href] at href'
      cases href'
  · rintro (⟨branch, htries, hbelow⟩ | hkeywords)
    · obtain rfl := eq_node_of_mem_branches hnode htries.mem
      exact .inside htries hbelow
    · exact .here hnode href (.inr hkeywords)

theorem isSome_iff_declares (h : inferWithin root actual fuel seen schema = .ok found) :
    found.isSome ↔ root.Declares actual seen schema := by
  induction fuel generalizing seen schema found with
  | zero => cases h
  | succ fuel ih =>
    cases root.call seen schema with
    | refused =>
      cases h
      refine iff_of_false nofun fun hdeclares => ?_
      cases hdeclares with
      | here hnode => cases hnode
    | cut href hcut =>
      rw [inferWithin_cut href hcut] at h
      cases h
      rw [declares_reference_iff href]
      refine iff_of_false nofun ?_
      rintro ⟨hseen, target, htarget, -⟩
      simp [hseen, htarget] at hcut
    | target href hseen htarget =>
      rw [inferWithin_target href hseen htarget] at h
      rw [ih h, declares_reference_iff href]
      simp [hseen, htarget]
    | undeclared hnode href htype =>
      rw [inferWithin_any hnode href htype] at h
      obtain ⟨among, hbranches, rfl⟩ := Except.map_eq_ok_iff.mp h
      rw [declares_undeclared_iff hnode href htype, Option.isSome_or, Bool.or_eq_true]
      refine or_congr_left ?_
      cases among with
      | some implied =>
        obtain ⟨branch, hmem, hadmits, hbranch⟩ := exists_of_firstBranch hbranches
        exact iff_of_true rfl ⟨branch, ⟨href, htype, hmem, hadmits⟩, (ih hbranch).mp rfl⟩
      | none =>
        refine iff_of_false nofun ?_
        rintro ⟨branch, htries, hbelow⟩
        have hbranch := eq_none_of_firstBranch hbranches htries.mem htries.admitted
        cases (ih hbranch).mpr hbelow
    | @declared n href htype =>
      obtain ⟨type, hresult, -⟩ := @inferWithin_declared root actual n fuel seen href htype
      rw [hresult] at h
      cases h
      exact iff_of_true rfl (.here rfl href (.inl htype))

theorem Declares.of_subset (h : root.Declares actual seen schema) (hsub : seen' ⊆ seen) :
    root.Declares actual seen' schema := by
  induction h generalizing seen' with
  | here hnode href htype => exact .here hnode href htype
  | inside htries _ ih => exact .inside htries (ih hsub)
  | target href hseen htarget _ ih =>
    exact .target href (fun hmem => hseen (hsub hmem)) htarget (ih (List.cons_subset_cons _ hsub))

/-- A way to a type either does not follow a reference, or what it does behind the last time is a way
from the target. -/
theorem Declares.cut (htarget : root.resolveReference ref = some target)
    (h : root.Declares actual seen schema) :
    root.Declares actual (ref :: seen) schema ∨ root.Declares actual (ref :: seen) target := by
  induction h with
  | here hnode href htype => exact .inl (.here hnode href htype)
  | inside htries _ ih => exact ih.imp_left (.inside htries)
  | @target seen n other next href hseen hnext h ih =>
    by_cases hsame : other = ref
    · subst hsame
      rw [htarget] at hnext
      cases hnext
      exact .inr h
    · rcases ih with hbelow | hbelow
      · refine .inl (.target href (List.not_mem_cons_of_ne_of_not_mem hsame hseen) hnext ?_)
        exact hbelow.of_subset fun _ => by simp only [List.mem_cons]; tauto
      · exact .inr (hbelow.of_subset fun _ => by simp only [List.mem_cons]; tauto)

/-- A reference and its target both have a type or both have none. -/
theorem isSome_iff_of_reference {found' : Option Implied}
    (htarget : root.resolveReference ref = some target)
    (h : inferWithin root actual fuel [ref] target = .ok found)
    (h' : inferWithin root actual fuel' [] target = .ok found') : found.isSome ↔ found'.isSome := by
  rw [isSome_iff_declares h, isSome_iff_declares h']
  constructor
  · intro hdeclares
    exact hdeclares.of_subset (List.nil_subset _)
  · intro hdeclares
    rcases hdeclares.cut htarget with hagain | hagain
    · exact hagain
    · exact hagain

/-! ### Which type is found -/

/-- Inference comes upon a reference without following any other. -/
inductive Meets (root : Schema) (actual : Option Value) (ref : String) : Schema → Prop where
  | here {n : Node Schema} (href : n.ref = some ref) : Meets root actual ref (.node n)
  | inside {n : Node Schema} {branch : Schema} (htries : root.Tries actual n branch)
      (h : Meets root actual ref branch) : Meets root actual ref (.node n)

/-- Inference can come upon a reference, following others on the way. -/
inductive LeadsTo (root : Schema) (actual : Option Value) (ref : String) : Schema → Prop where
  | meets {schema : Schema} (h : root.Meets actual ref schema) : LeadsTo root actual ref schema
  | behind {schema target : Schema} {other : String} (hmeets : root.Meets actual other schema)
      (htarget : root.resolveReference other = some target) (h : LeadsTo root actual ref target) :
      LeadsTo root actual ref schema

/-- Some other reference that a schema meets leads back to a reference. -/
def Recurs (root : Schema) (actual : Option Value) (ref : String) (schema : Schema) : Prop :=
  ∃ other, other ≠ ref ∧ root.Meets actual other schema ∧
    ∃ next, root.resolveReference other = some next ∧ root.LeadsTo actual ref next

theorem LeadsTo.inside (htries : root.Tries actual n branch) (h : root.LeadsTo actual ref branch) :
    root.LeadsTo actual ref (.node n) := by
  cases h with
  | meets hmeets => exact .meets (.inside htries hmeets)
  | behind hmeets htarget hrest => exact .behind (.inside htries hmeets) htarget hrest

theorem Recurs.inside (htries : root.Tries actual n branch) (h : root.Recurs actual ref branch) :
    root.Recurs actual ref (.node n) := by
  obtain ⟨other, hne, hmeets, hrest⟩ := h
  exact ⟨other, hne, .inside htries hmeets, hrest⟩

def SameOr (expected found found' : Option Implied) : Prop :=
  found = found' ∨ expected.isSome ∧ found = expected

theorem sameOr_none_iff {found found' : Option Implied} : SameOr none found found' ↔ found = found' := by
  simp [SameOr]

theorem SameOr.or {expected found found' : Option Implied} (h : SameOr expected found found')
    (further : Option Implied) : SameOr expected (found.or further) (found'.or further) := by
  rcases h with rfl | ⟨hsome, rfl⟩
  · exact .inl rfl
  · refine .inr ⟨hsome, ?_⟩
    obtain ⟨implied, rfl⟩ := Option.isSome_iff_exists.mp hsome
    rfl

/-- The first branch to have a type is the same one in both cases, or has the type expected. -/
theorem sameOr_firstBranch {expected found' : Option Implied}
    (hstep : ∀ branch ∈ schemas, root.Admits actual branch → ∀ w w', f branch = .ok w →
      g branch = .ok w' → SameOr expected w w')
    (h : firstBranch root actual f schemas = .ok found)
    (h' : firstBranch root actual g schemas = .ok found') : SameOr expected found found' := by
  induction schemas with
  | nil =>
    cases h
    cases h'
    exact .inl rfl
  | cons branch rest ih =>
    obtain ⟨hbranch, hothers⟩ := List.forall_mem_cons.mp hstep
    rcases firstBranch_cons_eq_ok_iff.mp h with ⟨hpassed, hnext⟩ | ⟨hadmits, hf⟩
    · rcases firstBranch_cons_eq_ok_iff.mp h' with ⟨-, hnext'⟩ | ⟨hadmits, -⟩
      · exact ih hothers hnext hnext'
      · exact absurd hadmits (not_admits hpassed)
    · rcases firstBranch_cons_eq_ok_iff.mp h' with ⟨hpassed, -⟩ | ⟨-, hg⟩
      · exact absurd hadmits (not_admits hpassed)
      · rcases hf with ⟨hnone, hnext⟩ | ⟨implied, hsome, rfl⟩ <;>
          rcases hg with ⟨hnone', hnext'⟩ | ⟨implied', hsome', rfl⟩
        · exact ih hothers hnext hnext'
        · rcases hbranch hadmits _ _ hnone hsome' with heq | ⟨hexpected, rfl⟩
          · cases heq
          · cases hexpected
        · rcases hbranch hadmits _ _ hsome hnone' with heq | hexpected
          · cases heq
          · exact .inr hexpected
        · exact hbranch hadmits _ _ hsome hsome'

/-- A reference that cannot be come upon makes no difference. -/
theorem eq_of_not_leadsTo {found' : Option Implied} (hfree : ¬ root.LeadsTo actual ref schema)
    (hseen : ∀ other, other ≠ ref → (other ∈ seen ↔ other ∈ seen'))
    (h : inferWithin root actual fuel seen schema = .ok found)
    (h' : inferWithin root actual fuel seen' schema = .ok found') : found = found' := by
  induction fuel generalizing seen seen' schema found found' with
  | zero => cases h
  | succ fuel ih =>
    cases root.call seen schema with
    | refused =>
      cases h
      cases h'
      rfl
    | cut href hcut =>
      have hne : _ ≠ ref := fun heq => hfree (.meets (.here (heq ▸ href)))
      rw [inferWithin_cut href hcut] at h
      rw [hseen _ hne] at hcut
      rw [inferWithin_cut href hcut] at h'
      cases h
      cases h'
      rfl
    | target href hnew htarget =>
      have hne : _ ≠ ref := fun heq => hfree (.meets (.here (heq ▸ href)))
      rw [inferWithin_target href hnew htarget] at h
      rw [hseen _ hne] at hnew
      rw [inferWithin_target href hnew htarget] at h'
      refine ih (fun hleads => hfree (.behind (.here href) htarget hleads)) (fun other hother => ?_) h h'
      rw [List.mem_cons, List.mem_cons, hseen other hother]
    | undeclared hnode href htype =>
      rw [inferWithin_any hnode href htype] at h h'
      obtain ⟨among, hbranches, rfl⟩ := Except.map_eq_ok_iff.mp h
      obtain ⟨among', hbranches', rfl⟩ := Except.map_eq_ok_iff.mp h'
      refine congrArg (Option.or · _) (sameOr_none_iff.mp (sameOr_firstBranch ?_ hbranches hbranches'))
      intro branch hmem hadmits w w' hw hw'
      obtain rfl := eq_node_of_mem_branches hnode hmem
      have htries : root.Tries actual _ branch := ⟨href, htype, hmem, hadmits⟩
      exact .inl (ih (fun hleads => hfree (hleads.inside htries)) hseen hw hw')
    | declared href htype =>
      rw [inferWithin_declared_eq href htype] at h h'
      rw [h] at h'
      exact Except.ok.inj h'

/-- Where a schema meets the reference, inference with nothing followed does what it does behind the
reference; everywhere else it does the same whether the reference is followed or not. -/
theorem sameOr_of_not_recurs {expected found' : Option Implied}
    (htarget : root.resolveReference ref = some target)
    (hexpected : inferWithin root actual fuel' [ref] target = .ok expected)
    (hfree : ¬ root.Recurs actual ref schema)
    (h : inferWithin root actual fuel [] schema = .ok found)
    (h' : inferWithin root actual fuel [ref] schema = .ok found') : SameOr expected found found' := by
  induction fuel generalizing schema found found' with
  | zero => cases h
  | succ fuel ih =>
    cases root.call [] schema with
    | refused =>
      cases h
      cases h'
      exact .inl rfl
    | cut href hcut =>
      have hnone := hcut.resolve_left List.not_mem_nil
      rw [inferWithin_cut href (.inr hnone)] at h h'
      cases h
      cases h'
      exact .inl rfl
    | @target n other next href hnew hnext =>
      rw [inferWithin_target href hnew hnext] at h
      by_cases hsame : other = ref
      · subst hsame
        rw [htarget] at hnext
        cases hnext
        rw [inferWithin_cut href (.inl List.mem_cons_self)] at h'
        cases h'
        obtain rfl := inferWithin_agree h hexpected
        cases found with
        | none => exact .inl rfl
        | some implied => exact .inr ⟨rfl, rfl⟩
      · have hnew' : other ∉ [ref] := List.not_mem_cons_of_ne_of_not_mem hsame List.not_mem_nil
        rw [inferWithin_target href hnew' hnext] at h'
        have hapart : ¬ root.LeadsTo actual ref next := fun hleads =>
          hfree ⟨other, hsame, .here href, next, hnext, hleads⟩
        exact .inl (eq_of_not_leadsTo hapart (fun third hthird => by simp [hthird]) h h')
    | undeclared hnode href htype =>
      rw [inferWithin_any hnode href htype] at h h'
      obtain ⟨among, hbranches, rfl⟩ := Except.map_eq_ok_iff.mp h
      obtain ⟨among', hbranches', rfl⟩ := Except.map_eq_ok_iff.mp h'
      refine (sameOr_firstBranch ?_ hbranches hbranches').or _
      intro branch hmem hadmits w w' hw hw'
      obtain rfl := eq_node_of_mem_branches hnode hmem
      have htries : root.Tries actual _ branch := ⟨href, htype, hmem, hadmits⟩
      exact ih (fun hrecurs => hfree (hrecurs.inside htries)) hw hw'
    | declared href htype =>
      rw [inferWithin_declared_eq href htype] at h h'
      rw [h] at h'
      exact .inl (Except.ok.inj h')

/-! ### Results -/

/-- From a reference, inference goes on to its target with nothing else followed. -/
theorem exists_inferWithin_of_infer (href : n.ref = some ref)
    (htarget : root.resolveReference ref = some target)
    (h : root.infer actual (.node n) = .ok found) :
    ∃ fuel, inferWithin root actual fuel [ref] target = .ok found := by
  unfold infer at h
  cases hfuel : levelsPerValue root (.node n) with
  | zero =>
    rw [hfuel] at h
    cases h
  | succ fuel =>
    rw [hfuel, inferWithin_target href List.not_mem_nil htarget] at h
    exact ⟨fuel, h⟩

theorem isSome_iff_of_infer {found' : Option Implied} (href : n.ref = some ref)
    (htarget : root.resolveReference ref = some target)
    (h : root.infer actual (.node n) = .ok found) (h' : root.infer actual target = .ok found') :
    found.isSome ↔ found'.isSome := by
  obtain ⟨fuel, hbehind⟩ := exists_inferWithin_of_infer href htarget h
  exact isSome_iff_of_reference htarget hbehind h'

theorem eq_of_infer {found' : Option Implied} (href : n.ref = some ref)
    (htarget : root.resolveReference ref = some target) (hfree : ¬ root.Recurs actual ref target)
    (h : root.infer actual (.node n) = .ok found) (h' : root.infer actual target = .ok found') :
    found = found' := by
  obtain ⟨fuel, hbehind⟩ := exists_inferWithin_of_infer href htarget h
  have hmore := inferWithin_mono hbehind (Nat.le_max_left fuel (levelsPerValue root target))
  have hmore' := inferWithin_mono h' (Nat.le_max_right fuel (levelsPerValue root target))
  rcases sameOr_of_not_recurs htarget hbehind hfree hmore' hmore with hsame | ⟨-, hsame⟩
  · exact hsame.symm
  · exact hsame.symm

/-- Inference looks at nothing of a schema but its node. -/
theorem infer_of_toNode? {found' : Option Implied} (hnode : schema.toNode? = some n)
    (h : root.infer actual schema = .ok found) (h' : root.infer actual (.node n) = .ok found') :
    found = found' := by
  cases schema with
  | node m =>
    cases hnode
    exact inferWithin_agree h h'
  | always accepted =>
    cases accepted with
    | true =>
      cases hnode
      have hblank : ∀ fuel, inferWithin root actual fuel [] (.always true) =
          inferWithin root actual fuel [] (.node blank) := by
        rintro (_ | fuel) <;> rfl
      rw [infer, hblank] at h
      exact inferWithin_agree h h'
    | false => cases hnode

/-- What is found for a schema compares to what is found for the node that it has or refers to. -/
theorem results_of_resolvedNode? {written implied : Option Implied}
    (hnode : root.resolvedNode? schema = some n) (h : root.infer none schema = .ok written)
    (h' : root.infer none (.node n) = .ok implied) :
    (written.isSome ↔ implied.isSome) ∧
      ((∀ ref target, schema.ref? = some ref → root.resolveReference ref = some target →
        ¬ root.Recurs none ref target) → written = implied) := by
  have hplain (hself : root.resolve schema = schema) : written = implied := by
    rw [resolvedNode?, hself] at hnode
    exact infer_of_toNode? hnode h h'
  cases href : schema.ref? with
  | none =>
    obtain rfl := hplain (by simp [resolve, href])
    exact ⟨Iff.rfl, fun _ => rfl⟩
  | some ref =>
    cases htarget : root.resolveReference ref with
    | none =>
      obtain rfl := hplain (by simp [resolve, href, htarget])
      exact ⟨Iff.rfl, fun _ => rfl⟩
    | some target =>
      have hresolve : root.resolve schema = target := by simp [resolve, href, htarget]
      rw [resolvedNode?, hresolve] at hnode
      cases schema with
      | always accepted => cases href
      | node m =>
        obtain ⟨found, hfound⟩ := exists_infer_none root target
        obtain rfl := infer_of_toNode? hnode hfound h'
        exact ⟨isSome_iff_of_infer href htarget h hfound,
          fun hfree => eq_of_infer href htarget (hfree ref target rfl htarget) h hfound⟩

/-- A reference and its target both imply a type or both imply none, and they imply the same type with
the same node unless some other reference that the target meets leads back to the reference. Faults are
never for lack of fuel. So it is with the type that is implied at a pointer, for which references are
resolved, and the seed that is written there, for which they are not. -/
theorem infer_reference (root : Schema) :
    (∀ (actual : Option Value) (n : Node Schema) (ref : String) (target : Schema)
      (found found' : Option Implied), n.ref = some ref → root.resolveReference ref = some target →
      root.infer actual (.node n) = .ok found → root.infer actual target = .ok found' →
        (found.isSome ↔ found'.isSome) ∧ (¬ root.Recurs actual ref target → found = found')) ∧
    (∀ actual schema, root.infer actual schema ≠ .error .outOfFuel) ∧
    ∀ (value : Option Value) (pointer : String) (segments : List String) (n : Node Schema),
      Pointer.parse pointer = .ok segments → root.nodeAt pointer = some n →
      partAt value pointer = none →
        ∃ written implied : Option Implied,
          root.infer none (root.along root segments) = .ok written ∧
          root.defaultFor (root.along root segments) =
            ((written.bind (·.type.primary?)).map Primitive.seed).getD (.object []) ∧
          root.implyType value pointer = .ok (implied.elim (.error (.noType pointer)) .ok) ∧
          (written.isSome ↔ implied.isSome) ∧
          ((∀ ref target, (root.along root segments).ref? = some ref →
            root.resolveReference ref = some target → ¬ root.Recurs none ref target) →
              written = implied) := by
  refine ⟨fun actual n ref target found found' href htarget h h' => ?_,
    fun actual schema h => (errorsIn_infer root schema actual _ h).1 rfl,
    fun value pointer segments n hpointer hnode hmissing => ?_⟩
  · exact ⟨isSome_iff_of_infer href htarget h h', fun hfree => eq_of_infer href htarget hfree h h'⟩
  · obtain ⟨written, hwritten⟩ := exists_infer_none root (root.along root segments)
    obtain ⟨implied, himplied⟩ := exists_infer_none root (.node n)
    refine ⟨written, implied, hwritten, ?_, ?_, ?_⟩
    · rw [defaultFor, hwritten]
      cases written <;> rfl
    · rw [implyType, hnode]
      simp only [hmissing, himplied]
      cases implied <;> rfl
    · have hdescend : root.descend (root.resolvedNode? root) segments = some n := by
        simpa only [nodeAt, hpointer] using hnode
      obtain ⟨hresolved, -⟩ := resolvedNode?_along hdescend
      exact results_of_resolvedNode? hresolved hwritten himplied

def measured : Schema := .node {
  definitions := some [("amount", .node {
    allOf := some [.node { ref := some "#/definitions/amount" },
      .node { type := .nullable .integer }] })]
  properties := some [("size", .node { ref := some "#/definitions/amount" })] }

theorem not_recurs_measured (actual : Option Value) {target : Schema}
    (htarget : measured.resolveReference "#/definitions/amount" = some target) :
    ¬ measured.Recurs actual "#/definitions/amount" target := by
  cases htarget
  rintro ⟨other, hne, hmeets, -⟩
  cases hmeets with
  | here href => cases href
  | inside htries h =>
    have hmem := htries.mem
    simp only [branches, Option.getD_none, Option.getD_some, List.nil_append, List.append_nil,
      List.mem_cons, List.not_mem_nil, or_false] at hmem
    rcases hmem with rfl | rfl
    · cases h with
      | here href =>
        cases href
        exact hne rfl
      | inside hinner =>
        have hnone := hinner.ref
        cases hnone
    · cases h with
      | here href => cases href
      | inside hinner =>
        have htype := hinner.type
        cases htype

/-- The amount comes to itself when it is entered by itself, and the seed for a size is of the type that
is implied there. -/
theorem infer_measured :
    (∃ target, measured.resolveReference "#/definitions/amount" = some target ∧
      measured.infer none target =
        .ok (some ⟨.nullable .integer, { type := .nullable .integer }⟩) ∧
      measured.infer none (.node { ref := some "#/definitions/amount" }) =
        .ok (some ⟨.nullable .integer, { type := .nullable .integer }⟩)) ∧
    measured.implyType none "#/size" =
      .ok (.ok ⟨.nullable .integer, { type := .nullable .integer }⟩) ∧
    measured.defaultFor (measured.along measured ["size"]) = .int 0 := by
  obtain ⟨target, htarget⟩ :
      ∃ target, measured.resolveReference "#/definitions/amount" = some target := ⟨_, rfl⟩
  have himplied : measured.implyType none "#/size" =
      .ok (.ok ⟨.nullable .integer, { type := .nullable .integer }⟩) := rfl
  have hfound : measured.infer none target =
      .ok (some ⟨.nullable .integer, { type := .nullable .integer }⟩) := by
    cases htarget
    rfl
  refine ⟨⟨target, htarget, hfound, ?_⟩, himplied, ?_⟩
  · obtain ⟨behind, hbehind⟩ :=
      exists_infer_none measured (.node { ref := some "#/definitions/amount" })
    have hsame := ((infer_reference measured).1 _ _ _ _ _ _ rfl htarget hbehind hfound).2
      (not_recurs_measured none htarget)
    rw [hbehind, hsame]
  · obtain ⟨written, implied, -, hseed, hresult, -, hequal⟩ :=
      (infer_reference measured).2.2 none "#/size" ["size"] _ rfl rfl rfl
    have hwritten : written = implied := by
      apply hequal
      rintro ref other href hother
      cases href
      exact not_recurs_measured none hother
    rw [himplied] at hresult
    cases implied with
    | none => cases hresult
    | some found =>
      cases hresult
      rw [hseed, hwritten]
      rfl

def crossed : Schema := .node {
  definitions := some [
    ("a", .node { anyOf := some [.node { ref := some "#/definitions/b" },
      .node { type := .single .string }] }),
    ("b", .node { anyOf := some [.node { ref := some "#/definitions/a" },
      .node { type := .single .integer }] })]
  properties := some [("x", .node { ref := some "#/definitions/a" })] }

/-- Entered by the reference, the cycle is cut in the first definition, and entered by its target, in
the second. So the seed is an integer where a text is implied. -/
theorem infer_crossed :
    ∃ target, crossed.resolveReference "#/definitions/a" = some target ∧
      crossed.infer none (.node { ref := some "#/definitions/a" }) =
        .ok (some ⟨.single .integer, { type := .single .integer }⟩) ∧
      crossed.infer none target = .ok (some ⟨.single .string, { type := .single .string }⟩) ∧
      crossed.implyType none "#/x" =
        .ok (.ok ⟨.single .string, { type := .single .string }⟩) ∧
      crossed.defaultFor (crossed.along crossed ["x"]) = .int 0 :=
  ⟨_, rfl, rfl, rfl, rfl, rfl⟩

end JsonSchema.Schema
