import JsonSchema.Inference
import JsonSchema.Proofs.Cycles
import JsonSchema.Proofs.Lens

/-!
# Inferred types fit the value

Inference follows a reference only if it has not been followed on the way, and a validation only if it
has not been entered at the value. Whenever a branch is tried, its validation starts with nothing
active, while what was followed is kept. So the active references are always among those that were
followed, and no reference that inference follows was passed over by the validation that accepted the
value: `fits_of_inferWithin` goes down the two side by side.
-/

namespace JsonSchema

/-- The union of boolean and object, which stands for an object or the absence of one. -/
def TypeSpec.IsBooleanOrObject (spec : TypeSpec) : Prop :=
  ∃ primitives, spec = .union primitives ∧ ∀ p, p ∈ primitives ↔ p = .boolean ∨ p = .object

/-- A type that is declared by the node of a result is the type of the result, and accepts the value. -/
def Implied.Fits (implied : Implied) (value : Value) : Prop :=
  implied.node.type ≠ .any → ¬ implied.node.type.IsBooleanOrObject →
    implied.type = implied.node.type ∧ implied.node.type.accepts value

namespace Schema

variable {root schema : Schema} {actual : Option Value} {value : Value} {n : Node Schema}
  {fuel : Nat} {seen : List String} {implied : Implied}

theorem isBooleanOrObject_iff {primitives : List Primitive} :
    isBooleanOrObject primitives = true ↔ (TypeSpec.union primitives).IsBooleanOrObject := by
  simp only [isBooleanOrObject, Bool.and_eq_true, List.contains_eq_mem, decide_eq_true_eq,
    List.all_eq_true, Bool.or_eq_true]
  constructor
  · rintro ⟨⟨hboolean, hobject⟩, hall⟩
    refine ⟨primitives, rfl, fun p => ⟨hall p, ?_⟩⟩
    rintro (rfl | rfl)
    · exact hboolean
    · exact hobject
  · rintro ⟨_, ⟨rfl⟩, hmem⟩
    exact ⟨⟨(hmem _).mpr (.inl rfl), (hmem _).mpr (.inr rfl)⟩, fun p => (hmem p).mp⟩

/-! ### One call -/

theorem inferWithin_reference {ref : String} (href : n.ref = some ref) :
    inferWithin root actual (fuel + 1) seen (.node n) =
      if ref ∈ seen then .ok none
      else (root.resolveReference ref).elim (.ok none)
        (inferWithin root actual fuel (ref :: seen)) := by
  simp only [inferWithin, toNode?, href, List.contains_eq_mem, decide_eq_true_eq]
  cases root.resolveReference ref <;> rfl

/-- Where no type is declared, the branches are tried before the other keywords. -/
theorem inferWithin_any (hnode : schema.toNode? = some n) (href : n.ref = none)
    (htype : n.type = .any) :
    inferWithin root actual (fuel + 1) seen schema =
      (firstBranch root actual (inferWithin root actual fuel seen) (branches n)).map
        (·.or (inferFromKeywords n)) := by
  simp only [inferWithin, hnode, href, htype]
  cases firstBranch root actual (inferWithin root actual fuel seen) (branches n) with
  | error fault => rfl
  | ok found? => cases found? <;> rfl

theorem inferWithin_declared (href : n.ref = none) (htype : n.type ≠ .any) :
    ∃ type, inferWithin root actual (fuel + 1) seen (.node n) = .ok (some ⟨type, n⟩) ∧
      (¬ n.type.IsBooleanOrObject → type = n.type) := by
  cases hdeclared : n.type with
  | any => exact absurd hdeclared htype
  | single primitive =>
    exact ⟨.single primitive, by simp only [inferWithin, toNode?, href, hdeclared], fun _ => rfl⟩
  | nullable primitive =>
    exact ⟨.nullable primitive, by simp only [inferWithin, toNode?, href, hdeclared], fun _ => rfl⟩
  | union primitives =>
    refine ⟨if isBooleanOrObject primitives then .single .object else .union primitives,
      by simp only [inferWithin, toNode?, href, hdeclared], fun hother => ?_⟩
    rw [if_neg (mt isBooleanOrObject_iff.mp hother)]

theorem node_eq_of_inferFromKeywords (h : inferFromKeywords n = some implied) :
    implied.node = n := by
  unfold inferFromKeywords at h
  split at h
  · cases h
    rfl
  · split at h
    · cases h
      rfl
    · split at h
      · cases h
        rfl
      · cases h

theorem firstBranch_cons (inferBranch : Schema → Except Fault (Option Implied)) (branch : Schema)
    (rest : List Schema) :
    firstBranch root actual inferBranch (branch :: rest) =
      (actual.elim (.ok true) (root.isValid branch) >>= fun accepted =>
        if accepted then inferBranch branch >>= fun
          | some found => .ok (some found)
          | none => firstBranch root actual inferBranch rest
        else firstBranch root actual inferBranch rest) := by
  conv_lhs => unfold firstBranch
  have hbranch : ∀ found : Except Fault (Option Implied),
      (found >>= fun
        | some found => pure (some found)
        | none => firstBranch root actual inferBranch rest) =
      (found >>= fun
        | some found => .ok (some found)
        | none => firstBranch root actual inferBranch rest) := by
    rintro (fault | _ | found) <;> rfl
  cases actual with
  | none => exact hbranch _
  | some value => rfl

/-- A result of the branches is that of one that accepts the value. -/
theorem exists_of_firstBranch {inferBranch : Schema → Except Fault (Option Implied)}
    {schemas : List Schema}
    (h : firstBranch root actual inferBranch schemas = .ok (some implied)) :
    ∃ branch ∈ schemas, (∀ value ∈ actual, root.isValid branch value = .ok true) ∧
      inferBranch branch = .ok (some implied) := by
  induction schemas with
  | nil => cases h
  | cons branch rest ih =>
    rw [firstBranch_cons] at h
    obtain ⟨accepted, haccepted, hnext⟩ := Except.bind_eq_ok_iff.mp h
    have hlater (hrest : firstBranch root actual inferBranch rest = .ok (some implied)) :
        ∃ other ∈ branch :: rest, (∀ value ∈ actual, root.isValid other value = .ok true) ∧
          inferBranch other = .ok (some implied) := by
      obtain ⟨other, hmem, hother⟩ := ih hrest
      exact ⟨other, List.mem_cons_of_mem branch hmem, hother⟩
    cases accepted with
    | false => exact hlater hnext
    | true =>
      obtain ⟨found?, hbranch, hfound⟩ := Except.bind_eq_ok_iff.mp hnext
      cases found? with
      | none => exact hlater hfound
      | some found =>
        cases hfound
        refine ⟨branch, List.mem_cons_self, fun value hvalue => ?_, hbranch⟩
        rw [Option.mem_def.mp hvalue] at haccepted
        exact haccepted

/-! ### All calls -/

/-- What is inferred fits a value that a validation accepts, as long as the references that are active
in the validation were followed by inference too. -/
theorem fits_of_inferWithin {active : List String} (hactive : active ⊆ seen)
    (hvalid : Valid root ⟨active, value, schema⟩)
    (h : inferWithin root (some value) fuel seen schema = .ok (some implied)) :
    implied.Fits value := by
  induction fuel generalizing active seen schema with
  | zero => cases h
  | succ fuel ih =>
    have hany (n : Node Schema) (hnode : schema.toNode? = some n) (href : n.ref = none)
        (htype : n.type = .any) : implied.Fits value := by
      rw [inferWithin_any hnode href htype] at h
      obtain ⟨found?, hbranches, hfound⟩ := Except.map_eq_ok_iff.mp h
      cases found? with
      | some found =>
        cases hfound
        obtain ⟨branch, -, haccepts, hbranch⟩ := exists_of_firstBranch hbranches
        have hbranchValid := (eq_true_iff_valid_of_isValid (haccepts value rfl)).mp rfl
        exact ih (List.nil_subset _) hbranchValid hbranch
      | none =>
        have hsame := node_eq_of_inferFromKeywords hfound
        intro hdeclared
        exact absurd (hsame ▸ htype) hdeclared
    cases schema with
    | always accepted =>
      cases accepted with
      | true => exact hany blank rfl rfl rfl
      | false => cases h
    | node n =>
      cases href : n.ref with
      | some ref =>
        rw [inferWithin_reference href] at h
        by_cases hseen : ref ∈ seen
        · rw [if_pos hseen] at h
          cases h
        · rw [if_neg hseen] at h
          cases htarget : root.resolveReference ref with
          | none =>
            rw [htarget] at h
            cases h
          | some target =>
            rw [htarget] at h
            -- a reference that is followed here was not active, so its target was validated
            rcases (valid_reference href).mp hvalid with hmem | hentered
            · exact absurd (hactive hmem) hseen
            · exact ih (List.cons_subset_cons ref hactive) (hentered target htarget) h
      | none =>
        by_cases htype : n.type = .any
        · exact hany n rfl href htype
        · obtain ⟨type, hresult, hsame⟩ := @inferWithin_declared root (some value) n fuel seen href htype
          rw [hresult] at h
          cases h
          intro _ hother
          exact ⟨hsame hother, ((valid_node href).mp hvalid).type⟩

theorem infer_of_implyType {pointer : String} (hnode : root.nodeAt pointer = some n)
    (h : root.implyType (some value) pointer = .ok (.ok implied)) :
    root.infer (partAt (some value) pointer) (.node n) = .ok (some implied) := by
  simp only [implyType, hnode] at h
  obtain ⟨found?, hinfer, hfound⟩ := Except.bind_eq_ok_iff.mp h
  cases found? with
  | none => cases hfound
  | some found =>
    cases hfound
    exact hinfer

/-- Inference does not contradict the value that it is given. If the value at a pointer is valid
against the node there, and the implied node declares a type other than the union of boolean and object,
then this is the implied type, and it accepts the value. -/
theorem implied_type_accepts {part : Value} {pointer : String} {segments : List String}
    (hpointer : Pointer.parse pointer = .ok segments) (hpart : value.at? segments = some part)
    (hnode : root.nodeAt pointer = some n) (hvalid : root.isValid (.node n) part = .ok true)
    (himplied : root.implyType (some value) pointer = .ok (.ok implied))
    (hdeclared : implied.node.type ≠ .any) (hother : ¬ implied.node.type.IsBooleanOrObject) :
    implied.type = implied.node.type ∧ implied.node.type.accepts part := by
  have hat : partAt (some value) pointer = some part := by
    simpa [partAt, hpointer] using hpart
  have hinfer := infer_of_implyType hnode himplied
  rw [hat] at hinfer
  have haccepted : Valid root ⟨[], part, .node n⟩ := (eq_true_iff_valid_of_isValid hvalid).mp rfl
  exact fits_of_inferWithin (List.nil_subset _) haccepted hinfer hdeclared hother

def sized : Schema := .node {
  definitions := some [("amount", .node {
    allOf := some [.node { ref := some "#/definitions/amount" }, .node { type := .nullable .integer }] })]
  properties := some [("size", .node {
    anyOf := some [.node { type := .single .string }, .node { ref := some "#/definitions/amount" }] })] }

/-- The value decides against the text, and the reference is not followed a second time. -/
theorem implied_type_accepts_size :
    ∃ implied, sized.implyType (some (.object [("size", .int 5)])) "#/size" = .ok (.ok implied) ∧
      implied.type = .nullable .integer ∧ implied.node.type.accepts (.int 5) := by
  have hpointer : Pointer.parse "#/size" = .ok ["size"] := by rfl
  have hpart : (Value.object [("size", .int 5)]).at? ["size"] = some (.int 5) := by rfl
  have hnode : sized.nodeAt "#/size" = some {
      anyOf := some [.node { type := .single .string },
        .node { ref := some "#/definitions/amount" }] } := by rfl
  have hvalid : sized.isValid (.node {
      anyOf := some [.node { type := .single .string },
        .node { ref := some "#/definitions/amount" }] }) (.int 5) = .ok true := by decide +kernel
  have himplied : sized.implyType (some (.object [("size", .int 5)])) "#/size" =
      .ok (.ok ⟨.nullable .integer, { type := .nullable .integer }⟩) := by rfl
  have hother : ¬ (TypeSpec.nullable .integer).IsBooleanOrObject := by
    rintro ⟨primitives, hunion, -⟩
    cases hunion
  obtain ⟨htype, haccepts⟩ :=
    implied_type_accepts hpointer hpart hnode hvalid himplied nofun hother
  exact ⟨_, himplied, htype, haccepts⟩

end Schema

end JsonSchema
