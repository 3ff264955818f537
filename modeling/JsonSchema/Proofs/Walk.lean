import JsonSchema.Proofs.Origins
import JsonSchema.Proofs.Visits

/-!
# The walk decides validity

By induction on the fuel every walk decides whether its visit is valid. A walk without a fault
therefore reports a violation exactly where some keyword fails, although it leaves a node at the
first group of keywords that fails and looks into sub-schemas no further than it has to. What it
reports stands at places of the value, and the ranks of visits bound the fuel that is used up.
-/

namespace JsonSchema

open Findings

theorem valid_always {root : Schema} {active : List String} {value : Value} {accepted : Bool} :
    Valid root ⟨active, value, .always accepted⟩ ↔ accepted = true := by
  rw [valid_iff]
  rfl

theorem valid_node {root : Schema} {active : List String} {value : Value} {n : Node Schema}
    (href : n.ref = none) :
    Valid root ⟨active, value, .node n⟩ ↔
      n.Holds (fun schema => Valid root ⟨active, value, schema⟩)
        (fun part schema => Valid root ⟨[], part, schema⟩) value := by
  rw [valid_iff]
  simp only [Visit.Holds, Schema.Asks, href]

theorem valid_reference {root : Schema} {active : List String} {value : Value} {n : Node Schema}
    {ref : String} (href : n.ref = some ref) :
    Valid root ⟨active, value, .node n⟩ ↔
      ref ∈ active ∨
        ∀ target ∈ root.resolveReference ref, Valid root ⟨ref :: active, value, target⟩ := by
  rw [valid_iff]
  simp only [Visit.Holds, Schema.Asks, href]

/-- A reference that is active or leads nowhere is passed over; any other leads to its target. -/
theorem walk_reference {root : Schema} {fuel : Nat} {active : List String} {value : Value}
    {n : Node Schema} {ref : String} (href : n.ref = some ref) :
    walk root (fuel + 1) active value (.node n) =
      if ref ∈ active then clean
      else (root.resolveReference ref).elim clean (walk root fuel (ref :: active) value) := by
  simp only [walk, href, List.contains_eq_mem, decide_eq_true_eq]
  cases root.resolveReference ref <;> rfl

theorem walk_node {root : Schema} {fuel : Nat} {active : List String} {value : Value}
    {n : Node Schema} (href : n.ref = none) :
    walk root (fuel + 1) active value (.node n) =
      checkNode (walk root fuel active value) (walk root fuel []) n value := by
  simp only [walk, href]

theorem walk_decides (root : Schema) (fuel : Nat) (active : List String) (value : Value)
    (schema : Schema) :
    (walk root fuel active value schema).Decides (Valid root ⟨active, value, schema⟩) := by
  induction fuel generalizing active value schema with
  | zero => exact decides_raise _
  | succ fuel ih =>
    match schema with
    | .always true => exact decides_clean (valid_always.mpr rfl)
    | .always false => exact decides_report _ (by simp [valid_always])
    | .node n =>
      cases href : n.ref with
      | none =>
        rw [walk_node href]
        refine (decides_checkNode (ih active value) (ih []) ?_ n value).congr (valid_node href).symm
        simp [valid_always]
      | some ref =>
        rw [walk_reference href]
        refine Decides.congr ?_ (valid_reference href).symm
        split_ifs with hactive
        · exact decides_clean (.inl hactive)
        · cases htarget : root.resolveReference ref with
          | none => exact decides_clean (by simp)
          | some target =>
            refine (ih (ref :: active) value target).congr ?_
            simp [hactive]

/-! ### Places and fuel -/

theorem within_checkMultiple {reported : Violation → Prop}
    (hreport : ∀ cause, reported ⟨[], cause⟩) (divisor : Option Number) (number : Number) :
    (checkMultiple divisor number).Within reported (· ≠ .outOfFuel) := by
  cases divisor with
  | none => exact within_clean
  | some d =>
    rw [checkMultiple]
    split_ifs
    · refine within_ofResult (fun fault hfault => ?_) fun _ => within_require _ (hreport _)
      cases hresult : number.isMultipleOf d with
      | ok whole =>
        rw [hresult] at hfault
        cases hfault
      | error cause =>
        rw [hresult] at hfault
        cases hfault
        cases cause <;> decide
    · exact within_clean

theorem within_withPattern_clean {reported : Violation → Prop}
    (hreport : ∀ cause, reported ⟨[], cause⟩) (written : String) :
    (withPattern written fun _ => clean).Within reported (· ≠ .outOfFuel) := by
  unfold withPattern
  split
  · exact within_clean
  · exact within_report (hreport _)
  · exact within_raise (by decide)
  · exact within_raise (by decide)
  · exact within_raise (by decide)

/-- Every violation that a walk reports stands at a place of the value. Each step goes to a visit of
lower rank, so a walk with as much fuel as its rank does not run out of it. -/
theorem within_walk {refs : List String} {height : Nat} {root : Schema}
    (hroot : Visit.Fits refs height root) {fuel : Nat} {active : List String} {value : Value}
    {schema : Schema} (hschema : Visit.Fits refs height schema)
    (hfuel : Visit.rank refs height ⟨active, value, schema⟩ ≤ fuel) :
    (walk root fuel active value schema).Within (fun violation => value.HasPlace violation.steps)
      (· ≠ .outOfFuel) := by
  induction fuel generalizing active value schema with
  | zero =>
    have := schema.depth_pos
    simp only [Visit.rank] at hfuel
    omega
  | succ fuel ih =>
    have hneeded {active' : List String} {value' : Value} {schema' : Schema}
        (hneeds : Visit.Needs root ⟨active, value, schema⟩ ⟨active', value', schema'⟩) :
        (walk root fuel active' value' schema').Within
          (fun violation => value'.HasPlace violation.steps) (· ≠ .outOfFuel) := by
      have hlt := Visit.rank_lt_of_needs hroot hschema hneeds
      exact ih (hroot.of_needs hschema hneeds) (by omega)
    cases schema with
    | always accepted =>
      cases accepted with
      | true => exact within_clean
      | false => exact within_report (.here value)
    | node n =>
      cases href : n.ref with
      | none =>
        rw [walk_node href]
        have hreport : Cause → value.HasPlace [] := fun _ => .here value
        refine within_checkNode hreport (fun step part hstep _ => ?_)
          (fun number _ => within_checkMultiple hreport _ number)
          (fun written _ => within_withPattern_clean hreport written)
          (fun entry _ => within_withPattern_clean hreport entry.1)
          (fun schema hmem => hneeded (.here hmem)) fun step part hstep schema hmem => ?_
        · exact .inside hstep (.here part)
        · exact (hneeded (.below hstep.mem_parts hmem)).mono fun _ hplace => .inside hstep hplace
      | some ref =>
        rw [walk_reference href]
        split_ifs with hactive
        · exact within_clean
        · cases htarget : root.resolveReference ref with
          | none => exact within_clean
          | some target => exact hneeded (.target href hactive htarget)

theorem rank_le_fuel (root : Schema) (active : List String) (value : Value) (schema : Schema) :
    Visit.rank (root.refs ++ schema.refs).eraseDups (max root.depth schema.depth)
      ⟨active, value, schema⟩ ≤ root.fuel schema value := by
  have hpos := value.depth_pos
  have hdepth := Nat.le_max_right root.depth schema.depth
  have hrefs := Nat.mul_le_mul_right (max root.depth schema.depth)
    (List.length_filter_le (fun ref => ref ∉ active) (root.refs ++ schema.refs).eraseDups)
  obtain ⟨below, hbelow⟩ : ∃ below, value.depth = below + 1 := ⟨value.depth - 1, by omega⟩
  simp only [Visit.rank, Visit.unentered, Schema.fuel, Schema.levelsPerValue, Schema.refCount,
    hbelow, Nat.add_sub_cancel, Nat.succ_mul]
  omega

/-- The fuel of a validation is enough for a walk with any references active. -/
theorem within_walk_of_fuel_le {root schema : Schema} {value : Value} {fuel : Nat}
    (hfuel : root.fuel schema value ≤ fuel) (active : List String) :
    (walk root fuel active value schema).Within (fun violation => value.HasPlace violation.steps)
      (· ≠ .outOfFuel) := by
  have hrank := Nat.le_trans (rank_le_fuel root active value schema) hfuel
  exact within_walk (Visit.fits_root root schema) (Visit.fits_schema root schema) hrank

theorem walk_fault_ne_outOfFuel {root schema : Schema} {value : Value} {fuel : Nat}
    (hfuel : root.fuel schema value ≤ fuel) (active : List String) :
    (walk root fuel active value schema).fault ≠ some .outOfFuel := by
  intro hfault
  exact (within_walk_of_fuel_le hfuel active).fault _ hfault rfl

/-- A walk without a fault finds no violation if and only if the visit is valid, that is, if and
only if all keywords hold independently of one another. With the fuel of a validation, the fault of a
walk is never a lack of fuel. -/
theorem walk_violations_eq_nil_iff_valid (root : Schema) (fuel : Nat) (active : List String)
    (value : Value) (schema : Schema) :
    ((walk root fuel active value schema).fault = none →
      ((walk root fuel active value schema).violations = [] ↔
        Valid root ⟨active, value, schema⟩)) ∧
    (root.fuel schema value ≤ fuel →
      (walk root fuel active value schema).fault ≠ some .outOfFuel) ∧
    ∀ x, Valid root x ↔ x.Holds root (Valid root) :=
  ⟨(walk_decides root fuel active value schema).violations_eq_nil_iff,
    fun hfuel => walk_fault_ne_outOfFuel hfuel active, valid_iff root⟩

def nestedArrays : Schema := .node {
  definitions := some [("array", .node {
    type := .single .array
    items := .uniform (.node { ref := some "#/definitions/array" })
    anyOf := some [.node { ref := some "#/definitions/array" }] })]
  allOf := some [.node { ref := some "#/definitions/array" }] }

theorem not_valid_nestedArrays :
    (walk nestedArrays 12 [] (.array [.array [], .array [.null]]) nestedArrays).fault = none ∧
      ¬ Valid nestedArrays ⟨[], .array [.array [], .array [.null]], nestedArrays⟩ := by
  have hfault :
      (walk nestedArrays 12 [] (.array [.array [], .array [.null]]) nestedArrays).fault = none := by
    decide
  refine ⟨hfault, fun hvalid => ?_⟩
  have hnil := ((walk_violations_eq_nil_iff_valid _ _ _ _ _).1 hfault).mpr hvalid
  exact absurd hnil (by decide)

end JsonSchema
