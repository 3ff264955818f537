import JsonSchema.Proofs.Meaning
import JsonSchema.Validation.Walk

/-!
# Visits of a validation

A visit applies a schema to a value while some references are active at the value. A visit needs
others: the target of a reference, with the reference active from then on, or the children of a
node, for the value itself or with nothing active for a part of it. `Visit.rank` falls from a visit
to those that it needs, so recursion along needed visits is well-founded and `Valid` can be defined
by it. `valid_iff` is the equation of `Valid`.
-/

namespace JsonSchema

theorem Value.depth_lt_of_mem_parts {part value : Value} (h : part ∈ value.parts) :
    part.depth < value.depth := by
  cases value with
  | null => cases h
  | bool b => cases h
  | number n => cases h
  | string text => cases h
  | array items =>
    have : part.depth ≤ depthItems items := depth_le_depthItems h
    rw [depth]
    omega
  | object members =>
    rw [depth]
    rcases List.mem_append.mp h with hvalue | hname
    · obtain ⟨member, hmem, rfl⟩ := List.mem_map.mp hvalue
      have := depth_le_depthMembers hmem
      omega
    · obtain ⟨member, hmem, rfl⟩ := List.mem_map.mp hname
      have := depth_le_depthMembers hmem
      have := member.2.depth_pos
      simp only [depth]
      omega

/-! ### Needed visits -/

/-- A schema applied to a value while some references are active there. -/
structure Visit where
  active : List String
  value : Value
  schema : Schema

namespace Visit

/-- `Needs root x y` says that the verdict on `x` may depend on the verdict on `y`. -/
inductive Needs (root : Schema) : Visit → Visit → Prop where
  | target {active : List String} {value : Value} {n : Node Schema} {ref : String}
      {target : Schema} (href : n.ref = some ref) (hactive : ref ∉ active)
      (htarget : target ∈ root.resolveReference ref) :
      Needs root ⟨active, value, .node n⟩ ⟨ref :: active, value, target⟩
  | here {active : List String} {value : Value} {n : Node Schema} {schema : Schema}
      (hmem : schema ∈ n.children) :
      Needs root ⟨active, value, .node n⟩ ⟨active, value, schema⟩
  | below {active : List String} {value part : Value} {n : Node Schema} {schema : Schema}
      (hpart : part ∈ value.parts) (hmem : schema ∈ n.children) :
      Needs root ⟨active, value, .node n⟩ ⟨[], part, schema⟩

/-- A schema has no more levels than `height` and no references but those in `refs`. -/
def Fits (refs : List String) (height : Nat) (schema : Schema) : Prop :=
  schema.depth ≤ height ∧ schema.refs ⊆ refs

variable {refs : List String} {height : Nat} {root : Schema}

theorem Fits.of_occurs {inner schema : Schema} (h : Fits refs height schema)
    (hocc : inner.Occurs schema) : Fits refs height inner :=
  ⟨Nat.le_trans hocc.depth_le h.1, fun _ hr => h.2 (hocc.refs_subset hr)⟩

theorem Fits.of_needs {x y : Visit} (hroot : Fits refs height root) (hx : Fits refs height x.schema)
    (h : Needs root x y) : Fits refs height y.schema := by
  cases h with
  | target _ _ htarget => exact hroot.of_occurs (Schema.occurs_of_resolveReference htarget)
  | here hmem => exact hx.of_occurs (Schema.occurs_of_mem_children hmem)
  | below _ hmem => exact hx.of_occurs (Schema.occurs_of_mem_children hmem)

theorem fits_root (root schema : Schema) :
    Fits (root.refs ++ schema.refs).eraseDups (max root.depth schema.depth) root :=
  ⟨Nat.le_max_left _ _, fun _ hr => List.mem_eraseDups.mpr (List.mem_append_left _ hr)⟩

theorem fits_schema (root schema : Schema) :
    Fits (root.refs ++ schema.refs).eraseDups (max root.depth schema.depth) schema :=
  ⟨Nat.le_max_right _ _, fun _ hr => List.mem_eraseDups.mpr (List.mem_append_right _ hr)⟩

def unentered (refs active : List String) : List String := refs.filter fun ref => ref ∉ active

/-- Levels of the value come first, then references that are not entered yet, then levels of the
schema. -/
def rank (refs : List String) (height : Nat) (x : Visit) : Nat :=
  (x.value.depth - 1) * ((refs.length + 1) * height) + (unentered refs x.active).length * height +
    x.schema.depth

theorem length_unentered_cons_lt {active : List String} {ref : String} (href : ref ∈ refs)
    (hactive : ref ∉ active) :
    (unentered refs (ref :: active)).length < (unentered refs active).length := by
  have hsub : unentered refs (ref :: active) = (unentered refs active).filter (· ≠ ref) := by
    unfold unentered
    rw [List.filter_filter]
    apply List.filter_congr
    intro r _
    simp [not_or]
  rw [hsub]
  apply List.length_filter_lt_length_iff_exists.mpr
  exact ⟨ref, List.mem_filter.mpr ⟨href, by simpa using hactive⟩, by simp⟩

theorem rank_lt_of_needs {x y : Visit} (hroot : Fits refs height root)
    (hx : Fits refs height x.schema) (h : Needs root x y) :
    y.rank refs height < x.rank refs height := by
  have hy := hroot.of_needs hx h
  cases h with
  | @target active value n ref target href hactive htarget =>
    have hmem : ref ∈ refs := hx.2 (Schema.mem_refs_of_ref href)
    have hlt := Nat.mul_le_mul_right height
      (Nat.succ_le_of_lt (length_unentered_cons_lt hmem hactive))
    have hdepth : target.depth ≤ height := hy.1
    have hpos := (Schema.node n).depth_pos
    rw [Nat.succ_mul] at hlt
    simp only [rank]
    omega
  | here hmem =>
    have hdepth := Schema.depth_lt_of_mem_children hmem
    simp only [rank]
    omega
  | @below active value part n schema hpart hmem =>
    have hvalue : part.depth - 1 + 1 ≤ value.depth - 1 := by
      have := Value.depth_lt_of_mem_parts hpart
      have := part.depth_pos
      omega
    have hlevels := Nat.mul_le_mul_right ((refs.length + 1) * height) hvalue
    have hrefs : (unentered refs []).length * height ≤ refs.length * height :=
      Nat.mul_le_mul_right height (List.length_filter_le _ _)
    have hdepth : schema.depth ≤ height := hy.1
    have hpos := (Schema.node n).depth_pos
    have hlevel : (refs.length + 1) * height = refs.length * height + height := Nat.succ_mul _ _
    rw [Nat.add_mul (part.depth - 1), Nat.one_mul] at hlevels
    simp only [rank]
    omega

theorem acc_needs (hroot : Fits refs height root) (x : Visit) (hx : Fits refs height x.schema) :
    Acc (fun y x => Needs root x y) x := by
  induction hr : x.rank refs height using Nat.strongRecOn generalizing x with
  | ind r ih =>
    constructor
    intro y hy
    exact ih _ (hr ▸ rank_lt_of_needs hroot hx hy) y (hroot.of_needs hx hy) rfl

theorem wellFounded_needs (root : Schema) : WellFounded fun y x => Needs root x y := by
  constructor
  intro x
  have hroot : Fits (root.refs ++ x.schema.refs) (max root.depth x.schema.depth) root :=
    ⟨Nat.le_max_left _ _, fun _ hr => List.mem_append_left _ hr⟩
  exact acc_needs hroot x ⟨Nat.le_max_right _ _, fun _ hr => List.mem_append_right _ hr⟩

end Visit

/-! ### The verdict on a visit -/

/-- What a schema asks for, by its form: nothing or the impossible for a boolean, `atRef` for a
reference, and `atNode` for any other node. -/
def Schema.Asks (atRef : String → Prop) (atNode : Node Schema → Prop) : Schema → Prop
  | .always accepted => accepted
  | .node n =>
    match n.ref with
    | some ref => atRef ref
    | none => atNode n

namespace Visit

/-- The condition for a verdict, given the verdicts on other visits. A reference that is active
already, or that does not resolve, asks for nothing. -/
def Holds (root : Schema) (verdict : Visit → Prop) (x : Visit) : Prop :=
  x.schema.Asks
    (fun ref => ref ∈ x.active ∨
      ∀ target ∈ root.resolveReference ref, verdict ⟨ref :: x.active, x.value, target⟩)
    fun n => n.Holds (fun schema => verdict ⟨x.active, x.value, schema⟩)
      (fun part schema => verdict ⟨[], part, schema⟩) x.value

/-- Only the verdicts on needed visits count. -/
theorem holds_congr {root : Schema} {verdict verdict' : Visit → Prop} {x : Visit}
    (h : ∀ y, Needs root x y → (verdict y ↔ verdict' y)) :
    x.Holds root verdict ↔ x.Holds root verdict' := by
  obtain ⟨active, value, schema⟩ := x
  cases schema with
  | always accepted => rfl
  | node n =>
    cases href : n.ref with
    | none =>
      simp only [Holds, Schema.Asks, href]
      exact Node.holds_congr (fun schema hmem => h _ (.here hmem))
        fun part hpart schema hmem => h _ (.below hpart hmem)
    | some ref =>
      simp only [Holds, Schema.Asks, href]
      by_cases hactive : ref ∈ active
      · simp [hactive]
      · simp only [hactive, false_or]
        exact forall₂_congr fun target htarget => h _ (.target href hactive htarget)

end Visit

/-- The verdict on a visit, by recursion along the visits that it needs. -/
def Valid (root : Schema) (x : Visit) : Prop :=
  x.Holds root fun y => ∃ _ : Visit.Needs root x y, Valid root y
termination_by (Visit.wellFounded_needs root).wrap x

/-- A visit is valid if and only if its condition holds with validity for the verdicts. -/
theorem valid_iff (root : Schema) (x : Visit) : Valid root x ↔ x.Holds root (Valid root) := by
  rw [Valid]
  apply Visit.holds_congr
  intro y hy
  simp [hy]

end JsonSchema
