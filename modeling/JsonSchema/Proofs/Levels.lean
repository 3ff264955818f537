import JsonSchema.Proofs.Congruence
import JsonSchema.Proofs.Recursion
import JsonSchema.Proofs.Walk

/-!
# How deep a walk goes

`Visit.step` is one call of the walk with the calls that it makes in turn left open, and a walk is
the step iterated as often as there is fuel. A step makes no calls but those of needed visits, and the
rank falls from each call to the next. So the nesting of calls is bounded by the rank of the first,
and whatever would be answered below that bound is of no account.
-/

namespace JsonSchema

open Findings

namespace Visit

/-- One call of the walk, given the answers to the calls that it makes. -/
def step (root : Schema) (next : Visit → Findings) : Visit → Findings
  | ⟨_, _, .always true⟩ => clean
  | ⟨_, _, .always false⟩ => report .falseSchema
  | ⟨active, value, .node n⟩ =>
    match n.ref with
    | none => checkNode (fun schema => next ⟨active, value, schema⟩)
        (fun part schema => next ⟨[], part, schema⟩) n value
    | some ref =>
      if ref ∈ active then clean
      else (root.resolveReference ref).elim clean fun target => next ⟨ref :: active, value, target⟩

variable {root : Schema} {refs : List String} {height : Nat}

theorem depth_lt_or_entered_of_needs {x y : Visit} (h : Needs root x y) :
    y.schema.depth < x.schema.depth ∨
      ∃ ref, ref ∉ x.active ∧ y.active = ref :: x.active ∧ y.value = x.value := by
  cases h with
  | target href hactive htarget => exact .inr ⟨_, hactive, rfl, rfl⟩
  | here hmem => exact .inl (Schema.depth_lt_of_mem_children hmem)
  | below hpart hmem => exact .inl (Schema.depth_lt_of_mem_children hmem)

/-- A step asks for nothing but the needed visits. -/
theorem step_congr {next next' : Visit → Findings} {x : Visit}
    (h : ∀ y, Needs root x y → next y = next' y) : step root next x = step root next' x := by
  obtain ⟨active, value, schema⟩ := x
  match schema with
  | .always true => rfl
  | .always false => rfl
  | .node n =>
    cases href : n.ref with
    | none =>
      simp only [step, href]
      exact checkNode_congr (fun schema hmem => h _ (.here hmem))
        fun part hpart schema hmem => h _ (.below hpart hmem)
    | some ref =>
      simp only [step, href]
      split_ifs with hactive
      · rfl
      · cases htarget : root.resolveReference ref with
        | none => rfl
        | some target => exact h _ (.target href hactive htarget)

theorem descends (hroot : Fits refs height root) :
    Descends (fun x => Fits refs height x.schema) (Needs root) (rank refs height) where
  pos {x} _ := by
    have hdepth := x.schema.depth_pos
    unfold rank
    omega
  kept := hroot.of_needs
  lt := rank_lt_of_needs hroot

/-- Where there is fuel for the rank of a visit, the answers below do not count. -/
theorem iterate_step_eq_of_rank_le (hroot : Fits refs height root) {x : Visit}
    (hx : Fits refs height x.schema) {fuel fuel' : Nat} (hfuel : x.rank refs height ≤ fuel)
    (hfuel' : x.rank refs height ≤ fuel') (deeper deeper' : Visit → Findings) :
    (step root)^[fuel] deeper x = (step root)^[fuel'] deeper' x :=
  (descends hroot).iterate_eq (fun _ _ _ => step_congr) hx hfuel hfuel' deeper deeper'

/-- The rank of the first of nested calls is at least their number. -/
theorem length_le_rank_of_isChain (hroot : Fits refs height root) {x : Visit} {calls : List Visit}
    (hx : Fits refs height x.schema) (h : (x :: calls).IsChain (Needs root)) :
    calls.length + 1 ≤ x.rank refs height :=
  (descends hroot).length_le hx h

/-- Between two steps down into the value, no reference is entered twice. -/
theorem nodup_active_of_isChain (hroot : Fits refs height root) {x : Visit} {calls : List Visit}
    (hx : Fits refs height x.schema) (hactive : x.active.Nodup ∧ x.active ⊆ refs)
    (h : (x :: calls).IsChain (Needs root)) :
    ∀ call ∈ calls, call.active.Nodup ∧ call.active ⊆ refs := by
  refine (descends hroot).forall_mem_of_isChain (fun x y hx hneeds hactive => ?_) hx hactive h
  cases hneeds with
  | target href hentered htarget =>
    exact ⟨List.nodup_cons.mpr ⟨hentered, hactive.1⟩,
      List.cons_subset.mpr ⟨hx.2 (Schema.mem_refs_of_ref href), hactive.2⟩⟩
  | here hmem => exact hactive
  | below hpart hmem => exact ⟨List.nodup_nil, List.nil_subset _⟩

end Visit

/-- A walk is the iteration of its steps; where it would go deeper, it is out of fuel. -/
theorem walk_eq_iterate_step (root : Schema) (fuel : Nat) (active : List String) (value : Value)
    (schema : Schema) :
    walk root fuel active value schema =
      (Visit.step root)^[fuel] (fun _ => raise .outOfFuel) ⟨active, value, schema⟩ := by
  induction fuel generalizing active value schema with
  | zero => rfl
  | succ fuel ih =>
    rw [Function.iterate_succ_apply']
    match schema with
    | .always true => rfl
    | .always false => rfl
    | .node n =>
      cases href : n.ref with
      | none =>
        simp only [walk_node href, Visit.step, href, ← ih]
      | some ref =>
        simp only [walk_reference href, Visit.step, href, ← ih]

/-- A walk is never nested deeper than the levels of the value times one more than the number of
references times the levels of the schemas. Every call goes on to a smaller schema or enters a
reference that is not active, and what is active holds no reference twice; all calls are those of
needed visits. So with this much fuel a walk is not out of fuel, and neither more fuel nor any answers
below would change what it finds. -/
theorem walk_levels (root schema : Schema) (value : Value) :
    (∀ calls, (⟨[], value, schema⟩ :: calls : List Visit).IsChain (Visit.Needs root) →
      calls.length + 1 ≤ value.depth * (root.refCount schema + 1) * max root.depth schema.depth ∧
      ∀ call ∈ calls, call.active.Nodup ∧ call.active ⊆ root.refs ++ schema.refs) ∧
    (∀ x y, Visit.Needs root x y → y.schema.depth < x.schema.depth ∨
      ∃ ref, ref ∉ x.active ∧ y.active = ref :: x.active ∧ y.value = x.value) ∧
    (∀ x next next', (∀ y, Visit.Needs root x y → next y = next' y) →
      Visit.step root next x = Visit.step root next' x) ∧
    (∀ fuel active value schema, walk root fuel active value schema =
      (Visit.step root)^[fuel] (fun _ => raise .outOfFuel) ⟨active, value, schema⟩) ∧
    ∀ fuel, value.depth * (root.refCount schema + 1) * max root.depth schema.depth ≤ fuel →
      walk root fuel [] value schema = root.findings schema value ∧
      (∀ deeper, (Visit.step root)^[fuel] deeper ⟨[], value, schema⟩ =
        root.findings schema value) ∧
      (root.findings schema value).fault ≠ some .outOfFuel := by
  have hbound : value.depth * (root.refCount schema + 1) * max root.depth schema.depth =
      root.fuel schema value := Nat.mul_assoc _ _ _
  have hrank := rank_le_fuel root [] value schema
  have hroot := Visit.fits_root root schema
  have hschema := Visit.fits_schema root schema
  rw [hbound]
  refine ⟨?_, fun x y => Visit.depth_lt_or_entered_of_needs, fun x next next' => Visit.step_congr,
    walk_eq_iterate_step root, ?_⟩
  · intro calls hcalls
    have hlength := Visit.length_le_rank_of_isChain hroot hschema hcalls
    have hactive := Visit.nodup_active_of_isChain hroot hschema
      ⟨List.nodup_nil, List.nil_subset _⟩ hcalls
    refine ⟨by omega, fun call hcall => ⟨(hactive call hcall).1, fun ref href => ?_⟩⟩
    exact List.mem_eraseDups.mp ((hactive call hcall).2 href)
  · intro fuel hfuel
    have hdeeper : ∀ deeper, (Visit.step root)^[fuel] deeper ⟨[], value, schema⟩ =
        root.findings schema value := by
      intro deeper
      rw [Schema.findings, walk_eq_iterate_step]
      exact Visit.iterate_step_eq_of_rank_le hroot hschema (Nat.le_trans hrank hfuel) hrank _ _
    refine ⟨?_, hdeeper, walk_fault_ne_outOfFuel (Nat.le_refl _) []⟩
    rw [walk_eq_iterate_step]
    exact hdeeper _

def arrayReference : Schema := .node { ref := some "#/definitions/array" }

def arrayDefinition : Node Schema :=
  { type := .single .array, items := .uniform arrayReference, anyOf := some [arrayReference] }

def nestedCalls : List Visit :=
  let active := ["#/definitions/array"]
  [⟨[], .array [.array []], arrayReference⟩,
    ⟨active, .array [.array []], .node arrayDefinition⟩,
    ⟨[], .array [], arrayReference⟩,
    ⟨active, .array [], .node arrayDefinition⟩,
    ⟨active, .array [], arrayReference⟩]

theorem isChain_nestedCalls : (⟨[], .array [.array []], nestedArrays⟩ :: nestedCalls).IsChain
    (Visit.Needs nestedArrays) := by
  have hresolves : .node arrayDefinition ∈
      nestedArrays.resolveReference "#/definitions/array" := by rfl
  have hfirst : arrayReference ∈ Schema.itemAt arrayDefinition 0 := rfl
  have hitem := Node.mem_children_of_itemAt hfirst
  have hbranch : arrayReference ∈ arrayDefinition.children :=
    Node.mem_children_of_anyOf rfl List.mem_cons_self
  refine .cons_cons (.here (Node.mem_children_of_allOf rfl List.mem_cons_self)) ?_
  refine .cons_cons (.target rfl List.not_mem_nil hresolves) ?_
  refine .cons_cons (.below List.mem_cons_self hitem) ?_
  refine .cons_cons (.target rfl List.not_mem_nil hresolves) ?_
  exact .cons_cons (.here hbranch) (.singleton _)

/-- The item is visited with nothing active, so the reference is entered a second time there. -/
theorem walk_levels_nestedArrays :
    (⟨[], .array [.array []], nestedArrays⟩ :: nestedCalls).IsChain (Visit.Needs nestedArrays) ∧
      nestedCalls.length + 1 ≤ 12 ∧
      walk nestedArrays 20 [] (.array [.array []]) nestedArrays =
        nestedArrays.findings nestedArrays (.array [.array []]) := by
  obtain ⟨hcalls, -, -, -, hfuel⟩ := walk_levels nestedArrays nestedArrays (.array [.array []])
  have hbound : (Value.array [.array []]).depth * (nestedArrays.refCount nestedArrays + 1) *
      max nestedArrays.depth nestedArrays.depth = 12 := by
    decide
  rw [hbound] at hcalls hfuel
  exact ⟨isChain_nestedCalls, (hcalls _ isChain_nestedCalls).1, (hfuel 20 (by decide)).1⟩

end JsonSchema
