import JsonSchema.Proofs.Answers
import JsonSchema.Proofs.Equality
import JsonSchema.Proofs.Indices
import JsonSchema.Proofs.Lens
import JsonSchema.Proofs.Walk

/-!
# Where errors stand

A walk reports nothing but at places of the value. The segments of such a place lead to a part of the
value, and each of its labels tells what kind of part its segment is. A step to the name of a member is
shown by the segment of the member itself, whose value the following steps would not fit; but there are
no following steps. The pointer at which the value stands is only put in front when a report is made.
-/

namespace JsonSchema

/-! ### Places of a value -/

/-- The labels that a segment may have in a container. The label for the name of a member is only for
the last segment. -/
def Value.Labels (container : Value) (segment label : String) (last : Prop) : Prop :=
  match container with
  | .array items =>
    ∃ index < items.length, segment = Pointer.ofIndex index ∧
      label = "Item at index " ++ segment
  | .object members =>
    Members.has segment members ∧
      (label = "Invalid property '" ++ segment ++ "'" ∨
        last ∧ label = "Property '" ++ segment ++ "' doesn't validate against propertyNames schema")
  | _ => False

theorem Value.HasPlace.eq_nil_of_string {text : String} {steps : List Step}
    (h : (Value.string text).HasPlace steps) : steps = [] := by
  cases h with
  | here => rfl
  | inside hstep hrest => cases hstep

/-- The segment of a step leads to a part in which the rest of the way is a place. For the name of a
member this is the member itself, since nothing is left of the way. -/
theorem Step.Between.exists_child {step : Step} {value part : Value} {rest : List Step}
    (hstep : step.Between value part) (hvalue : value.WellFormed) (hrest : part.HasPlace rest) :
    ∃ child ∈ value.parts, value.child? step.segment = some child ∧ child.HasPlace rest ∧
      value.Labels step.segment step.label (rest = []) := by
  cases hstep with
  | @item index items _ hitem =>
    have hindex : Pointer.index? (Pointer.ofIndex index) = some index := Pointer.index?_ofIndex index
    obtain ⟨hlt, -⟩ := List.getElem?_eq_some_iff.mp hitem
    refine ⟨part, List.mem_of_getElem? hitem, ?_, hrest, index, hlt, rfl, rfl⟩
    exact (Value.child?_array hindex items).trans hitem
  | @property name members _ hmem =>
    have hlookup : members.lookup name = some part :=
      Members.lookup_of_mem (Value.wellFormed_object_iff.mp hvalue).1 hmem
    have hhas : Members.has name members := by simp [Members.has, hlookup]
    exact ⟨part, (Step.Between.property hmem).mem_parts, hlookup, hrest, hhas, .inl rfl⟩
  | @propertyName name members child hmem =>
    have hlookup : members.lookup name = some child :=
      Members.lookup_of_mem (Value.wellFormed_object_iff.mp hvalue).1 hmem
    have hhas : Members.has name members := by simp [Members.has, hlookup]
    have hnil : rest = [] := hrest.eq_nil_of_string
    refine ⟨child, (Step.Between.property hmem).mem_parts, hlookup, ?_, hhas, .inr ⟨hnil, rfl⟩⟩
    rw [hnil]
    exact .here child

/-! ### Errors of a value -/

/-- An error as it is independently of where the value stands. -/
structure RelativeError where
  segments : List String
  message : String
  context : List String

namespace RelativeError

def diagnostic (error : RelativeError) (start : String) : Diagnostic where
  path := error.segments.foldl Pointer.join start
  message := error.message
  context := error.context

/-- The segments lead to a part of a value, and there is a label for each of them. -/
structure Located (error : RelativeError) (value : Value) : Prop where
  found : ∃ part, value.at? error.segments = some part
  length_context : error.context.length = error.segments.length
  labels : ∀ i segment label, error.segments[i]? = some segment → error.context[i]? = some label →
    ∃ container, value.at? (error.segments.take i) = some container ∧
      container.Labels segment label (i + 1 = error.segments.length)

def ofViolation (violation : Violation) : RelativeError where
  segments := violation.segments
  message := violation.cause.message
  context := violation.context

theorem located_ofViolation {value : Value} {violation : Violation} (hvalue : value.WellFormed)
    (hplace : value.HasPlace violation.steps) : (ofViolation violation).Located value := by
  obtain ⟨steps, cause⟩ := violation
  -- not on the place itself: the segment for the name of a member leads elsewhere than the step
  induction steps generalizing value with
  | nil =>
    refine ⟨⟨value, rfl⟩, rfl, fun i segment label hsegment _ => ?_⟩
    cases hsegment
  | cons step rest ih =>
    cases hplace with
    | inside hstep hrest =>
      obtain ⟨child, hpart, hchild, hbelow, hlabels⟩ := hstep.exists_child hvalue hrest
      have hlocated := ih (hvalue.of_mem_parts hpart) hbelow
      have hat (segments : List String) :
          value.at? (step.segment :: segments) = child.at? segments := by
        rw [Value.at?_cons, hchild, Option.bind_some]
      refine ⟨?_, ?_, fun i segment label hsegment hlabel => ?_⟩
      · obtain ⟨part, hfound⟩ := hlocated.found
        exact ⟨part, (hat _).trans hfound⟩
      · exact congrArg (· + 1) hlocated.length_context
      · cases i with
        | zero =>
          cases hsegment
          cases hlabel
          refine ⟨value, rfl, ?_⟩
          simpa [ofViolation, Violation.segments, eq_comm] using hlabels
        | succ i =>
          obtain ⟨container, hcontainer, hnext⟩ := hlocated.labels i segment label hsegment hlabel
          refine ⟨container, (hat _).trans hcontainer, ?_⟩
          simpa [ofViolation, Violation.segments] using hnext

end RelativeError

namespace Schema

theorem located_of_mem_findings {root schema : Schema} {value : Value} (hvalue : value.WellFormed)
    {violation : Violation} (h : violation ∈ (root.findings schema value).violations) :
    (RelativeError.ofViolation violation).Located value := by
  have hwithin := within_walk_of_fuel_le (Nat.le_refl (root.fuel schema value)) []
  exact RelativeError.located_ofViolation hvalue (hwithin.violations violation h)

/-- An answer is a prefix of the violations, or the fault behind them if it asks for more. -/
theorem errors_eq {root schema : Schema} {value : Value} {limit : Int} (hlow : 0 ≤ limit)
    (hhigh : limit ≤ greatestLimit) (start : String) :
    root.errors schema value start limit =
      if limit.toNat ≤ (root.findings schema value).violations.length then
        .ok (((root.findings schema value).violations.take limit.toNat).map
          (Violation.diagnostic start))
      else match (root.findings schema value).fault with
        | some fault => .error fault
        | none => .ok ((root.findings schema value).violations.map (Violation.diagnostic start)) := by
  rw [errors_of_limit hlow hhigh, Findings.take]
  split_ifs
  · rfl
  · cases (root.findings schema value).fault <;> rfl

/-- The errors of a value are the same wherever it stands, and so is the fault behind them, if there
is one; only the pointers are extended from where the value stands. Each error is located in the
value, with a label for each segment of its pointer. -/
theorem errors_located (root schema : Schema) {value : Value} (hvalue : value.WellFormed) :
    ∃ (found : List RelativeError) (ended : Option Fault),
      (∀ (start : String) (limit : Int), 0 ≤ limit → limit ≤ greatestLimit →
        root.errors schema value start limit =
          if limit.toNat ≤ found.length then
            .ok ((found.take limit.toNat).map (·.diagnostic start))
          else match ended with
            | some fault => .error fault
            | none => .ok (found.map (·.diagnostic start))) ∧
      ∀ error ∈ found, error.Located value := by
  refine ⟨(root.findings schema value).violations.map .ofViolation,
    (root.findings schema value).fault, fun start limit hlow hhigh => ?_, fun error herror => ?_⟩
  · have hdiagnostic :
        (·.diagnostic start) ∘ RelativeError.ofViolation = Violation.diagnostic start := rfl
    rw [errors_eq hlow hhigh, List.length_map, ← List.map_take, List.map_map, List.map_map,
      hdiagnostic]
  · obtain ⟨violation, hviolation, rfl⟩ := List.mem_map.mp herror
    exact located_of_mem_findings hvalue hviolation

def shortNames : Schema := .node {
  properties := some [("rows", .node {
    items := .uniform (.node { propertyNames := some (.node { maxLength := some 2 }) }) })] }

def longName : Value :=
  .object [("rows", .array [.object [], .object [("id", .null), ("count", .null)]])]

/-- All three kinds of steps lead to the name that is too long, from wherever the value stands. -/
theorem errors_longName :
    shortNames.errors shortNames longName "#/a" 1 = .ok [{
      path := "#/a/rows/1/count"
      message := "String is longer than expected (maxLength=2)"
      context := ["Invalid property 'rows'", "Item at index 1",
        "Property 'count' doesn't validate against propertyNames schema"] }] ∧
    ∀ start, ∃ error : RelativeError, error.Located longName ∧
      shortNames.errors shortNames longName start 1 = .ok [error.diagnostic start] := by
  have hwell : longName.WellFormed := by
    simp [longName, Value.WellFormed, Value.WellFormedItems, Value.WellFormedMembers,
      Members.Distinct, Members.names]
  obtain ⟨found, ended, herrors, hlocated⟩ := errors_located shortNames shortNames hwell
  have hfirst : shortNames.errors shortNames longName "#/a" 1 = .ok [{
      path := "#/a/rows/1/count"
      message := "String is longer than expected (maxLength=2)"
      context := ["Invalid property 'rows'", "Item at index 1",
        "Property 'count' doesn't validate against propertyNames schema"] }] := by
    decide +kernel
  refine ⟨hfirst, fun start => ?_⟩
  cases found with
  | nil =>
    rw [herrors "#/a" 1 (by decide) (by decide)] at hfirst
    cases ended <;> cases hfirst
  | cons error rest =>
    exact ⟨error, hlocated error List.mem_cons_self, herrors start 1 (by decide) (by decide)⟩

end Schema

end JsonSchema
