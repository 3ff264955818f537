import JsonSchema.Editing
import JsonSchema.Proofs.Following
import JsonSchema.Proofs.Levels

/-!
# How deep inference goes

`Inquiry.step` is one call of inference with the calls that it makes in turn left open, and inference is
the step iterated as often as there is fuel. The inquiries that a step makes are visits that a
validation could need, so the ranks of these bound how deep calls are nested. Inference at a pointer,
seeds and writing ask about nothing but schemas of the root and the blank schema, and one bound on the
fuel suffices for all of them.
-/

namespace JsonSchema

open Schema

/-- Inference entered at a schema with some references followed on the way. -/
structure Inquiry where
  seen : List String
  schema : Schema

namespace Inquiry

variable {root : Schema} {actual : Option Value} {refs : List String} {height : Nat}

/-- The inquiries that one inquiry can make. What has been followed grows at references and goes over
unchanged to the branches. -/
inductive Calls (root : Schema) (actual : Option Value) : Inquiry → Inquiry → Prop where
  | target {seen : List String} {n : Node Schema} {ref : String} {target : Schema}
      (href : n.ref = some ref) (hseen : ref ∉ seen)
      (htarget : root.resolveReference ref = some target) :
      Calls root actual ⟨seen, .node n⟩ ⟨ref :: seen, target⟩
  | branch {seen : List String} {n : Node Schema} {branch : Schema}
      (htries : root.Tries actual n branch) :
      Calls root actual ⟨seen, .node n⟩ ⟨seen, branch⟩

/-- One call of inference, given the answers to the calls that it makes. -/
def step (root : Schema) (actual : Option Value)
    (next : Inquiry → Except Fault (Option Implied)) : Inquiry → Except Fault (Option Implied)
  | ⟨seen, schema⟩ =>
    match schema.toNode? with
    | none => .ok none
    | some n =>
      match n.ref, n.type with
      | some ref, _ =>
        if seen.contains ref then .ok none
        else match root.resolveReference ref with
          | none => .ok none
          | some target => next ⟨ref :: seen, target⟩
      | none, .any => do
        match ← firstBranch root actual (fun branch => next ⟨seen, branch⟩) (branches n) with
        | some found => return some found
        | none => return inferFromKeywords n
      | none, .union primitives =>
        .ok (some ⟨if isBooleanOrObject primitives then .single .object else n.type, n⟩)
      | none, type => .ok (some ⟨type, n⟩)

/-! ### The calls of a step -/

/-- A step makes no inquiries but its calls. -/
theorem step_congr {next next' : Inquiry → Except Fault (Option Implied)} {x : Inquiry}
    (h : ∀ y, Calls root actual x y → next y = next' y) :
    step root actual next x = step root actual next' x := by
  obtain ⟨seen, schema⟩ := x
  cases root.call seen schema with
  | refused => rfl
  | cut href hcut =>
    rcases hcut with hseen | hnone
    · simp [step, toNode?, href, hseen]
    · simp [step, toNode?, href, hnone]
  | target href hseen htarget =>
    simp only [step, toNode?, href, htarget, h _ (.target href hseen htarget)]
  | @undeclared _ n hnode href htype =>
    have hbranches : firstBranch root actual (fun branch => next ⟨seen, branch⟩) (branches n) =
        firstBranch root actual (fun branch => next' ⟨seen, branch⟩) (branches n) := by
      refine firstBranch_congr fun branch hmem hadmits => ?_
      obtain rfl := eq_node_of_mem_branches hnode hmem
      exact h _ (.branch ⟨href, htype, hmem, hadmits⟩)
    simp only [step, hnode, href, htype, hbranches]
  | @declared n href htype =>
    cases hdeclared : n.type with
    | any => exact absurd hdeclared htype
    | _ => simp only [step, toNode?, href, hdeclared]

/-- Each call goes on to a smaller schema with the same references followed, or follows one that is new
among them. -/
theorem Calls.cases {x y : Inquiry} (h : Calls root actual x y) :
    y.seen = x.seen ∧ y.schema.depth < x.schema.depth ∨
      ∃ ref, x.schema.ref? = some ref ∧ ref ∉ x.seen ∧ y.seen = ref :: x.seen ∧
        root.resolveReference ref = some y.schema := by
  cases h with
  | target href hseen htarget => exact .inr ⟨_, href, hseen, rfl, htarget⟩
  | branch htries =>
    exact .inl ⟨rfl, depth_lt_of_mem_children (mem_children_of_mem_branches htries.mem)⟩

/-! ### Nested calls -/

/-- The visit that validation would make; inference stays at one value. -/
def visit (x : Inquiry) : Visit := ⟨x.seen, .null, x.schema⟩

theorem needs_visit {x y : Inquiry} (h : Calls root actual x y) :
    Visit.Needs root x.visit y.visit := by
  cases h with
  | target href hseen htarget => exact .target href hseen htarget
  | branch htries => exact .here (mem_children_of_mem_branches htries.mem)

theorem descends (hroot : Visit.Fits refs height root) :
    Descends (fun x : Inquiry => Visit.Fits refs height x.schema) (Calls root actual)
      fun x => x.visit.rank refs height :=
  (Visit.descends hroot).comap visit fun _ _ => needs_visit

theorem nodup_seen_of_isChain (hroot : Visit.Fits refs height root) {x : Inquiry}
    {calls : List Inquiry} (hx : Visit.Fits refs height x.schema)
    (hseen : x.seen.Nodup ∧ x.seen ⊆ refs) (h : (x :: calls).IsChain (Calls root actual)) :
    ∀ call ∈ calls, call.seen.Nodup ∧ call.seen ⊆ refs := by
  have hvisits : (x.visit :: calls.map visit).IsChain (Visit.Needs root) :=
    List.isChain_map_of_isChain visit (fun _ _ => needs_visit) h
  intro call hcall
  exact Visit.nodup_active_of_isChain hroot hx hseen hvisits _ (List.mem_map_of_mem hcall)

end Inquiry

namespace Schema

variable {root schema : Schema} {actual : Option Value} {fuel : Nat}

theorem inferWithin_succ (seen : List String) :
    inferWithin root actual (fuel + 1) seen schema =
      Inquiry.step root actual (fun x => inferWithin root actual fuel x.seen x.schema)
        ⟨seen, schema⟩ := rfl

/-- Inference is the iteration of its steps; where it would go deeper, it is out of fuel. -/
theorem inferWithin_eq_iterate_step (root : Schema) (actual : Option Value) (fuel : Nat)
    (seen : List String) (schema : Schema) :
    inferWithin root actual fuel seen schema =
      (Inquiry.step root actual)^[fuel] (fun _ => .error .outOfFuel) ⟨seen, schema⟩ := by
  induction fuel generalizing seen schema with
  | zero => rfl
  | succ fuel ih =>
    rw [Function.iterate_succ_apply', inferWithin_succ]
    exact Inquiry.step_congr fun y _ => ih y.seen y.schema

theorem iterate_step_eq_infer (hfuel : levelsPerValue root schema ≤ fuel)
    (deeper : Inquiry → Except Fault (Option Implied)) :
    (Inquiry.step root actual)^[fuel] deeper ⟨[], schema⟩ = root.infer actual schema := by
  have hrank := rank_le_levelsPerValue root schema
  rw [infer, inferWithin_eq_iterate_step]
  refine (Inquiry.descends (Visit.fits_root root schema)).iterate_eq
    (fun _ _ _ => Inquiry.step_congr) (Visit.fits_schema root schema) ?_ ?_ _ _
  · exact Nat.le_trans hrank hfuel
  · exact hrank

theorem inferWithin_eq_infer (hfuel : levelsPerValue root schema ≤ fuel) :
    inferWithin root actual fuel [] schema = root.infer actual schema := by
  rw [inferWithin_eq_iterate_step]
  exact iterate_step_eq_infer hfuel _

/-! ### What asks for inference -/

def implyTypeWithin (root : Schema) (fuel : Nat) (value : Option Value) (pointer : String) :
    Except Fault (Except InferenceProblem Implied) := do
  match root.nodeAt pointer with
  | none => return .error (.noSchema pointer)
  | some n =>
    match ← inferWithin root (partAt value pointer) fuel [] (.node n) with
    | some implied => return .ok implied
    | none => return .error (.noType pointer)

def defaultWithin (root : Schema) (fuel : Nat) (schema : Schema) : Except Fault Value :=
  (inferWithin root none fuel [] schema).map fun found =>
    ((found.bind (·.type.primary?)).map Primitive.seed).getD (.object [])

def containerWithin (root : Schema) (fuel : Nat) (schema : Schema) (current : Option Value) :
    Except Fault Container :=
  match current with
  | some (.array items) => .ok (.array items)
  | some (.object members) => .ok (.object members)
  | _ => (defaultWithin root fuel schema).map fun
    | .array _ => .array []
    | _ => .object []

def setBelowWithin (root : Schema) (fuel : Nat) (new : Value) :
    Schema → Option Value → List String → Except Fault (Except EditError Value)
  | _, _, [] => .ok (.ok new)
  | schema, current, segment :: rest => do
    let inner := root.property segment schema
    match ← containerWithin root fuel schema current with
    | .array items =>
      match Pointer.index? segment with
      | none => return .error (.notAnIndex [segment])
      | some index =>
        if items.length < index then return .error (.beyondEnd [segment] index items.length)
        else
          let stored ← setBelowWithin root fuel new inner items[index]? rest
          return (stored.mapError (·.within segment)).map fun item =>
            .array (setItem items index item)
    | .object members =>
      let stored ← setBelowWithin root fuel new inner (members.lookup segment) rest
      return (stored.mapError (·.within segment)).map fun value =>
        .object (Members.insert segment value members)

def setAtWithin (schema : Schema) (fuel : Nat) (pointer : String) (new : Value)
    (current : Option Value) : Except Fault (Except EditError Value) :=
  match Pointer.parse pointer with
  | .error cause => .ok (.error (.badPointer cause))
  | .ok segments => setBelowWithin schema fuel new schema current segments

theorem defaultWithin_eq (hfuel : levelsPerValue root schema ≤ fuel) :
    defaultWithin root fuel schema = .ok (root.defaultFor schema) := by
  obtain ⟨found, hfound⟩ := exists_infer_none root schema
  rw [defaultWithin, defaultFor, inferWithin_eq_infer hfuel, hfound]
  cases found <;> rfl

theorem containerWithin_eq (hfuel : levelsPerValue root schema ≤ fuel) (current : Option Value) :
    containerWithin root fuel schema current = .ok (Container.ofValue root schema current) := by
  have hnew : containerWithin root fuel schema none = .ok (Container.ofValue root schema none) := by
    simp only [containerWithin, Container.ofValue, defaultWithin_eq hfuel]
    cases root.defaultFor schema <;> rfl
  rcases current with _ | value
  · exact hnew
  · cases value with
    | array items => rfl
    | object members => rfl
    | _ => exact hnew

/-! ### Schemas of the root -/

theorem refCount_eq_of_subset (h : schema.refs ⊆ root.refs) :
    root.refCount schema = root.refs.eraseDups.length := by
  have hnone : schema.refs.removeAll root.refs = [] := by
    rw [List.removeAll, List.filter_eq_nil_iff]
    intro ref href
    simpa using h href
  rw [refCount, List.eraseDups_append, hnone, List.eraseDups_nil, List.append_nil]

/-- Inference for a schema of the root needs no more fuel than for the root. -/
theorem levelsPerValue_le (h : Visit.Fits root.refs root.depth schema) :
    levelsPerValue root schema ≤ (root.refCount root + 1) * root.depth := by
  rw [levelsPerValue, refCount_eq_of_subset h.2, refCount_eq_of_subset (List.Subset.refl _),
    Nat.max_eq_left h.1]

theorem inherited_fits (root : Schema) : Inherited root (Visit.Fits root.refs root.depth) where
  root := ⟨Nat.le_refl _, List.Subset.refl _⟩
  blank := ⟨root.depth_pos, List.nil_subset _⟩
  occurs hocc h := h.of_occurs hocc

section Fuel

variable (hfuel : (root.refCount root + 1) * root.depth ≤ fuel)

include hfuel

theorem implyTypeWithin_eq (value : Option Value) (pointer : String) :
    implyTypeWithin root fuel value pointer = root.implyType value pointer := by
  unfold implyTypeWithin implyType
  cases hnode : root.nodeAt pointer with
  | none => rfl
  | some n =>
    have hbound := levelsPerValue_le ((inherited_fits root).of_nodeAt hnode)
    exact congrArg (Except.bind · _) (inferWithin_eq_infer (Nat.le_trans hbound hfuel))

theorem setBelowWithin_eq (new : Value) (hschema : Visit.Fits root.refs root.depth schema)
    (current : Option Value) (segments : List String) :
    setBelowWithin root fuel new schema current segments =
      .ok (setBelow root new schema current segments) := by
  induction segments generalizing schema current with
  | nil => rfl
  | cons segment rest ih =>
    have hinner : Visit.Fits root.refs root.depth (root.property segment schema) :=
      (inherited_fits root).property hschema
    rw [setBelowWithin, containerWithin_eq (Nat.le_trans (levelsPerValue_le hschema) hfuel), setBelow]
    cases Container.ofValue root schema current with
    | array items =>
      simp only [ih hinner, bind, Except.bind]
      cases Pointer.index? segment with
      | none => rfl
      | some index =>
        dsimp only
        split_ifs with hbeyond
        · rfl
        · rfl
    | object members =>
      simp only [ih hinner, bind, Except.bind]
      rfl

theorem setAtWithin_eq (pointer : String) (new : Value) (current : Option Value) :
    setAtWithin root fuel pointer new current = .ok (root.setAt pointer new current) := by
  unfold setAtWithin setAt
  cases Pointer.parse pointer with
  | error cause => rfl
  | ok segments => exact setBelowWithin_eq hfuel new (inherited_fits root).root current segments

end Fuel

/-! ### Results -/

def FromValidation (root : Schema) (actual : Option Value) (fault : Fault) : Prop :=
  fault ≠ .outOfFuel ∧ ∃ value ∈ actual, ∃ branch, root.isValid branch value = .error fault

theorem fromValidation_infer : (root.infer actual schema).ErrorsIn (root.FromValidation actual) :=
  fun fault hfault =>
    ⟨(errorsIn_infer root schema actual fault hfault).1, exists_isValid_of_infer hfault⟩

theorem fromValidation_implyType (value : Option Value) (pointer : String) :
    (root.implyType value pointer).ErrorsIn (root.FromValidation (partAt value pointer)) := by
  unfold implyType
  cases root.nodeAt pointer with
  | none => exact Except.errorsIn_ok _
  | some n =>
    refine fromValidation_infer.bind fun found => ?_
    cases found with
    | none => exact Except.errorsIn_ok _
    | some implied => exact Except.errorsIn_ok _

/-- Calls of inference are never nested deeper than one more than the number of references times the
levels of the schemas. Every call goes on to a smaller schema with the same references followed, or
follows one more, which none of the calls around it has followed; all calls are those of a step. So with
this much fuel inference is not out of fuel, and neither more fuel nor any answers below would change
what it finds; its faults are those of validations of the value. The bound for the root is enough for
all inferences of a type at a pointer and of writing at one. -/
theorem infer_levels (root schema : Schema) (actual : Option Value) :
    (∀ calls, (⟨[], schema⟩ :: calls : List Inquiry).IsChain (Inquiry.Calls root actual) →
      calls.length + 1 ≤ (root.refCount schema + 1) * max root.depth schema.depth ∧
      ∀ call ∈ calls, call.seen.Nodup ∧ call.seen ⊆ root.refs ++ schema.refs) ∧
    (∀ x y, Inquiry.Calls root actual x y →
      y.seen = x.seen ∧ y.schema.depth < x.schema.depth ∨
      ∃ ref, x.schema.ref? = some ref ∧ ref ∉ x.seen ∧ y.seen = ref :: x.seen ∧
        root.resolveReference ref = some y.schema) ∧
    (∀ x next next', (∀ y, Inquiry.Calls root actual x y → next y = next' y) →
      Inquiry.step root actual next x = Inquiry.step root actual next' x) ∧
    (∀ fuel seen schema, inferWithin root actual fuel seen schema =
      (Inquiry.step root actual)^[fuel] (fun _ => .error .outOfFuel) ⟨seen, schema⟩) ∧
    (∀ fuel, (root.refCount schema + 1) * max root.depth schema.depth ≤ fuel →
      inferWithin root actual fuel [] schema = root.infer actual schema ∧
      (∀ deeper, (Inquiry.step root actual)^[fuel] deeper ⟨[], schema⟩ =
        root.infer actual schema) ∧
      defaultWithin root fuel schema = .ok (root.defaultFor schema)) ∧
    (root.infer actual schema).ErrorsIn (root.FromValidation actual) ∧
    (∀ fuel, (root.refCount root + 1) * root.depth ≤ fuel →
      (∀ value pointer, implyTypeWithin root fuel value pointer = root.implyType value pointer) ∧
      ∀ pointer new current,
        setAtWithin root fuel pointer new current = .ok (root.setAt pointer new current)) ∧
    ∀ value pointer,
      (root.implyType value pointer).ErrorsIn (root.FromValidation (partAt value pointer)) := by
  have hroot := Visit.fits_root root schema
  have hschema := Visit.fits_schema root schema
  refine ⟨?_, fun x y => Inquiry.Calls.cases, fun x next next' => Inquiry.step_congr,
    inferWithin_eq_iterate_step root actual, ?_, fromValidation_infer, ?_, fromValidation_implyType⟩
  · intro calls hcalls
    have hlength := (Inquiry.descends hroot).length_le hschema hcalls
    have hseen := Inquiry.nodup_seen_of_isChain hroot hschema
      ⟨List.nodup_nil, List.nil_subset _⟩ hcalls
    refine ⟨Nat.le_trans hlength (rank_le_levelsPerValue root schema), fun call hcall => ?_⟩
    exact ⟨(hseen call hcall).1, fun ref href => List.mem_eraseDups.mp ((hseen call hcall).2 href)⟩
  · intro fuel hfuel
    exact ⟨inferWithin_eq_infer hfuel, iterate_step_eq_infer hfuel, defaultWithin_eq hfuel⟩
  · intro fuel hfuel
    exact ⟨implyTypeWithin_eq hfuel, setAtWithin_eq hfuel⟩

def referenceTo (ref : String) : Schema := .node { ref := some ref }

def intertwined : Schema := .node {
  definitions := some [
    ("a", .node { anyOf := some [referenceTo "#/definitions/b"] }),
    ("b", .node { allOf := some [referenceTo "#/definitions/c"] }),
    ("c", .node { oneOf := some [referenceTo "#"] })]
  allOf := some [referenceTo "#/definitions/a"] }

def intertwinedCalls : List Inquiry :=
  let a := "#/definitions/a"
  let b := "#/definitions/b"
  let c := "#/definitions/c"
  [⟨[], referenceTo a⟩,
    ⟨[a], .node { anyOf := some [referenceTo b] }⟩,
    ⟨[a], referenceTo b⟩,
    ⟨[b, a], .node { allOf := some [referenceTo c] }⟩,
    ⟨[b, a], referenceTo c⟩,
    ⟨[c, b, a], .node { oneOf := some [referenceTo "#"] }⟩,
    ⟨[c, b, a], referenceTo "#"⟩,
    ⟨["#", c, b, a], intertwined⟩,
    ⟨["#", c, b, a], referenceTo a⟩]

theorem isChain_intertwinedCalls : (⟨[], intertwined⟩ :: intertwinedCalls).IsChain
    (Inquiry.Calls intertwined (some (.object []))) := by
  have hbranch {n : Node Schema} {branch : Schema} (hmem : branch ∈ branches n) (href : n.ref = none)
      (htype : n.type = .any) (hvalid : intertwined.isValid branch (.object []) = .ok true) :
      intertwined.Tries (some (.object [])) n branch := by
    refine ⟨href, htype, hmem, ?_⟩
    rintro _ ⟨⟩
    exact hvalid
  refine .cons_cons (.branch (hbranch List.mem_cons_self rfl rfl rfl)) ?_
  refine .cons_cons (.target rfl (by decide) rfl) ?_
  refine .cons_cons (.branch (hbranch List.mem_cons_self rfl rfl rfl)) ?_
  refine .cons_cons (.target rfl (by decide) rfl) ?_
  refine .cons_cons (.branch (hbranch List.mem_cons_self rfl rfl rfl)) ?_
  refine .cons_cons (.target rfl (by decide) rfl) ?_
  refine .cons_cons (.branch (hbranch List.mem_cons_self rfl rfl rfl)) ?_
  refine .cons_cons (.target rfl (by decide) rfl) ?_
  exact .cons_cons (.branch (hbranch List.mem_cons_self rfl rfl rfl)) (.singleton _)

/-- Inference ends at the second reference to the first definition, and nothing is implied. -/
theorem infer_levels_intertwined :
    (⟨[], intertwined⟩ :: intertwinedCalls).IsChain
        (Inquiry.Calls intertwined (some (.object []))) ∧
      intertwinedCalls.length + 1 ≤ 15 ∧
      implyTypeWithin intertwined 15 (some (.object [])) "#" =
        intertwined.implyType (some (.object [])) "#" ∧
      intertwined.implyType (some (.object [])) "#" = .ok (.error (.noType "#")) ∧
      setAtWithin intertwined 15 "#/size" (.int 5) none =
        .ok (.ok (.object [("size", .int 5)])) := by
  obtain ⟨hcalls, -, -, -, -, -, hcallers, -⟩ :=
    infer_levels intertwined intertwined (some (.object []))
  have hbound : (intertwined.refCount intertwined + 1) *
      max intertwined.depth intertwined.depth = 15 := by
    decide
  rw [hbound] at hcalls
  obtain ⟨himply, hset⟩ := hcallers 15 (by decide)
  have himplied : intertwined.implyType (some (.object [])) "#" = .ok (.error (.noType "#")) := rfl
  have hstored : intertwined.setAt "#/size" (.int 5) none =
      .ok (.object [("size", .int 5)]) := rfl
  refine ⟨isChain_intertwinedCalls, (hcalls _ isChain_intertwinedCalls).1, himply _ _, himplied, ?_⟩
  rw [hset, hstored]

end Schema

end JsonSchema
