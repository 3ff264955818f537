import JsonSchema.Proofs.Outcomes
import JsonSchema.Proofs.Subschemas
import JsonSchema.Schema.Decode

/-!
# What reading a schema leaves

`Node.Decodes` lists what reading a document as a node leaves in each field; `decode_eq_ok_iff` says
that reading succeeds exactly if every field has its result. Of what was read, `Node.Regular` keeps
the facts that the fields alone do not show: a title is never null, a type is in the form that its
own names lead to, and no keyword is left among the other members.
-/

namespace JsonSchema

namespace Node

variable {σ : Type} {sub : Value → Except DecodeError σ} {document : Document}

structure Decodes (sub : Value → Except DecodeError σ) (document : Document) (n : Node σ) :
    Prop where
  type : decodeType document = .ok n.type
  ref : decodeString document "$ref" = .ok n.ref
  items : decodeItems sub document = .ok n.items
  pattern : decodeString document "pattern" = .ok n.pattern
  enum : decodeEnum document = .ok n.enum
  required : decodeRequired document = .ok n.required
  dependencies : decodeDependencies sub document = .ok n.dependencies
  upper : decodeBounds document "maximum" "exclusiveMaximum" = .ok (n.maximum, n.exclusiveMaximum)
  lower : decodeBounds document "minimum" "exclusiveMinimum" = .ok (n.minimum, n.exclusiveMinimum)
  definitions : decodeMembers sub document "definitions" = .ok n.definitions
  multipleOf : decodeNumber document "multipleOf" = .ok n.multipleOf
  maxLength : decodeCount document "maxLength" = .ok n.maxLength
  minLength : decodeCount document "minLength" = .ok n.minLength
  additionalItems : decodeSchema sub document "additionalItems" = .ok n.additionalItems
  maxItems : decodeCount document "maxItems" = .ok n.maxItems
  minItems : decodeCount document "minItems" = .ok n.minItems
  contains : decodeSchema sub document "contains" = .ok n.contains
  maxProperties : decodeCount document "maxProperties" = .ok n.maxProperties
  minProperties : decodeCount document "minProperties" = .ok n.minProperties
  properties : decodeMembers sub document "properties" = .ok n.properties
  patternProperties : decodeMembers sub document "patternProperties" = .ok n.patternProperties
  additionalProperties :
    decodeSchema sub document "additionalProperties" = .ok n.additionalProperties
  propertyNames : decodeSchema sub document "propertyNames" = .ok n.propertyNames
  allOf : decodeList sub document "allOf" = .ok n.allOf
  anyOf : decodeList sub document "anyOf" = .ok n.anyOf
  oneOf : decodeList sub document "oneOf" = .ok n.oneOf
  title : n.title = keyword? document "title"
  description : n.description = keyword? document "description"
  default : n.default = document.lookup "default"
  examples : n.examples = examplesOf document
  extras : n.extras = document.filter fun member => !keywordNames.contains member.1
  uniqueItems : n.uniqueItems = ((document.lookup "uniqueItems").getD (.bool false)).truthy
  const : n.const = document.lookup "const"

theorem decode_eq_ok_iff {n : Node σ} : decode sub document = .ok n ↔ n.Decodes sub document := by
  constructor
  · intro h
    obtain ⟨_, htype, h⟩ := Except.bind_eq_ok_iff.mp h
    obtain ⟨_, href, h⟩ := Except.bind_eq_ok_iff.mp h
    obtain ⟨_, hitems, h⟩ := Except.bind_eq_ok_iff.mp h
    obtain ⟨_, hpattern, h⟩ := Except.bind_eq_ok_iff.mp h
    obtain ⟨_, henum, h⟩ := Except.bind_eq_ok_iff.mp h
    obtain ⟨_, hrequired, h⟩ := Except.bind_eq_ok_iff.mp h
    obtain ⟨_, hdependencies, h⟩ := Except.bind_eq_ok_iff.mp h
    obtain ⟨⟨_, _⟩, hupper, h⟩ := Except.bind_eq_ok_iff.mp h
    obtain ⟨⟨_, _⟩, hlower, h⟩ := Except.bind_eq_ok_iff.mp h
    obtain ⟨_, hdefinitions, h⟩ := Except.bind_eq_ok_iff.mp h
    obtain ⟨_, hmultipleOf, h⟩ := Except.bind_eq_ok_iff.mp h
    obtain ⟨_, hmaxLength, h⟩ := Except.bind_eq_ok_iff.mp h
    obtain ⟨_, hminLength, h⟩ := Except.bind_eq_ok_iff.mp h
    obtain ⟨_, hadditionalItems, h⟩ := Except.bind_eq_ok_iff.mp h
    obtain ⟨_, hmaxItems, h⟩ := Except.bind_eq_ok_iff.mp h
    obtain ⟨_, hminItems, h⟩ := Except.bind_eq_ok_iff.mp h
    obtain ⟨_, hcontains, h⟩ := Except.bind_eq_ok_iff.mp h
    obtain ⟨_, hmaxProperties, h⟩ := Except.bind_eq_ok_iff.mp h
    obtain ⟨_, hminProperties, h⟩ := Except.bind_eq_ok_iff.mp h
    obtain ⟨_, hproperties, h⟩ := Except.bind_eq_ok_iff.mp h
    obtain ⟨_, hpatternProperties, h⟩ := Except.bind_eq_ok_iff.mp h
    obtain ⟨_, hadditionalProperties, h⟩ := Except.bind_eq_ok_iff.mp h
    obtain ⟨_, hpropertyNames, h⟩ := Except.bind_eq_ok_iff.mp h
    obtain ⟨_, hallOf, h⟩ := Except.bind_eq_ok_iff.mp h
    obtain ⟨_, hanyOf, h⟩ := Except.bind_eq_ok_iff.mp h
    obtain ⟨_, honeOf, hn⟩ := Except.bind_eq_ok_iff.mp h
    cases hn
    exact ⟨htype, href, hitems, hpattern, henum, hrequired, hdependencies, hupper, hlower,
      hdefinitions, hmultipleOf, hmaxLength, hminLength, hadditionalItems, hmaxItems, hminItems,
      hcontains, hmaxProperties, hminProperties, hproperties, hpatternProperties,
      hadditionalProperties, hpropertyNames, hallOf, hanyOf, honeOf, rfl, rfl, rfl, rfl, rfl, rfl,
      rfl⟩
  · intro h
    simp only [decode, h.type, h.ref, h.items, h.pattern, h.enum, h.required, h.dependencies,
      h.upper, h.lower, h.definitions, h.multipleOf, h.maxLength, h.minLength, h.additionalItems,
      h.maxItems, h.minItems, h.contains, h.maxProperties, h.minProperties, h.properties,
      h.patternProperties, h.additionalProperties, h.propertyNames, h.allOf, h.anyOf, h.oneOf,
      ← h.title, ← h.description, ← h.default, ← h.examples, ← h.extras, ← h.uniqueItems,
      ← h.const]
    rfl

/-! ### Where children come from -/

section Children

variable {schema : σ}

theorem exists_of_decodeAt {location : List String} {value : Value}
    (h : decodeAt sub location value = .ok schema) : sub value = .ok schema :=
  Except.mapError_eq_ok_iff.mp h

theorem exists_of_decodeEach {key : String} {index : Nat} {values : List Value} {schemas : List σ}
    (h : decodeEach sub key index values = .ok schemas) (hmem : schema ∈ schemas) :
    ∃ value, sub value = .ok schema := by
  induction values generalizing index schemas with
  | nil =>
    cases h
    cases hmem
  | cons value rest ih =>
    obtain ⟨first, hfirst, hnext⟩ := Except.bind_eq_ok_iff.mp h
    obtain ⟨others, hothers, hschemas⟩ := Except.bind_eq_ok_iff.mp hnext
    cases hschemas
    rcases List.mem_cons.mp hmem with rfl | hrest
    · exact ⟨value, exists_of_decodeAt hfirst⟩
    · exact ih hothers hrest

theorem exists_of_decodeMembers {key : String} {members : Option (List (String × σ))}
    (h : decodeMembers sub document key = .ok members)
    (hmem : schema ∈ (members.getD []).map Prod.snd) : ∃ value, sub value = .ok schema := by
  unfold decodeMembers at h
  split at h
  · cases h
    cases hmem
  · obtain ⟨read, hread, rfl⟩ := Except.map_eq_ok_iff.mp h
    obtain ⟨member, hmember, rfl⟩ := List.mem_map.mp hmem
    obtain ⟨written, -, hwritten⟩ := Except.exists_of_mem_mapM hread hmember
    obtain ⟨found, hfound, hmember⟩ := Except.bind_eq_ok_iff.mp hwritten
    cases hmember
    exact ⟨written.2, exists_of_decodeAt hfound⟩
  · cases h

theorem exists_of_decodeList {key : String} {schemas : Option (List σ)}
    (h : decodeList sub document key = .ok schemas) (hmem : schema ∈ schemas.getD []) :
    ∃ value, sub value = .ok schema := by
  unfold decodeList at h
  split at h
  · cases h
    cases hmem
  · obtain ⟨read, hread, rfl⟩ := Except.map_eq_ok_iff.mp h
    exact exists_of_decodeEach hread hmem
  · cases h

theorem exists_of_decodeSchema {key : String} {found : Option σ}
    (h : decodeSchema sub document key = .ok found) (hmem : schema ∈ found) :
    ∃ value, sub value = .ok schema := by
  unfold decodeSchema at h
  split at h
  · cases h
    cases hmem
  · rename_i value _
    obtain ⟨read, hread, rfl⟩ := Except.map_eq_ok_iff.mp h
    obtain rfl := Option.some.inj hmem
    exact ⟨value, exists_of_decodeAt hread⟩

theorem exists_of_decodeItems {items : Items σ} (h : decodeItems sub document = .ok items)
    (hmem : schema ∈ items.children) : ∃ value, sub value = .ok schema := by
  unfold decodeItems at h
  split at h
  · cases h
    cases hmem
  · obtain ⟨read, hread, rfl⟩ := Except.map_eq_ok_iff.mp h
    exact exists_of_decodeEach hread hmem
  · rename_i value _ _
    obtain ⟨read, hread, rfl⟩ := Except.map_eq_ok_iff.mp h
    obtain rfl : schema = read := by simpa [Items.children] using hmem
    exact ⟨value, exists_of_decodeAt hread⟩

theorem exists_of_decodeDependencies {members : Option (List (String × Dependency σ))}
    (h : decodeDependencies sub document = .ok members)
    (hmem : schema ∈ (members.getD []).flatMap fun dependency => dependency.2.children) :
    ∃ value, sub value = .ok schema := by
  unfold decodeDependencies at h
  split at h
  · cases h
    cases hmem
  · obtain ⟨read, hread, rfl⟩ := Except.map_eq_ok_iff.mp h
    obtain ⟨member, hmember, hchild⟩ := List.mem_flatMap.mp hmem
    obtain ⟨written, -, hwritten⟩ := Except.exists_of_mem_mapM hread hmember
    unfold decodeDependency at hwritten
    split at hwritten
    · obtain ⟨names, -, rfl⟩ := Except.map_eq_ok_iff.mp hwritten
      cases hchild
    · obtain ⟨found, hfound, rfl⟩ := Except.map_eq_ok_iff.mp hwritten
      obtain rfl : schema = found := by simpa [Dependency.children] using hchild
      exact ⟨written.2, exists_of_decodeAt hfound⟩
  · cases h

/-- Every child of a node that was read was read itself. -/
theorem Decodes.exists_of_mem_children {n : Node σ} (h : n.Decodes sub document) :
    ∀ schema ∈ n.children, ∃ value, sub value = .ok schema := by
  rw [forall_mem_children]
  refine ⟨?_, ?_, ?_, ?_, ?_, ?_, ?_, ?_, ?_, ?_, ?_, ?_⟩ <;> intro schema hmem
  · exact exists_of_decodeMembers h.definitions hmem
  · exact exists_of_decodeItems h.items hmem
  · exact exists_of_decodeSchema h.additionalItems hmem
  · exact exists_of_decodeSchema h.contains hmem
  · exact exists_of_decodeMembers h.properties hmem
  · exact exists_of_decodeMembers h.patternProperties hmem
  · exact exists_of_decodeSchema h.additionalProperties hmem
  · exact exists_of_decodeSchema h.propertyNames hmem
  · exact exists_of_decodeDependencies h.dependencies hmem
  · exact exists_of_decodeList h.allOf hmem
  · exact exists_of_decodeList h.anyOf hmem
  · exact exists_of_decodeList h.oneOf hmem

end Children

end Node

/-! ### Regular nodes -/

namespace TypeSpec

theorem readPrimitive_name (primitive : Primitive) :
    readPrimitive (.string primitive.name) = .ok primitive := by
  cases primitive <;> rfl

theorem ofValue_names (primitives : List Primitive) :
    ofValue (.array (primitives.map fun p => .string p.name)) = .ok (ofPrimitives primitives) := by
  have hread : (primitives.map fun p => Value.string p.name).mapM readPrimitive =
      .ok (primitives.map id) :=
    Except.mapM_map_eq_ok fun p _ => readPrimitive_name p
  rw [ofValue, hread, List.map_id]
  rfl

/-- A list of types stands for one type, for one type beside null, or for itself. -/
theorem ofPrimitives_cases (primitives : List Primitive) :
    (∃ p, ofPrimitives primitives = .single p) ∨
    (∃ p, p ≠ .null ∧ ofPrimitives primitives = .nullable p) ∨
    ofPrimitives primitives = .union primitives := by
  unfold ofPrimitives
  split
  · exact .inl ⟨_, rfl⟩
  · split_ifs with hsecond hfirst
    · exact .inr (.inl ⟨_, hsecond.1, rfl⟩)
    · exact .inr (.inl ⟨_, hfirst.2, rfl⟩)
    · exact .inr (.inr rfl)
  · exact .inr (.inr rfl)

/-- The form in which a type is read back: a list of one type, or of one beside null, is written as a
list and read as what it stands for. -/
def reread : TypeSpec → TypeSpec
  | .nullable primitive => ofPrimitives [primitive, .null]
  | .union primitives => ofPrimitives primitives
  | spec => spec

theorem ofValue_of_toValue? {spec : TypeSpec} {written : Value}
    (h : spec.toValue? = some written) : ofValue written = .ok spec.reread := by
  cases spec with
  | any => cases h
  | single primitive =>
    cases h
    rw [ofValue, readPrimitive_name]
    rfl
  | nullable primitive =>
    cases h
    exact ofValue_names [primitive, .null]
  | union primitives =>
    cases h
    exact ofValue_names primitives

theorem reread_ofPrimitives (primitives : List Primitive) :
    (ofPrimitives primitives).reread = ofPrimitives primitives := by
  rcases ofPrimitives_cases primitives with ⟨p, hp⟩ | ⟨p, hne, hp⟩ | hp
  · rw [hp]
    rfl
  · have hpair : ofPrimitives [p, .null] = .nullable p := by simp [ofPrimitives, hne]
    rw [hp]
    exact hpair
  · rw [hp]
    exact hp

/-- What was read is in the form in which it is read back. -/
theorem reread_of_ofValue {value : Value} {spec : TypeSpec} (h : ofValue value = .ok spec) :
    spec.reread = spec := by
  unfold ofValue at h
  split at h
  · obtain ⟨primitive, -, rfl⟩ := Except.map_eq_ok_iff.mp h
    rfl
  · obtain ⟨primitives, -, rfl⟩ := Except.map_eq_ok_iff.mp h
    exact reread_ofPrimitives primitives
  · obtain ⟨primitives, -, rfl⟩ := Except.map_eq_ok_iff.mp h
    exact reread_ofPrimitives primitives
  · cases h

end TypeSpec

namespace Node

/-- What reading a node ensures beyond the types of its fields. -/
structure Regular {σ : Type} (n : Node σ) : Prop where
  type : ∀ written, n.type.toValue? = some written → TypeSpec.ofValue written = .ok n.type
  title : n.title ≠ some .null
  description : n.description ≠ some .null
  extras : ∀ member ∈ n.extras, member.1 ∉ keywordNames

theorem keyword?_ne_null (document : Document) (key : String) :
    keyword? document key ≠ some .null := by
  unfold keyword?
  split
  · exact nofun
  · rename_i hnull
    exact hnull

theorem Decodes.regular {σ : Type} {sub : Value → Except DecodeError σ} {document : Document}
    {n : Node σ} (h : n.Decodes sub document) : n.Regular where
  type := by
    intro written hwritten
    have htype := h.type
    unfold decodeType at htype
    split at htype
    · have hany : n.type = .any := by simpa using htype.symm
      rw [hany] at hwritten
      cases hwritten
    · have hreread := TypeSpec.reread_of_ofValue (Except.mapError_eq_ok_iff.mp htype)
      rw [TypeSpec.ofValue_of_toValue? hwritten, hreread]
  title := by
    rw [h.title]
    exact keyword?_ne_null document "title"
  description := by
    rw [h.description]
    exact keyword?_ne_null document "description"
  extras := by
    intro member hmem
    rw [h.extras] at hmem
    simpa using (List.mem_filter.mp hmem).2

end Node

namespace Schema

def Regular (schema : Schema) : Prop := ∀ n, Occurs (.node n) schema → n.Regular

theorem Regular.of_mem_children {schema : Schema} {n : Node Schema} (h : (node n).Regular)
    (hmem : schema ∈ n.children) : schema.Regular :=
  fun inner hocc => h inner (hocc.trans (occurs_of_mem_children hmem))

theorem regular_of_decodeWithin {levels : Nat} {value : Value} {schema : Schema}
    (h : decodeWithin levels value = .ok schema) : schema.Regular := by
  induction levels generalizing value schema with
  | zero =>
    cases value <;> cases h
    intro n hocc
    cases hocc
  | succ levels ih =>
    intro inner hocc
    cases value with
    | bool accepted =>
      cases h
      cases hocc
    | object members =>
      obtain ⟨n, hn, rfl⟩ := Except.map_eq_ok_iff.mp h
      have hdecodes := Node.decode_eq_ok_iff.mp hn
      cases hocc with
      | refl => exact hdecodes.regular
      | child hmem hinner =>
        obtain ⟨part, hpart⟩ := hdecodes.exists_of_mem_children _ hmem
        exact ih hpart inner hinner
    | null => cases h
    | number n => cases h
    | string text => cases h
    | array items => cases h

end Schema

end JsonSchema
