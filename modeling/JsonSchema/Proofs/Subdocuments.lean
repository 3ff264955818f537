import JsonSchema.Proofs.Canonical
import JsonSchema.Proofs.Finite
import JsonSchema.Proofs.Frame
import JsonSchema.Proofs.Indices

/-!
# Schemas inside of schema documents

Reading a node asks for nothing but readings of parts that have fewer levels than the node has, so
`Schema.decode` satisfies its own equation and the levels drop out of it (`decode_object`).
`Schema.SchemaAt` says where the parts stand that are read as schemas, to any depth. They are found
where they are said to stand, and there is at most one of them on the way to a place.
-/

namespace JsonSchema

open Node (Document)

namespace Node

section Reading

variable {σ : Type} {sub sub' : Value → Except DecodeError σ} {document : Document}

theorem lookup_of_keyword? {key : String} {value : Value} (h : keyword? document key = some value) :
    document.lookup key = some value := by
  unfold keyword? at h
  split at h
  · cases h
  · exact h

theorem depth_le_of_lookup {key : String} {value : Value} (h : document.lookup key = some value) :
    value.depth ≤ Value.depthMembers document :=
  Value.depth_le_depthMembers (Members.mem_of_lookup h)

theorem decodeAt_congr {location : List String} {value : Value} (h : sub value = sub' value) :
    decodeAt sub location value = decodeAt sub' location value := by
  rw [decodeAt, decodeAt, h]

theorem decodeEach_congr {key : String} {index : Nat} {values : List Value}
    (h : ∀ value ∈ values, sub value = sub' value) :
    decodeEach sub key index values = decodeEach sub' key index values := by
  induction values generalizing index with
  | nil => rfl
  | cons value rest ih =>
    have hrest := @ih (index + 1) fun other hother => h other (List.mem_cons_of_mem value hother)
    rw [decodeEach, decodeEach, decodeAt_congr (h value List.mem_cons_self), hrest]

variable (h : ∀ part, part.depth ≤ Value.depthMembers document → sub part = sub' part)
include h

theorem sub_eq_of_mem_array {key : String} {values : List Value}
    (hfound : keyword? document key = some (.array values)) :
    ∀ value ∈ values, sub value = sub' value := by
  intro value hmem
  have hvalues := depth_le_of_lookup (lookup_of_keyword? hfound)
  have hvalue := Value.depth_le_depthItems hmem
  rw [Value.depth] at hvalues
  exact h value (by omega)

theorem sub_eq_of_mem_object {key : String} {entries : List (String × Value)}
    (hfound : document.lookup key = some (.object entries)) :
    ∀ entry ∈ entries, sub entry.2 = sub' entry.2 := by
  intro entry hmem
  have hentries := depth_le_of_lookup hfound
  have hentry := Value.depth_le_depthMembers hmem
  rw [Value.depth] at hentries
  exact h entry.2 (by omega)

theorem decodeMembers_congr (key : String) :
    decodeMembers sub document key = decodeMembers sub' document key := by
  unfold decodeMembers
  split
  · rfl
  · rename_i entries hfound
    have hentries := sub_eq_of_mem_object h (lookup_of_keyword? hfound)
    rw [Except.mapM_congr fun entry hmem => ?_]
    rw [decodeMember, decodeMember, decodeAt_congr (hentries entry hmem)]
  · rfl

theorem decodeList_congr (key : String) :
    decodeList sub document key = decodeList sub' document key := by
  unfold decodeList
  split
  · rfl
  · rename_i values hfound
    rw [decodeEach_congr (sub_eq_of_mem_array h hfound)]
  · rfl

theorem decodeSchema_congr (key : String) :
    decodeSchema sub document key = decodeSchema sub' document key := by
  unfold decodeSchema
  split
  · rfl
  · rename_i value hfound
    rw [decodeAt_congr (h value (depth_le_of_lookup hfound))]

theorem decodeItems_congr : decodeItems sub document = decodeItems sub' document := by
  unfold decodeItems
  split
  · rfl
  · rename_i values hfound
    rw [decodeEach_congr (sub_eq_of_mem_array h hfound)]
  · rename_i value _ hfound
    rw [decodeAt_congr (h value (depth_le_of_lookup (lookup_of_keyword? hfound)))]

theorem decodeDependencies_congr :
    decodeDependencies sub document = decodeDependencies sub' document := by
  unfold decodeDependencies
  split
  · rfl
  · rename_i entries hfound
    have hentries := sub_eq_of_mem_object h hfound
    rw [Except.mapM_congr fun entry hmem => ?_]
    unfold decodeDependency
    split
    · rfl
    · simp only [decodeAt_congr (hentries entry hmem)]
  · rfl

/-- Reading a node depends on the readings of parts that have fewer levels. -/
theorem decode_congr : decode sub document = decode sub' document := by
  simp only [decode, decodeItems_congr h, decodeDependencies_congr h, decodeMembers_congr h,
    decodeSchema_congr h, decodeList_congr h]

end Reading

end Node

namespace Schema

/-! ### Reading without levels -/

theorem decodeWithin_of_depth_le {value : Value} {levels levels' : Nat} (h : value.depth ≤ levels)
    (h' : value.depth ≤ levels') : decodeWithin levels value = decodeWithin levels' value := by
  induction levels generalizing value levels' with
  | zero => exact absurd h (Nat.not_le.mpr value.depth_pos)
  | succ levels ih =>
    cases levels' with
    | zero => exact absurd h' (Nat.not_le.mpr value.depth_pos)
    | succ levels' =>
      cases value with
      | object document =>
        rw [Value.depth] at h h'
        have hsub : Node.decode (decodeWithin levels) document =
            Node.decode (decodeWithin levels') document :=
          Node.decode_congr fun part hpart => ih (by omega) (by omega)
        rw [decodeWithin, decodeWithin, hsub]
      | _ => rfl

theorem decode_object (document : Document) :
    decode (.object document) = (Node.decode decode document).map .node := by
  have hsub : Node.decode (decodeWithin (Value.depthMembers document)) document =
      Node.decode decode document :=
    Node.decode_congr fun part hpart => decodeWithin_of_depth_le hpart (Nat.le_refl _)
  rw [← hsub]
  rfl

end Schema

/-! ### Places of schemas -/

namespace Node

/-- The place of a schema below the value of a keyword. Null under `items` is no schema, a list there
is one of schemas, and a list among the dependencies is one of names. -/
inductive SchemaBelow (key : String) : Value → List String → Value → Prop
  | schema {value : Value} (hkey : key ∈ schemaKeywords)
      (hitems : key = "items" → value ≠ .null ∧ ∀ values, value ≠ .array values) :
      SchemaBelow key value [] value
  | list {values : List Value} {index : Nat} {value : Value} (hkey : key ∈ listKeywords)
      (hvalue : values[index]? = some value) :
      SchemaBelow key (.array values) [Pointer.ofIndex index] value
  | members {entries : List (String × Value)} {name : String} {value : Value}
      (hkey : key ∈ memberKeywords) (hvalue : entries.lookup name = some value)
      (hnames : key = "dependencies" → ∀ values, value ≠ .array values) :
      SchemaBelow key (.object entries) [name] value

variable {key : String} {value part : Value} {segments : List String}

theorem SchemaBelow.subdocument (h : SchemaBelow key value segments part) :
    Subdocument key value part := by
  cases h with
  | schema hkey hitems => exact .schema hkey fun heq => (hitems heq).2
  | list hkey hvalue => exact .list hkey (List.mem_of_getElem? hvalue)
  | @members _ name _ hkey hvalue hnames =>
    have hmem := Members.mem_of_lookup hvalue
    exact .members hkey hmem hnames

theorem SchemaBelow.at? (h : SchemaBelow key value segments part) :
    value.at? segments = some part := by
  cases h with
  | schema => rfl
  | list _ hvalue =>
    rw [Value.at?_cons, Value.child?_array (Pointer.index?_ofIndex _), hvalue]
    rfl
  | members _ hvalue _ =>
    rw [Value.at?_cons, Value.child?_object, hvalue]
    rfl

theorem SchemaBelow.finite (h : SchemaBelow key value segments part) (hvalue : value.Finite) :
    part.Finite := by
  cases h with
  | schema => exact hvalue
  | list _ hpart => exact Value.finite_array_iff.mp hvalue part (List.mem_of_getElem? hpart)
  | members _ hpart _ =>
    exact Value.finite_object_iff.mp hvalue _ (Members.mem_of_lookup hpart)

theorem SchemaBelow.depth_le (h : SchemaBelow key value segments part) :
    part.depth ≤ value.depth := by
  cases h with
  | schema => exact Nat.le_refl _
  | list _ hvalue =>
    have hpart := Value.depth_le_depthItems (List.mem_of_getElem? hvalue)
    rw [Value.depth]
    omega
  | members _ hvalue _ =>
    have hpart := depth_le_of_lookup hvalue
    rw [Value.depth]
    omega

theorem SchemaBelow.depth_lt {document : Document} (h : SchemaBelow key value segments part)
    (hfound : document.lookup key = some value) : part.depth < (Value.object document).depth := by
  have hvalue := depth_le_of_lookup hfound
  have hpart := h.depth_le
  rw [Value.depth]
  omega

theorem eq_items_of_mem_keywords (hschema : key ∈ schemaKeywords) (hlist : key ∈ listKeywords) :
    key = "items" := by
  revert key
  decide

theorem notMem_memberKeywords (hschema : key ∈ schemaKeywords) : key ∉ memberKeywords := by
  revert key
  decide

/-- No place of a schema lies on the way to another one below the same keyword. -/
theorem SchemaBelow.unique {part' : Value} {segments' rest rest' : List String}
    (h : SchemaBelow key value segments part) (h' : SchemaBelow key value segments' part')
    (heq : segments ++ rest = segments' ++ rest') : segments = segments' ∧ part = part' := by
  have hsame (hlength : segments.length = segments'.length) : segments = segments' ∧ part = part' := by
    obtain rfl := (List.append_inj heq hlength).1
    exact ⟨rfl, Option.some.inj (h.at?.symm.trans h'.at?)⟩
  cases h with
  | schema hkey hitems =>
    cases h' with
    | schema => exact hsame rfl
    | list hkey' => exact absurd rfl ((hitems (eq_items_of_mem_keywords hkey hkey')).2 _)
    | members hkey' => exact absurd hkey' (notMem_memberKeywords hkey)
  | list hkey =>
    cases h' with
    | schema hkey' hitems => exact absurd rfl ((hitems (eq_items_of_mem_keywords hkey' hkey)).2 _)
    | list => exact hsame rfl
  | members hkey =>
    cases h' with
    | schema hkey' => exact absurd hkey (notMem_memberKeywords hkey')
    | members => exact hsame rfl

end Node

namespace Schema

/-- The places of a document at which a schema is read: the whole document, and the schemas below the
keywords of any such place. -/
inductive SchemaAt : Value → List String → Value → Prop
  | here (document : Value) : SchemaAt document [] document
  | inside {document : Document} {key : String} {value part inner : Value}
      {segments rest : List String} (hfound : document.lookup key = some value)
      (hbelow : Node.SchemaBelow key value segments part) (h : SchemaAt part rest inner) :
      SchemaAt (.object document) (key :: (segments ++ rest)) inner

theorem SchemaAt.at? {document part : Value} {segments : List String}
    (h : SchemaAt document segments part) : document.at? segments = some part := by
  induction h with
  | here => rfl
  | inside hfound hbelow _ ih =>
    rw [Value.at?_cons, Value.child?_object, hfound, Option.bind_some, Value.at?_append, hbelow.at?]
    exact ih

theorem SchemaAt.finite {document part : Value} {segments : List String}
    (h : SchemaAt document segments part) (hdocument : document.Finite) : part.Finite := by
  induction h with
  | here => exact hdocument
  | inside hfound hbelow _ ih =>
    have hvalue := Value.finite_object_iff.mp hdocument _ (Members.mem_of_lookup hfound)
    exact ih (hbelow.finite hvalue)

end Schema

end JsonSchema
