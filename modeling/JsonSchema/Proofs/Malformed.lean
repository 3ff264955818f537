import JsonSchema.Proofs.Pointers
import JsonSchema.Proofs.Subdocuments

/-!
# Where a malformed document is at fault

Every failure of a reading is the failure of a keyword, whose value is then found at the place that is
named, or the failure of a sub-schema, carried outwards from its place (`Node.Blamed`). No schema that
is read stands on the way to a keyword at fault. So each schema on the way to a malformed place fails
on its own with the same cause, at what is left of the way (`decode_malformed`).
-/

namespace JsonSchema

open Node (Document)

namespace Node

/-- Why reading a node may fail: by a keyword of its own, by a schema below a keyword, or by a count
that is not finite. -/
inductive Blamed {σ : Type} (sub : Value → Except DecodeError σ) (document : Document) :
    DecodeError → Prop
  | keyword {key : String} {value found : Value} {rest : List String} {cause : Malformation}
      (hkey : key ∈ keywordNames) (hfound : document.lookup key = some value)
      (hplace : value.at? rest = some found)
      (hfree : ∀ segments part, SchemaBelow key value segments part → ¬ segments <+: rest) :
      Blamed sub document (.malformed (key :: rest) cause)
  | schema {key : String} {value part : Value} {segments : List String} {error : DecodeError}
      (hfound : document.lookup key = some value) (hbelow : SchemaBelow key value segments part)
      (herror : sub part = .error error) : Blamed sub document (error.within (key :: segments))
  | count {key : String} {number : Number} {error : DecodeError} (hkey : key ∈ countKeywords)
      (hfound : document.lookup key = some (.number number)) (hnumber : number.isFinite = false) :
      Blamed sub document error

section Fields

variable {σ : Type} {sub : Value → Except DecodeError σ} {document : Document}

/-- A keyword that has no schema for its value is at fault itself. -/
theorem blamed_keyword {key : String} {value : Value} {cause : Malformation}
    (hkey : key ∈ keywordNames ∧ key ∉ schemaKeywords) (hfound : document.lookup key = some value) :
    Blamed sub document (.malformed [key] cause) := by
  refine .keyword hkey.1 hfound rfl fun segments part hbelow hprefix => ?_
  obtain rfl := List.prefix_nil.mp hprefix
  cases hbelow with
  | schema hschema => exact hkey.2 hschema

theorem errorsIn_keyword {τ : Type} {key : String} {value : Value} {cause : Malformation}
    (hkey : key ∈ keywordNames ∧ key ∉ schemaKeywords) (hfound : document.lookup key = some value) :
    (.error (.malformed [key] cause) : Except DecodeError τ).ErrorsIn (Blamed sub document) := by
  intro error herror
  cases herror
  exact blamed_keyword hkey hfound

theorem errorsIn_decodeNumber {key : String} (hkey : key ∈ keywordNames ∧ key ∉ schemaKeywords) :
    (decodeNumber document key).ErrorsIn (Blamed sub document) := by
  unfold decodeNumber
  split
  · exact Except.errorsIn_ok none
  · exact Except.errorsIn_ok _
  · rename_i value _ hfound
    exact errorsIn_keyword hkey (lookup_of_keyword? hfound)

theorem errorsIn_decodeString {key : String} (hkey : key ∈ keywordNames ∧ key ∉ schemaKeywords) :
    (decodeString document key).ErrorsIn (Blamed sub document) := by
  unfold decodeString
  split
  · exact Except.errorsIn_ok none
  · exact Except.errorsIn_ok _
  · rename_i value _ hfound
    exact errorsIn_keyword hkey (lookup_of_keyword? hfound)

theorem errorsIn_countOf {key : String} {number : Number}
    (hkey : key ∈ countKeywords ∧ key ∈ keywordNames ∧ key ∉ schemaKeywords)
    (hfound : document.lookup key = some (.number number)) :
    (countOf key number).ErrorsIn (Blamed sub document) := by
  unfold countOf
  split_ifs
  · exact errorsIn_keyword hkey.2 hfound
  · split
    · exact Except.errorsIn_ok _
    · exact fun error _ => .count hkey.1 hfound rfl
    · exact fun error _ => .count hkey.1 hfound rfl
    · exact errorsIn_keyword hkey.2 hfound

theorem errorsIn_decodeCount {key : String}
    (hkey : key ∈ countKeywords ∧ key ∈ keywordNames ∧ key ∉ schemaKeywords) :
    (decodeCount document key).ErrorsIn (Blamed sub document) := by
  unfold decodeCount
  split
  · exact Except.errorsIn_ok none
  · rename_i number hfound
    exact (errorsIn_countOf hkey (lookup_of_keyword? hfound)).map some
  · rename_i value _ hfound
    exact errorsIn_keyword hkey.2 (lookup_of_keyword? hfound)

theorem errorsIn_decodeType : (decodeType document).ErrorsIn (Blamed sub document) := by
  intro error herror
  unfold decodeType at herror
  split at herror
  · cases herror
  · rename_i value hfound
    obtain ⟨cause, -, rfl⟩ := Except.mapError_eq_error_iff.mp herror
    exact blamed_keyword (by decide) (lookup_of_keyword? hfound)

theorem errorsIn_decodeEnum : (decodeEnum document).ErrorsIn (Blamed sub document) := by
  unfold decodeEnum
  split
  · exact Except.errorsIn_ok none
  · exact Except.errorsIn_ok _
  · rename_i value _ hfound
    exact errorsIn_keyword (by decide) (lookup_of_keyword? hfound)

theorem eq_of_decodeStrings_error {location : List String} {value : Value} {error : DecodeError}
    (h : decodeStrings location value = .error error) :
    error = .malformed location .notAListOfStrings := by
  unfold decodeStrings at h
  split at h
  · split at h <;> cases h
    rfl
  · cases h
    rfl

theorem errorsIn_decodeRequired : (decodeRequired document).ErrorsIn (Blamed sub document) := by
  intro error herror
  unfold decodeRequired at herror
  split at herror
  · cases herror
  · rename_i value hfound
    rw [eq_of_decodeStrings_error (Except.map_eq_error_iff.mp herror)]
    exact blamed_keyword (by decide) hfound

theorem errorsIn_decodeBounds {key exclusiveKey : String}
    (hkey : key ∈ keywordNames ∧ key ∉ schemaKeywords)
    (hexclusive : exclusiveKey ∈ keywordNames ∧ exclusiveKey ∉ schemaKeywords) :
    (decodeBounds document key exclusiveKey).ErrorsIn (Blamed sub document) := by
  refine (errorsIn_decodeNumber hkey).bind fun bound => ?_
  split
  · exact Except.errorsIn_ok _
  · exact (errorsIn_decodeNumber hexclusive).bind fun _ => Except.errorsIn_ok _

/-! ### Fields with sub-schemas -/

theorem errorsIn_decodeAt {key : String} {value part : Value} {segments : List String}
    (hfound : document.lookup key = some value) (hbelow : SchemaBelow key value segments part) :
    (decodeAt sub (key :: segments) part).ErrorsIn (Blamed sub document) := by
  intro error herror
  obtain ⟨inner, hinner, rfl⟩ := Except.mapError_eq_error_iff.mp herror
  exact .schema hfound hbelow hinner

theorem errorsIn_decodeEach {key : String} {before values : List Value} (hkey : key ∈ listKeywords)
    (hfound : document.lookup key = some (.array (before ++ values))) :
    (decodeEach sub key before.length values).ErrorsIn (Blamed sub document) := by
  induction values generalizing before with
  | nil => exact Except.errorsIn_ok []
  | cons value rest ih =>
    have hvalue : (before ++ value :: rest)[before.length]? = some value := by simp
    have hrest := @ih (before ++ [value]) (by rw [hfound, List.append_assoc]; rfl)
    rw [List.length_append] at hrest
    exact (errorsIn_decodeAt hfound (.list hkey hvalue)).bind fun _ =>
      hrest.bind fun _ => Except.errorsIn_ok _

theorem errorsIn_decodeList {key : String} (hkey : key ∈ listKeywords)
    (hname : key ∈ keywordNames ∧ key ∉ schemaKeywords) :
    (decodeList sub document key).ErrorsIn (Blamed sub document) := by
  unfold decodeList
  split
  · exact Except.errorsIn_ok none
  · rename_i values hfound
    exact (@errorsIn_decodeEach _ _ _ _ [] _ hkey (lookup_of_keyword? hfound)).map some
  · rename_i value _ hfound
    exact errorsIn_keyword hname (lookup_of_keyword? hfound)

theorem errorsIn_decodeSchema {key : String} (hkey : key ∈ schemaKeywords) (hitems : key ≠ "items") :
    (decodeSchema sub document key).ErrorsIn (Blamed sub document) := by
  unfold decodeSchema
  split
  · exact Except.errorsIn_ok none
  · rename_i value hfound
    have hbelow : SchemaBelow key value [] value := .schema hkey fun heq => absurd heq hitems
    exact (errorsIn_decodeAt hfound hbelow).map some

theorem errorsIn_decodeItems : (decodeItems sub document).ErrorsIn (Blamed sub document) := by
  unfold decodeItems
  split
  · exact Except.errorsIn_ok _
  · rename_i values hfound
    have hkey : "items" ∈ listKeywords := by decide
    exact (@errorsIn_decodeEach _ _ _ _ [] _ hkey (lookup_of_keyword? hfound)).map _
  · rename_i value hlist hfound
    have hnull : value ≠ .null := fun heq => keyword?_ne_null document "items" (heq ▸ hfound)
    have hbelow : SchemaBelow "items" value [] value :=
      .schema (by decide) fun _ => ⟨hnull, fun values heq => hlist values heq⟩
    exact (errorsIn_decodeAt (lookup_of_keyword? hfound) hbelow).map _

/-- A dependency fails as a list of names, which is no place of a schema, or as a schema. -/
theorem errorsIn_decodeDependency {entries : List (String × Value)} {name : String} {value : Value}
    (hfound : document.lookup "dependencies" = some (.object entries))
    (hvalue : entries.lookup name = some value) :
    (decodeDependency sub (name, value)).ErrorsIn (Blamed sub document) := by
  unfold decodeDependency
  split
  · rename_i names heq
    obtain rfl : value = .array names := heq
    intro error herror
    rw [eq_of_decodeStrings_error (Except.map_eq_error_iff.mp herror)]
    have hplace : (Value.object entries).at? [name] = some (.array names) := by
      rw [Value.at?_cons, Value.child?_object, hvalue]
      rfl
    refine .keyword (by decide) hfound hplace fun segments part hbelow hprefix => ?_
    cases hbelow with
    | schema hschema => exact absurd hschema (by decide)
    | members _ hentry hlist =>
      obtain ⟨rfl, -⟩ := List.cons_prefix_cons.mp hprefix
      exact hlist rfl names (Option.some.inj (hentry.symm.trans hvalue))
  · rename_i hlist
    have hbelow : SchemaBelow "dependencies" (.object entries) [name] value :=
      .members (by decide) hvalue fun _ => hlist
    exact (errorsIn_decodeAt hfound hbelow).map _

variable (hwell : (Value.object document).WellFormed)
include hwell

theorem lookup_of_mem_object {key name : String} {value : Value} {entries : List (String × Value)}
    (hfound : document.lookup key = some (.object entries)) (hmem : (name, value) ∈ entries) :
    entries.lookup name = some value := by
  have hentries := (Value.wellFormed_object_iff.mp hwell).2 _ (Members.mem_of_lookup hfound)
  exact Members.lookup_of_mem (Value.wellFormed_object_iff.mp hentries).1 hmem

theorem errorsIn_decodeMembers {key : String} (hkey : key ∈ memberKeywords)
    (hname : key ∈ keywordNames ∧ key ∉ schemaKeywords) (hnames : key ≠ "dependencies") :
    (decodeMembers sub document key).ErrorsIn (Blamed sub document) := by
  unfold decodeMembers
  split
  · exact Except.errorsIn_ok none
  · rename_i entries hkeyword
    have hfound := lookup_of_keyword? hkeyword
    refine (Except.errorsIn_mapM fun entry hmem => ?_).map some
    have hbelow : SchemaBelow key (.object entries) [entry.1] entry.2 :=
      .members hkey (lookup_of_mem_object hwell hfound hmem) fun heq => absurd heq hnames
    exact (errorsIn_decodeAt hfound hbelow).bind fun _ => Except.errorsIn_ok _
  · rename_i value _ hfound
    exact errorsIn_keyword hname (lookup_of_keyword? hfound)

theorem errorsIn_decodeDependencies :
    (decodeDependencies sub document).ErrorsIn (Blamed sub document) := by
  unfold decodeDependencies
  split
  · exact Except.errorsIn_ok none
  · rename_i entries hfound
    refine (Except.errorsIn_mapM ?_).map some
    rintro ⟨name, value⟩ hmem
    exact errorsIn_decodeDependency hfound (lookup_of_mem_object hwell hfound hmem)
  · rename_i value _ hfound
    exact errorsIn_keyword (by decide) hfound

theorem errorsIn_decode : (decode sub document).ErrorsIn (Blamed sub document) :=
  errorsIn_decodeType.bind fun _ =>
  (errorsIn_decodeString (by decide)).bind fun _ =>
  errorsIn_decodeItems.bind fun _ =>
  (errorsIn_decodeString (by decide)).bind fun _ =>
  errorsIn_decodeEnum.bind fun _ =>
  errorsIn_decodeRequired.bind fun _ =>
  (errorsIn_decodeDependencies hwell).bind fun _ =>
  (errorsIn_decodeBounds (by decide) (by decide)).bind fun _ =>
  (errorsIn_decodeBounds (by decide) (by decide)).bind fun _ =>
  (errorsIn_decodeMembers hwell (by decide) (by decide) (by decide)).bind fun _ =>
  (errorsIn_decodeNumber (by decide)).bind fun _ =>
  (errorsIn_decodeCount (by decide)).bind fun _ =>
  (errorsIn_decodeCount (by decide)).bind fun _ =>
  (errorsIn_decodeSchema (by decide) (by decide)).bind fun _ =>
  (errorsIn_decodeCount (by decide)).bind fun _ =>
  (errorsIn_decodeCount (by decide)).bind fun _ =>
  (errorsIn_decodeSchema (by decide) (by decide)).bind fun _ =>
  (errorsIn_decodeCount (by decide)).bind fun _ =>
  (errorsIn_decodeCount (by decide)).bind fun _ =>
  (errorsIn_decodeMembers hwell (by decide) (by decide) (by decide)).bind fun _ =>
  (errorsIn_decodeMembers hwell (by decide) (by decide) (by decide)).bind fun _ =>
  (errorsIn_decodeSchema (by decide) (by decide)).bind fun _ =>
  (errorsIn_decodeSchema (by decide) (by decide)).bind fun _ =>
  (errorsIn_decodeList (by decide) (by decide)).bind fun _ =>
  (errorsIn_decodeList (by decide) (by decide)).bind fun _ =>
  (errorsIn_decodeList (by decide) (by decide)).bind fun _ =>
  Except.errorsIn_ok _

end Fields

/-- A keyword with a schema below it has a name. -/
theorem SchemaBelow.key_ne_empty {key : String} {value part : Value} {segments : List String}
    (h : SchemaBelow key value segments part) : key ≠ "" := by
  rintro rfl
  cases h with
  | schema hkey => exact absurd hkey (by decide)
  | list hkey => exact absurd hkey (by decide)
  | members hkey => exact absurd hkey (by decide)

end Node

namespace Schema

def FiniteCounts (document : Value) : Prop :=
  ∀ segments inner, SchemaAt document segments (.object inner) → ∀ key ∈ Node.countKeywords,
    ∀ number, inner.lookup key = some (.number number) → number.isFinite

theorem FiniteCounts.of_below {document : Document} {key : String} {value part : Value}
    {segments : List String} (h : FiniteCounts (.object document))
    (hfound : document.lookup key = some value)
    (hbelow : Node.SchemaBelow key value segments part) : FiniteCounts part :=
  fun _ inner hinner => h _ inner (.inside hfound hbelow hinner)

theorem finiteCounts_of_finite {document : Value} (h : document.Finite) :
    FiniteCounts document := by
  intro segments inner hinner key _ number hfound
  have hobject : (Value.object inner).Finite := hinner.finite h
  have hnumber := Value.finite_object_iff.mp hobject _ (Members.mem_of_lookup hfound)
  exact Value.finite_number_iff.mp hnumber

/-- The failure of a reading, as it is seen from the document and from each schema on the way to the
malformed place. -/
structure Pinpoints (document : Value) (location : List String) (cause : Malformation) : Prop where
  found : ∃ value, document.at? location = some value
  schemas : ∀ segments rest part, SchemaAt document segments part → location = segments ++ rest →
    rest.head? ≠ some "" ∧ decode part = .error (.malformed rest cause)

theorem pinpoints_of_notASchema {document : Value}
    (h : decode document = .error (.malformed [] .notASchema))
    (hobject : ∀ members, document ≠ .object members) :
    Pinpoints document [] .notASchema where
  found := ⟨document, rfl⟩
  schemas := by
    intro segments rest part hpart heq
    obtain ⟨rfl, rfl⟩ := List.append_eq_nil_iff.mp heq.symm
    cases hpart with
    | here => exact ⟨nofun, h⟩

/-- No schema stands on the way from a node to a keyword at fault. -/
theorem pinpoints_of_keyword {document : Document} {key : String} {value found : Value}
    {rest : List String} {cause : Malformation} (hkey : key ∈ Node.keywordNames)
    (hfound : document.lookup key = some value) (hplace : value.at? rest = some found)
    (hfree : ∀ segments part, Node.SchemaBelow key value segments part → ¬ segments <+: rest)
    (h : decode (.object document) = .error (.malformed (key :: rest) cause)) :
    Pinpoints (.object document) (key :: rest) cause where
  found := by
    refine ⟨found, ?_⟩
    rw [Value.at?_cons, Value.child?_object, hfound]
    exact hplace
  schemas := by
    intro segments rest' part hpart heq
    cases hpart with
    | here =>
      obtain rfl : key :: rest = rest' := heq
      have hname : ∀ name ∈ Node.keywordNames, name ≠ "" := by decide
      exact ⟨fun hempty => hname key hkey (Option.some.inj hempty), h⟩
    | @inside _ _ value' part' _ below rest'' hfound' hbelow' _ =>
      -- a schema on the way would stand below the keyword at fault, on the way from there
      rw [List.cons_append, List.append_assoc] at heq
      obtain ⟨rfl, hrest⟩ := List.cons_eq_cons.mp heq
      obtain rfl := Option.some.inj (hfound.symm.trans hfound')
      exact absurd ⟨rest'' ++ rest', hrest.symm⟩ (hfree below part' hbelow')

/-- What fails in a schema below a keyword is located there, and no other schema is on the way. -/
theorem Pinpoints.outwards {document : Document} {key : String} {value part : Value}
    {segments location : List String} {cause : Malformation}
    (hpart : Pinpoints part location cause) (hfound : document.lookup key = some value)
    (hbelow : Node.SchemaBelow key value segments part)
    (h : decode (.object document) = .error (.malformed (key :: (segments ++ location)) cause)) :
    Pinpoints (.object document) (key :: (segments ++ location)) cause where
  found := by
    obtain ⟨found, hplace⟩ := hpart.found
    refine ⟨found, ?_⟩
    rw [Value.at?_cons, Value.child?_object, hfound, Option.bind_some, Value.at?_append, hbelow.at?]
    exact hplace
  schemas := by
    intro segments' rest' inner hinner heq
    cases hinner with
    | here =>
      obtain rfl : key :: (segments ++ location) = rest' := heq
      exact ⟨fun hempty => hbelow.key_ne_empty (Option.some.inj hempty), h⟩
    | @inside _ _ value' part' _ below rest'' hfound' hbelow' hinner' =>
      rw [List.cons_append, List.append_assoc] at heq
      obtain ⟨rfl, hrest⟩ := List.cons_eq_cons.mp heq
      obtain rfl := Option.some.inj (hfound.symm.trans hfound')
      obtain ⟨rfl, rfl⟩ := hbelow.unique hbelow' hrest
      exact hpart.schemas rest'' rest' inner hinner' (List.append_cancel_left hrest)

/-- By induction on the levels of the document, along the ways in which a node can fail. -/
theorem pinpoints_of_decode {document : Value} {error : DecodeError} (hwell : document.WellFormed)
    (hcounts : FiniteCounts document) (h : decode document = .error error) :
    ∃ location cause, error = .malformed location cause ∧ Pinpoints document location cause := by
  induction hdepth : document.depth using Nat.strongRecOn generalizing document error with
  | ind depth ih =>
    cases document with
    | bool accepted => cases h
    | object members =>
      have hnode : Node.decode decode members = .error error := by
        rw [decode_object] at h
        exact Except.map_eq_error_iff.mp h
      cases Node.errorsIn_decode hwell error hnode with
      | keyword hkey hfound hplace hfree =>
        exact ⟨_, _, rfl, pinpoints_of_keyword hkey hfound hplace hfree h⟩
      | @schema key value part segments inner hfound hbelow herror =>
        have hvalue := (Value.wellFormed_object_iff.mp hwell).2 _ (Members.mem_of_lookup hfound)
        have hlt : part.depth < depth := hdepth ▸ hbelow.depth_lt hfound
        obtain ⟨location, cause, rfl, hpart⟩ := ih part.depth hlt
          (hbelow.subdocument.wellFormed hvalue) (hcounts.of_below hfound hbelow) herror rfl
        exact ⟨_, _, rfl, hpart.outwards hfound hbelow h⟩
      | @count key number _ hkey hfound hnumber =>
        have hfinite := hcounts [] members (.here _) key hkey number hfound
        rw [hnumber] at hfinite
        cases hfinite
    | null => cases h; exact ⟨_, _, rfl, pinpoints_of_notASchema rfl nofun⟩
    | number number => cases h; exact ⟨_, _, rfl, pinpoints_of_notASchema rfl nofun⟩
    | string text => cases h; exact ⟨_, _, rfl, pinpoints_of_notASchema rfl nofun⟩
    | array items => cases h; exact ⟨_, _, rfl, pinpoints_of_notASchema rfl nofun⟩

/-- Reading a document leads to a schema, or to the failure of a malformed place and no other. The
pointer of the failure is read as the way to this place, whatever names are on it, and the place is
found. Each schema on the way, read on its own, fails with the same cause at what is left of the way,
and the pointer of its failure is read as that. -/
theorem decode_malformed {document : Value} (hwell : document.WellFormed)
    (hcounts : FiniteCounts document) :
    (∃ schema, decode document = .ok schema) ∨
    ∃ location cause, decode document = .error (.malformed location cause) ∧
      Pointer.parse (DecodeError.pointer location) = .ok location ∧
      (∃ value, document.at? location = some value) ∧
      ∀ segments rest part, SchemaAt document segments part → location = segments ++ rest →
        document.at? segments = some part ∧ decode part = .error (.malformed rest cause) ∧
        Pointer.parse (DecodeError.pointer rest) = .ok rest := by
  cases hresult : decode document with
  | ok schema => exact .inl ⟨schema, rfl⟩
  | error error =>
    obtain ⟨location, cause, rfl, hpinpoints⟩ := pinpoints_of_decode hwell hcounts hresult
    have hhead := (hpinpoints.schemas [] location document (.here document) rfl).1
    refine .inr ⟨location, cause, rfl, Pointer.parse_extend_root hhead, hpinpoints.found, ?_⟩
    intro segments rest part hpart heq
    obtain ⟨hrest, hdecode⟩ := hpinpoints.schemas segments rest part hpart heq
    exact ⟨hpart.at?, hdecode, Pointer.parse_extend_root hrest⟩

def awkwardNames : Value := .object [
  ("type", .string "object"),
  ("definitions", .object [("", .object [
    ("properties", .object [("a/b", .object [
      ("minimum", .int 0),
      ("dependencies", .object [("~", .array [.int 1])])])])])])]

theorem decode_awkwardNames :
    awkwardNames.WellFormed ∧ FiniteCounts awkwardNames ∧
    Pointer.parse "#/definitions//properties/a~1b/dependencies/~0" =
      .ok ["definitions", "", "properties", "a/b", "dependencies", "~"] ∧
    decode (.object [("minimum", .int 0), ("dependencies", .object [("~", .array [.int 1])])]) =
      .error (.malformed ["dependencies", "~"] .notAListOfStrings) := by
  have hwell : awkwardNames.WellFormed := by
    simp [awkwardNames, Value.WellFormed, Value.WellFormedMembers, Value.WellFormedItems,
      Members.Distinct, Members.names, Value.int]
  have hfinite : awkwardNames.Finite := by simp [awkwardNames, Value.int]
  have hcounts : FiniteCounts awkwardNames := finiteCounts_of_finite hfinite
  have herror : decode awkwardNames = .error (.malformed
      ["definitions", "", "properties", "a/b", "dependencies", "~"] .notAListOfStrings) := by rfl
  rcases decode_malformed hwell hcounts with ⟨schema, hok⟩ |
    ⟨location, cause, hlocated, hparse, -, hschemas⟩
  · rw [herror] at hok
    cases hok
  · obtain ⟨rfl, rfl⟩ : location = ["definitions", "", "properties", "a/b", "dependencies", "~"] ∧
        cause = .notAListOfStrings := by
      rw [herror] at hlocated
      injection hlocated with hsame
      injection hsame with hlocation hcause
      exact ⟨hlocation.symm, hcause.symm⟩
    have hinner : SchemaAt awkwardNames ["definitions", "", "properties", "a/b"]
        (.object [("minimum", .int 0), ("dependencies", .object [("~", .array [.int 1])])]) :=
      @SchemaAt.inside _ "definitions" _ _ _ [""] ["properties", "a/b"] rfl
        (.members (by decide) rfl fun h => absurd h (by decide))
        (@SchemaAt.inside _ "properties" _ _ _ ["a/b"] [] rfl
          (.members (by decide) rfl fun h => absurd h (by decide)) (.here _))
    exact ⟨hwell, hcounts, hparse, (hschemas _ ["dependencies", "~"] _ hinner rfl).2.1⟩

end Schema

end JsonSchema
