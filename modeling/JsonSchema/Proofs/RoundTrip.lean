import JsonSchema.Proofs.Reread
import JsonSchema.Schema.Encode

/-!
# Writing a schema and reading it back

What `Node.encode` writes under a keyword is found under it again (`lookup_written`), and each field
is read back from the form that it was written in. A node that is writable thus comes back as soon as
its children do, with its type in the form in which types are read; one that was read in the first place
comes back as it is. The document of a child has fewer levels than that of its node, so the reading is
deep enough at every step.
-/

namespace JsonSchema

namespace Node

/-! ### The document of a node -/

def written (n : Node Value) : Document := present n.keywordValues ++ n.extras

theorem encode_eq (n : Node Value) : n.encode = .object n.written := rfl

/-- Exactly the keywords are written, in an order of their own. -/
theorem perm_keywordNames (n : Node Value) : (n.keywordValues.map Prod.fst).Perm keywordNames := by
  have hnames : n.keywordValues.map Prod.fst = ({} : Node Value).keywordValues.map Prod.fst := rfl
  rw [hnames]
  decide

theorem nodup_keywordNames : keywordNames.Nodup := by
  decide

theorem mem_present {members : List (String × Option Value)} {key : String} {value : Value}
    (h : (key, some value) ∈ members) : (key, value) ∈ present members :=
  List.mem_filterMap.mpr ⟨_, h, rfl⟩

theorem mem_names_of_mem_present {members : List (String × Option Value)}
    {member : String × Value} (h : member ∈ present members) :
    member.1 ∈ members.map Prod.fst := by
  obtain ⟨source, hsource, hmember⟩ := List.mem_filterMap.mp h
  obtain ⟨value, -, rfl⟩ := Option.map_eq_some_iff.mp hmember
  exact List.mem_map_of_mem hsource

theorem lookup_eq_none_of_notMem {document : Document} {key : String}
    (h : ∀ member ∈ document, member.1 ≠ key) : document.lookup key = none := by
  rw [List.lookup_eq_none_iff]
  intro member hmem
  simpa using (h member hmem).symm

theorem lookup_present {members : List (String × Option Value)} {key : String}
    {value : Option Value} (hnodup : (members.map Prod.fst).Nodup) (hmem : (key, value) ∈ members) :
    (present members).lookup key = value := by
  induction members with
  | nil => cases hmem
  | cons member rest ih =>
    obtain ⟨hfresh, hrest⟩ := List.nodup_cons.mp hnodup
    obtain ⟨other, held⟩ := member
    rcases List.mem_cons.mp hmem with hfirst | hlater
    · cases hfirst
      have hnone : (present rest).lookup key = none := by
        apply lookup_eq_none_of_notMem
        rintro later hlater rfl
        exact hfresh (mem_names_of_mem_present hlater)
      cases value with
      | none => exact hnone
      | some value => simp [present]
    · have hkey : key ≠ other := by
        rintro rfl
        exact hfresh (List.mem_map.mpr ⟨(key, value), hlater, rfl⟩)
      cases held with
      | none => exact ih hrest hlater
      | some held =>
        have hbeq : (key == other) = false := by simpa using hkey
        have hcons : present ((other, some held) :: rest) = (other, held) :: present rest := rfl
        rw [hcons, List.lookup_cons, hbeq]
        exact ih hrest hlater

section Written

variable {n : Node Value} {key : String}

theorem lookup_written {value : Option Value}
    (hextras : ∀ member ∈ n.extras, member.1 ∉ keywordNames)
    (hmem : (key, value) ∈ n.keywordValues) : n.written.lookup key = value := by
  have hperm := n.perm_keywordNames
  have hkey : key ∈ keywordNames := hperm.subset (List.mem_map_of_mem hmem)
  have hnone : n.extras.lookup key = none := by
    apply lookup_eq_none_of_notMem
    rintro member hmember rfl
    exact hextras member hmember hkey
  rw [written, List.lookup_append, lookup_present (hperm.nodup_iff.mpr nodup_keywordNames) hmem,
    hnone, Option.or_none]

theorem filter_written (hextras : ∀ member ∈ n.extras, member.1 ∉ keywordNames) :
    n.written.filter (fun member => !keywordNames.contains member.1) = n.extras := by
  have hkeywords : (present n.keywordValues).filter
      (fun member => !keywordNames.contains member.1) = [] := by
    rw [List.filter_eq_nil_iff]
    intro member hmem
    simpa using n.perm_keywordNames.subset (mem_names_of_mem_present hmem)
  have hothers : n.extras.filter (fun member => !keywordNames.contains member.1) = n.extras := by
    rw [List.filter_eq_self]
    intro member hmem
    simpa using hextras member hmem
  rw [written, List.filter_append, hkeywords, hothers, List.nil_append]

theorem mem_written {value : Value} (h : (key, some value) ∈ n.keywordValues) :
    (key, value) ∈ n.written :=
  List.mem_append_left _ (mem_present h)

end Written

/-! ### Fields without sub-schemas -/

section Fields

variable {document : Document} {key : String}

theorem keyword?_of_lookup {value : Option Value} (h : document.lookup key = value)
    (hnull : value ≠ some .null) : keyword? document key = value := by
  unfold keyword?
  rw [h]
  split
  · exact absurd rfl hnull
  · rfl

theorem decodeNumber_of_lookup {number : Option Number}
    (h : document.lookup key = number.map .number) : decodeNumber document key = .ok number := by
  unfold decodeNumber
  cases number with
  | none => rw [keyword?_of_lookup h nofun, Option.map_none]
  | some number => rw [keyword?_of_lookup h nofun, Option.map_some]

theorem countOf_int (key : String) (count : Nat) : countOf key (.int count) = .ok count := by
  have hunits : (0 : Int) * Binary64.one ≤ count * Binary64.one :=
    Int.mul_le_mul_of_nonneg_right (Int.natCast_nonneg count) (Int.natCast_nonneg Binary64.one)
  have hlt : (Number.int count).lt .zero = false := by
    change Number.Rank.lt ⟨0, count * Binary64.one⟩ ⟨0, 0 * Binary64.one⟩ = false
    rw [Number.Rank.lt, decide_eq_false (Int.not_lt.mpr hunits)]
    rfl
  unfold countOf
  rw [hlt]
  exact congrArg Except.ok (Int.toNat_natCast count)

theorem decodeCount_of_lookup {count : Option Nat}
    (h : document.lookup key = count.map encodeCount) : decodeCount document key = .ok count := by
  unfold decodeCount
  cases count with
  | none => rw [keyword?_of_lookup h nofun, Option.map_none]
  | some count =>
    rw [keyword?_of_lookup h nofun, Option.map_some]
    exact Except.map_eq_ok_iff.mpr ⟨count, countOf_int key count, rfl⟩

theorem decodeString_of_lookup {text : Option String}
    (h : document.lookup key = text.map .string) : decodeString document key = .ok text := by
  unfold decodeString
  cases text with
  | none => rw [keyword?_of_lookup h nofun, Option.map_none]
  | some text => rw [keyword?_of_lookup h nofun, Option.map_some]

theorem stringsOf?_map_string (texts : List String) :
    stringsOf? (texts.map .string) = some texts := by
  induction texts with
  | nil => rfl
  | cons text rest ih => rw [List.map_cons, stringsOf?, ih, Option.map_some]

theorem decodeStrings_map_string (location : List String) (texts : List String) :
    decodeStrings location (.array (texts.map .string)) = .ok texts := by
  rw [decodeStrings, stringsOf?_map_string]

theorem decodeBounds_of_lookup {exclusiveKey : String} {bound exclusive : Option Number}
    (h : document.lookup key = bound.map .number)
    (hexclusive : document.lookup exclusiveKey = exclusive.map .number) :
    decodeBounds document key exclusiveKey = .ok (bound, exclusive) := by
  have hread := decodeNumber_of_lookup hexclusive
  unfold decodeBounds
  rw [decodeNumber_of_lookup h, hread, hexclusive]
  cases exclusive <;> rfl

theorem decodeType_of_lookup {spec : TypeSpec} (h : document.lookup "type" = spec.toValue?) :
    decodeType document = .ok spec.reread := by
  have hkeyword : keyword? document "type" = spec.toValue? := by
    apply keyword?_of_lookup h
    cases spec <;> exact nofun
  unfold decodeType
  rw [hkeyword]
  cases hwritten : spec.toValue? with
  | none => cases spec <;> cases hwritten; rfl
  | some written =>
    exact Except.mapError_eq_ok_iff.mpr (TypeSpec.ofValue_of_toValue? hwritten)

theorem decodeEnum_of_lookup {values : Option (List Value)}
    (h : document.lookup "enum" = values.map .array) : decodeEnum document = .ok values := by
  unfold decodeEnum
  cases values with
  | none => rw [keyword?_of_lookup h nofun, Option.map_none]
  | some values => rw [keyword?_of_lookup h nofun, Option.map_some]

theorem decodeRequired_of_lookup {names : Option (List String)}
    (h : document.lookup "required" = names.map fun names => .array (names.map .string)) :
    decodeRequired document = .ok names := by
  unfold decodeRequired
  rw [h]
  cases names with
  | none => rfl
  | some names => exact Except.map_eq_ok_iff.mpr ⟨names, decodeStrings_map_string _ names, rfl⟩

theorem examplesOf_of_lookup {values : Option (List Value)}
    (h : document.lookup "examples" = values.map .array) : examplesOf document = values := by
  unfold examplesOf
  rw [h]
  cases values <;> rfl

theorem truthy_of_lookup {flag : Bool}
    (h : document.lookup key = if flag then some (.bool true) else none) :
    ((document.lookup key).getD (.bool false)).truthy = flag := by
  rw [h]
  cases flag <;> rfl

end Fields

/-! ### Fields with sub-schemas -/

section SubSchemas

variable {σ τ : Type} {sub : Value → Except DecodeError σ} {write : τ → Value} {read : τ → σ}
  {document : Document} {key : String}

theorem decodeAt_write {schema : τ} (location : List String)
    (h : sub (write schema) = .ok (read schema)) :
    decodeAt sub location (write schema) = .ok (read schema) :=
  Except.mapError_eq_ok_iff.mpr h

theorem decodeEach_map_write {schemas : List τ} (index : Nat)
    (hread : ∀ schema ∈ schemas, sub (write schema) = .ok (read schema)) :
    decodeEach sub key index (schemas.map write) = .ok (schemas.map read) := by
  induction schemas generalizing index with
  | nil => rfl
  | cons schema rest ih =>
    have hfirst := decodeAt_write [key, Pointer.ofIndex index] (hread schema List.mem_cons_self)
    have hrest := ih (index + 1) fun other hother =>
      hread other (List.mem_cons_of_mem schema hother)
    exact Except.bind_eq_ok_iff.mpr
      ⟨read schema, hfirst, Except.bind_eq_ok_iff.mpr ⟨rest.map read, hrest, rfl⟩⟩

theorem decodeMembers_of_lookup {members : Option (List (String × τ))}
    (h : document.lookup key = (members.map (mapMembers write)).map .object)
    (hread : ∀ schema ∈ (members.getD []).map Prod.snd, sub (write schema) = .ok (read schema)) :
    decodeMembers sub document key = .ok (members.map (mapMembers read)) := by
  unfold decodeMembers
  cases members with
  | none => rw [keyword?_of_lookup h nofun]; rfl
  | some members =>
    rw [keyword?_of_lookup h nofun]
    refine Except.map_eq_ok_iff.mpr ⟨_, Except.mapM_map_eq_ok fun member hmem => ?_, rfl⟩
    have hschema := hread member.2 (List.mem_map_of_mem hmem)
    exact Except.bind_eq_ok_iff.mpr ⟨read member.2, decodeAt_write _ hschema, rfl⟩

theorem decodeList_of_lookup {schemas : Option (List τ)}
    (h : document.lookup key = (schemas.map (List.map write)).map .array)
    (hread : ∀ schema ∈ schemas.getD [], sub (write schema) = .ok (read schema)) :
    decodeList sub document key = .ok (schemas.map (List.map read)) := by
  unfold decodeList
  cases schemas with
  | none => rw [keyword?_of_lookup h nofun]; rfl
  | some schemas =>
    rw [keyword?_of_lookup h nofun]
    exact Except.map_eq_ok_iff.mpr ⟨_, decodeEach_map_write 0 hread, rfl⟩

theorem decodeSchema_of_lookup {schema : Option τ} (h : document.lookup key = schema.map write)
    (hread : ∀ found ∈ schema, sub (write found) = .ok (read found)) :
    decodeSchema sub document key = .ok (schema.map read) := by
  unfold decodeSchema
  rw [h]
  cases schema with
  | none => rfl
  | some schema =>
    have hschema := hread schema rfl
    exact Except.map_eq_ok_iff.mpr ⟨read schema, decodeAt_write [key] hschema, rfl⟩

theorem decodeItems_of_lookup {items : Items τ}
    (h : document.lookup "items" = encodeItems (items.map write))
    (hread : ∀ schema ∈ items.children, sub (write schema) = .ok (read schema))
    (hnull : ∀ schema, write schema ≠ .null) (harray : ∀ schema as, write schema ≠ .array as) :
    decodeItems sub document = .ok (items.map read) := by
  unfold decodeItems
  cases items with
  | unconstrained => rw [keyword?_of_lookup h nofun]; rfl
  | uniform schema =>
    have hwrite : encodeItems ((Items.uniform schema).map write) = some (write schema) := rfl
    have hschema := hread schema (List.mem_singleton_self schema)
    rw [keyword?_of_lookup h fun heq => hnull schema (Option.some.inj heq), hwrite]
    split
    · rename_i heq
      cases heq
    · rename_i as heq
      exact absurd (Option.some.inj heq) (harray schema as)
    · rename_i value _ heq
      cases heq
      exact Except.map_eq_ok_iff.mpr ⟨read schema, decodeAt_write ["items"] hschema, rfl⟩
  | positional schemas =>
    rw [keyword?_of_lookup h nofun]
    exact Except.map_eq_ok_iff.mpr ⟨_, decodeEach_map_write 0 hread, rfl⟩

theorem decodeDependency_encode {name : String} {dependency : Dependency τ}
    (hread : ∀ schema ∈ dependency.children, sub (write schema) = .ok (read schema))
    (harray : ∀ schema as, write schema ≠ .array as) :
    decodeDependency sub (name, encodeDependency (dependency.map write)) =
      .ok (name, dependency.map read) := by
  unfold decodeDependency
  cases dependency with
  | conforms schema =>
    have hschema := hread schema (List.mem_singleton_self schema)
    have hwrite : encodeDependency ((Dependency.conforms schema).map write) = write schema := rfl
    rw [hwrite]
    dsimp only
    split
    · rename_i as heq
      exact absurd heq (harray schema as)
    · exact Except.map_eq_ok_iff.mpr ⟨read schema, decodeAt_write _ hschema, rfl⟩
  | requires names => exact Except.map_eq_ok_iff.mpr ⟨names, decodeStrings_map_string _ names, rfl⟩

theorem decodeDependencies_of_lookup {members : Option (List (String × Dependency τ))}
    (h : document.lookup "dependencies" = (members.map (mapMembers (Dependency.map write))).map
      fun members => .object (mapMembers encodeDependency members))
    (hread : ∀ schema ∈ (members.getD []).flatMap fun dependency => dependency.2.children,
      sub (write schema) = .ok (read schema))
    (harray : ∀ schema as, write schema ≠ .array as) :
    decodeDependencies sub document = .ok (members.map (mapMembers (Dependency.map read))) := by
  unfold decodeDependencies
  rw [h]
  cases members with
  | none => rfl
  | some members =>
    have hmembers : mapMembers encodeDependency (mapMembers (Dependency.map write) members) =
        members.map fun member => (member.1, encodeDependency (member.2.map write)) := by
      rw [mapMembers, mapMembers, List.map_map]
      rfl
    rw [Option.map_some, Option.map_some, hmembers]
    refine Except.map_eq_ok_iff.mpr ⟨_, Except.mapM_map_eq_ok fun member hmem => ?_, rfl⟩
    exact decodeDependency_encode
      (fun schema hschema => hread schema (List.mem_flatMap.mpr ⟨member, hmem, hschema⟩)) harray

end SubSchemas

/-- A writable node is read back from its document if its children are. -/
theorem Writable.decodes_written {σ τ : Type} {sub : Value → Except DecodeError σ}
    {write : τ → Value} {read : τ → σ} {n : Node τ} (hn : n.Writable)
    (hread : ∀ schema ∈ n.children, sub (write schema) = .ok (read schema))
    (hnull : ∀ schema, write schema ≠ .null) (harray : ∀ schema as, write schema ≠ .array as) :
    (n.reread read).Decodes sub (n.map write).written := by
  have hlookup : ∀ member ∈ (n.map write).keywordValues,
      (n.map write).written.lookup member.1 = member.2 :=
    fun _ hmem => lookup_written hn.extras hmem
  simp only [keywordValues, List.forall_mem_cons] at hlookup
  obtain ⟨ref, type, title, description, default, examples, definitions, multipleOf, maximum,
    exclusiveMaximum, minimum, exclusiveMinimum, maxLength, minLength, pattern, items,
    additionalItems, maxItems, minItems, uniqueItems, contains, maxProperties, minProperties,
    required, properties, patternProperties, additionalProperties, propertyNames, dependencies,
    enum, const, allOf, anyOf, oneOf, -⟩ := hlookup
  obtain ⟨hdefinitions, hitems, hadditionalItems, hcontains, hproperties, hpatternProperties,
    hadditionalProperties, hpropertyNames, hdependencies, hallOf, hanyOf, honeOf⟩ :=
    forall_mem_children.mp hread
  exact {
    type := decodeType_of_lookup type
    ref := decodeString_of_lookup ref
    items := decodeItems_of_lookup items hitems hnull harray
    pattern := decodeString_of_lookup pattern
    enum := decodeEnum_of_lookup enum
    required := decodeRequired_of_lookup required
    dependencies := decodeDependencies_of_lookup dependencies hdependencies harray
    upper := decodeBounds_of_lookup maximum exclusiveMaximum
    lower := decodeBounds_of_lookup minimum exclusiveMinimum
    definitions := decodeMembers_of_lookup definitions hdefinitions
    multipleOf := decodeNumber_of_lookup multipleOf
    maxLength := decodeCount_of_lookup maxLength
    minLength := decodeCount_of_lookup minLength
    additionalItems := decodeSchema_of_lookup additionalItems hadditionalItems
    maxItems := decodeCount_of_lookup maxItems
    minItems := decodeCount_of_lookup minItems
    contains := decodeSchema_of_lookup contains hcontains
    maxProperties := decodeCount_of_lookup maxProperties
    minProperties := decodeCount_of_lookup minProperties
    properties := decodeMembers_of_lookup properties hproperties
    patternProperties := decodeMembers_of_lookup patternProperties hpatternProperties
    additionalProperties := decodeSchema_of_lookup additionalProperties hadditionalProperties
    propertyNames := decodeSchema_of_lookup propertyNames hpropertyNames
    allOf := decodeList_of_lookup allOf hallOf
    anyOf := decodeList_of_lookup anyOf hanyOf
    oneOf := decodeList_of_lookup oneOf honeOf
    title := (keyword?_of_lookup title hn.title).symm
    description := (keyword?_of_lookup description hn.description).symm
    default := default.symm
    examples := (examplesOf_of_lookup examples).symm
    extras := (filter_written (n := n.map write) hn.extras).symm
    uniqueItems := (truthy_of_lookup uniqueItems).symm
    const := const.symm }

/-! ### Levels of documents -/

section Levels

variable {value : Value} {bound : Nat}

theorem depth_lt_of_mem_members {members : Option (List (String × Value))}
    (hbound : ∀ outer ∈ members.map Value.object, outer.depth < bound)
    (h : value ∈ (members.getD []).map Prod.snd) : value.depth < bound := by
  cases members with
  | none => cases h
  | some members =>
    rw [Option.getD_some] at h
    obtain ⟨member, hmem, rfl⟩ := List.mem_map.mp h
    have hmember := Value.depth_le_depthMembers hmem
    have houter := hbound _ rfl
    rw [Value.depth] at houter
    omega

theorem depth_lt_of_mem_list {values : Option (List Value)}
    (hbound : ∀ outer ∈ values.map Value.array, outer.depth < bound)
    (h : value ∈ values.getD []) : value.depth < bound := by
  cases values with
  | none => cases h
  | some values =>
    rw [Option.getD_some] at h
    have hitem := Value.depth_le_depthItems h
    have houter := hbound _ rfl
    rw [Value.depth] at houter
    omega

theorem depth_lt_of_mem_items {items : Items Value}
    (hbound : ∀ outer ∈ encodeItems items, outer.depth < bound) (h : value ∈ items.children) :
    value.depth < bound := by
  cases items with
  | unconstrained => cases h
  | uniform schema =>
    obtain rfl := List.mem_singleton.mp h
    exact hbound _ rfl
  | positional schemas => exact @depth_lt_of_mem_list _ _ (some schemas) hbound h

theorem depth_le_encodeDependency {dependency : Dependency Value}
    (h : value ∈ dependency.children) : value.depth ≤ (encodeDependency dependency).depth := by
  cases dependency with
  | conforms schema =>
    obtain rfl := List.mem_singleton.mp h
    exact Nat.le_refl _
  | requires names => cases h

theorem depth_lt_of_mem_dependencies {members : Option (List (String × Dependency Value))}
    (hbound : ∀ outer ∈ members.map fun members =>
      Value.object (mapMembers encodeDependency members), outer.depth < bound)
    (h : value ∈ (members.getD []).flatMap fun dependency => dependency.2.children) :
    value.depth < bound := by
  cases members with
  | none => cases h
  | some members =>
    obtain ⟨member, hmem, hchild⟩ := List.mem_flatMap.mp h
    have hinner := depth_le_encodeDependency hchild
    have hwritten : (member.1, encodeDependency member.2) ∈ mapMembers encodeDependency members :=
      List.mem_map_of_mem hmem
    have hmember := Value.depth_le_depthMembers hwritten
    have houter := hbound _ rfl
    rw [Value.depth] at houter
    dsimp only at hmember
    omega

/-- A child has fewer levels than the document that it is written into. -/
theorem depth_lt_encode (n : Node Value) : ∀ value ∈ n.children, value.depth < n.encode.depth := by
  have hbound : ∀ member ∈ n.keywordValues, ∀ outer ∈ member.2, outer.depth < n.encode.depth := by
    rintro ⟨key, _⟩ hmem outer rfl
    have hmember : outer.depth ≤ Value.depthMembers n.written :=
      Value.depth_le_depthMembers (mem_written hmem)
    rw [encode_eq, Value.depth]
    omega
  simp only [keywordValues, List.forall_mem_cons] at hbound
  obtain ⟨-, -, -, -, -, -, definitions, -, -, -, -, -, -, -, -, items, additionalItems, -, -, -,
    contains, -, -, -, properties, patternProperties, additionalProperties, propertyNames,
    dependencies, -, -, allOf, anyOf, oneOf, -⟩ := hbound
  rw [forall_mem_children]
  refine ⟨?_, ?_, additionalItems, contains, ?_, ?_, additionalProperties, propertyNames, ?_, ?_,
    ?_, ?_⟩ <;> intro value hmem
  · exact depth_lt_of_mem_members definitions hmem
  · exact depth_lt_of_mem_items items hmem
  · exact depth_lt_of_mem_members properties hmem
  · exact depth_lt_of_mem_members patternProperties hmem
  · exact depth_lt_of_mem_dependencies dependencies hmem
  · exact depth_lt_of_mem_list allOf hmem
  · exact depth_lt_of_mem_list anyOf hmem
  · exact depth_lt_of_mem_list oneOf hmem

end Levels

end Node

namespace Schema

/-! ### Whole schemas -/

theorem encode_always (accepted : Bool) : (always accepted).encode = .bool accepted :=
  fold_always _ _ accepted

theorem encode_node (n : Node Schema) : (node n).encode = .object (n.map encode).written :=
  fold_node _ _ n

theorem encode_ne_null (schema : Schema) : schema.encode ≠ .null := by
  cases schema with
  | always accepted => rw [encode_always]; exact nofun
  | node n => rw [encode_node]; exact nofun

theorem encode_ne_array (schema : Schema) (values : List Value) :
    schema.encode ≠ .array values := by
  cases schema with
  | always accepted => rw [encode_always]; exact nofun
  | node n => rw [encode_node]; exact nofun

theorem depth_encode_lt {schema : Schema} {n : Node Schema} (h : schema ∈ n.children) :
    schema.encode.depth < (node n).encode.depth := by
  have hmem : schema.encode ∈ (n.map encode).children := by
    rw [Node.children_map]
    exact List.mem_map_of_mem h
  rw [encode_node]
  exact Node.depth_lt_encode _ _ hmem

/-- A schema with writable nodes is read back from its document, with its types in the form in which
they are read. -/
theorem decodeWithin_encode_reread {schema : Schema} (h : schema.Everywhere Node.Writable)
    {levels : Nat} (hlevels : schema.encode.depth ≤ levels) :
    decodeWithin levels schema.encode = .ok schema.reread := by
  induction schema using Schema.induction generalizing levels with
  | always accepted =>
    rw [encode_always, reread_always]
    cases levels <;> rfl
  | node n ih =>
    obtain ⟨hn, hchildren⟩ := everywhere_node_iff.mp h
    have hpos := (node n).encode.depth_pos
    obtain ⟨levels, rfl⟩ : ∃ below, levels = below + 1 := ⟨levels - 1, by omega⟩
    have hread : ∀ schema ∈ n.children, decodeWithin levels schema.encode = .ok schema.reread := by
      intro child hmem
      have hdepth := depth_encode_lt hmem
      exact ih child hmem (hchildren child hmem) (by omega)
    have hdecodes : (n.reread reread).Decodes (decodeWithin levels) (n.map encode).written :=
      hn.decodes_written hread encode_ne_null encode_ne_array
    rw [encode_node, reread_node]
    exact Except.map_eq_ok_iff.mpr ⟨_, Node.decode_eq_ok_iff.mpr hdecodes, rfl⟩

/-- A regular schema is read back from its document as it was. -/
theorem decodeWithin_encode {schema : Schema} (h : schema.Regular) {levels : Nat}
    (hlevels : schema.encode.depth ≤ levels) : decodeWithin levels schema.encode = .ok schema := by
  have hread := decodeWithin_encode_reread (fun n hocc => (h n hocc).writable) hlevels
  rw [h.reread_eq] at hread
  exact hread

/-- A schema that was read is read back from its document, which thus stands for itself. -/
theorem decode_encode_of_decode {document : Value} {schema : Schema}
    (h : decode document = .ok schema) :
    decode schema.encode = .ok schema ∧
      (decode schema.encode).map encode = .ok schema.encode := by
  have hback : decode schema.encode = .ok schema :=
    decodeWithin_encode (regular_of_decodeWithin h) (Nat.le_refl _)
  refine ⟨hback, ?_⟩
  rw [hback]
  rfl

def looseDocument : Value := .object [
  ("type", .array [.string "null", .string "object"]),
  ("title", .null),
  ("const", .null),
  ("unit", .null),
  ("minimum", .int 1),
  ("exclusiveMinimum", .bool true),
  ("examples", .string "none"),
  ("dependencies", .object [("b", .array [.string "a"]), ("a", .object [])]),
  ("items", .array [.bool false, .object [("type", .array [.string "string"])]])]

def looseSchema : Schema := .node {
  type := .nullable .object
  const := some .null
  extras := [("unit", .null)]
  exclusiveMinimum := some (.int 1)
  dependencies := some [("b", .requires ["a"]), ("a", .conforms (.node blank))]
  items := .positional [.always false, .node { type := .single .string }] }

theorem decode_encode_looseSchema :
    decode looseDocument = .ok looseSchema ∧
      decode looseSchema.encode = .ok looseSchema ∧
      (decode looseSchema.encode).map encode = .ok looseSchema.encode := by
  have hread : decode looseDocument = .ok looseSchema := by rfl
  exact ⟨hread, decode_encode_of_decode hread⟩

end Schema

end JsonSchema
