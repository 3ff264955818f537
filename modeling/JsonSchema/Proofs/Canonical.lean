import JsonSchema.Proofs.Equality
import JsonSchema.Proofs.Rearranged
import JsonSchema.Proofs.RoundTrip

/-!
# Documents that come back

A document in canonical form has no keyword that reading would drop or bring into another form. Each
field of a node that was read from it is written again as the value that it was read from
(`lookup_of_decodeNumber` and its like), up to the order of the keywords in sub-schemas. Together
with the members that are no keywords these are all members of the document.
-/

namespace JsonSchema

namespace Node

/-! ### Canonical form -/

def countKeywords : List String :=
  ["maxLength", "minLength", "maxItems", "minItems", "maxProperties", "minProperties"]

structure CanonicalForm (key : String) (value : Value) : Prop where
  notNull : key ∈ keywordNames → key ≠ "default" → key ≠ "const" → value ≠ .null
  type : key = "type" → (∃ name, value = .string name) ∨
    ∃ names, value = .array names ∧ names.length ≠ 1 ∧
      ∀ name, name ≠ "null" → names ≠ [.string "null", .string name]
  examples : key = "examples" → ∃ values, value = .array values
  exclusive : key = "exclusiveMaximum" ∨ key = "exclusiveMinimum" → ∃ n, value = .number n
  count : key ∈ countKeywords → ∃ n, value = .int n
  uniqueItems : key = "uniqueItems" → value = .bool true

/-- A value that stands for a sub-schema under a keyword. A list under `items` is a list of
sub-schemas, and a list among the dependencies is one of names. -/
inductive Subdocument (key : String) : Value → Value → Prop where
  | schema {value : Value} (hkey : key ∈ schemaKeywords)
      (hitems : key = "items" → ∀ values, value ≠ .array values) : Subdocument key value value
  | list {values : List Value} {value : Value} (hkey : key ∈ listKeywords)
      (hmem : value ∈ values) : Subdocument key (.array values) value
  | members {entries : List (String × Value)} {entry : String × Value}
      (hkey : key ∈ memberKeywords) (hmem : entry ∈ entries)
      (hnames : key = "dependencies" → ∀ values, entry.2 ≠ .array values) :
      Subdocument key (.object entries) entry.2

end Node

namespace Schema

open Node

/-- A boolean, or an object whose members have their canonical form, as have the sub-schemas. -/
inductive Canonical : Value → Prop where
  | bool (accepted : Bool) : Canonical (.bool accepted)
  | object {document : Document} (hform : ∀ member ∈ document, CanonicalForm member.1 member.2)
      (hparts : ∀ member ∈ document, ∀ part, Subdocument member.1 member.2 part → Canonical part) :
      Canonical (.object document)

end Schema

/-! ### Types -/

namespace TypeSpec

theorem eq_of_readPrimitive {value : Value} {primitive : Primitive}
    (h : readPrimitive value = .ok primitive) : value = .string primitive.name := by
  cases value with
  | string name =>
    rw [readPrimitive] at h
    split at h
    · rename_i found hfound
      cases h
      have hname := List.find?_some hfound
      exact congrArg Value.string (of_decide_eq_true hname).symm
    · cases h
  | _ => cases h

theorem eq_of_mapM_readPrimitive {names : List Value} {primitives : List Primitive}
    (h : names.mapM readPrimitive = .ok primitives) :
    names = primitives.map fun p => .string p.name := by
  have hread := Except.forall₂_of_mapM h
  clear h
  induction hread with
  | nil => rfl
  | cons hfirst _ ih => rw [List.map_cons, ← ih, eq_of_readPrimitive hfirst]

/-- A list of types is written as itself, unless it is one type or has null before another. -/
theorem toValue?_ofPrimitives {primitives : List Primitive} (hlength : primitives.length ≠ 1)
    (hnull : ∀ p, p ≠ .null → primitives ≠ [.null, p]) :
    (ofPrimitives primitives).toValue? =
      some (.array (primitives.map fun p => .string p.name)) := by
  match primitives with
  | [] => rfl
  | [p] => exact absurd rfl hlength
  | [first, second] =>
    simp only [ofPrimitives]
    split_ifs with hsecond hfirst
    · rw [hsecond.2]
      rfl
    · exact absurd (by rw [hfirst.1]) (hnull second hfirst.2)
    · rfl
  | _ :: _ :: _ :: _ => rfl

theorem toValue?_of_ofValue_array {names : List Value} {spec : TypeSpec}
    (h : ofValue (.array names) = .ok spec) (hlength : names.length ≠ 1)
    (hnull : ∀ name, name ≠ "null" → names ≠ [.string "null", .string name]) :
    spec.toValue? = some (.array names) := by
  obtain ⟨primitives, hread, rfl⟩ := Except.map_eq_ok_iff.mp h
  obtain rfl := eq_of_mapM_readPrimitive hread
  apply toValue?_ofPrimitives
  · simpa using hlength
  · rintro p hp rfl
    have hname : p.name ≠ "null" := by cases p <;> first | exact absurd rfl hp | decide
    exact hnull p.name hname rfl

end TypeSpec

namespace Node

/-! ### Fields without sub-schemas -/

section Fields

variable {document : Document} {key : String}

theorem lookup_of_decodeNumber {number : Option Number}
    (h : decodeNumber document key = .ok number) (hnull : document.lookup key ≠ some .null) :
    document.lookup key = number.map .number := by
  rw [← keyword?_of_lookup rfl hnull]
  unfold decodeNumber at h
  split at h <;> cases h
  all_goals assumption

theorem lookup_of_decodeString {text : Option String}
    (h : decodeString document key = .ok text) (hnull : document.lookup key ≠ some .null) :
    document.lookup key = text.map .string := by
  rw [← keyword?_of_lookup rfl hnull]
  unfold decodeString at h
  split at h <;> cases h
  all_goals assumption

theorem lookup_of_decodeEnum {values : Option (List Value)} (h : decodeEnum document = .ok values)
    (hnull : document.lookup "enum" ≠ some .null) :
    document.lookup "enum" = values.map .array := by
  rw [← keyword?_of_lookup rfl hnull]
  unfold decodeEnum at h
  split at h <;> cases h
  all_goals assumption

/-- An integer that is a count is that count. -/
theorem eq_of_countOf_int {n : Int} {count : Nat} (h : countOf key (.int n) = .ok count) :
    n = count := by
  unfold countOf at h
  split_ifs at h with hlt
  have hnonneg : 0 ≤ n := by
    by_contra hneg
    apply hlt
    have hunits : n * Binary64.one < 0 * Binary64.one :=
      Int.mul_lt_mul_of_pos_right (Int.not_le.mp hneg) (Int.natCast_pos.mpr Binary64.one_pos)
    change Number.Rank.lt ⟨0, n * Binary64.one⟩ ⟨0, 0 * Binary64.one⟩ = true
    rw [Number.Rank.lt, decide_eq_true hunits]
    rfl
  cases h
  exact (Int.toNat_of_nonneg hnonneg).symm

theorem lookup_of_decodeCount {count : Option Nat} (h : decodeCount document key = .ok count)
    (hint : ∀ value ∈ document.lookup key, ∃ n, value = .int n) :
    document.lookup key = count.map encodeCount := by
  cases hfound : document.lookup key with
  | none =>
    unfold decodeCount at h
    rw [keyword?_of_lookup hfound nofun] at h
    cases h
    rfl
  | some value =>
    obtain ⟨n, rfl⟩ := hint value hfound
    unfold decodeCount at h
    rw [keyword?_of_lookup hfound nofun] at h
    obtain ⟨read, hread, rfl⟩ := Except.map_eq_ok_iff.mp h
    rw [eq_of_countOf_int hread]
    rfl

theorem eq_of_stringsOf? {values : List Value} {texts : List String}
    (h : stringsOf? values = some texts) : values = texts.map .string := by
  induction values generalizing texts with
  | nil =>
    cases h
    rfl
  | cons value rest ih =>
    cases value with
    | string text =>
      obtain ⟨others, hothers, rfl⟩ := Option.map_eq_some_iff.mp h
      rw [List.map_cons, ← ih hothers]
    | _ => cases h

theorem eq_of_decodeStrings {location : List String} {value : Value} {texts : List String}
    (h : decodeStrings location value = .ok texts) : value = .array (texts.map .string) := by
  cases value with
  | array values =>
    cases hread : stringsOf? values with
    | none =>
      simp only [decodeStrings, hread] at h
      cases h
    | some read =>
      simp only [decodeStrings, hread] at h
      cases h
      rw [eq_of_stringsOf? hread]
  | _ => cases h

theorem lookup_of_decodeRequired {names : Option (List String)}
    (h : decodeRequired document = .ok names) :
    document.lookup "required" = names.map fun names => .array (names.map .string) := by
  unfold decodeRequired at h
  split at h
  · rename_i hfound
    cases h
    exact hfound
  · rename_i value hfound
    obtain ⟨texts, hread, rfl⟩ := Except.map_eq_ok_iff.mp h
    rw [hfound, eq_of_decodeStrings hread]
    rfl

theorem lookup_of_decodeType {spec : TypeSpec} (h : decodeType document = .ok spec)
    (hform : ∀ value ∈ document.lookup "type", CanonicalForm "type" value) :
    document.lookup "type" = spec.toValue? := by
  cases hfound : document.lookup "type" with
  | none =>
    unfold decodeType at h
    rw [keyword?_of_lookup hfound nofun] at h
    cases h
    rfl
  | some value =>
    have hspec : TypeSpec.ofValue value = .ok spec := by
      have hnull := (hform value hfound).notNull (by decide) (by decide) (by decide)
      unfold decodeType at h
      rw [keyword?_of_lookup hfound fun heq => hnull (Option.some.inj heq)] at h
      exact Except.mapError_eq_ok_iff.mp h
    rcases (hform value hfound).type rfl with ⟨name, rfl⟩ | ⟨names, rfl, hlength, hnull⟩
    · obtain ⟨primitive, hread, rfl⟩ := Except.map_eq_ok_iff.mp hspec
      rw [TypeSpec.eq_of_readPrimitive hread]
      rfl
    · exact (TypeSpec.toValue?_of_ofValue_array hspec hlength hnull).symm

/-- An exclusive bound that is no boolean leaves the bound beside it as it is. -/
theorem lookup_of_decodeBounds {exclusiveKey : String} {bound exclusive : Option Number}
    (h : decodeBounds document key exclusiveKey = .ok (bound, exclusive))
    (hnull : document.lookup key ≠ some .null)
    (hnumber : ∀ value ∈ document.lookup exclusiveKey, ∃ n, value = .number n) :
    document.lookup key = bound.map .number ∧
      document.lookup exclusiveKey = exclusive.map .number := by
  obtain ⟨_, hbound, h⟩ := Except.bind_eq_ok_iff.mp h
  split at h
  · rename_i hfound
    obtain ⟨n, hn⟩ := hnumber _ hfound
    cases hn
  · obtain ⟨_, hexclusive, h⟩ := Except.bind_eq_ok_iff.mp h
    cases h
    have hexclusiveNull : document.lookup exclusiveKey ≠ some .null := by
      intro hfound
      obtain ⟨n, hn⟩ := hnumber _ hfound
      cases hn
    exact ⟨lookup_of_decodeNumber hbound hnull, lookup_of_decodeNumber hexclusive hexclusiveNull⟩

theorem lookup_of_examplesOf
    (hlist : ∀ value ∈ document.lookup "examples", ∃ values, value = .array values) :
    document.lookup "examples" = (examplesOf document).map .array := by
  unfold examplesOf
  cases hfound : document.lookup "examples" with
  | none => rfl
  | some value =>
    obtain ⟨values, rfl⟩ := hlist value hfound
    rfl

theorem lookup_of_truthy (htrue : ∀ value ∈ document.lookup key, value = .bool true) :
    document.lookup key =
      if ((document.lookup key).getD (.bool false)).truthy then some (.bool true) else none := by
  cases hfound : document.lookup key with
  | none => rfl
  | some value =>
    obtain rfl := htrue value hfound
    rfl

end Fields

/-! ### Fields with sub-schemas -/

section SubSchemas

open Schema (Rearranged RearrangedEntry SameKeyword)

variable {σ : Type} {sub : Value → Except DecodeError σ} {write : σ → Value} {document : Document}
  {key : String}

/-- Whatever a value is read as is written as the same value, but for the order of keywords. -/
def Rearranges (sub : Value → Except DecodeError σ) (write : σ → Value) (value : Value) : Prop :=
  ∀ schema, sub value = .ok schema → Rearranged value (write schema)

theorem Rearranges.of_decodeAt {location : List String} {value : Value} {schema : σ}
    (h : Rearranges sub write value) (hread : decodeAt sub location value = .ok schema) :
    Rearranged value (write schema) :=
  h schema (Except.mapError_eq_ok_iff.mp hread)

theorem rearranged_of_decodeEach {index : Nat} {values : List Value} {schemas : List σ}
    (h : decodeEach sub key index values = .ok schemas)
    (hparts : ∀ value ∈ values, Rearranges sub write value) :
    List.Forall₂ Rearranged values (schemas.map write) := by
  induction values generalizing index schemas with
  | nil =>
    cases h
    exact .nil
  | cons value rest ih =>
    obtain ⟨first, hfirst, hnext⟩ := Except.bind_eq_ok_iff.mp h
    obtain ⟨others, hothers, hschemas⟩ := Except.bind_eq_ok_iff.mp hnext
    cases hschemas
    obtain ⟨hvalue, hrest⟩ := List.forall_mem_cons.mp hparts
    exact .cons (hvalue.of_decodeAt hfirst) (ih hothers hrest)

/-- Entries that are read one by one are rearranged one by one. -/
theorem rearranged_of_mapM {τ : Type} {read : String × Value → Except DecodeError τ}
    {written : τ → String × Value} {entries : List (String × Value)} {results : List τ}
    (h : entries.mapM read = .ok results)
    (hentry : ∀ entry ∈ entries, ∀ result, read entry = .ok result →
      RearrangedEntry entry (written result)) :
    List.Forall₂ RearrangedEntry entries (results.map written) := by
  have hread := Except.forall₂_of_mapM h
  clear h
  induction hread with
  | nil => exact .nil
  | cons hfirst _ ih =>
    obtain ⟨hhead, hrest⟩ := List.forall_mem_cons.mp hentry
    exact .cons (hhead _ hfirst) (ih hrest)

section

variable (hparts : ∀ value ∈ document.lookup key, ∀ part, Subdocument key value part →
  Rearranges sub write part)
include hparts

theorem sameKeyword_of_decodeSchema {found : Option σ}
    (h : decodeSchema sub document key = .ok found) (hkey : key ∈ schemaKeywords)
    (hitems : key ≠ "items") :
    SameKeyword key (document.lookup key) (found.map write) := by
  unfold decodeSchema at h
  split at h
  · rename_i hfound
    cases h
    rw [hfound]
    exact .none
  · rename_i value hfound
    obtain ⟨schema, hread, rfl⟩ := Except.map_eq_ok_iff.mp h
    have hvalue := hparts value hfound value (.schema hkey fun heq => absurd heq hitems)
    rw [hfound]
    exact .some (.schema hkey (hvalue.of_decodeAt hread))

theorem sameKeyword_of_decodeList {schemas : Option (List σ)}
    (h : decodeList sub document key = .ok schemas) (hkey : key ∈ listKeywords)
    (hnull : document.lookup key ≠ some .null) :
    SameKeyword key (document.lookup key) ((schemas.map (List.map write)).map .array) := by
  have hkeyword : keyword? document key = document.lookup key := keyword?_of_lookup rfl hnull
  unfold decodeList at h
  rw [hkeyword] at h
  split at h
  · rename_i hfound
    cases h
    rw [hfound]
    exact .none
  · rename_i values hfound
    obtain ⟨read, hread, rfl⟩ := Except.map_eq_ok_iff.mp h
    rw [hfound]
    exact .some (.list hkey (rearranged_of_decodeEach hread fun value hmem =>
      hparts _ hfound value (.list hkey hmem)))
  · cases h

theorem sameKeyword_of_decodeMembers {members : Option (List (String × σ))}
    (h : decodeMembers sub document key = .ok members) (hkey : key ∈ memberKeywords)
    (hnames : key ≠ "dependencies") (hnull : document.lookup key ≠ some .null) :
    SameKeyword key (document.lookup key) ((members.map (mapMembers write)).map .object) := by
  have hkeyword : keyword? document key = document.lookup key := keyword?_of_lookup rfl hnull
  unfold decodeMembers at h
  rw [hkeyword] at h
  split at h
  · rename_i hfound
    cases h
    rw [hfound]
    exact .none
  · rename_i entries hfound
    obtain ⟨read, hread, rfl⟩ := Except.map_eq_ok_iff.mp h
    rw [hfound]
    refine .some (.members hkey (rearranged_of_mapM hread fun entry hmem result hresult => ?_))
    obtain ⟨schema, hschema, hpair⟩ := Except.bind_eq_ok_iff.mp hresult
    cases hpair
    have hentry := hparts _ hfound entry.2 (.members hkey hmem fun heq => absurd heq hnames)
    exact .schema (hentry.of_decodeAt hschema)
  · cases h

end

theorem sameKeyword_of_decodeItems {items : Items σ}
    (h : decodeItems sub document = .ok items)
    (hparts : ∀ value ∈ document.lookup "items", ∀ part, Subdocument "items" value part →
      Rearranges sub write part)
    (hnull : document.lookup "items" ≠ some .null) :
    SameKeyword "items" (document.lookup "items") (encodeItems (items.map write)) := by
  have hkeyword : keyword? document "items" = document.lookup "items" :=
    keyword?_of_lookup rfl hnull
  unfold decodeItems at h
  rw [hkeyword] at h
  split at h
  · rename_i hfound
    cases h
    rw [hfound]
    exact .none
  · rename_i values hfound
    obtain ⟨read, hread, rfl⟩ := Except.map_eq_ok_iff.mp h
    have hkey : "items" ∈ listKeywords := by decide
    rw [hfound]
    exact .some (.list hkey (rearranged_of_decodeEach hread fun value hmem =>
      hparts _ hfound value (.list hkey hmem)))
  · rename_i value hlist hfound
    obtain ⟨read, hread, rfl⟩ := Except.map_eq_ok_iff.mp h
    have hkey : "items" ∈ schemaKeywords := by decide
    have hvalue := hparts value hfound value (.schema hkey fun _ values heq => hlist values heq)
    rw [hfound]
    exact .some (.schema hkey (hvalue.of_decodeAt hread))

theorem sameKeyword_of_decodeDependencies {members : Option (List (String × Dependency σ))}
    (h : decodeDependencies sub document = .ok members)
    (hparts : ∀ value ∈ document.lookup "dependencies", ∀ part,
      Subdocument "dependencies" value part → Rearranges sub write part) :
    SameKeyword "dependencies" (document.lookup "dependencies")
      ((members.map (mapMembers (Dependency.map write))).map fun members =>
        .object (mapMembers encodeDependency members)) := by
  have hkey : "dependencies" ∈ memberKeywords := by decide
  unfold decodeDependencies at h
  split at h
  · rename_i hfound
    cases h
    rw [hfound]
    exact .none
  · rename_i entries hfound
    obtain ⟨read, hread, rfl⟩ := Except.map_eq_ok_iff.mp h
    have hentries : List.Forall₂ RearrangedEntry entries (read.map fun dependency =>
        (dependency.1, encodeDependency (dependency.2.map write))) := by
      apply rearranged_of_mapM hread
      rintro ⟨name, value⟩ hmem result hresult
      unfold decodeDependency at hresult
      split at hresult
      · rename_i values heq
        obtain rfl : value = .array values := heq
        obtain ⟨names, hnames, rfl⟩ := Except.map_eq_ok_iff.mp hresult
        have hvalues : .array values = encodeDependency ((Dependency.requires names).map write) :=
          eq_of_decodeStrings hnames
        rw [← hvalues]
        exact .names name values
      · rename_i hlist
        obtain ⟨schema, hschema, rfl⟩ := Except.map_eq_ok_iff.mp hresult
        have hentry := hparts _ hfound _ (.members hkey hmem fun _ => hlist)
        exact .schema (hentry.of_decodeAt hschema)
    rw [hfound]
    refine .some (.members hkey ?_)
    rw [mapMembers, mapMembers, List.map_map]
    exact hentries
  · cases h

end SubSchemas

/-! ### Members of a node -/

theorem lookup_filter {document : Document} {key : String} {kept : String × Value → Bool}
    (h : ∀ value, kept (key, value) = true) : (document.filter kept).lookup key =
      document.lookup key := by
  induction document with
  | nil => rfl
  | cons member rest ih =>
    obtain ⟨other, value⟩ := member
    by_cases hkey : key = other
    · subst hkey
      rw [List.filter_cons_of_pos (h value), List.lookup_cons_self, List.lookup_cons_self]
    · have hbeq : (key == other) = false := by simpa using hkey
      by_cases hkept : kept (other, value)
      · rw [List.filter_cons_of_pos hkept, List.lookup_cons, List.lookup_cons, hbeq]
        exact ih
      · rw [List.filter_cons_of_neg hkept, List.lookup_cons, hbeq]
        exact ih

theorem names_present_sublist (members : List (String × Option Value)) :
    ((present members).map Prod.fst).Sublist (members.map Prod.fst) := by
  induction members with
  | nil => exact .slnil
  | cons member rest ih =>
    obtain ⟨key, value⟩ := member
    cases value with
    | none => exact ih.cons key
    | some value => exact ih.cons_cons key

section Members

variable {n : Node Value}

/-- A node is written without a name twice if its extra members are. -/
theorem distinct_written (hextras : ∀ member ∈ n.extras, member.1 ∉ keywordNames)
    (hdistinct : Members.Distinct n.extras) : Members.Distinct n.written := by
  have hkeywords : ((present n.keywordValues).map Prod.fst).Nodup :=
    (names_present_sublist _).nodup (n.perm_keywordNames.nodup_iff.mpr nodup_keywordNames)
  unfold Members.Distinct Members.names written
  rw [List.map_append]
  refine List.nodup_append.mpr ⟨hkeywords, hdistinct, ?_⟩
  rintro key hkey other hother rfl
  obtain ⟨member, hmem, rfl⟩ := List.mem_map.mp hother
  exact hextras member hmem
    (n.perm_keywordNames.subset ((names_present_sublist _).subset hkey))

theorem lookup_written_of_notMem {key : String} (hkey : key ∉ keywordNames) :
    n.written.lookup key = n.extras.lookup key := by
  have hnone : (present n.keywordValues).lookup key = none := by
    apply lookup_eq_none_of_notMem
    rintro member hmem rfl
    exact hkey (n.perm_keywordNames.subset (mem_names_of_mem_present hmem))
  rw [written, List.lookup_append, hnone, Option.none_or]

end Members

section Decodes

open Schema (Rearranged SameKeyword)

variable {σ : Type} {sub : Value → Except DecodeError σ} {write : σ → Value} {document : Document}
  {n : Node σ}

/-- Every keyword of a node that was read from a canonical document is written as it was read, if
its sub-schemas are. -/
theorem Decodes.sameKeyword (h : n.Decodes sub document)
    (hform : ∀ member ∈ document, CanonicalForm member.1 member.2)
    (hparts : ∀ member ∈ document, ∀ part, Subdocument member.1 member.2 part →
      Rearranges sub write part) :
    ∀ member ∈ (n.map write).keywordValues,
      SameKeyword member.1 (document.lookup member.1) member.2 := by
  have hform (key : String) : ∀ value ∈ document.lookup key, CanonicalForm key value :=
    fun _ hfound => hform _ (Members.mem_of_lookup hfound)
  have hparts (key : String) : ∀ value ∈ document.lookup key, ∀ part,
      Subdocument key value part → Rearranges sub write part :=
    fun _ hfound => hparts _ (Members.mem_of_lookup hfound)
  have hnull {key : String} (hkey : key ∈ keywordNames ∧ key ≠ "default" ∧ key ≠ "const") :
      document.lookup key ≠ some .null :=
    fun hfound => (hform key _ hfound).notNull hkey.1 hkey.2.1 hkey.2.2 rfl
  have hcount {key : String} (hkey : key ∈ countKeywords) :
      ∀ value ∈ document.lookup key, ∃ n, value = .int n :=
    fun value hfound => (hform key value hfound).count hkey
  have hupper := lookup_of_decodeBounds h.upper (hnull (by decide)) fun value hfound =>
    (hform _ value hfound).exclusive (.inl rfl)
  have hlower := lookup_of_decodeBounds h.lower (hnull (by decide)) fun value hfound =>
    (hform _ value hfound).exclusive (.inr rfl)
  have hexamples := lookup_of_examplesOf fun value hfound =>
    (hform "examples" value hfound).examples rfl
  have huniqueItems := lookup_of_truthy fun value hfound =>
    (hform "uniqueItems" value hfound).uniqueItems rfl
  simp only [keywordValues, List.forall_mem_cons]
  exact ⟨.of_eq (lookup_of_decodeString h.ref (hnull (by decide))),
    .of_eq (lookup_of_decodeType h.type (hform "type")),
    .of_eq (h.title.trans (keyword?_of_lookup rfl (hnull (by decide)))).symm,
    .of_eq (h.description.trans (keyword?_of_lookup rfl (hnull (by decide)))).symm,
    .of_eq h.default.symm,
    .of_eq (hexamples.trans (congrArg (Option.map Value.array) h.examples.symm)),
    sameKeyword_of_decodeMembers (hparts _) h.definitions (by decide) (by decide)
      (hnull (by decide)),
    .of_eq (lookup_of_decodeNumber h.multipleOf (hnull (by decide))),
    .of_eq hupper.1, .of_eq hupper.2, .of_eq hlower.1, .of_eq hlower.2,
    .of_eq (lookup_of_decodeCount h.maxLength (hcount (by decide))),
    .of_eq (lookup_of_decodeCount h.minLength (hcount (by decide))),
    .of_eq (lookup_of_decodeString h.pattern (hnull (by decide))),
    sameKeyword_of_decodeItems h.items (hparts _) (hnull (by decide)),
    sameKeyword_of_decodeSchema (hparts _) h.additionalItems (by decide) (by decide),
    .of_eq (lookup_of_decodeCount h.maxItems (hcount (by decide))),
    .of_eq (lookup_of_decodeCount h.minItems (hcount (by decide))),
    .of_eq (h.uniqueItems ▸ huniqueItems),
    sameKeyword_of_decodeSchema (hparts _) h.contains (by decide) (by decide),
    .of_eq (lookup_of_decodeCount h.maxProperties (hcount (by decide))),
    .of_eq (lookup_of_decodeCount h.minProperties (hcount (by decide))),
    .of_eq (lookup_of_decodeRequired h.required),
    sameKeyword_of_decodeMembers (hparts _) h.properties (by decide) (by decide)
      (hnull (by decide)),
    sameKeyword_of_decodeMembers (hparts _) h.patternProperties (by decide) (by decide)
      (hnull (by decide)),
    sameKeyword_of_decodeSchema (hparts _) h.additionalProperties (by decide) (by decide),
    sameKeyword_of_decodeSchema (hparts _) h.propertyNames (by decide) (by decide),
    sameKeyword_of_decodeDependencies h.dependencies (hparts _),
    .of_eq (lookup_of_decodeEnum h.enum (hnull (by decide))),
    .of_eq h.const.symm,
    sameKeyword_of_decodeList (hparts _) h.allOf (by decide) (hnull (by decide)),
    sameKeyword_of_decodeList (hparts _) h.anyOf (by decide) (hnull (by decide)),
    sameKeyword_of_decodeList (hparts _) h.oneOf (by decide) (hnull (by decide)),
    List.forall_mem_nil _⟩

/-- A node that was read from a canonical document is written as that document. -/
theorem Decodes.rearranged (h : n.Decodes sub document) (hdistinct : Members.Distinct document)
    (hform : ∀ member ∈ document, CanonicalForm member.1 member.2)
    (hparts : ∀ member ∈ document, ∀ part, Subdocument member.1 member.2 part →
      Rearranges sub write part) :
    Rearranged (.object document) (.object (n.map write).written) := by
  have hfilter : (n.map write).extras =
      document.filter fun member => !keywordNames.contains member.1 := h.extras
  have hextras : ∀ member ∈ (n.map write).extras, member.1 ∉ keywordNames := h.regular.extras
  have hwritten : Members.Distinct (n.map write).written := by
    apply distinct_written hextras
    rw [hfilter]
    exact (List.filter_sublist.map Prod.fst).nodup hdistinct
  refine Schema.rearranged_of_lookup hdistinct hwritten fun key => ?_
  by_cases hkey : key ∈ keywordNames
  · obtain ⟨member, hmem, rfl⟩ := List.mem_map.mp ((n.map write).perm_keywordNames.symm.subset hkey)
    rw [lookup_written hextras hmem]
    exact h.sameKeyword hform hparts member hmem
  · rw [lookup_written_of_notMem hkey, hfilter, lookup_filter fun _ => by simpa using hkey]
    exact .of_eq rfl

end Decodes

theorem Subdocument.wellFormed {key : String} {value part : Value} (h : Subdocument key value part)
    (hvalue : value.WellFormed) : part.WellFormed := by
  cases h with
  | schema => exact hvalue
  | list _ hmem => exact Value.wellFormed_array_iff.mp hvalue part hmem
  | members _ hmem _ => exact (Value.wellFormed_object_iff.mp hvalue).2 _ hmem

end Node

namespace Schema

open Node

/-! ### Whole documents -/

theorem rearranged_of_decodeWithin {levels : Nat} {document : Value} {schema : Schema}
    (h : decodeWithin levels document = .ok schema) (hcanonical : Canonical document)
    (hwell : document.WellFormed) : Rearranged document schema.encode := by
  induction levels generalizing document schema with
  | zero =>
    cases hcanonical with
    | bool accepted =>
      cases h
      rw [encode_always]
      exact .bool accepted
    | object => cases h
  | succ levels ih =>
    cases hcanonical with
    | bool accepted =>
      cases h
      rw [encode_always]
      exact .bool accepted
    | object hform hparts =>
      obtain ⟨n, hn, rfl⟩ := Except.map_eq_ok_iff.mp h
      obtain ⟨hdistinct, hvalues⟩ := Value.wellFormed_object_iff.mp hwell
      rw [encode_node]
      refine (decode_eq_ok_iff.mp hn).rearranged hdistinct hform fun member hmem part hpart => ?_
      intro child hchild
      exact ih hchild (hparts member hmem part hpart) (hpart.wellFormed (hvalues member hmem))

/-- What is read from a canonical document is written as that document, up to the order of the
keywords in each of its schemas. -/
theorem encode_of_canonical {document : Value} {schema : Schema} (hcanonical : Canonical document)
    (hwell : document.WellFormed) (h : decode document = .ok schema) :
    Rearranged document schema.encode :=
  rearranged_of_decodeWithin h hcanonical hwell

def hollowDocument : Value := .object [
  ("unit", .null),
  ("const", .null),
  ("properties", .object [("b", .object [("minimum", .int 0), ("type", .array [])]),
    ("a", .bool false)]),
  ("items", .array []),
  ("uniqueItems", .bool true),
  ("title", .string "")]

def hollowSchema : Schema := .node {
  extras := [("unit", .null)]
  const := some .null
  properties := some [("b", .node { minimum := some (.int 0), type := .union [] }),
    ("a", .always false)]
  items := .positional []
  uniqueItems := true
  title := some (.string "") }

theorem encode_of_canonical_hollowDocument :
    decode hollowDocument = .ok hollowSchema ∧ Rearranged hollowDocument hollowSchema.encode := by
  have hread : decode hollowDocument = .ok hollowSchema := by rfl
  have hinner : Canonical (.object [("minimum", .int 0), ("type", .array [])]) := by
    refine .object ?_ ?_ <;> simp only [List.forall_mem_cons]
    · refine ⟨?_, ?_, nofun⟩ <;> constructor <;> simp [countKeywords, Value.int]
    · refine ⟨?_, ?_, nofun⟩ <;> rintro _ (_ | _ | _) <;> simp_all [schemaKeywords]
  have hcanonical : Canonical hollowDocument := by
    refine .object ?_ ?_ <;> simp only [List.forall_mem_cons]
    · refine ⟨?_, ?_, ?_, ?_, ?_, ?_, nofun⟩ <;> constructor <;> simp [keywordNames, countKeywords]
    · refine ⟨?_, ?_, ?_, ?_, ?_, ?_, nofun⟩ <;> rintro _ (_ | _ | ⟨-, hmem, -⟩) <;>
        simp_all [schemaKeywords, listKeywords]
      rcases hmem with rfl | rfl
      · exact hinner
      · exact .bool false
  have hwell : hollowDocument.WellFormed := by
    simp [hollowDocument, Value.WellFormed, Value.WellFormedMembers, Value.WellFormedItems,
      Members.Distinct, Members.names, Value.int]
  exact ⟨hread, encode_of_canonical hcanonical hwell hread⟩

end Schema

end JsonSchema
