import JsonSchema.Proofs.Alike
import JsonSchema.Proofs.Reordered

/-!
# The order in which a schema is written

Reading two reordered documents fails for both or leads to schemas that are alike, keyword by keyword
(`Node.agree_decode`). To be read from reordered documents is a likeness of schemas, so two such
schemas come to the same verdicts (`Schema.isValid_eq_of_reordered`), although the first violation
that is found may be another one.
-/

namespace JsonSchema

open Except (Agree)

open Node (Document)

open Schema (Reordered)

attribute [ext] NumberLimits StringLimits ArrayLimits

namespace Node

structure ReorderedDocuments (document other : Document) : Prop where
  lookup : ∀ key, Option.Rel (fun value value' => KeywordReordered Reordered (key, value) (key, value'))
    (document.lookup key) (other.lookup key)
  left : (Value.object document).WellFormed
  right : (Value.object other).WellFormed

theorem exists_of_reordered {document : Document} {value : Value}
    (h : Reordered (.object document) value) (hdocument : (Value.object document).WellFormed)
    (hvalue : value.WellFormed) : ∃ other, value = .object other ∧ ReorderedDocuments document other := by
  cases h with
  | same =>
    refine ⟨document, rfl, fun key => ?_, hdocument, hvalue⟩
    cases document.lookup key with
    | none => exact .none
    | some value => exact .some (.same (key, value))
  | @object _ aligned other hkeywords horder =>
    have hdistinct := (Value.wellFormed_object_iff.mp hvalue).1
    exact ⟨other, rfl, Members.rel_lookup_of_matched (fun _ _ => KeywordReordered.name)
      ⟨aligned, hkeywords, horder⟩ hdistinct, hdocument, hvalue⟩

/-! ### Lists of names -/

theorem stringsOf?_eq_some_iff {values : List Value} {texts : List String} :
    stringsOf? values = some texts ↔
      List.Forall₂ (fun value text => value = .string text) values texts := by
  constructor
  · intro h
    rw [eq_of_stringsOf? h, List.forall₂_map_left_iff]
    exact List.forall₂_same.mpr fun _ _ => rfl
  · intro h
    induction h with
    | nil => rfl
    | cons hvalue _ ih => rw [hvalue, stringsOf?, ih, Option.map_some]

theorem exists_stringsOf?_of_perm {values others : List Value} {texts : List String}
    (horder : values.Perm others) (h : stringsOf? values = some texts) :
    ∃ texts', stringsOf? others = some texts' ∧ texts.Perm texts' := by
  obtain ⟨texts', hothers, hperm⟩ :=
    List.perm_comp_forall₂ horder.symm (stringsOf?_eq_some_iff.mp h)
  exact ⟨texts', stringsOf?_eq_some_iff.mpr hothers, hperm.symm⟩

/-- Lists of names in another order are read as such, or both are none. -/
theorem agree_decodeStrings {values others : List Value} (horder : values.Perm others)
    (location location' : List String) :
    Agree List.Perm (decodeStrings location (.array values))
      (decodeStrings location' (.array others)) := by
  cases hvalues : stringsOf? values with
  | some texts =>
    obtain ⟨texts', hothers, hperm⟩ := exists_stringsOf?_of_perm horder hvalues
    simp only [decodeStrings, hvalues, hothers]
    exact .ok hperm
  | none =>
    cases hothers : stringsOf? others with
    | some texts =>
      obtain ⟨texts', hfound, -⟩ := exists_stringsOf?_of_perm horder.symm hothers
      rw [hvalues] at hfound
      cases hfound
    | none =>
      simp only [decodeStrings, hvalues, hothers]
      exact .error _ _

section Reading

variable {σ τ : Type} {R : σ → τ → Prop} {sub : Value → Except DecodeError σ}
  {sub' : Value → Except DecodeError τ} {document other : Document}

namespace ReorderedDocuments

variable (h : ReorderedDocuments document other)
include h

theorem wellFormed_left {key : String} {value : Value} (hfound : document.lookup key = some value) :
    value.WellFormed :=
  (Value.wellFormed_object_iff.mp h.left).2 _ (Members.mem_of_lookup hfound)

theorem wellFormed_right {key : String} {value : Value} (hfound : other.lookup key = some value) :
    value.WellFormed :=
  (Value.wellFormed_object_iff.mp h.right).2 _ (Members.mem_of_lookup hfound)

/-- The values under a keyword, with what is known about them. -/
theorem rel_lookup (key : String) :
    Option.Rel (fun value value' => KeywordReordered Reordered (key, value) (key, value') ∧
      value.WellFormed ∧ value'.WellFormed) (document.lookup key) (other.lookup key) := by
  have hrel := h.lookup key
  have hleft := @wellFormed_left _ _ h key
  have hright := @wellFormed_right _ _ h key
  generalize document.lookup key = found at hrel hleft ⊢
  generalize other.lookup key = found' at hrel hright ⊢
  cases hrel with
  | none => exact .none
  | some hvalue => exact .some ⟨hvalue, hleft rfl, hright rfl⟩

theorem rel_keyword? (key : String) :
    Option.Rel (fun value value' => KeywordReordered Reordered (key, value) (key, value') ∧
      value.WellFormed ∧ value'.WellFormed) (keyword? document key) (keyword? other key) := by
  have hrel := h.rel_lookup key
  cases hfound : document.lookup key <;> cases hfound' : other.lookup key <;>
    rw [hfound, hfound'] at hrel <;> cases hrel
  case none.none =>
    rw [keyword?_of_lookup hfound nofun, keyword?_of_lookup hfound' nofun]
    exact .none
  case some.some value value' hvalue =>
    by_cases hnull : value = .null
    · have hnull' := hvalue.1.null_iff.mp hnull
      subst hnull hnull'
      rw [keyword?, keyword?, hfound, hfound']
      exact .none
    · have hnull' : value' ≠ .null := fun heq => hnull (hvalue.1.null_iff.mpr heq)
      rw [keyword?_of_lookup hfound (by simpa using hnull),
        keyword?_of_lookup hfound' (by simpa using hnull')]
      exact .some hvalue

/-- Most keywords have the same value in both documents. -/
theorem lookup_eq {key : String} (hkey : key ∉ unorderedKeywords) :
    document.lookup key = other.lookup key := by
  have hrel := h.lookup key
  generalize document.lookup key = found at hrel ⊢
  generalize other.lookup key = found' at hrel ⊢
  cases hrel with
  | none => rfl
  | some hvalue => rw [hvalue.eq_of_notMem hkey]

theorem keyword?_eq {key : String} (hkey : key ∉ unorderedKeywords) :
    keyword? document key = keyword? other key := by
  rw [keyword?, keyword?, h.lookup_eq hkey]

/-! ### Fields without sub-schemas -/

theorem decodeNumber_eq {key : String} (hkey : key ∉ unorderedKeywords) :
    decodeNumber document key = decodeNumber other key := by
  rw [decodeNumber, decodeNumber, h.keyword?_eq hkey]

theorem decodeCount_eq {key : String} (hkey : key ∉ unorderedKeywords) :
    decodeCount document key = decodeCount other key := by
  rw [decodeCount, decodeCount, h.keyword?_eq hkey]

theorem decodeString_eq {key : String} (hkey : key ∉ unorderedKeywords) :
    decodeString document key = decodeString other key := by
  rw [decodeString, decodeString, h.keyword?_eq hkey]

theorem decodeBounds_eq {key exclusiveKey : String} (hkey : key ∉ unorderedKeywords)
    (hexclusive : exclusiveKey ∉ unorderedKeywords) :
    decodeBounds document key exclusiveKey = decodeBounds other key exclusiveKey := by
  rw [decodeBounds, decodeBounds, h.decodeNumber_eq hkey, h.decodeNumber_eq hexclusive,
    h.lookup_eq hexclusive]

omit h in
theorem agree_ofValue_of_perm {names others : List Value} (horder : names.Perm others) :
    Agree (fun spec spec' => ∀ value, spec.accepts value = spec'.accepts value)
      (TypeSpec.ofValue (.array names)) (TypeSpec.ofValue (.array others)) := by
  refine (Agree.mapM_perm horder).map fun primitives primitives' hperm value => ?_
  rw [TypeSpec.accepts_ofPrimitives, TypeSpec.accepts_ofPrimitives, hperm.any_eq]

theorem agree_decodeType :
    Agree (fun spec spec' => ∀ value, spec.accepts value = spec'.accepts value)
      (decodeType document) (decodeType other) := by
  have hrel := h.rel_keyword? "type"
  unfold decodeType
  generalize keyword? document "type" = found at hrel ⊢
  generalize keyword? other "type" = found' at hrel ⊢
  cases hrel with
  | none => exact .ok fun _ => rfl
  | some hvalue =>
    rcases hvalue.1.eq_or_perm (by decide) with rfl | ⟨names, others, rfl, rfl, horder⟩
    · exact ((Agree.of_eq rfl).imp fun _ _ heq _ => by rw [heq]).mapError _ _
    · exact (agree_ofValue_of_perm horder).mapError _ _

theorem agree_decodeEnum :
    Agree (Option.Rel List.Perm) (decodeEnum document) (decodeEnum other) := by
  have hrel := h.rel_keyword? "enum"
  unfold decodeEnum
  generalize keyword? document "enum" = found at hrel ⊢
  generalize keyword? other "enum" = found' at hrel ⊢
  cases hrel with
  | none => exact .ok .none
  | @some value _ hvalue =>
    rcases hvalue.1.eq_or_perm (by decide) with rfl | ⟨choices, others, rfl, rfl, horder⟩
    · cases value with
      | array choices => exact .ok (.some (.refl choices))
      | _ => exact .error _ _
    · exact .ok (.some horder)

theorem agree_decodeRequired :
    Agree (Option.Rel List.Perm) (decodeRequired document) (decodeRequired other) := by
  have hrel := h.rel_lookup "required"
  unfold decodeRequired
  generalize document.lookup "required" = found at hrel ⊢
  generalize other.lookup "required" = found' at hrel ⊢
  cases hrel with
  | none => exact .ok .none
  | some hvalue =>
    rcases hvalue.1.eq_or_perm (by decide) with rfl | ⟨names, others, rfl, rfl, horder⟩
    · exact (Agree.of_eq rfl).map fun names _ heq => heq ▸ .some (.refl names)
    · exact (agree_decodeStrings horder _ _).map fun _ _ => .some

end ReorderedDocuments

/-! ### Fields with sub-schemas -/

theorem agree_decodeAt {value value' : Value} (h : Agree R (sub value) (sub' value'))
    (location location' : List String) :
    Agree R (decodeAt sub location value) (decodeAt sub' location' value') :=
  h.mapError _ _

/-- The indices in a list count for nothing but the places of failures. -/
theorem agree_decodeEach_mapM (key : String) (index : Nat) (values : List Value) :
    Agree Eq (decodeEach sub key index values) (values.mapM sub) := by
  induction values generalizing index with
  | nil => exact .ok rfl
  | cons value rest ih =>
    rw [decodeEach, List.mapM_cons]
    have hvalue : Agree Eq (decodeAt sub [key, Pointer.ofIndex index] value) (sub value) := by
      unfold decodeAt
      cases sub value with
      | ok schema => exact .ok rfl
      | error error => exact .error _ _
    exact hvalue.bind fun _ _ hschema => (ih (index + 1)).bind fun _ _ hrest =>
      .ok (by rw [hschema, hrest])

theorem agree_decodeEach {S : List σ → List τ → Prop} {values others : List Value}
    (h : Agree S (values.mapM sub) (others.mapM sub')) (key key' : String) (index index' : Nat) :
    Agree S (decodeEach sub key index values) (decodeEach sub' key' index' others) := by
  have hleft := (agree_decodeEach_mapM key index values).trans h fun _ _ _ heq hs => heq ▸ hs
  exact hleft.trans (agree_decodeEach_mapM key' index' others).symm fun _ _ _ hs heq => heq ▸ hs

theorem names_eq_of_mapM {f : String × Value → Except DecodeError (String × σ)}
    {entries : List (String × Value)} {read : List (String × σ)}
    (hname : ∀ entry result, f entry = .ok result → result.1 = entry.1)
    (h : entries.mapM f = .ok read) : Members.names read = Members.names entries := by
  have hread := Except.forall₂_of_mapM h
  clear h
  induction hread with
  | nil => rfl
  | cons hfirst _ ih =>
    rw [Members.names, List.map_cons, hname _ _ hfirst]
    exact congrArg _ ih

theorem name_eq_of_decodeMember {key : String} {entry : String × Value} {result : String × σ}
    (h : decodeMember sub key entry = .ok result) : result.1 = entry.1 := by
  obtain ⟨schema, -, hresult⟩ := Except.bind_eq_ok_iff.mp h
  cases hresult
  rfl

theorem name_eq_of_decodeDependency {entry : String × Value} {result : String × Dependency σ}
    (h : decodeDependency sub entry = .ok result) : result.1 = entry.1 := by
  unfold decodeDependency at h
  split at h
  · obtain ⟨names, -, rfl⟩ := Except.map_eq_ok_iff.mp h
    rfl
  · obtain ⟨schema, -, rfl⟩ := Except.map_eq_ok_iff.mp h
    rfl

theorem decodeDependency_of_ne_array {name : String} {value : Value}
    (h : ∀ values, value ≠ .array values) :
    decodeDependency sub (name, value) =
      (decodeAt sub ["dependencies", name] value).map fun schema => (name, .conforms schema) := by
  unfold decodeDependency
  split
  · rename_i heq
    exact absurd heq (h _)
  · rfl

/-- Members that are read one by one from matched entries are alike. -/
theorem agree_mapM_members {σ τ : Type} {R : σ → τ → Prop}
    {f : String × Value → Except DecodeError (String × σ)}
    {g : String × Value → Except DecodeError (String × τ)} {entries others : List (String × Value)}
    (h : Matched (fun entry other => Agree (SameName R) (f entry) (g other)) entries others)
    (hname : ∀ entry result, g entry = .ok result → result.1 = entry.1)
    (hothers : Members.Distinct others) :
    Agree (Members.Alike R) (entries.mapM f) (others.mapM g) := by
  refine (Agree.mapM h).results.imp fun read read' hread => ⟨hread.1, ?_⟩
  rw [Members.Distinct, names_eq_of_mapM hname hread.2.2]
  exact hothers

variable (h : ReorderedDocuments document other)
  (hsub : ∀ value value', Reordered value value' → value.WellFormed → value'.WellFormed →
    Agree R (sub value) (sub' value'))
include h hsub

theorem agree_decodeMembers {key : String} (hkey : key ∈ memberKeywords)
    (hnames : key ≠ "dependencies") :
    Agree (fun members members' => Members.Alike R (members.getD []) (members'.getD []))
      (decodeMembers sub document key) (decodeMembers sub' other key) := by
  have hrel := h.rel_keyword? key
  unfold decodeMembers
  generalize keyword? document key = found at hrel ⊢
  generalize keyword? other key = found' at hrel ⊢
  cases hrel with
  | none => exact .ok ⟨.nil, List.nodup_nil⟩
  | @some value _ hvalue =>
    obtain ⟨hvalue, hleft, hright⟩ := hvalue
    rcases hvalue.matchedMembers_or_eq hkey hnames with
      ⟨entries, others, rfl, rfl, hmatched⟩ | ⟨rfl, hobject⟩
    · obtain ⟨-, hentries⟩ := Value.wellFormed_object_iff.mp hleft
      obtain ⟨hdistinct, hothers⟩ := Value.wellFormed_object_iff.mp hright
      refine (agree_mapM_members (hmatched.imp ?_) (fun _ _ => name_eq_of_decodeMember)
        hdistinct).map fun _ _ halike => halike
      rintro _ hentry _ hother ⟨hreordered⟩
      have hpart := hsub _ _ hreordered (hentries _ hentry) (hothers _ hother)
      exact (agree_decodeAt hpart _ _).bind fun _ _ hrelated => .ok (.mk hrelated)
    · cases value with
      | object entries => exact absurd rfl (hobject entries)
      | _ => exact .error _ _

theorem agree_decodeList {key : String} (hkey : key ∈ branchKeywords) :
    Agree (Option.Rel (Matched R)) (decodeList sub document key) (decodeList sub' other key) := by
  have hrel := h.rel_keyword? key
  unfold decodeList
  generalize keyword? document key = found at hrel ⊢
  generalize keyword? other key = found' at hrel ⊢
  cases hrel with
  | none => exact .ok .none
  | @some value _ hvalue =>
    obtain ⟨hvalue, hleft, hright⟩ := hvalue
    rcases hvalue.matched_or_eq hkey with ⟨values, others, rfl, rfl, hmatched⟩ | ⟨rfl, hlist⟩
    · have hparts := hmatched.imp fun part hpart part' hpart' hreordered =>
        hsub part part' hreordered (Value.wellFormed_array_iff.mp hleft part hpart)
          (Value.wellFormed_array_iff.mp hright part' hpart')
      exact (agree_decodeEach (Agree.mapM hparts) _ _ _ _).map fun _ _ => .some
    · cases value with
      | array values => exact absurd rfl (hlist values)
      | _ => exact .error _ _

theorem agree_decodeSchema {key : String} (hkey : key ∈ schemaKeywords) (hitems : key ≠ "items") :
    Agree (Option.Rel R) (decodeSchema sub document key) (decodeSchema sub' other key) := by
  have hrel := h.rel_lookup key
  unfold decodeSchema
  generalize document.lookup key = found at hrel ⊢
  generalize other.lookup key = found' at hrel ⊢
  cases hrel with
  | none => exact .ok .none
  | some hvalue =>
    obtain ⟨hvalue, hleft, hright⟩ := hvalue
    have hpart := hsub _ _ (hvalue.reordered hkey hitems) hleft hright
    exact (agree_decodeAt hpart _ _).map fun _ _ => .some

theorem agree_decodeItems :
    Agree (Items.Alike R) (decodeItems sub document) (decodeItems sub' other) := by
  have hrel := h.rel_keyword? "items"
  unfold decodeItems
  generalize keyword? document "items" = found at hrel ⊢
  generalize keyword? other "items" = found' at hrel ⊢
  cases hrel with
  | none => exact .ok .unconstrained
  | @some value value' hvalue =>
    obtain ⟨hvalue, hleft, hright⟩ := hvalue
    rcases hvalue.items_or_reordered rfl with
      ⟨values, others, rfl, rfl, hall⟩ | ⟨hreordered, hlist, hlist'⟩
    · have hparts := forall₂_imp_of_mem hall fun part hpart part' hpart' hreordered =>
        hsub part part' hreordered (Value.wellFormed_array_iff.mp hleft part hpart)
          (Value.wellFormed_array_iff.mp hright part' hpart')
      exact (agree_decodeEach (Agree.mapM_forall₂ hparts) _ _ _ _).map fun _ _ => .positional
    · have hpart := agree_decodeAt (hsub _ _ hreordered hleft hright) ["items"] ["items"]
      split
      · contradiction
      · rename_i heq
        exact absurd (Option.some.inj heq) (hlist _)
      · rename_i heq
        cases heq
        exact hpart.map fun _ _ => .uniform

omit h in
/-- Two lists of names, or two schemas; a list of names is no schema for both. -/
theorem agree_decodeDependency {entry entry' : String × Value}
    (hentry : DependencyReordered Reordered entry entry') (hleft : entry.2.WellFormed)
    (hright : entry'.2.WellFormed) :
    Agree (SameName (Dependency.Alike R)) (decodeDependency sub entry)
      (decodeDependency sub' entry') := by
  cases hentry with
  | names horder =>
    exact (agree_decodeStrings horder _ _).map fun _ _ hperm => .mk (.requires hperm)
  | @schema name value value' hreordered =>
    -- no reordering leads from a list to a schema that is none, so both are read in the same way
    by_cases hlist : ∃ values, value = .array values
    · obtain ⟨values, rfl⟩ := hlist
      cases hreordered.eq_of_array_left
      exact (agree_decodeStrings (.refl values) _ _).map fun _ _ hperm => .mk (.requires hperm)
    · have hlist' : ¬ ∃ values, value' = .array values := by
        rintro ⟨values, rfl⟩
        exact hlist ⟨values, hreordered.eq_of_array_right⟩
      rw [decodeDependency_of_ne_array (not_exists.mp hlist),
        decodeDependency_of_ne_array (not_exists.mp hlist')]
      have hpart := hsub value value' hreordered hleft hright
      exact (agree_decodeAt hpart _ _).map fun _ _ hrelated => .mk (.conforms hrelated)

theorem agree_decodeDependencies :
    Agree (fun members members' =>
        Members.Alike (Dependency.Alike R) (members.getD []) (members'.getD []))
      (decodeDependencies sub document) (decodeDependencies sub' other) := by
  have hrel := h.rel_lookup "dependencies"
  unfold decodeDependencies
  generalize document.lookup "dependencies" = found at hrel ⊢
  generalize other.lookup "dependencies" = found' at hrel ⊢
  cases hrel with
  | none => exact .ok ⟨.nil, List.nodup_nil⟩
  | @some value _ hvalue =>
    obtain ⟨hvalue, hleft, hright⟩ := hvalue
    rcases hvalue.matchedDependencies_or_eq rfl with
      ⟨entries, others, rfl, rfl, hmatched⟩ | ⟨rfl, hobject⟩
    · obtain ⟨-, hentries⟩ := Value.wellFormed_object_iff.mp hleft
      obtain ⟨hdistinct, hothers⟩ := Value.wellFormed_object_iff.mp hright
      refine (agree_mapM_members (hmatched.imp ?_) (fun _ _ => name_eq_of_decodeDependency)
        hdistinct).map fun _ _ halike => halike
      intro entry hentry entry' hentry' hreordered
      exact agree_decodeDependency hsub hreordered (hentries entry hentry) (hothers entry' hentry')
    · cases value with
      | object entries => exact absurd rfl (hobject entries)
      | _ => exact .error _ _

/-- Reordered documents of a node are both refused, or are read as nodes that are alike. -/
theorem agree_decode : Agree (Node.Alike R) (decode sub document) (decode sub' other) :=
  h.agree_decodeType.bind fun _ _ htype =>
  (Agree.of_eq (h.decodeString_eq (by decide))).bind fun _ _ href =>
  (agree_decodeItems h hsub).bind fun _ _ hitems =>
  (Agree.of_eq (h.decodeString_eq (by decide))).bind fun _ _ hpattern =>
  h.agree_decodeEnum.bind fun _ _ henum =>
  h.agree_decodeRequired.bind fun _ _ hrequired =>
  (agree_decodeDependencies h hsub).bind fun _ _ hdependencies =>
  (Agree.of_eq (h.decodeBounds_eq (by decide) (by decide))).bind fun _ _ hupper =>
  (Agree.of_eq (h.decodeBounds_eq (by decide) (by decide))).bind fun _ _ hlower =>
  (agree_decodeMembers h hsub (by decide) (by decide)).bind fun _ _ hdefinitions =>
  (Agree.of_eq (h.decodeNumber_eq (by decide))).bind fun _ _ hmultipleOf =>
  (Agree.of_eq (h.decodeCount_eq (by decide))).bind fun _ _ hmaxLength =>
  (Agree.of_eq (h.decodeCount_eq (by decide))).bind fun _ _ hminLength =>
  (agree_decodeSchema h hsub (by decide) (by decide)).bind fun _ _ hadditionalItems =>
  (Agree.of_eq (h.decodeCount_eq (by decide))).bind fun _ _ hmaxItems =>
  (Agree.of_eq (h.decodeCount_eq (by decide))).bind fun _ _ hminItems =>
  (agree_decodeSchema h hsub (by decide) (by decide)).bind fun _ _ hcontains =>
  (Agree.of_eq (h.decodeCount_eq (by decide))).bind fun _ _ hmaxProperties =>
  (Agree.of_eq (h.decodeCount_eq (by decide))).bind fun _ _ hminProperties =>
  (agree_decodeMembers h hsub (by decide) (by decide)).bind fun _ _ hproperties =>
  (agree_decodeMembers h hsub (by decide) (by decide)).bind fun _ _ hpatternProperties =>
  (agree_decodeSchema h hsub (by decide) (by decide)).bind fun _ _ hadditionalProperties =>
  (agree_decodeSchema h hsub (by decide) (by decide)).bind fun _ _ hpropertyNames =>
  (agree_decodeList h hsub (by decide)).bind fun _ _ hallOf =>
  (agree_decodeList h hsub (by decide)).bind fun _ _ hanyOf =>
  (agree_decodeList h hsub (by decide)).bind fun _ _ honeOf => by
    obtain ⟨hmaximum, hexclusiveMaximum⟩ := Prod.ext_iff.mp hupper
    obtain ⟨hminimum, hexclusiveMinimum⟩ := Prod.ext_iff.mp hlower
    have huniqueItems : document.lookup "uniqueItems" = other.lookup "uniqueItems" :=
      h.lookup_eq (by decide)
    have hconst : document.lookup "const" = other.lookup "const" := h.lookup_eq (by decide)
    refine .ok ⟨htype, href, henum, hconst, ?_, ?_, ?_, hmaxProperties, hminProperties, hrequired,
      hdefinitions, hitems, hadditionalItems, hcontains, hproperties, hpatternProperties,
      hadditionalProperties, hpropertyNames, hdependencies, hallOf, hanyOf, honeOf⟩
    · exact NumberLimits.ext hmultipleOf hmaximum hexclusiveMaximum hminimum hexclusiveMinimum
    · exact StringLimits.ext hmaxLength hminLength hpattern
    · exact ArrayLimits.ext hmaxItems hminItems (by rw [huniqueItems])

end Reading

end Node

namespace Schema

def ReadAlike (schema other : Schema) : Prop :=
  ∃ document document', Reordered document document' ∧ document.WellFormed ∧
    document'.WellFormed ∧ decode document = .ok schema ∧ decode document' = .ok other

/-- By induction on the levels, reordered documents are both refused or are both read. -/
theorem agree_decodeWithin {levels : Nat} {document document' : Value}
    (h : Reordered document document') (hleft : document.WellFormed)
    (hright : document'.WellFormed) :
    Agree (fun _ _ => True) (decodeWithin levels document) (decodeWithin levels document') := by
  induction levels generalizing document document' with
  | zero =>
    cases h with
    | same => exact (Agree.of_eq rfl).imp fun _ _ _ => trivial
    | object => exact .error _ _
  | succ levels ih =>
    cases document with
    | object members =>
      obtain ⟨other, rfl, hdocuments⟩ := Node.exists_of_reordered h hleft hright
      exact (Node.agree_decode hdocuments fun _ _ => ih).map fun _ _ _ => trivial
    | _ =>
      cases h
      exact (Agree.of_eq rfl).imp fun _ _ _ => trivial

theorem agree_decode {document document' : Value} (h : Reordered document document')
    (hleft : document.WellFormed) (hright : document'.WellFormed) :
    Agree ReadAlike (decode document) (decode document') := by
  have hlevels : decode document = decodeWithin (max document.depth document'.depth) document :=
    decodeWithin_of_depth_le (Nat.le_refl _) (Nat.le_max_left _ _)
  have hlevels' : decode document' = decodeWithin (max document.depth document'.depth) document' :=
    decodeWithin_of_depth_le (Nat.le_refl _) (Nat.le_max_right _ _)
  have hread : Agree (fun _ _ => True) (decode document) (decode document') := by
    rw [hlevels, hlevels']
    exact agree_decodeWithin h hleft hright
  exact hread.results.imp fun schema other hresults =>
    ⟨document, document', h, hleft, hright, hresults.2⟩

theorem likeness_readAlike : Likeness ReadAlike := by
  rintro schema other ⟨document, document', h, hleft, hright, hschema, hother⟩
  cases document with
  | bool accepted =>
    cases h
    cases hschema
    cases hother
    exact .always accepted
  | object members =>
    obtain ⟨members', rfl, hdocuments⟩ := Node.exists_of_reordered h hleft hright
    rw [decode_object] at hschema hother
    obtain ⟨n, hn, rfl⟩ := Except.map_eq_ok_iff.mp hschema
    obtain ⟨n', hn', rfl⟩ := Except.map_eq_ok_iff.mp hother
    have hnodes := Node.agree_decode hdocuments fun _ _ => agree_decode
    rw [hn, hn'] at hnodes
    exact .node hnodes.rel
  | _ => cases hschema

/-- The order in which a schema is written does not count: of two reordered documents both are schemas
or none is, and where validations by the two schemas come to verdicts, these are the same, also where
references lead in cycles. -/
theorem isValid_eq_of_reordered {document document' : Value} (h : Reordered document document')
    (hleft : document.WellFormed) (hright : document'.WellFormed) :
    ((∃ schema, decode document = .ok schema) ↔ ∃ schema, decode document' = .ok schema) ∧
    ∀ schema schema', decode document = .ok schema → decode document' = .ok schema' →
      ∀ value verdict verdict', schema.isValid schema value = .ok verdict →
        schema'.isValid schema' value = .ok verdict' → verdict = verdict' := by
  have hagree := agree_decode h hleft hright
  refine ⟨hagree.isOk_iff, fun schema schema' hschema hschema' value verdict verdict' => ?_⟩
  rw [hschema, hschema'] at hagree
  exact isValid_eq_of_likeness likeness_readAlike hagree.rel hagree.rel

def nestedNames : Value := .object [
  ("definitions", .object [
    ("list", .object [("type", .array [.string "array", .string "null"]),
      ("items", .object [("$ref", .string "#/definitions/list")])]),
    ("name", .object [("enum", .array [.string "A", .string "B"])])]),
  ("oneOf", .array [.object [("$ref", .string "#/definitions/list")],
    .object [("$ref", .string "#/definitions/name")]])]

def shuffledNames : Value := .object [
  ("oneOf", .array [.object [("$ref", .string "#/definitions/name")],
    .object [("$ref", .string "#/definitions/list")]]),
  ("definitions", .object [
    ("name", .object [("enum", .array [.string "B", .string "A"])]),
    ("list", .object [("items", .object [("$ref", .string "#/definitions/list")]),
      ("type", .array [.string "null", .string "array"])])])]

theorem reordered_shuffledNames : Reordered nestedNames shuffledNames := by
  have hlist : Reordered
      (.object [("type", .array [.string "array", .string "null"]),
        ("items", .object [("$ref", .string "#/definitions/list")])])
      (.object [("items", .object [("$ref", .string "#/definitions/list")]),
        ("type", .array [.string "null", .string "array"])]) :=
    .object (.cons (.choices (by decide) (.swap _ _ [])) (.cons (.same _) .nil)) (.swap _ _ [])
  have hname : Reordered (.object [("enum", .array [.string "A", .string "B"])])
      (.object [("enum", .array [.string "B", .string "A"])]) :=
    .object (.cons (.choices (by decide) (.swap _ _ [])) .nil) (.refl _)
  exact .object (.cons (.members (by decide) (by decide) (.cons (.mk hlist) (.cons (.mk hname) .nil))
    (.swap _ _ [])) (.cons (.branches (by decide) (.cons (.same _) (.cons (.same _) .nil))
      (.swap _ _ [])) .nil)) (.swap _ _ [])

theorem isValid_shuffledNames :
    Reordered nestedNames shuffledNames ∧ nestedNames.WellFormed ∧ shuffledNames.WellFormed ∧
    ∃ schema schema', decode nestedNames = .ok schema ∧ decode shuffledNames = .ok schema' ∧
      schema.isValid schema (.array [.array [.null], .null]) = .ok true ∧
      schema'.isValid schema' (.array [.array [.null], .null]) = .ok true := by
  have hleft : nestedNames.WellFormed := by
    simp [nestedNames, Value.WellFormed, Value.WellFormedMembers, Value.WellFormedItems,
      Members.Distinct, Members.names]
  have hright : shuffledNames.WellFormed := by
    simp [shuffledNames, Value.WellFormed, Value.WellFormedMembers, Value.WellFormedItems,
      Members.Distinct, Members.names]
  have hread : ∃ schema, decode nestedNames = .ok schema ∧
      schema.isValid schema (.array [.array [.null], .null]) = .ok true :=
    ⟨_, rfl, by decide +kernel⟩
  have hread' : ∃ schema', decode shuffledNames = .ok schema' ∧
      (schema'.isValid schema' (.array [.array [.null], .null])).isOk :=
    ⟨_, rfl, by decide +kernel⟩
  obtain ⟨schema, hschema, hvalid⟩ := hread
  obtain ⟨schema', hschema', hended⟩ := hread'
  refine ⟨reordered_shuffledNames, hleft, hright, schema, schema', hschema, hschema', hvalid, ?_⟩
  have hsame := (isValid_eq_of_reordered reordered_shuffledNames hleft hright).2 schema schema'
    hschema hschema' (.array [.array [.null], .null])
  cases hrun : schema'.isValid schema' (.array [.array [.null], .null]) with
  | ok verdict' => rw [← hsame true verdict' hvalid hrun]
  | error fault =>
    rw [hrun] at hended
    cases hended

end Schema

end JsonSchema
