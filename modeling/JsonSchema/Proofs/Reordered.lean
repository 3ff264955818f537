import JsonSchema.Proofs.Matching
import JsonSchema.Proofs.Subdocuments

/-!
# Schema documents up to the order in which they are written

`Schema.Reordered` relates two documents of which the second comes from the first by permuting, at
any depth, what has no order in a schema: the members of schemas and of objects of schemas, the
branches of a composition, and the elements of the lists that are read as sets. Items by position keep
their order. Below each keyword two such documents have values of the same form.
-/

namespace JsonSchema

open Node (Document schemaKeywords memberKeywords)

/-! ### The relation -/

namespace Node

def choiceKeywords : List String := ["type", "enum", "required"]

def branchKeywords : List String := ["allOf", "anyOf", "oneOf"]

/-- The keywords whose value may hold something that has no order. -/
def unorderedKeywords : List String :=
  choiceKeywords ++ schemaKeywords ++ branchKeywords ++ memberKeywords

inductive DependencyReordered (T : Value → Value → Prop) : String × Value → String × Value → Prop
  | names {name : String} {names others : List Value} (horder : names.Perm others) :
      DependencyReordered T (name, .array names) (name, .array others)
  | schema {name : String} {value other : Value} (h : T value other) :
      DependencyReordered T (name, value) (name, other)

/-- A member of a schema document and what becomes of it, `T` relating the schemas in it. -/
inductive KeywordReordered (T : Value → Value → Prop) : String × Value → String × Value → Prop
  | same (member : String × Value) : KeywordReordered T member member
  | choices {key : String} {values others : List Value} (hkey : key ∈ choiceKeywords)
      (horder : values.Perm others) : KeywordReordered T (key, .array values) (key, .array others)
  | schema {key : String} {value other : Value} (hkey : key ∈ schemaKeywords) (h : T value other) :
      KeywordReordered T (key, value) (key, other)
  | items {values others : List Value} (h : List.Forall₂ T values others) :
      KeywordReordered T ("items", .array values) ("items", .array others)
  | branches {key : String} {values aligned others : List Value} (hkey : key ∈ branchKeywords)
      (h : List.Forall₂ T values aligned) (horder : aligned.Perm others) :
      KeywordReordered T (key, .array values) (key, .array others)
  | members {key : String} {entries aligned others : List (String × Value)}
      (hkey : key ∈ memberKeywords) (hnames : key ≠ "dependencies")
      (h : List.Forall₂ (SameName T) entries aligned) (horder : aligned.Perm others) :
      KeywordReordered T (key, .object entries) (key, .object others)
  | dependencies {entries aligned others : List (String × Value)}
      (h : List.Forall₂ (DependencyReordered T) entries aligned) (horder : aligned.Perm others) :
      KeywordReordered T ("dependencies", .object entries) ("dependencies", .object others)

end Node

namespace Schema

open Node

/-- The second document is the first with what has no order in it permuted, at any depth. -/
inductive Reordered : Value → Value → Prop
  | same (document : Value) : Reordered document document
  | object {document aligned other : Document}
      (hkeywords : List.Forall₂ (KeywordReordered Reordered) document aligned)
      (horder : aligned.Perm other) : Reordered (.object document) (.object other)

theorem Reordered.eq_of_array_left {values : List Value} {other : Value}
    (h : Reordered (.array values) other) : other = .array values := by
  cases h
  rfl

theorem Reordered.eq_of_array_right {values : List Value} {document : Value}
    (h : Reordered document (.array values)) : document = .array values := by
  cases h
  rfl

theorem Reordered.null_iff {document other : Value} (h : Reordered document other) :
    document = .null ↔ other = .null := by
  cases h with
  | same => rfl
  | object => exact iff_of_false nofun nofun

end Schema

/-! ### Values below a keyword -/

namespace Node

open Schema (Reordered)

variable {key : String} {value other : Value}

theorem KeywordReordered.name {T : Value → Value → Prop} {a b : String × Value}
    (h : KeywordReordered T a b) : a.1 = b.1 := by
  cases h <;> rfl

section Forms

variable (h : KeywordReordered Reordered (key, value) (key, other))
include h

theorem KeywordReordered.null_iff : value = .null ↔ other = .null := by
  cases h with
  | same => rfl
  | schema _ hvalue => exact hvalue.null_iff
  | _ => exact iff_of_false nofun nofun

/-- Most keywords keep their value. -/
theorem KeywordReordered.eq_of_notMem (hkey : key ∉ unorderedKeywords) : value = other := by
  simp only [unorderedKeywords, List.mem_append, not_or] at hkey
  obtain ⟨⟨⟨hchoice, hschema⟩, hbranch⟩, hmember⟩ := hkey
  cases h with
  | same => rfl
  | choices hmem => exact absurd hmem hchoice
  | schema hmem => exact absurd hmem hschema
  | items => exact absurd (by decide) hschema
  | branches hmem => exact absurd hmem hbranch
  | members hmem => exact absurd hmem hmember
  | dependencies => exact absurd (by decide) hmember

theorem KeywordReordered.eq_or_perm (hkey : key ∈ choiceKeywords) :
    value = other ∨
      ∃ values others, value = .array values ∧ other = .array others ∧ values.Perm others := by
  have hschema : ∀ key ∈ choiceKeywords, key ∉ schemaKeywords := by decide
  have hbranch : ∀ key ∈ choiceKeywords, key ∉ branchKeywords := by decide
  have hmember : ∀ key ∈ choiceKeywords, key ∉ memberKeywords := by decide
  cases h with
  | same => exact .inl rfl
  | choices _ horder => exact .inr ⟨_, _, rfl, rfl, horder⟩
  | schema hmem => exact absurd hmem (hschema key hkey)
  | items => exact absurd hkey (by decide)
  | branches hmem => exact absurd hmem (hbranch key hkey)
  | members hmem => exact absurd hmem (hmember key hkey)
  | dependencies => exact absurd hkey (by decide)

theorem KeywordReordered.reordered (hkey : key ∈ schemaKeywords) (hitems : key ≠ "items") :
    Reordered value other := by
  have hchoice : ∀ key ∈ schemaKeywords, key ∉ choiceKeywords := by decide
  have hbranch : ∀ key ∈ schemaKeywords, key ∉ branchKeywords := by decide
  cases h with
  | same => exact .same value
  | choices hmem => exact absurd hmem (hchoice key hkey)
  | schema _ hvalue => exact hvalue
  | items => exact absurd rfl hitems
  | branches hmem => exact absurd hmem (hbranch key hkey)
  | members hmem => exact absurd hmem (notMem_memberKeywords hkey)
  | dependencies => exact absurd hkey (by decide)

/-- Two lists of items by position, or two schemas for all items. -/
theorem KeywordReordered.items_or_reordered (hkey : key = "items") :
    (∃ values others, value = .array values ∧ other = .array others ∧
      List.Forall₂ Reordered values others) ∨
    Reordered value other ∧ (∀ values, value ≠ .array values) ∧
      ∀ others, other ≠ .array others := by
  have hschema (hvalue : Reordered value other) :
      (∃ values others, value = .array values ∧ other = .array others ∧
        List.Forall₂ Reordered values others) ∨
      Reordered value other ∧ (∀ values, value ≠ .array values) ∧
        ∀ others, other ≠ .array others := by
    by_cases hlist : ∃ values, value = .array values
    · obtain ⟨values, rfl⟩ := hlist
      exact .inl ⟨values, values, rfl, hvalue.eq_of_array_left,
        List.forall₂_same.mpr fun part _ => .same part⟩
    · refine .inr ⟨hvalue, not_exists.mp hlist, ?_⟩
      rintro others rfl
      exact hlist ⟨others, hvalue.eq_of_array_right⟩
  subst hkey
  generalize hname : "items" = key at h
  cases h with
  | same => exact hschema (.same value)
  | choices hmem => exact absurd hmem (hname ▸ by decide)
  | schema _ hvalue => exact hschema hvalue
  | items hvalues => exact .inl ⟨_, _, rfl, rfl, hvalues⟩
  | branches hmem => exact absurd hmem (hname ▸ by decide)
  | members hmem => exact absurd hmem (hname ▸ by decide)
  | dependencies => exact absurd hname (by decide)

theorem KeywordReordered.matched_or_eq (hkey : key ∈ branchKeywords) :
    (∃ values others, value = .array values ∧ other = .array others ∧
      Matched Reordered values others) ∨
    value = other ∧ ∀ values, value ≠ .array values := by
  have hchoice : ∀ key ∈ branchKeywords, key ∉ choiceKeywords := by decide
  have hschema : ∀ key ∈ branchKeywords, key ∉ schemaKeywords := by decide
  have hmember : ∀ key ∈ branchKeywords, key ∉ memberKeywords := by decide
  cases h with
  | same =>
    by_cases hlist : ∃ values, value = .array values
    · obtain ⟨values, rfl⟩ := hlist
      exact .inl ⟨values, values, rfl, rfl,
        .of_forall₂ (List.forall₂_same.mpr fun part _ => .same part)⟩
    · exact .inr ⟨rfl, not_exists.mp hlist⟩
  | choices hmem => exact absurd hmem (hchoice key hkey)
  | schema hmem => exact absurd hmem (hschema key hkey)
  | items => exact absurd hkey (by decide)
  | branches _ hvalues horder => exact .inl ⟨_, _, rfl, rfl, _, hvalues, horder⟩
  | members hmem => exact absurd hmem (hmember key hkey)
  | dependencies => exact absurd hkey (by decide)

theorem KeywordReordered.matchedMembers_or_eq (hkey : key ∈ memberKeywords)
    (hnames : key ≠ "dependencies") :
    (∃ entries others, value = .object entries ∧ other = .object others ∧
      Matched (SameName Reordered) entries others) ∨
    value = other ∧ ∀ entries, value ≠ .object entries := by
  have hchoice : ∀ key ∈ memberKeywords, key ∉ choiceKeywords := by decide
  have hbranch : ∀ key ∈ memberKeywords, key ∉ branchKeywords := by decide
  cases h with
  | same =>
    by_cases hobject : ∃ entries, value = .object entries
    · obtain ⟨entries, rfl⟩ := hobject
      exact .inl ⟨entries, entries, rfl, rfl,
        .of_forall₂ (List.forall₂_same.mpr fun entry _ => .mk (.same entry.2))⟩
    · exact .inr ⟨rfl, not_exists.mp hobject⟩
  | choices hmem => exact absurd hmem (hchoice key hkey)
  | schema hmem => exact absurd hkey (notMem_memberKeywords hmem)
  | items => exact absurd hkey (by decide)
  | branches hmem => exact absurd hmem (hbranch key hkey)
  | members _ _ hentries horder => exact .inl ⟨_, _, rfl, rfl, _, hentries, horder⟩
  | dependencies => exact absurd rfl hnames

theorem KeywordReordered.matchedDependencies_or_eq (hkey : key = "dependencies") :
    (∃ entries others, value = .object entries ∧ other = .object others ∧
      Matched (DependencyReordered Reordered) entries others) ∨
    value = other ∧ ∀ entries, value ≠ .object entries := by
  subst hkey
  generalize hname : "dependencies" = key at h
  cases h with
  | same =>
    by_cases hobject : ∃ entries, value = .object entries
    · obtain ⟨entries, rfl⟩ := hobject
      exact .inl ⟨entries, entries, rfl, rfl,
        .of_forall₂ (List.forall₂_same.mpr fun entry _ => .schema (.same entry.2))⟩
    · exact .inr ⟨rfl, not_exists.mp hobject⟩
  | choices hmem => exact absurd hmem (hname ▸ by decide)
  | schema hmem => exact absurd hmem (hname ▸ by decide)
  | items => exact absurd hname (by decide)
  | branches hmem => exact absurd hmem (hname ▸ by decide)
  | members _ hnames => exact absurd hname.symm hnames
  | dependencies hentries horder => exact .inl ⟨_, _, rfl, rfl, _, hentries, horder⟩

end Forms

end Node

end JsonSchema
