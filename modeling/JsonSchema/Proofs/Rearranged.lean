import JsonSchema.Members
import JsonSchema.Schema.Decode
import Mathlib.Data.List.Forall2
import Mathlib.Tactic.Common

/-!
# Schema documents up to the order of keywords

`Rearranged` relates two schema documents that differ in nothing but the order of the keywords of
each schema in them. What is no keyword, or holds no schemas, stays as it is; lists and objects of
schemas keep their order. Documents in which no name occurs twice are rearranged as soon as the values
under each name are (`rearranged_of_lookup`).
-/

namespace JsonSchema

namespace Members

variable {α β : Type}

theorem lookup_eq_none_iff {members : List (String × α)} {name : String} :
    members.lookup name = none ↔ name ∉ names members := by
  rw [← has_iff_mem_names, has]
  cases members.lookup name <;> simp

theorem eq_nil_of_lookup {members : List (String × α)} (h : ∀ name, members.lookup name = none) :
    members = [] := by
  cases members with
  | nil => rfl
  | cons member rest =>
    have hfirst := h member.1
    rw [List.lookup_cons_self] at hfirst
    cases hfirst

/-- A lookup does not see a member of another name. -/
theorem lookup_append_cons_of_ne {name other : String} (h : name ≠ other) (value : α)
    (before after : List (String × α)) :
    (before ++ (other, value) :: after).lookup name = (before ++ after).lookup name := by
  have hbeq : (name == other) = false := by simpa using h
  rw [List.lookup_append, List.lookup_append, List.lookup_cons, hbeq]

/-- Members that are related name by name are related one by one, in the order of the first. -/
theorem exists_perm_of_lookup {related : String × α → String × β → Prop}
    {as : List (String × α)} {bs : List (String × β)} (has : Distinct as) (hbs : Distinct bs)
    (h : ∀ name, Option.Rel (fun a b => related (name, a) (name, b)) (as.lookup name)
      (bs.lookup name)) :
    ∃ aligned, List.Forall₂ related as aligned ∧ aligned.Perm bs := by
  induction as generalizing bs with
  | nil =>
    have hempty : bs = [] := by
      apply eq_nil_of_lookup
      intro name
      have hname := h name
      cases hfound : bs.lookup name with
      | none => rfl
      | some value =>
        rw [hfound] at hname
        cases hname
    exact ⟨[], .nil, by rw [hempty]⟩
  | cons member rest ih =>
    obtain ⟨name, a⟩ := member
    obtain ⟨hfresh, hrest⟩ := List.nodup_cons.mp has
    obtain ⟨b, hfound, hrelated⟩ : ∃ b, bs.lookup name = some b ∧ related (name, a) (name, b) := by
      have hname := h name
      rw [List.lookup_cons_self] at hname
      cases hfound : bs.lookup name with
      | none =>
        rw [hfound] at hname
        cases hname
      | some b =>
        rw [hfound] at hname
        cases hname with
        | some hrelated => exact ⟨b, rfl, hrelated⟩
    obtain ⟨before, after, rfl, -⟩ := List.lookup_eq_some_iff.mp hfound
    have hmiddle : (before ++ (name, b) :: after).Perm ((name, b) :: (before ++ after)) :=
      List.perm_middle
    obtain ⟨hgone, hothers⟩ := List.nodup_cons.mp ((hmiddle.map Prod.fst).nodup hbs)
    obtain ⟨aligned, haligned, hperm⟩ := ih hrest hothers fun other => by
      by_cases hother : other = name
      · have hleft : rest.lookup name = none := lookup_eq_none_iff.mpr hfresh
        have hright : (before ++ after).lookup name = none := lookup_eq_none_iff.mpr hgone
        rw [hother, hleft, hright]
        exact .none
      · have hbeq : (other == name) = false := by simpa using hother
        have hname := h other
        rw [List.lookup_cons, hbeq, lookup_append_cons_of_ne hother] at hname
        exact hname
    exact ⟨(name, b) :: aligned, .cons hrelated haligned, (hperm.cons _).trans hmiddle.symm⟩

end Members

open Node (Document)

namespace Node

/-! ### Keywords that hold schemas -/

def schemaKeywords : List String :=
  ["items", "additionalItems", "contains", "additionalProperties", "propertyNames"]

def listKeywords : List String := ["items", "allOf", "anyOf", "oneOf"]

def memberKeywords : List String :=
  ["definitions", "properties", "patternProperties", "dependencies"]

end Node

namespace Schema

open Node

mutual

/-- The second document is the first with the keywords of its schemas in another order. -/
inductive Rearranged : Value → Value → Prop where
  | bool (accepted : Bool) : Rearranged (.bool accepted) (.bool accepted)
  | object {document aligned other : Document}
      (hkeywords : List.Forall₂ RearrangedKeyword document aligned)
      (horder : aligned.Perm other) : Rearranged (.object document) (.object other)

inductive RearrangedKeyword : String × Value → String × Value → Prop where
  | literal (key : String) (value : Value) : RearrangedKeyword (key, value) (key, value)
  | schema {key : String} {value other : Value} (hkey : key ∈ schemaKeywords)
      (h : Rearranged value other) : RearrangedKeyword (key, value) (key, other)
  | list {key : String} {values others : List Value} (hkey : key ∈ listKeywords)
      (h : List.Forall₂ Rearranged values others) :
      RearrangedKeyword (key, .array values) (key, .array others)
  | members {key : String} {entries others : List (String × Value)} (hkey : key ∈ memberKeywords)
      (h : List.Forall₂ RearrangedEntry entries others) :
      RearrangedKeyword (key, .object entries) (key, .object others)

inductive RearrangedEntry : String × Value → String × Value → Prop where
  | names (name : String) (names : List Value) :
      RearrangedEntry (name, .array names) (name, .array names)
  | schema {name : String} {value other : Value} (h : Rearranged value other) :
      RearrangedEntry (name, value) (name, other)

end

def SameKeyword (key : String) : Option Value → Option Value → Prop :=
  Option.Rel fun value other => RearrangedKeyword (key, value) (key, other)

theorem SameKeyword.of_eq {key : String} {value other : Option Value} (h : value = other) :
    SameKeyword key value other := by
  cases value with
  | none => exact h ▸ .none
  | some value => exact h ▸ .some (.literal key value)

theorem rearranged_of_lookup {document other : Document} (hdocument : Members.Distinct document)
    (hother : Members.Distinct other)
    (h : ∀ key, SameKeyword key (document.lookup key) (other.lookup key)) :
    Rearranged (.object document) (.object other) := by
  obtain ⟨aligned, haligned, hperm⟩ := Members.exists_perm_of_lookup hdocument hother h
  exact .object haligned hperm

end Schema

end JsonSchema
