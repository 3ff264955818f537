import JsonSchema.Files.Document
import JsonSchema.Proofs.WellFormed

/-!
# What files hold

A file holds a value if its text stands for it: as JSON in which every escape names a character, or as
YAML that the platform reads as data of the kinds of JSON. This is so for whatever is read from a file
whose text is plain (`Files.holds_iff`), and the value is then well-formed.
-/

namespace JsonSchema

namespace Json

/-- Whether the surrogates that are named in characters come in pairs, after the first of a pair or not.
One without its partner is no character. -/
def pairsSurrogates (isOpen : Bool) : List Char → Bool
  | [] => !isOpen
  | '\\' :: 'u' :: a :: b :: c :: d :: rest =>
    match readHex4 [a, b, c, d] with
    | some (code, _) =>
      if isHighSurrogate code then !isOpen && pairsSurrogates true rest
      else (isOpen == isLowSurrogate code) && pairsSurrogates false rest
    | none => !isOpen && pairsSurrogates false rest
  | '\\' :: _ :: rest => !isOpen && pairsSurrogates false rest
  | _ :: rest => !isOpen && pairsSurrogates false rest

structure StandsFor (text : String) (value : Value) : Prop where
  hpairs : pairsSurrogates false text.toList
  hread : read text = .ok value

end Json

namespace Yaml

mutual

def hasPlainKinds : Yaml → Bool
  | .scalar (.foreign _) => false
  | .scalar _ => true
  | .sequence items => haveItemsPlainKinds items
  | .mapping members => haveMembersPlainKinds members

def haveItemsPlainKinds : List Yaml → Bool
  | [] => true
  | item :: rest => item.hasPlainKinds && haveItemsPlainKinds rest

def haveMembersPlainKinds : List (Scalar × Yaml) → Bool
  | [] => true
  | (name, tree) :: rest => name.isText && tree.hasPlainKinds && haveMembersPlainKinds rest

end

/-- A tree has plain kinds and no name twice. -/
structure IsPlain (tree : Yaml) : Prop where
  hkinds : tree.hasPlainKinds
  hdistinct : tree.toValue.WellFormed

def StandsFor [Platform] (text : String) (value : Value) : Prop :=
  ∃ tree, Platform.readYaml text = .ok tree ∧ tree.IsPlain ∧ tree.toValue = value

end Yaml

namespace Files

variable [Platform] {files : Files} {path : Path} {value : Value} {text : String}

/-- The text of a file has no half of a character in it, and no data that JSON lacks. -/
structure IsPlain (files : Files) (path : Path) : Prop where
  of_yaml : path.isYaml = true → ∀ text tree, files.read path = .ok text →
    Platform.readYaml text = .ok tree → tree.IsPlain
  of_json : path.isYaml = false → ∀ text, files.read path = .ok text →
    Json.pairsSurrogates false text.toList

inductive Holds (files : Files) (path : Path) (value : Value) : Prop where
  | yaml (text : String) (hyaml : path.isYaml = true) (hread : files.read path = .ok text)
      (hstands : Yaml.StandsFor text value)
  | json (text : String) (hjson : path.isYaml = false) (hread : files.read path = .ok text)
      (hstands : Json.StandsFor text value)

def HoldsSchema (files : Files) (path : Path) (schema : Schema) : Prop :=
  ∃ value, files.Holds path value ∧ Schema.decode value = .ok schema

theorem isPlain_of_yaml {tree : Yaml} (hyaml : path.isYaml = true)
    (hread : files.read path = .ok text) (htree : Platform.readYaml text = .ok tree)
    (hplain : tree.IsPlain) : files.IsPlain path := by
  refine ⟨fun _ text' tree' hread' htree' => ?_, fun hjson => ?_⟩
  · cases hread.symm.trans hread'
    cases htree.symm.trans htree'
    exact hplain
  · cases hyaml.symm.trans hjson

theorem isPlain_of_json (hjson : path.isYaml = false) (hread : files.read path = .ok text)
    (hpairs : Json.pairsSurrogates false text.toList) : files.IsPlain path := by
  refine ⟨fun hyaml => ?_, fun _ text' hread' => ?_⟩
  · cases hyaml.symm.trans hjson
  · cases hread.symm.trans hread'
    exact hpairs

theorem document_of_read (hread : files.read path = .ok text) :
    files.document path =
      if path.isYaml then ((Platform.readYaml text).mapError .badYaml).map Yaml.toValue
      else (Json.read text).mapError .badJson := by
  rw [document, hread]
  rfl

theorem Holds.document_eq (h : files.Holds path value) : files.document path = .ok value := by
  cases h with
  | yaml text hyaml hread hstands =>
    obtain ⟨tree, htree, -, rfl⟩ := hstands
    rw [document_of_read hread, if_pos hyaml, htree]
    rfl
  | json text hjson hread hstands =>
    rw [document_of_read hread, hjson, hstands.hread]
    rfl

/-- Whatever value is read from a plain text, the file holds it. -/
theorem holds_iff (hplain : files.IsPlain path) :
    files.Holds path value ↔ files.document path = .ok value := by
  refine ⟨Holds.document_eq, fun h => ?_⟩
  obtain ⟨text, htext, hvalue⟩ := Except.bind_eq_ok_iff.mp h
  have hread := Except.mapError_eq_ok_iff.mp htext
  split_ifs at hvalue with hyaml
  · obtain ⟨tree, htree, hpure⟩ := Except.bind_eq_ok_iff.mp hvalue
    cases hpure
    have htree' := Except.mapError_eq_ok_iff.mp htree
    exact .yaml text hyaml hread ⟨tree, htree', hplain.of_yaml hyaml text tree hread htree', rfl⟩
  · have hjson := eq_false_of_ne_true hyaml
    exact .json text hjson hread
      ⟨hplain.of_json hjson text hread, Except.mapError_eq_ok_iff.mp hvalue⟩

theorem Holds.wellFormed (h : files.Holds path value) : value.WellFormed := by
  cases h with
  | yaml text hyaml hread hstands =>
    obtain ⟨tree, -, hplain, rfl⟩ := hstands
    exact hplain.hdistinct
  | json text hjson hread hstands => exact Json.wellFormed_of_read hstands.hread

theorem HoldsSchema.schema_eq {schema : Schema} (h : files.HoldsSchema path schema) :
    files.schema path = .ok schema := by
  obtain ⟨value, hholds, hdecode⟩ := h
  rw [Files.schema, hholds.document_eq]
  simp only [Except.mapError, bind, Except.bind]
  rw [hdecode]

theorem holdsSchema_iff {schema : Schema} (hplain : files.IsPlain path) :
    files.HoldsSchema path schema ↔ files.schema path = .ok schema := by
  refine ⟨HoldsSchema.schema_eq, fun h => ?_⟩
  obtain ⟨value, hvalue, hdecode⟩ := Except.bind_eq_ok_iff.mp h
  have hdocument := Except.mapError_eq_ok_iff.mp hvalue
  exact ⟨value, (holds_iff hplain).mpr hdocument, Except.mapError_eq_ok_iff.mp hdecode⟩

end Files

end JsonSchema
