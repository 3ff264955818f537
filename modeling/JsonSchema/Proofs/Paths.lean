import JsonSchema.Proofs.Locations
import JsonSchema.Proofs.Pointers
import Mathlib.Data.List.Find

/-!
# Paths of errors

The path of an error is put together segment by segment on the way to the member at fault. It is read
back as the segments of that member, less the empty names that they begin with: `#/` is the pointer of
the whole value, so an empty name directly below it leaves no trace. Apart from such members, different
members have different paths.
-/

namespace JsonSchema

namespace RelativeError

theorem path_diagnostic (error : RelativeError) (start : String) :
    (error.diagnostic start).path = Pointer.extend start error.segments := rfl

theorem parse_path (error : RelativeError) :
    Pointer.parse (error.diagnostic "#").path = .ok (error.segments.dropWhile (· = "")) :=
  Pointer.parse_extend_whole rfl error.segments

theorem parse_path_of_named {error : RelativeError} (h : error.segments.head? ≠ some "") :
    Pointer.parse (error.diagnostic "#").path = .ok error.segments :=
  Pointer.parse_extend_root h

theorem path_eq_iff {a b : RelativeError} (ha : a.segments.head? ≠ some "")
    (hb : b.segments.head? ≠ some "") :
    (a.diagnostic "#").path = (b.diagnostic "#").path ↔ a.segments = b.segments := by
  constructor
  · intro hpath
    have hparse := parse_path_of_named ha
    rw [hpath, parse_path_of_named hb] at hparse
    exact (Except.ok.inj hparse).symm
  · intro hsegments
    rw [path_diagnostic, path_diagnostic, hsegments]

/-- Where paths tell members apart, the messages are those of the first errors at the members. -/
theorem lookup_messagesByPath_diagnostic {found : List RelativeError}
    (hnamed : ∀ error ∈ found, error.segments.head? ≠ some "") {error : RelativeError}
    (herror : error ∈ found) :
    (messagesByPath (found.map (·.diagnostic "#"))).lookup (error.diagnostic "#").path =
      (found.find? (·.segments = error.segments)).map (·.message) := by
  have hsame : ∀ other ∈ found,
      decide ((other.diagnostic "#").path = (error.diagnostic "#").path) =
        decide (other.segments = error.segments) := by
    intro other hother
    exact decide_eq_decide.mpr (path_eq_iff (hnamed other hother) (hnamed error herror))
  rw [lookup_messagesByPath, List.find?_map, Option.map_map]
  exact congrArg (Option.map RelativeError.message) (List.find?_congr hsame)

end RelativeError

namespace Schema

/-- The errors that can be told are located in the value. -/
theorem exists_located_of_errors {root schema : Schema} {value : Value} {start : String}
    {limit : Int} {ds : List Diagnostic} (hvalue : value.WellFormed)
    (h : root.errors schema value start limit = .ok ds) :
    ∃ found : List RelativeError, ds = found.map (·.diagnostic start) ∧
      ∀ error ∈ found, error.Located value := by
  obtain ⟨-, -, taken, htake, rfl⟩ := exists_take_of_errors h
  refine ⟨taken.map .ofViolation, ?_, fun error herror => ?_⟩
  · rw [List.map_map]
    rfl
  · obtain ⟨violation, hviolation, rfl⟩ := List.mem_map.mp herror
    rw [Findings.eq_take_of_take htake] at hviolation
    exact located_of_mem_findings hvalue (List.mem_of_mem_take hviolation)

end Schema

/-- A pointer that is extended by a segment is read as its own segments and this one, unless an empty
segment is put behind the whole value. So the path of an error is read as the segments of its member,
less the empty names that they begin with, and different members that do not begin with an empty name
never share a path among the messages. -/
theorem parse_join_append :
    (∀ (pointer : String) (segments : List String), Pointer.parse pointer = .ok segments →
      (∀ segment, ¬ (segments = [] ∧ segment = "") →
        Pointer.parse (Pointer.join pointer segment) = .ok (segments ++ [segment])) ∧
      (∀ index, Pointer.parse (Pointer.join pointer (Pointer.ofIndex index)) =
        .ok (segments ++ [Pointer.ofIndex index])) ∧
      (segments = [] → Pointer.parse (Pointer.join pointer "") = .ok [])) ∧
    ∀ (root schema : Schema) (value : Value) (limit : Int) (ds : List Diagnostic),
      value.WellFormed → root.errors schema value "#" limit = .ok ds →
        ∃ found : List RelativeError, ds = found.map (·.diagnostic "#") ∧
          (∀ error ∈ found, error.Located value ∧
            Pointer.parse (error.diagnostic "#").path =
              .ok (error.segments.dropWhile (· = "")) ∧
            (error.segments.head? ≠ some "" →
              Pointer.parse (error.diagnostic "#").path = .ok error.segments)) ∧
          (∀ a ∈ found, ∀ b ∈ found, a.segments.head? ≠ some "" → b.segments.head? ≠ some "" →
            ((a.diagnostic "#").path = (b.diagnostic "#").path ↔ a.segments = b.segments)) ∧
          ((∀ error ∈ found, error.segments.head? ≠ some "") → ∀ error ∈ found,
            (messagesByPath ds).lookup (error.diagnostic "#").path =
              (found.find? (·.segments = error.segments)).map (·.message)) := by
  refine ⟨fun pointer segments h => ⟨fun segment hsome => ?_, fun index => ?_, ?_⟩,
    fun root schema value limit ds hvalue h => ?_⟩
  · rw [Pointer.parse_join h, if_neg hsome]
  · have hdigits : Pointer.ofIndex index ≠ "" := by
      intro hempty
      have hindex := Pointer.index?_ofIndex index
      rw [hempty] at hindex
      cases hindex
    rw [Pointer.parse_join h, if_neg fun hboth => hdigits hboth.2]
  · rintro rfl
    exact Pointer.parse_join h ""
  · obtain ⟨found, rfl, hlocated⟩ := Schema.exists_located_of_errors hvalue h
    exact ⟨found, rfl,
      fun error herror => ⟨hlocated error herror, error.parse_path, error.parse_path_of_named⟩,
      fun a _ b _ ha hb => RelativeError.path_eq_iff ha hb,
      fun hnamed error herror => RelativeError.lookup_messagesByPath_diagnostic hnamed herror⟩

def texts : Schema := .node {
  definitions := some [("text", .node {
    anyOf := some [.node { type := .single .string }, .node { type := .single .object }]
    additionalProperties := some (.node { ref := some "#/definitions/text" }) })]
  additionalProperties := some (.node { ref := some "#/definitions/text" }) }

/-- Slashes and tildes in names, and an empty name that is not the first. -/
theorem parse_join_texts :
    Pointer.parse "#/a~1b" = .ok ["a/b"] ∧
    Pointer.parse (Pointer.join "#/a~1b" "") = .ok ["a/b", ""] ∧
    ∃ found : List RelativeError,
      found.map (·.diagnostic "#") = [
        { path := "#/a~1b/", message := "None of the schemas in anyOf accept this value",
          context := ["Invalid property 'a/b'", "Invalid property ''"] },
        { path := "#/~01", message := "None of the schemas in anyOf accept this value",
          context := ["Invalid property '~1'"] }] ∧
      ∀ error ∈ found, error.segments.head? ≠ some "" →
        Pointer.parse (error.diagnostic "#").path = .ok error.segments := by
  have hparse : Pointer.parse "#/a~1b" = .ok ["a/b"] := rfl
  have hwell : (Value.object [("a/b", .object [("", .null)]), ("~1", .null)]).WellFormed := by
    simp [Value.WellFormed, Value.WellFormedMembers, Members.Distinct, Members.names]
  have herrors : texts.errors texts (.object [("a/b", .object [("", .null)]), ("~1", .null)]) "#"
      200 = .ok [
        { path := "#/a~1b/", message := "None of the schemas in anyOf accept this value",
          context := ["Invalid property 'a/b'", "Invalid property ''"] },
        { path := "#/~01", message := "None of the schemas in anyOf accept this value",
          context := ["Invalid property '~1'"] }] := by
    decide +kernel
  obtain ⟨found, hfound, hpaths, -⟩ := parse_join_append.2 _ _ _ _ _ hwell herrors
  refine ⟨hparse, ?_, found, hfound.symm, fun error herror => (hpaths error herror).2.2⟩
  exact (parse_join_append.1 "#/a~1b" _ hparse).1 "" fun hwhole => List.cons_ne_nil _ _ hwhole.1

def unnamed : Schema := .node {
  properties := some [
    ("", .node { properties := some [("a", .node { type := .single .string })] }),
    ("a", .node { type := .single .string })] }

/-- An empty segment behind the whole value is lost, and so two members share a path and a message. -/
theorem join_empty_segment :
    Pointer.parse "#" = .ok [] ∧ Pointer.parse (Pointer.join "#" "") ≠ .ok ([] ++ [""]) ∧
    unnamed.errors unnamed (.object [("", .object [("a", .int 1)]), ("a", .int 2)]) "#" 200 = .ok [
      { path := "#/a", message := "Expecting a String but instead got: 1",
        context := ["Invalid property ''", "Invalid property 'a'"] },
      { path := "#/a", message := "Expecting a String but instead got: 2",
        context := ["Invalid property 'a'"] }] := by
  refine ⟨rfl, ?_, ?_⟩
  · decide
  · decide +kernel

end JsonSchema
