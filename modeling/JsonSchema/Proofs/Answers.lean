import JsonSchema.Proofs.Outcomes
import JsonSchema.Validation
import Mathlib.Data.List.Induction

/-!
# Answers under a limit

The errors of a value, its first error, its validity and its messages by path are all read off the same
findings. A limit cuts off violations and with them a fault that lies behind the cut, so the answers
under one limit are part of the answers under any larger one, and none of them contradicts the others.
-/

namespace JsonSchema

/-! ### Messages by path -/

theorem eraseDups_concat {α : Type} [DecidableEq α] (as : List α) (a : α) :
    (as ++ [a]).eraseDups = if a ∈ as then as.eraseDups else as.eraseDups ++ [a] := by
  rw [List.eraseDups_append]
  by_cases hmem : a ∈ as <;> simp [List.removeAll, List.eraseDups_cons, hmem]

theorem messagesByPath_concat (ds : List Diagnostic) (d : Diagnostic) :
    messagesByPath (ds ++ [d]) =
      if Members.has d.path (messagesByPath ds) then messagesByPath ds
      else messagesByPath ds ++ [(d.path, d.message)] := by
  rw [messagesByPath, List.foldl_append]
  rfl

/-- The paths come in the order in which they first occur. -/
theorem names_messagesByPath (ds : List Diagnostic) :
    Members.names (messagesByPath ds) = (ds.map (·.path)).eraseDups := by
  induction ds using List.reverseRecOn with
  | nil => rfl
  | append_singleton ds d ih =>
    have hhas : Members.has d.path (messagesByPath ds) ↔ d.path ∈ ds.map (·.path) := by
      rw [Members.has_iff_mem_names, ih, List.mem_eraseDups]
    rw [messagesByPath_concat, List.map_append, List.map_singleton, eraseDups_concat, ← ih]
    by_cases hmem : d.path ∈ ds.map (·.path)
    · rw [if_pos (hhas.mpr hmem), if_pos hmem]
    · rw [if_neg (mt hhas.mp hmem), if_neg hmem, Members.names, List.map_append]
      rfl

/-- Each path has the message of the first error there. -/
theorem lookup_messagesByPath (ds : List Diagnostic) (path : String) :
    (messagesByPath ds).lookup path = (ds.find? (·.path = path)).map (·.message) := by
  induction ds using List.reverseRecOn with
  | nil => rfl
  | append_singleton ds d ih =>
    rw [messagesByPath_concat, List.find?_append]
    by_cases hpath : d.path = path
    · subst hpath
      cases hfound : ds.find? (·.path = d.path) with
      | none =>
        rw [hfound] at ih
        rw [if_neg (by simp [Members.has, ih]), List.lookup_append, ih]
        simp
      | some first =>
        rw [hfound] at ih
        rw [if_pos (by simp [Members.has, ih]), ih]
        rfl
    · have hother : (path == d.path) = false := by simpa using Ne.symm hpath
      have hlast : [d].find? (·.path = path) = none := by simp [hpath]
      rw [hlast, Option.or_none, ← ih]
      split_ifs
      · rfl
      · simp [List.lookup_append, List.lookup_cons, hother]

theorem messagesByPath_eq_nil_iff {ds : List Diagnostic} : messagesByPath ds = [] ↔ ds = [] := by
  constructor
  · intro hnil
    cases ds with
    | nil => rfl
    | cons d rest =>
      have hlookup := lookup_messagesByPath (d :: rest) d.path
      simp [hnil] at hlookup
  · rintro rfl
    rfl

/-! ### Findings under a limit -/

namespace Findings

variable {f : Findings} {n m : Nat} {taken : List Violation} {fault : Fault}

theorem take_of_le (h : n ≤ f.violations.length) : f.take n = .ok (f.violations.take n) := by
  rw [take, if_pos h]

theorem take_of_lt (h : f.violations.length < n) :
    f.take n = f.fault.elim (.ok f.violations) .error := by
  rw [take, if_neg (by omega)]
  cases f.fault <;> rfl

/-- What is taken are the first violations, whatever lies behind them. -/
theorem eq_take_of_take (h : f.take n = .ok taken) : taken = f.violations.take n := by
  rcases Nat.lt_or_ge f.violations.length n with hlt | hle
  · rw [take_of_lt hlt] at h
    cases hfault : f.fault with
    | none =>
      rw [hfault] at h
      cases h
      exact (List.take_of_length_le (Nat.le_of_lt hlt)).symm
    | some fault =>
      rw [hfault] at h
      cases h
  · rw [take_of_le hle] at h
    cases h
    rfl

/-- A smaller limit takes fewer of the same violations, and comes upon no fault that a larger limit
does not come upon. -/
theorem take_of_take (h : f.take m = .ok taken) (hle : n ≤ m) : f.take n = .ok (taken.take n) := by
  have htaken := eq_take_of_take h
  rcases Nat.lt_or_ge f.violations.length n with hlt | hge
  · have hall : taken.length ≤ n := by
      rw [htaken, List.length_take]
      omega
    rw [take_of_lt (Nat.lt_of_lt_of_le hlt hle)] at h
    rw [take_of_lt hlt, h, List.take_of_length_le hall]
  · rw [take_of_le hge, htaken, List.take_take, Nat.min_eq_left hle]

/-- The first violation settles whether there is any. -/
theorem passes_of_take (h : f.take n = .ok taken) (hpos : 0 < n) : f.passes = .ok taken.isEmpty := by
  obtain ⟨violations, ended⟩ := f
  have htaken := eq_take_of_take h
  cases violations with
  | cons violation rest =>
    obtain ⟨k, rfl⟩ : ∃ k, n = k + 1 := ⟨n - 1, by omega⟩
    rw [htaken]
    rfl
  | nil =>
    rw [take_of_lt hpos] at h
    cases ended with
    | none =>
      rw [htaken, List.take_nil]
      rfl
    | some fault => cases h

end Findings

namespace Schema

variable {root schema : Schema} {value : Value} {start : String} {n m : Int} {ds : List Diagnostic}

theorem errors_of_limit (hlow : 0 ≤ n) (hhigh : n ≤ greatestLimit) :
    root.errors schema value start n =
      ((root.findings schema value).take n.toNat).map (List.map (Violation.diagnostic start)) := by
  rw [errors, if_neg (by omega)]

/-- Errors that can be told under a limit are those of violations that are taken under it. -/
theorem exists_take_of_errors (h : root.errors schema value start m = .ok ds) :
    0 ≤ m ∧ m ≤ greatestLimit ∧ ∃ taken, (root.findings schema value).take m.toNat = .ok taken ∧
      taken.map (Violation.diagnostic start) = ds := by
  by_cases hlimit : m < 0 ∨ greatestLimit < m
  · rw [errors, if_pos hlimit] at h
    cases h
  · have hlow : 0 ≤ m := by omega
    have hhigh : m ≤ greatestLimit := by omega
    rw [errors_of_limit hlow hhigh] at h
    exact ⟨hlow, hhigh, Except.map_eq_ok_iff.mp h⟩

theorem errors_of_errors (h : root.errors schema value start m = .ok ds) (hlow : 0 ≤ n)
    (hle : n ≤ m) : root.errors schema value start n = .ok (ds.take n.toNat) := by
  obtain ⟨-, hhigh, taken, htake, rfl⟩ := exists_take_of_errors h
  rw [errors_of_limit hlow (Int.le_trans hle hhigh), Findings.take_of_take htake (by omega),
    ← List.map_take]
  rfl

theorem isValid_of_errors (h : root.errors schema value start m = .ok ds) (hpos : 1 ≤ m) :
    root.isValid schema value = .ok ds.isEmpty := by
  obtain ⟨-, -, taken, htake, rfl⟩ := exists_take_of_errors h
  rw [isValid, Findings.passes_of_take htake (by omega), List.isEmpty_map]

/-- The description of an error does not tell where the value stands. -/
theorem describe_of_errors (h : root.errors schema value start m = .ok ds) (hpos : 1 ≤ m) :
    (root.firstError schema value).map (Option.map Diagnostic.describe) =
      .ok (ds.head?.map Diagnostic.describe) := by
  obtain ⟨-, -, taken, htake, rfl⟩ := exists_take_of_errors h
  rw [firstError, Findings.take_of_take htake (by omega : 1 ≤ m.toNat)]
  cases taken <;> rfl

/-- Errors end in a fault if it stands within the limit; the errors before it can be told under
smaller limits. -/
theorem exists_found_of_fault {fault : Fault}
    (h : root.errors schema value start m = .error fault) (hfault : fault ≠ .badLimit) :
    ∃ found : List Diagnostic, (found.length : Int) < m ∧
      ∀ n : Int, 0 ≤ n → n ≤ greatestLimit →
        root.errors schema value start n =
          if n ≤ found.length then .ok (found.take n.toNat) else .error fault := by
  by_cases hlimit : m < 0 ∨ greatestLimit < m
  · rw [errors, if_pos hlimit] at h
    cases h
    exact absurd rfl hfault
  · rw [errors_of_limit (by omega) (by omega), Except.map_eq_error_iff] at h
    have hlt : (root.findings schema value).violations.length < m.toNat := by
      by_contra hge
      rw [Findings.take_of_le (by omega)] at h
      cases h
    rw [Findings.take_of_lt hlt] at h
    have hended : (root.findings schema value).fault = some fault := by
      cases hended : (root.findings schema value).fault with
      | none =>
        rw [hended] at h
        cases h
      | some other =>
        rw [hended] at h
        cases h
        rfl
    refine ⟨(root.findings schema value).violations.map (Violation.diagnostic start), ?_,
      fun n hlow hhigh => ?_⟩
    · rw [List.length_map]
      omega
    · rw [errors_of_limit hlow hhigh, List.length_map]
      split_ifs with hle
      · rw [Findings.take_of_le (by omega), ← List.map_take]
        rfl
      · rw [Findings.take_of_lt (by omega), hended]
        rfl

/-- All answers about a value and a schema tell of the same errors. Whenever the errors under a limit
can be told, those under a smaller limit are the first of them; the first error and validity do not
depend on the limit; and the messages by path are those of the first errors at the different paths, in
order. A fault behind the last error that a limit asks for is not met. -/
theorem answers_agree (root schema : Schema) (value : Value) (start : String) :
    (∀ (n m : Int) (ds : List Diagnostic), 1 ≤ n → n ≤ m →
      root.errors schema value start m = .ok ds →
        root.errors schema value start n = .ok (ds.take n.toNat) ∧
        (root.firstError schema value).map (Option.map Diagnostic.describe) =
          .ok (ds.head?.map Diagnostic.describe) ∧
        root.isValid schema value = .ok ds.isEmpty ∧
        Members.names (messagesByPath (ds.take n.toNat)) =
          ((ds.take n.toNat).map (·.path)).eraseDups ∧
        (∀ path, (messagesByPath (ds.take n.toNat)).lookup path =
          ((ds.take n.toNat).find? (·.path = path)).map (·.message)) ∧
        (messagesByPath (ds.take n.toNat) = [] ↔ root.isValid schema value = .ok true)) ∧
    ∀ (m : Int) (fault : Fault), root.errors schema value start m = .error fault →
      fault ≠ .badLimit →
        ∃ found : List Diagnostic, (found.length : Int) < m ∧
          ∀ n : Int, 0 ≤ n → n ≤ greatestLimit →
            root.errors schema value start n =
              if n ≤ found.length then .ok (found.take n.toNat) else .error fault := by
  refine ⟨fun n m ds hlow hle h => ?_, fun m fault => exists_found_of_fault⟩
  have hpos : 1 ≤ m := Int.le_trans hlow hle
  have hvalid := isValid_of_errors h hpos
  refine ⟨errors_of_errors h (by omega) hle, describe_of_errors h hpos, hvalid,
    names_messagesByPath _, lookup_messagesByPath _, ?_⟩
  have hsome : n.toNat ≠ 0 := by omega
  rw [messagesByPath_eq_nil_iff, hvalid]
  simp [List.take_eq_nil_iff, hsome]

/-- A name that is a text and, as names that begin with i are, a mark; and a note with a pattern that
cannot be told. -/
def labels : Schema := .node {
  properties := some [
    ("id", .node { type := .single .string }),
    ("note", .node { pattern := some "a{99999999999}" })]
  patternProperties := some [("^i", .node { type := .single .boolean })] }

/-- The first of two errors at one path, and two errors before a fault. -/
theorem answers_labels :
    (∃ ds, ds.length = 2 ∧ labels.errors labels (.object [("id", .int 1)]) "#" 200 = .ok ds ∧
      labels.errors labels (.object [("id", .int 1)]) "#" 1 = .ok (ds.take 1) ∧
      labels.isValid labels (.object [("id", .int 1)]) = .ok false ∧
      Members.names (messagesByPath (ds.take 200)) = ["#/id"]) ∧
    labels.errors labels (.object [("id", .int 1), ("note", .string "")]) "#" 3 =
      .error .hugeRepetition ∧
    ∃ found : List Diagnostic, (found.length : Int) < 3 ∧
      labels.errors labels (.object [("id", .int 1), ("note", .string "")]) "#" found.length =
        .ok found := by
  have hboth : labels.errors labels (.object [("id", .int 1)]) "#" 200 = .ok [
      { path := "#/id", message := "Expecting a String but instead got: 1",
        context := ["Invalid property 'id'"] },
      { path := "#/id", message := "Expecting a Bool but instead got: 1",
        context := ["Invalid property 'id'"] }] := by
    decide +kernel
  have hfault : labels.errors labels (.object [("id", .int 1), ("note", .string "")]) "#" 3 =
      .error .hugeRepetition := by
    decide +kernel
  have hone := (answers_agree labels labels (.object [("id", .int 1)]) "#").1 1 200 _
    (by decide) (by decide) hboth
  have hall := (answers_agree labels labels (.object [("id", .int 1)]) "#").1 200 200 _
    (by decide) (by decide) hboth
  obtain ⟨found, hlength, hfound⟩ :=
    (answers_agree labels labels (.object [("id", .int 1), ("note", .string "")]) "#").2 3 _
      hfault (by decide)
  have hlimit : (found.length : Int) ≤ greatestLimit := by
    have hgreatest : (3 : Int) ≤ greatestLimit := by decide
    omega
  refine ⟨⟨_, rfl, hboth, hone.1, hone.2.2.1, hall.2.2.2.1⟩, hfault, found, hlength, ?_⟩
  rw [hfound found.length (by omega) hlimit, if_pos (Int.le_refl _), Int.toNat_natCast,
    List.take_length]

end Schema

end JsonSchema
