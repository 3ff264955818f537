import JsonSchema.Proofs.Kept
import JsonSchema.Report

/-!
# The lines of a report

No line feed is ever written inside a record, whatever stands in its strings, so the line feeds behind
the records tell them apart (`splitOn_lines`). Each line is a JSON text by itself, which is read back as
the record of one error; and as there is no carriage return either, a report that is stored in a file is
read as it was written (`lines_of_render`).
-/

namespace JsonSchema

namespace Diagnostic

theorem allNumbers_toRecord (document : String) (d : Diagnostic) :
    (d.toRecord document).AllNumbers Number.IsInt := by
  simp [toRecord, members]

theorem wellFormed_toRecord (document : String) (d : Diagnostic) :
    (d.toRecord document).WellFormed := by
  refine Value.wellFormed_object_iff.mpr ⟨?_, ?_⟩
  · show ["document", "path", "message", "detail"].Nodup
    decide
  · simp [members, Value.WellFormed]

end Diagnostic

namespace Report

variable {records : List Value} {files changed : Files} {path : Path}

theorem lines_eq_join (records : List Value) :
    lines records = String.join (records.map fun record => Json.write .spaced record ++ "\n") := by
  rw [← String.toList_inj, lines, String.toList_ofList, String.toList_join]
  simp [List.flatMap, List.map_map, Function.comp_def]

/-- By induction on the records: the first line feed is the one that closes the first record. -/
theorem splitOn_lines (h : ∀ record ∈ records, record.AllNumbers Number.IsInt) :
    Text.splitOn '\n' (lines records).toList = records.map (Json.chars .spaced 0) ++ [[]] := by
  rw [lines, String.toList_ofList, Text.splitOn_eq]
  induction records with
  | nil => rfl
  | cons record rest ih =>
    obtain ⟨hrecord, hrest⟩ := List.forall_mem_cons.mp h
    have hfeed : '\n' ∉ Json.chars .spaced 0 record :=
      Json.notMem_chars (by decide) (fun _ => List.not_mem_nil) hrecord
    rw [List.flatMap_cons, Json.write, String.toList_ofList, List.append_assoc,
      List.singleton_append, List.splitOn_append_cons_self_of_not_mem hfeed, ih hrest]
    rfl

theorem ne_return_of_mem_lines (h : ∀ record ∈ records, record.AllNumbers Number.IsInt) :
    ∀ c ∈ (lines records).toList, c ≠ '\r' := by
  rw [lines, String.toList_ofList]
  intro c hc
  obtain ⟨record, hrecord, hmem⟩ := List.mem_flatMap.mp hc
  rcases List.mem_append.mp hmem with hline | hfeed
  · rw [Json.write, String.toList_ofList] at hline
    exact Json.ne_return_of_mem_chars (h record hrecord) hline
  · rw [List.mem_singleton.mp hfeed]
    decide

theorem read_of_write_lines (h : ∀ record ∈ records, record.AllNumbers Number.IsInt)
    (hgrounded : files.IsGrounded) (hwrite : files.write path (lines records) = .ok changed) :
    changed.read path = .ok (lines records) := by
  rw [Files.read, Files.find_write hgrounded hwrite]
  simp only [bind, Except.bind]
  rw [Files.unifyLineEnds_of_forall_ne (ne_return_of_mem_lines h), String.ofList_toList]
  rfl

theorem forall_mem_records {p : Value → Prop} {report : Report}
    (h : ∀ document d, p (Diagnostic.toRecord document d)) : ∀ record ∈ report.records, p record := by
  intro record hrecord
  obtain ⟨⟨document, errors⟩, -, herror⟩ := List.mem_flatMap.mp hrecord
  obtain ⟨d, -, rfl⟩ := List.mem_map.mp herror
  exact h document d

/-- A report in lines loses nothing of its errors. It splits at line feeds into one line for each error,
in order and with a line feed behind each, and a line is read back as the object with the document, path,
message and description of its error. The report of a file is read as it was written. -/
theorem lines_of_render (report : Report) :
    (∃ texts : List String,
      report.render .jsonLines = String.join (texts.map (· ++ "\n")) ∧
      (Text.splitOn '\n' (report.render .jsonLines).toList).map String.ofList = texts ++ [""] ∧
      texts.map Json.read = report.flatMap fun (document, errors) => errors.map fun d =>
        .ok (.object [("document", .string document), ("path", .string d.path),
          ("message", .string d.message),
          ("detail", .string (": ".intercalate (d.context ++ [d.message])))])) ∧
    ∀ {files changed : Files} {path : Path}, files.IsGrounded →
      files.write path (report.render .jsonLines) = .ok changed →
      changed.read path = .ok (report.render .jsonLines) := by
  have hnumbers : ∀ record ∈ report.records, record.AllNumbers Number.IsInt :=
    forall_mem_records Diagnostic.allNumbers_toRecord
  have hwell : ∀ record ∈ report.records, record.WellFormed :=
    forall_mem_records Diagnostic.wellFormed_toRecord
  refine ⟨⟨report.records.map (Json.write .spaced), ?_, ?_, ?_⟩, ?_⟩
  · rw [render, lines_eq_join, List.map_map]
    rfl
  · rw [render, splitOn_lines hnumbers, List.map_append, List.map_map]
    rfl
  · have hread : ∀ record ∈ report.records, Json.read (Json.write .spaced record) = .ok record :=
      fun record hrecord => Json.read_write .spaced (hwell record hrecord) (hnumbers record hrecord)
    rw [List.map_map]
    change report.records.map (fun record => Json.read (Json.write .spaced record)) = _
    rw [List.map_congr_left hread, records, List.map_flatMap]
    simp only [List.map_map]
    rfl
  · exact read_of_write_lines hnumbers

def brokenNames : Report := [
  ("a\n\".json", [{
    path := "#/\r\n\"", message := "Value is not present in enum",
    context := ["Invalid property '\r\n\"'"] }]),
  ("b.json", []),
  ("c.json", [{ path := "#", message := "Value is not allowed by the false schema" }])]

theorem lines_of_brokenNames :
    (∃ texts : List String,
      (Text.splitOn '\n' (brokenNames.render .jsonLines).toList).map String.ofList = texts ++ [""] ∧
      texts.map Json.read = [
        .ok (.object [("document", .string "a\n\".json"), ("path", .string "#/\r\n\""),
          ("message", .string "Value is not present in enum"),
          ("detail", .string "Invalid property '\r\n\"': Value is not present in enum")]),
        .ok (.object [("document", .string "c.json"), ("path", .string "#"),
          ("message", .string "Value is not allowed by the false schema"),
          ("detail", .string "Value is not allowed by the false schema")])]) ∧
    ∃ changed, ({} : Files).write (.ofString "out/errors.jsonl") (brokenNames.render .jsonLines) =
        .ok changed ∧
      changed.read (.ofString "out/errors.jsonl") = .ok (brokenNames.render .jsonLines) := by
  obtain ⟨⟨texts, -, hsplit, hread⟩, hstored⟩ := lines_of_render brokenNames
  have hgrounded : ({} : Files).IsGrounded := ⟨_, rfl⟩
  obtain ⟨changed, hwrite⟩ : ∃ changed, ({} : Files).write (.ofString "out/errors.jsonl")
      (brokenNames.render .jsonLines) = .ok changed := ⟨_, rfl⟩
  exact ⟨⟨texts, hsplit, hread⟩, changed, hwrite, hstored hgrounded hwrite⟩

end Report

end JsonSchema
