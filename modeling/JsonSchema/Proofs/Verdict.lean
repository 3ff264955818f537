import JsonSchema.Proofs.Lines
import JsonSchema.Proofs.Overrides
import JsonSchema.Proofs.Runs
import JsonSchema.Proofs.Selection
import JsonSchema.Proofs.Trees

/-!
# The verdict on documents

The exit status of `validate` is the verdict on all documents that it selects. The limit on errors is at
least one, so no document with errors passes for one without. What the report tells about each document
are the first of its errors, and as the texts of paths keep the documents apart, none of them is lost.
-/

namespace JsonSchema

/-! ### Errors of documents -/

namespace Files

theorem take_malformedDocument {limit : Int} (hlimit : 1 ≤ limit) (message : String) :
    (malformedDocument message).take limit.toNat = malformedDocument message := by
  refine List.take_of_length_le ?_
  rw [malformedDocument, List.length_singleton]
  omega

variable [Platform]

/-- All errors of a document, up to a fault that ends the search for them. -/
def documentErrors (files : Files) (schema : Schema) (path : Path) : List Diagnostic :=
  match files.document path with
  | .ok value => (schema.findings schema value).violations.map (Violation.diagnostic "#")
  | .error (.badJson cause) => malformedDocument ("Invalid JSON: " ++ cause.message)
  | .error (.badYaml cause) => malformedDocument ("Invalid YAML: " ++ cause.message)
  | .error (.unreadable _) => []

def Accepts (files : Files) (schema : Schema) (path : Path) : Prop :=
  ∃ value, files.Holds path value ∧ schema.isValid schema value = .ok true

/-- A document is malformed, or holds a value that a schema does not allow. -/
def Rejects (files : Files) (schema : Schema) (path : Path) : Prop :=
  (∃ cause, files.document path = .error (.badJson cause)) ∨
  (∃ cause, files.document path = .error (.badYaml cause)) ∨
  ∃ value, files.Holds path value ∧ schema.isValid schema value = .ok false

variable {files : Files} {schema : Schema} {path : Path} {limit : Int} {ds : List Diagnostic}

theorem Accepts.not_rejects (h : files.Accepts schema path) : ¬ files.Rejects schema path := by
  obtain ⟨value, hvalue, hvalid⟩ := h
  rintro (⟨cause, hcause⟩ | ⟨cause, hcause⟩ | ⟨other, hother, hinvalid⟩)
  · cases hvalue.document_eq.symm.trans hcause
  · cases hvalue.document_eq.symm.trans hcause
  · cases hvalue.document_eq.symm.trans hother.document_eq
    cases hvalid.symm.trans hinvalid

/-- Under a limit that is not zero, the first errors of a document tell whether it is accepted. -/
theorem cases_of_errors (hplain : files.IsPlain path)
    (h : files.errors path (.ok schema) none limit = .ok ds) (hlimit : 1 ≤ limit) :
    ds = (files.documentErrors schema path).take limit.toNat ∧
      (ds = [] ∧ files.Accepts schema path ∨ ds ≠ [] ∧ files.Rejects schema path) := by
  unfold errors at h
  cases hdocument : files.document path with
  | error cause =>
    rw [hdocument] at h
    cases cause with
    | unreadable cause => cases h
    | badJson cause =>
      cases h
      rw [documentErrors, hdocument]
      exact ⟨(take_malformedDocument hlimit _).symm,
        .inr ⟨List.cons_ne_nil _ _, .inl ⟨cause, hdocument⟩⟩⟩
    | badYaml cause =>
      cases h
      rw [documentErrors, hdocument]
      exact ⟨(take_malformedDocument hlimit _).symm,
        .inr ⟨List.cons_ne_nil _ _, .inr (.inl ⟨cause, hdocument⟩)⟩⟩
  | ok value =>
    rw [hdocument] at h
    have herrors := Except.mapError_eq_ok_iff.mp h
    obtain ⟨-, -, taken, htake, rfl⟩ := Schema.exists_take_of_errors herrors
    have hvalid := Schema.isValid_of_errors herrors hlimit
    have hholds := (holds_iff hplain).mpr hdocument
    refine ⟨?_, ?_⟩
    · rw [documentErrors, hdocument, ← List.map_take]
      exact congrArg _ (Findings.eq_take_of_take htake)
    · rcases hnil : taken.map (Violation.diagnostic "#") with _ | ⟨d, rest⟩
      · rw [hnil] at hvalid
        exact .inl ⟨rfl, value, hholds, hvalid⟩
      · rw [hnil] at hvalid
        exact .inr ⟨List.cons_ne_nil _ _, .inr (.inr ⟨value, hholds, hvalid⟩)⟩

theorem accepts_iff_of_errors (hplain : files.IsPlain path)
    (h : files.errors path (.ok schema) none limit = .ok ds) (hlimit : 1 ≤ limit) :
    files.Accepts schema path ↔ ds = [] := by
  rcases (cases_of_errors hplain h hlimit).2 with ⟨hnil, haccepts⟩ | ⟨hnil, hrejects⟩
  · exact iff_of_true haccepts hnil
  · exact iff_of_false (fun haccepts => haccepts.not_rejects hrejects) hnil

theorem rejects_iff_of_errors (hplain : files.IsPlain path)
    (h : files.errors path (.ok schema) none limit = .ok ds) (hlimit : 1 ≤ limit) :
    files.Rejects schema path ↔ ds ≠ [] := by
  rcases (cases_of_errors hplain h hlimit).2 with ⟨hnil, haccepts⟩ | ⟨hnil, hrejects⟩
  · exact iff_of_false haccepts.not_rejects (not_not_intro hnil)
  · exact iff_of_true hrejects hnil

end Files

/-! ### Reports -/

namespace Report

/-- A text tells of documents and their errors: as one object that has a member for each document, or
by one object for each error, on a line of its own. -/
def Tells (found : Report) (text : String) : ReportFormat → Prop
  | .json => text = Json.write (.indented 2) (.object (found.map fun (document, errors) =>
      (document, .array (errors.map fun d => .object [("path", .string d.path),
        ("message", .string d.message), ("detail", .string d.describe)])))) ++ "\n"
  | .jsonLines => text = String.join (found.flatMap fun (document, errors) => errors.map fun d =>
      Json.write .spaced (.object [("document", .string document), ("path", .string d.path),
        ("message", .string d.message), ("detail", .string d.describe)]) ++ "\n")

theorem tells_render (found : Report) (format : ReportFormat) :
    found.Tells (found.render format) format := by
  cases format with
  | json => rfl
  | jsonLines =>
    have hrecords : found.records.map (fun record => Json.write .spaced record ++ "\n") =
        found.flatMap fun (document, errors) => errors.map fun d =>
          Json.write .spaced (d.toRecord document) ++ "\n" := by
      simp [records, List.map_flatMap, List.map_map, Function.comp_def]
    exact (lines_eq_join found.records).trans (congrArg String.join hrecords)

/-- Where the encoding of the locale is UTF-8, a report is stored as it is. -/
theorem stored_eq_render [Platform] (found : Report) {format : ReportFormat}
    (hlocale : format = .json → ∀ text, Platform.inLocale text = text) :
    found.stored format = found.render format := by
  cases format with
  | json => exact hlocale rfl _
  | jsonLines => rfl

end Report

/-! ### Settings -/

theorem Settings.one_le_maxErrors_of_override {settings settings' : Settings}
    {changes : List (String × Value)} (h : settings.override changes = .ok settings') :
    1 ≤ settings'.maxErrors := by
  obtain ⟨-, -, hadmissible⟩ := override_eq_ok_iff.mp h
  exact Draft.admissible_draft_iff.mp hadmissible

/-! ### The run of `validate` -/

namespace Activity

variable {files : Files}

theorem hasErrors_iff (selected : List Path) (errors : Path → List Diagnostic) :
    Report.hasErrors (selected.eraseDups.map fun path => (toString path, errors path)) = true ↔
      ∃ path ∈ selected, errors path ≠ [] := by
  rw [Report.hasErrors, List.any_map, List.any_eq_true]
  refine exists_congr fun path => and_congr List.mem_eraseDups ?_
  simp

/-- A report is stored if one is asked for, before the command reports its status. -/
theorem ends_report {report : Option Path} {text : String} {status : Status}
    (hgrounded : files.IsGrounded) (hreport : ∀ place ∈ report, files.IsWritable place) :
    Ends (match report with
      | some path => do
        write path text
        say ("Wrote validation report to " ++ toString path)
        return status
      | _ => return status) files fun result after =>
        result = .ok status ∧ ∀ place ∈ report, after.find place = .ok (.file text) := by
  cases report with
  | none => exact fun _ hfiles => ⟨rfl, nofun⟩
  | some path =>
    obtain ⟨changed, hwrite⟩ := hreport path rfl text
    refine (gives_write hwrite).bind ((gives_say changed _).bind ?_)
    rintro session rfl
    refine ⟨rfl, ?_⟩
    rintro _ ⟨⟩
    exact Files.find_write hgrounded hwrite

variable [Platform]

/-- Errors are looked for in a document without a change to the files. -/
theorem gives_checkDocument {schema : Schema} {settings : Settings} {path : Path}
    {errors : List Diagnostic}
    (h : files.errors path (.ok schema) none settings.maxErrors = .ok errors) :
    (checkDocument schema settings path).Gives files (toString path, errors) := by
  have hlines : Gives (errors.forM fun d =>
      complain (toString path ++ ": " ++ d.path ++ ": " ++ d.describe)) files () :=
    gives_forM fun d _ => gives_complain files _
  refine (gives_files files).bind ((gives_ofExcept h _ files).bind ?_)
  split
  · exact (gives_say files _).bind (hlines.bind (gives_pure files _))
  · exact hlines.bind (gives_pure files _)

structure Concludes (files : Files) (settings : Settings) (report : Option Path)
    (selected : List Path) (errors : Path → List Diagnostic) (result : Except Failure Status)
    (after : Files) : Prop where
  /-- Without any document it fails. -/
  of_none : selected = [] → result = .error (.usage "No .json/.yaml documents found")
  /-- The status tells whether there are errors, and a report that is asked for is in its place. -/
  of_some : selected ≠ [] → (∀ place ∈ report, files.IsWritable place) →
    ∃ status, result = .ok status ∧ (status = .failure ↔ ∃ path ∈ selected, errors path ≠ []) ∧
      ∀ place ∈ report, after.find place = .ok (.file (Report.stored
        (selected.eraseDups.map fun path => (toString path, errors path)) settings.reportFormat))

theorem concludes_validate {schemaPath : Path} {paths : List Path} (report : Option Path)
    {maxErrors : Option Int} {config : Option Path} {session : Session} {schema : Schema}
    {loaded settings : Settings} {errors : Path → List Diagnostic}
    (hload : Settings.load session.files (config.map toString) session.environment = .ok loaded)
    (hoverride : loaded.override (maxErrors.toList.map fun n => (Settings.maxErrorsName, .int n)) =
      .ok settings)
    (hschema : session.files.HoldsSchema schemaPath schema)
    (hproper : ∀ path ∈ session.files.documents paths, path.IsProper)
    (herrors : ∀ path ∈ session.files.documents paths,
      session.files.errors path (.ok schema) none settings.maxErrors = .ok (errors path))
    (hgrounded : session.files.IsGrounded) :
    Concludes session.files settings report (session.files.documents paths) errors
      ((validate schemaPath paths report maxErrors config).outcome session).1
      ((validate schemaPath paths report maxErrors config).outcome session).2.files := by
  have hkept : Members.ofPairs
      ((session.files.documents paths).map fun path => (toString path, errors path)) =
        (session.files.documents paths).eraseDups.map fun path => (toString path, errors path) :=
    Members.ofPairs_map errors fun path hpath other hother =>
      Path.toString_injective (hproper path hpath) (hproper other hother)
  unfold validate
  -- once the settings are read, no step but the storing of the report changes the files
  refine Ends.of_outcome _ (outcome_settings hload ?_) ((gives_schema hschema).bind
    ((gives_files _).bind
      ((gives_mapM fun path hpath => gives_checkDocument (herrors path hpath)).bind ?_)))
  · cases maxErrors <;> exact hoverride
  rw [List.isEmpty_map, hkept]
  by_cases hempty : session.files.documents paths = []
  · rw [if_pos (List.isEmpty_iff.mpr hempty)]
    exact fun _ _ => ⟨fun _ => rfl, absurd hempty⟩
  · rw [if_neg (mt List.isEmpty_iff.mp hempty)]
    refine fun final hfiles => ⟨fun hnone => absurd hnone hempty, fun _ hreport => ?_⟩
    obtain ⟨hresult, hstored⟩ := ends_report hgrounded hreport final hfiles
    refine ⟨_, hresult, ?_, hstored⟩
    rw [← hasErrors_iff]
    simp

end Activity

theorem Status.code_eq_one_iff {status : Status} : status.code = 1 ↔ status = .failure := by
  cases status <;> decide

theorem Status.code_eq_zero_iff {status : Status} : status.code = 0 ↔ status ≠ .failure := by
  cases status <;> decide

namespace Command

/-- The exit status of `validate` is the verdict on all documents that it selects, whatever the limit
on errors; and a report holds for each of them the first of its errors. -/
theorem validate_verdict [Platform] (session : Session) (schemaPath : Path) (names : List String)
    (report : Option Path) (maxErrors : Option Int) (config : Option Path)
    {loaded settings : Settings} {schema : Schema}
    (hgrounded : session.files.IsGrounded) (hnamed : session.files.tree.IsNamed)
    (hload : Settings.load session.files (config.map toString) session.environment = .ok loaded)
    (hoverride : loaded.override (maxErrors.toList.map fun n => (Settings.maxErrorsName, .int n)) =
      .ok settings)
    (hschema : session.files.HoldsSchema schemaPath schema)
    (hplain : ∀ path ∈ session.files.documents (names.map Path.ofString), session.files.IsPlain path)
    (hread : ∀ path ∈ session.files.documents (names.map Path.ofString),
      ∃ ds, session.files.errors path (.ok schema) none settings.maxErrors = .ok ds)
    (hlocale : report.isSome → settings.reportFormat = .json → ∀ text, Platform.inLocale text = text) :
    let selected := session.files.documents (names.map Path.ofString)
    let final := (Command.run
      (.validate schemaPath (names.map Path.ofString) report maxErrors config)).outcome session
    (selected = [] → final.1 = .error (.usage "No .json/.yaml documents found")) ∧
    (selected ≠ [] → (∀ place ∈ report, session.files.IsWritable place) →
      ∃ status : Status, final.1 = .ok status ∧
      (status.code = 1 ↔ ∃ path ∈ selected, session.files.Rejects schema path) ∧
      (status.code = 0 ↔ ∀ path ∈ selected, session.files.Accepts schema path) ∧
      ∀ place ∈ report, ∃ text, final.2.files.find place = .ok (.file text) ∧
        Report.Tells
          (selected.eraseDups.map fun path =>
            (toString path, (session.files.documentErrors schema path).take settings.maxErrors))
          text settings.reportFormat) := by
  have hpos : (1 : Int) ≤ settings.maxErrors := by
    exact_mod_cast Settings.one_le_maxErrors_of_override hoverride
  have hpaths : ∀ path ∈ names.map Path.ofString, path.IsProper := by
    intro path hpath
    obtain ⟨name, -, rfl⟩ := List.mem_map.mp hpath
    exact Path.isProper_ofString name
  have hfirst : ∀ path ∈ session.files.documents (names.map Path.ofString),
      session.files.errors path (.ok schema) none settings.maxErrors =
        .ok ((session.files.documentErrors schema path).take settings.maxErrors) := by
    intro path hpath
    obtain ⟨ds, hds⟩ := hread path hpath
    rw [hds, (Files.cases_of_errors (hplain path hpath) hds hpos).1, Int.toNat_natCast]
  have hend := Activity.concludes_validate report hload hoverride hschema
    (fun path => Files.isProper_of_mem_documents hnamed hpaths) hfirst hgrounded
  refine ⟨hend.of_none, fun hnonempty hreport => ?_⟩
  obtain ⟨status, hresult, hstatus, hstored⟩ := hend.of_some hnonempty hreport
  refine ⟨status, hresult, ?_, ?_, fun place hplace => ⟨_, hstored place hplace, ?_⟩⟩
  · rw [Status.code_eq_one_iff, hstatus]
    exact exists_congr fun path => and_congr_right fun hpath =>
      (Files.rejects_iff_of_errors (hplain path hpath) (hfirst path hpath) hpos).symm
  · rw [Status.code_eq_zero_iff, ne_eq, hstatus, not_exists]
    refine forall_congr' fun path => ?_
    rw [not_and, not_not]
    exact forall_congr' fun hpath =>
      (Files.accepts_iff_of_errors (hplain path hpath) (hfirst path hpath) hpos).symm
  · rw [Report.stored_eq_render _ (hlocale (Option.isSome_of_mem hplace))]
    exact Report.tells_render _ _

def shelf : Files where
  tree := .directory [
    ("docs", .directory [("b.json", .file "[1, 2]"), ("a.json", .file "[")]),
    ("nulls.yaml", .file "- null\n"),
    ("schema.json", .file "\x7b\"items\": \x7b\"type\": \"null\"\x7d\x7d"),
    ("settings.yaml", .file "max_errors: 1\nreport_format: json\n")]

def shelfDocuments : List Path :=
  ["docs/a.json", "docs/b.json", "nulls.yaml", "docs/b.json"].map Path.ofString

def shelfReport : Report := [
  ("docs/a.json", [{
    path := "#", message := "Invalid JSON: Expecting value: line 1 column 2 (char 1)" }]),
  ("docs/b.json", [{
    path := "#/0", message := "Expecting null but instead got: 1",
    context := ["Item at index 0"] }]),
  ("nulls.yaml", [])]

theorem isNamed_shelf : shelf.tree.IsNamed := by
  refine FileTree.isNamed_directory (by decide +kernel) fun entry hentry => ?_
  simp only [List.mem_cons, List.not_mem_nil, or_false] at hentry
  rcases hentry with rfl | rfl | rfl | rfl
  · refine FileTree.isNamed_directory (by decide +kernel) fun entry hentry => ?_
    simp only [List.mem_cons, List.not_mem_nil, or_false] at hentry
    rcases hentry with rfl | rfl <;> exact FileTree.isNamed_file _
  · exact FileTree.isNamed_file _
  · exact FileTree.isNamed_file _
  · exact FileTree.isNamed_file _

theorem documents_shelf :
    shelf.documents (["docs", "nulls.yaml", "docs/b.json"].map Path.ofString) =
      shelfDocuments := by
  have hsort : ["b.json", "a.json"].mergeSort (fun a b => decide (a ≤ b)) =
      ["a.json", "b.json"] := by
    simp [List.mergeSort]
  have hdocs : shelf.documentsAt (.ofString "docs") =
      ((["b.json", "a.json"].mergeSort fun a b => decide (a ≤ b)).map
        (Path.child (.ofString "docs"))).filter Path.isDocument := rfl
  rw [Files.documents, List.map_cons, List.flatMap_cons, hdocs, hsort]
  decide +kernel

theorem isPlain_shelf : ∀ path ∈ shelfDocuments, shelf.IsPlain path := by
  have hnulls : shelf.read (.ofString "nulls.yaml") = .ok "- null\n" := rfl
  have htree : Yaml.read "- null\n" = .ok (.sequence [.scalar .null]) := rfl
  have hb : shelf.IsPlain (.ofString "docs/b.json") :=
    Files.isPlain_of_json (by decide +kernel) rfl rfl
  intro path hpath
  simp only [shelfDocuments, List.map_cons, List.map_nil, List.mem_cons, List.not_mem_nil,
    or_false] at hpath
  rcases hpath with rfl | rfl | rfl | rfl
  · exact Files.isPlain_of_json (by decide +kernel) rfl rfl
  · exact hb
  · exact Files.isPlain_of_yaml (by decide +kernel) hnulls (Yaml.readYaml_of_read htree)
      (Yaml.isPlain_of_read htree rfl)
  · exact hb

theorem schema_shelf :
    ∃ schema, shelf.HoldsSchema (.ofString "schema.json") schema ∧
      (∀ path ∈ shelfDocuments, ∃ ds, shelf.errors path (.ok schema) none (1 : Nat) = .ok ds) ∧
      shelfDocuments.eraseDups.map (fun path =>
        (toString path, (shelf.documentErrors schema path).take 1)) = shelfReport := by
  -- schemas have no decidable equality, so the one that is read is kept as it is
  have htest : (shelf.schema (.ofString "schema.json")).toOption.map (fun schema => decide (
      (∀ path ∈ shelfDocuments, (shelf.errors path (.ok schema) none (1 : Nat)).toOption.isSome) ∧
      shelfDocuments.eraseDups.map (fun path =>
        (toString path, (shelf.documentErrors schema path).take 1)) = shelfReport)) = some true := by
    decide +kernel
  obtain ⟨schema, hschema, htold⟩ := Option.map_eq_some_iff.mp htest
  obtain ⟨herrors, htold⟩ := of_decide_eq_true htold
  have hplain : shelf.IsPlain (.ofString "schema.json") :=
    Files.isPlain_of_json (by decide +kernel) rfl rfl
  have hholds := (Files.holdsSchema_iff hplain).mpr (Except.toOption_eq_some_iff.mp hschema)
  refine ⟨schema, hholds, fun path hpath => ?_, htold⟩
  obtain ⟨ds, hds⟩ := Option.isSome_iff_exists.mp (herrors path hpath)
  exact ⟨ds, Except.toOption_eq_some_iff.mp hds⟩

/-- Two documents are refused. Of the errors of one only the first is told, and only once though it is
selected twice. -/
theorem validate_shelf :
    let final := (Command.run (.validate (.ofString "schema.json")
      (["docs", "nulls.yaml", "docs/b.json"].map Path.ofString)
      (some (.ofString "out/report.json")) none
      (some (.ofString "settings.yaml")))).outcome { files := shelf }
    (∃ status : Status, final.1 = .ok status ∧ status.code = 1) ∧
    ∃ text, final.2.files.find (.ofString "out/report.json") = .ok (.file text) ∧
      shelfReport.Tells text .json := by
  have hload : Settings.load shelf ((some (Path.ofString "settings.yaml")).map toString) none =
      .ok { maxErrors := 1, reportFormat := .json } := by
    refine Except.toOption_eq_some_iff.mp ?_
    decide +kernel
  have hkept : ({ maxErrors := 1, reportFormat := .json } : Settings).override [] =
      .ok { maxErrors := 1, reportFormat := .json } := rfl
  obtain ⟨schema, hschema, herrors, htold⟩ := schema_shelf
  have hplain := isPlain_shelf
  rw [← documents_shelf] at herrors htold hplain
  have hopen : shelf.read (.ofString "docs/a.json") = .ok "[" := rfl
  have hjson : (Path.ofString "docs/a.json").isYaml = false := by decide +kernel
  have hmalformed : shelf.Rejects schema (.ofString "docs/a.json") :=
    .inl ⟨⟨.valueExpected, 1, 1, 2⟩, by rw [Files.document_of_read hopen, hjson]; rfl⟩
  have h := validate_verdict { files := shelf } (.ofString "schema.json")
    ["docs", "nulls.yaml", "docs/b.json"] (some (.ofString "out/report.json")) none
    (some (.ofString "settings.yaml")) ⟨_, rfl⟩ isNamed_shelf hload hkept hschema hplain herrors
    fun _ _ _ => rfl
  obtain ⟨status, hresult, hfailure, -, hstored⟩ := h.2 (by rw [documents_shelf]; decide) (by
    rintro _ ⟨⟩ text
    exact ⟨_, rfl⟩)
  refine ⟨⟨status, hresult, hfailure.mpr ⟨_, ?_, hmalformed⟩⟩, ?_⟩
  · rw [documents_shelf]
    decide
  · rw [← htold]
    exact hstored _ rfl

def blocked : Files where
  tree := .directory [
    ("out", .directory []), ("d.json", .file "1"), ("s.json", .file "\x7b\x7d")]

/-- A report that cannot be stored interrupts the command before it reports a status. -/
theorem validate_blocked :
    Settings.load blocked none none = .ok {} ∧ ({} : Settings).override [] = .ok {} ∧
    blocked.HoldsSchema (.ofString "s.json") (.node {}) ∧
    blocked.documents (["d.json"].map Path.ofString) = [.ofString "d.json"] ∧
    blocked.errors (.ofString "d.json") (.ok (.node {})) none ({} : Settings).maxErrors = .ok [] ∧
    blocked.Accepts (.node {}) (.ofString "d.json") ∧
    ((Command.run (.validate (.ofString "s.json") (["d.json"].map Path.ofString)
      (some (.ofString "out")) none none)).outcome { files := blocked }).1 =
        .error (.interrupted (.unreadable .isDirectory)) := by
  have hschema : blocked.Holds (.ofString "s.json") (.object []) :=
    .json _ (by decide +kernel) rfl ⟨rfl, rfl⟩
  have hdocument : blocked.Holds (.ofString "d.json") (.int 1) :=
    .json _ (by decide +kernel) rfl ⟨rfl, rfl⟩
  refine ⟨rfl, rfl, ⟨_, hschema, rfl⟩, ?_, rfl, ⟨_, hdocument, rfl⟩, rfl⟩
  decide +kernel

end Command

end JsonSchema
