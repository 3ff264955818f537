import JsonSchema.Proofs.Characters
import JsonSchema.Proofs.Runs
import JsonSchema.Proofs.Storage
import JsonSchema.Proofs.Trees
import JsonSchema.Proofs.WellFormed

/-!
# What `set` writes is kept

A value whose numbers are integers is read back from a file as it was written, in the order of its
members. So a document that `set` has changed can be loaded from the file that it was stored in
(`Command.written_kept`), whether or not the change is checked afterwards.
-/

namespace JsonSchema

theorem Json.read_write (layout : Layout) {value : Value} (hwell : value.WellFormed)
    (hnumbers : value.AllNumbers Number.IsInt) : read (write layout value) = .ok value := by
  have hread := readWholeText_chars layout hwell hnumbers (List.forall_mem_nil _)
  rw [List.append_nil] at hread
  rw [read, write, String.toList_ofList, hread]
  rfl

namespace Files

variable {files : Files} {path : Path} {value : Value} {layout : Json.Layout}

theorem unifyLineEnds_of_forall_ne {chars : List Char} (h : ∀ c ∈ chars, c ≠ '\r') :
    unifyLineEnds chars = chars := by
  induction chars with
  | nil => rfl
  | cons c rest ih =>
    obtain ⟨hc, hrest⟩ := List.forall_mem_cons.mp h
    rw [unifyLineEnds, ih hrest]
    · exact fun _ hreturn _ => hc hreturn
    · exact fun hreturn => hc hreturn

/-- A file is read as the value that its text was written for, also with a line feed behind it. -/
theorem document_of_find [Platform] (hpath : path.suffix = ".json") (hwell : value.WellFormed)
    (hnumbers : value.AllNumbers Number.IsInt)
    (h : files.find path = .ok (.file (Json.write layout value ++ "\n"))) :
    files.document path = .ok value := by
  have hchars : (Json.write layout value ++ "\n").toList = Json.chars layout 0 value ++ ['\n'] := by
    rw [String.toList_append, Json.write, String.toList_ofList]
    rfl
  have hends : unifyLineEnds (Json.chars layout 0 value ++ ['\n']) =
      Json.chars layout 0 value ++ ['\n'] := by
    refine unifyLineEnds_of_forall_ne (List.forall_mem_append.mpr ⟨?_, ?_⟩)
    · exact fun c => Json.ne_return_of_mem_chars hnumbers
    · exact List.forall_mem_singleton.mpr (by decide)
  have hread : files.read path = .ok (String.ofList (Json.chars layout 0 value ++ ['\n'])) := by
    rw [read, h]
    simp only [bind, Except.bind]
    rw [hchars, hends]
    rfl
  have hyaml : path.isYaml = false := by
    rw [Path.isYaml, hpath]
    decide
  rw [document, hread]
  simp only [Except.mapError, bind, Except.bind]
  rw [if_neg (by rw [hyaml]; decide), Json.read, String.toList_ofList,
    Json.readWholeText_chars layout hwell hnumbers (List.forall_mem_singleton.mpr rfl)]
  rfl

end Files

namespace Activity

variable {files : Files} {schema : Schema} {settings : Settings} {value : Value}

theorem gives_render (h : settings.indent ≤ widestIndent) (value : Value) (files : Files) :
    ∃ layout, (render settings value).Gives files (Json.write layout value) := by
  refine ⟨if settings.indent = 0 then .compact else .indented settings.indent, ?_⟩
  rw [render, if_neg (Nat.not_lt.mpr h)]
  exact gives_pure files _

/-- A check changes no file, even if it is broken off. -/
theorem ends_listMessages (schema : Schema) (settings : Settings) (value : Value) (files : Files) :
    (listMessages schema settings value).Ends files fun _ after => after = files := by
  unfold listMessages
  cases herrors : schema.errors schema value "#" settings.maxErrors with
  | error cause =>
    rintro session rfl
    rfl
  | ok errors =>
    refine (gives_ofExcept rfl faultFailure files).bind ?_
    refine (gives_forM fun message _ => gives_complain files _).bind ?_
    exact fun session hfiles => hfiles

/-- The run of `set` with a file to write to. -/
theorem kept_setPart [Platform] {session : Session} {schemaPath documentPath out : Path}
    {pointer text : String} (isChecked : Bool) {config : Option Path} {loaded : Settings}
    {new current updated : Value} (hgrounded : session.files.IsGrounded)
    (hload : Settings.load session.files (config.map toString) session.environment = .ok loaded)
    (hoverride : loaded.override [] = .ok settings)
    (hschema : session.files.HoldsSchema schemaPath schema) (hnew : Json.StandsFor text new)
    (hdocument : session.files.Holds documentPath current)
    (hset : schema.setAt pointer new (some current) = .ok updated)
    (hnumbers : updated.AllNumbers Number.IsInt) (hindent : settings.indent ≤ widestIndent)
    (hout : out.suffix = ".json") (hwritable : session.files.IsWritable out) :
    let final := (setPart schemaPath documentPath pointer text (some out) isChecked
      config).outcome session
    final.2.files.document out = .ok updated ∧ (isChecked = false → final.1 = .ok .success) := by
  have hwell : updated.WellFormed := by
    refine Schema.wellFormed_setAt (Json.wellFormed_of_read hnew.hread) ?_ hset
    rintro _ ⟨⟩
    exact hdocument.wellFormed
  obtain ⟨layout, hrender⟩ := gives_render hindent updated session.files
  obtain ⟨changed, hwrite⟩ := hwritable (Json.write layout updated ++ "\n")
  have hkept := Files.document_of_find hout hwell hnumbers (Files.find_write hgrounded hwrite)
  unfold setPart
  refine Ends.of_outcome (fun (result : Except Failure Status) after =>
      after.document out = .ok updated ∧ (isChecked = false → result = .ok .success))
    (outcome_settings hload hoverride) ((gives_schema hschema).bind
      ((gives_ofExcept hnew.hread _ _).bind ((gives_document hdocument).bind ?_)))
  rw [hset]
  refine hrender.bind ((gives_write hwrite).bind ((gives_say changed _).bind ?_))
  cases isChecked with
  | false =>
    rintro final rfl
    exact ⟨hkept, fun _ => rfl⟩
  | true =>
    intro final hfinal
    rw [if_pos rfl, ends_listMessages schema settings updated changed final hfinal]
    exact ⟨hkept, nofun⟩

end Activity

namespace Command

/-- Written JSON is read back as it was, in every layout; and the file that `set` writes to holds the
changed document afterwards, unless values are to be indented wider than a line can be. -/
theorem written_kept [Platform] :
    (∀ (layout : Json.Layout) {value : Value}, value.WellFormed → value.AllNumbers Number.IsInt →
      Json.read (Json.write layout value) = .ok value) ∧
    ∀ (session : Session) (schemaPath documentPath out : Path) (pointer text : String)
      (isChecked : Bool) (config : Option Path) {loaded settings : Settings} {schema : Schema}
      {new current updated : Value}, session.files.IsGrounded →
      Settings.load session.files (config.map toString) session.environment = .ok loaded →
      loaded.override [] = .ok settings → session.files.HoldsSchema schemaPath schema →
      Json.StandsFor text new → session.files.Holds documentPath current →
      schema.setAt pointer new (some current) = .ok updated →
      updated.AllNumbers Number.IsInt → settings.indent ≤ Activity.widestIndent →
      out.suffix = ".json" → session.files.IsWritable out →
      let (result, after) := (Command.run (.set schemaPath documentPath pointer text (some out)
        isChecked config)).outcome session
      after.files.document out = .ok updated ∧
        (isChecked = false → result = .ok .success) := by
  refine ⟨fun layout => Json.read_write layout, ?_⟩
  intro session schemaPath documentPath out pointer text isChecked config loaded settings schema new
    current updated hgrounded hload hoverride hschema hnew hdocument hset hnumbers hindent hout
    hwritable
  exact Activity.kept_setPart isChecked hgrounded hload hoverride hschema hnew hdocument hset
    hnumbers hindent hout hwritable

def note : Value := .object [("title", .string "été"), ("tags", .array [.string "draft"])]

/-- Strings with quotes, a backslash, line ends and another control character. -/
def tag : Value := .object [("\"\\\r\n", .array []), ("\x01", .int (-120))]

example : Json.compact tag = "\x7b\"\\\"\\\\\\r\\n\":[],\"\\u0001\":-120\x7d" := by
  rfl

def desk : Files where
  tree := .directory [
    ("note.yaml", .file "title: été\ntags:\n- draft\n"), ("schema.json", .file "\x7b\x7d")]

theorem holds_desk : desk.Holds (.ofString "note.yaml") note := by
  have hread : Yaml.read "title: été\ntags:\n- draft\n" =
      .ok (.mapping [(.text "title", .scalar (.text "été")),
        (.text "tags", .sequence [.scalar (.text "draft")])]) := rfl
  exact .yaml _ (by decide +kernel) rfl
    ⟨_, Yaml.readYaml_of_read hread, Yaml.isPlain_of_read hread rfl, rfl⟩

theorem written_kept_desk :
    Json.read (Json.write .compact tag) = .ok tag ∧
    let (result, after) := (Command.run (.set (.ofString "schema.json") (.ofString "note.yaml")
      "#/tags/1" (Json.write .compact tag) (some (.ofString "out/note.json")) false
      none)).outcome { files := desk }
    after.files.document (.ofString "out/note.json") =
      .ok (.object [("title", .string "été"), ("tags", .array [.string "draft", tag])]) ∧
    result = .ok .success := by
  have hwell : tag.WellFormed := by
    simp [tag, Value.int, Value.WellFormed, Value.WellFormedItems, Value.WellFormedMembers,
      Members.Distinct, Members.names]
  have htag : tag.AllNumbers Number.IsInt := by simp [tag, Value.int, Number.IsInt]
  have hread := written_kept.1 .compact hwell htag
  have hload : Settings.load desk none none = .ok {} := rfl
  have hoverride : ({} : Settings).override [] = .ok {} := rfl
  have hschema : desk.HoldsSchema (.ofString "schema.json") (.node {}) :=
    ⟨.object [], .json _ (by decide +kernel) rfl ⟨by decide +kernel, rfl⟩, rfl⟩
  have hset : (Schema.node {}).setAt "#/tags/1" tag (some note) =
      .ok (.object [("title", .string "été"), ("tags", .array [.string "draft", tag])]) := rfl
  have hwritable : desk.IsWritable (.ofString "out/note.json") := fun _ => ⟨_, rfl⟩
  have h := written_kept.2 { files := desk } (.ofString "schema.json") (.ofString "note.yaml")
    (.ofString "out/note.json") "#/tags/1" (Json.write .compact tag) false none ⟨_, rfl⟩ hload
    hoverride hschema ⟨by decide +kernel, hread⟩ holds_desk hset (by simp [htag]) (by decide)
    (by decide +kernel) hwritable
  exact ⟨hread, h.1, h.2 rfl⟩

end Command

end JsonSchema
