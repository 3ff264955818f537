import JsonSchema.Files.Document

/-!
# Settings

Three settings steer the commands. They are kept in a YAML mapping and can be overridden one by one.
A draft holds a value for each of them; only a draft that passes `Draft.check` becomes settings, so a
limit on errors is never below one.
-/

namespace JsonSchema

inductive ReportFormat where
  | json
  | jsonLines
deriving DecidableEq

def ReportFormat.name : ReportFormat → String
  | .json => "json"
  | .jsonLines => "jsonl"

def ReportFormat.ofName? (name : String) : Option ReportFormat :=
  [ReportFormat.json, .jsonLines].find? (·.name = name)

structure Settings where
  /-- How many errors are sought in one document. -/
  maxErrors : Nat := 200
  /-- How many spaces a level is indented by; without any, values are written on one line. -/
  indent : Nat := 2
  reportFormat : ReportFormat := .jsonLines
deriving DecidableEq

inductive SettingsError where
  | notAMapping (source : String)
  | unknownNames (source : String) (names : List String)
  | notAnInteger (name : String)
  | formatNotText
  | limitBelowOne
  | negativeIndent
  | unknownFormat

def SettingsError.message : SettingsError → String
  | .notAMapping source => source ++ ": settings must be a mapping"
  | .unknownNames source names => source ++ ": unknown settings: " ++ ", ".intercalate names
  | .notAnInteger name => name ++ " must be an integer"
  | .formatNotText => "report_format must be a string"
  | .limitBelowOne => "max_errors must be at least 1"
  | .negativeIndent => "indent must not be negative"
  | .unknownFormat => "report_format must be one of json, jsonl"

inductive SettingsFailure where
  | unreadable (cause : FileError)
  | badYaml (cause : YamlError)
  /-- An unknown setting has a name that is not a text. -/
  | nameNotText
  /-- There is no setting of this name to override. -/
  | noSetting (name : String)
  | invalid (cause : SettingsError)

namespace Settings

def maxErrorsName : String := "max_errors"
def indentName : String := "indent"
def reportFormatName : String := "report_format"

def names : List String := [maxErrorsName, indentName, reportFormatName]

structure Draft where
  maxErrors : Value
  indent : Value
  reportFormat : Value

def draft (settings : Settings) : Draft where
  maxErrors := .int settings.maxErrors
  indent := .int settings.indent
  reportFormat := .string settings.reportFormat.name

namespace Draft

def change? (draft : Draft) (name : String) (value : Value) : Option Draft :=
  if name = maxErrorsName then some { draft with maxErrors := value }
  else if name = indentName then some { draft with indent := value }
  else if name = reportFormatName then some { draft with reportFormat := value }
  else none

def integer (name : String) : Value → Except SettingsError Int
  | .number (.int n) => .ok n
  | _ => .error (.notAnInteger name)

def text : Value → Except SettingsError String
  | .string s => .ok s
  | _ => .error .formatNotText

/-- The settings of a draft. The kinds of all values are checked before the values. -/
def check (draft : Draft) : Except SettingsError Settings := do
  let maxErrors ← integer maxErrorsName draft.maxErrors
  let indent ← integer indentName draft.indent
  let formatName ← text draft.reportFormat
  if maxErrors < 1 then .error .limitBelowOne
  else if indent < 0 then .error .negativeIndent
  else match ReportFormat.ofName? formatName with
    | some reportFormat =>
      return { maxErrors := maxErrors.toNat, indent := indent.toNat, reportFormat }
    | none => .error .unknownFormat

def overlay (draft : Draft) (members : List (String × Value)) : Except SettingsFailure Draft :=
  members.foldlM (fun draft (name, value) =>
    match draft.change? name value with
    | some draft => .ok draft
    | none => .error (.noSetting name)) draft

end Draft

def isNull : Value → Bool
  | .null => true
  | _ => false

/-- The settings with some of them changed; null leaves a setting as it is. -/
def override (settings : Settings) (changes : List (String × Value)) :
    Except SettingsFailure Settings := do
  let draft ← settings.draft.overlay (changes.filter fun change => !isNull change.2)
  draft.check.mapError .invalid

/-- The settings in a tree. An empty tree of whatever kind leaves all settings at their defaults. -/
def ofYaml (source : String) (tree : Yaml) : Except SettingsFailure Settings := do
  if !tree.truthy then return {}
  match tree.toValue with
  | .object members =>
    if !tree.hasTextNames then .error .nameNotText
    else match (Members.names members).filter (!names.contains ·) with
      | [] => (← ({} : Settings).draft.overlay members).check.mapError .invalid
      | unknown =>
        .error (.invalid (.unknownNames source (unknown.mergeSort fun a b => decide (a ≤ b))))
  | _ => .error (.invalid (.notAMapping source))

variable [Platform]

def loadFile (files : Files) (source : String) : Except SettingsFailure Settings := do
  let text ← (files.read (Path.ofString source)).mapError .unreadable
  ofYaml source (← (Platform.readYaml text).mapError .badYaml)

/-- The settings in the file of a given path, or else in the one that the environment names, or else
the defaults. -/
def load (files : Files) (path environment : Option String) : Except SettingsFailure Settings :=
  match path, environment with
  | some source, _ => loadFile files source
  | none, none | none, some "" => .ok {}
  | none, some source => loadFile files source

end Settings

end JsonSchema
