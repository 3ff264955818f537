import JsonSchema.Command.Arguments
import JsonSchema.Editing
import JsonSchema.Report
import JsonSchema.Schema.Encode
import JsonSchema.Yaml.Reader

/-!
# Running commands

A command is run in a session, which holds the files and what has been printed. What was printed and
written before a failure stays in the session. A command reads its settings first, then the schema,
then the documents.
-/

namespace JsonSchema

structure Session where
  files : Files
  /-- The settings file that the environment names. -/
  environment : Option String := none
  out : String := ""
  err : String := ""

inductive Status where
  | success
  | failure
deriving DecidableEq

def Status.code : Status → UInt32
  | .success => 0
  | .failure => 1

inductive Failure where
  /-- The arguments, or files that they name, do not fit the command. -/
  | usage (message : String)
  | settings (cause : SettingsFailure)
  | interrupted (cause : Interruption)
  /-- Values are to be indented wider than a line can be. -/
  | hugeIndent

abbrev Activity := ExceptT Failure (StateM Session)

namespace Activity

def say (line : String) : Activity Unit :=
  modify fun session => { session with out := session.out ++ line ++ "\n" }

/-- Prints a line for messages. -/
def complain (line : String) : Activity Unit :=
  modify fun session => { session with err := session.err ++ line ++ "\n" }

def files : Activity Files := return (← get).files

def ofExcept {α ε : Type} (failure : ε → Failure) : Except ε α → Activity α
  | .ok a => return a
  | .error cause => throw (failure cause)

def fileFailure (cause : FileError) : Failure := .interrupted (.unreadable cause)

def faultFailure (cause : Fault) : Failure := .interrupted (.fault cause)

def write (path : Path) (text : String) : Activity Unit := do
  let changed ← ofExcept fileFailure ((← files).write path text)
  modify fun session => { session with files := changed }

variable [Platform]

/-! ### Input -/

def settingsFailure : SettingsFailure → Failure
  | .invalid cause => .usage cause.message
  | cause => .settings cause

def settings (config : Option Path) (changes : List (String × Value)) : Activity Settings := do
  let session ← get
  let loaded ← ofExcept settingsFailure
    (Settings.load session.files (config.map toString) session.environment)
  ofExcept settingsFailure (loaded.override changes)

def schemaFailure (path : Path) : SchemaFileError → Failure
  | .noValue (.unreadable cause) => fileFailure cause
  | .noValue (.badJson cause) => .usage (toString path ++ ": " ++ cause.message)
  | .noValue (.badYaml cause) => .usage (toString path ++ ": " ++ cause.message)
  | .noSchema cause@(.malformed _ _) => .usage (toString path ++ ": " ++ cause.message)
  | .noSchema cause => .interrupted (.undecodable cause)

def schema (path : Path) : Activity Schema := do
  ofExcept (schemaFailure path) ((← files).schema path)

def documentFailure (path : Path) : DocumentError → Failure
  | .unreadable cause => fileFailure cause
  | .badJson cause => .usage (toString path ++ ": Invalid JSON: " ++ cause.message)
  | .badYaml cause => .usage (toString path ++ ": Invalid YAML: " ++ cause.message)

def document (path : Path) : Activity Value := do
  ofExcept (documentFailure path) ((← files).document path)

/-! ### Output -/

def widestIndent : Nat := 0x7fffffffffffffff

def render (settings : Settings) (value : Value) : Activity String :=
  if widestIndent < settings.indent then throw .hugeIndent
  else return Json.write (if settings.indent = 0 then .compact else .indented settings.indent) value

def sayValue (settings : Settings) (value : Value) : Activity Unit := do
  say (← render settings value)

/-! ### Commands -/

def checkDocument (schema : Schema) (settings : Settings) (path : Path) :
    Activity (String × List Diagnostic) := do
  let errors ← ofExcept .interrupted
    ((← files).errors path (.ok schema) none settings.maxErrors)
  if errors.isEmpty then say (toString path ++ ": OK")
  errors.forM fun d => complain (toString path ++ ": " ++ d.path ++ ": " ++ d.describe)
  return (toString path, errors)

def validate (schemaPath : Path) (paths : List Path) (report : Option Path)
    (maxErrors : Option Int) (config : Option Path) : Activity Status := do
  let limit := match maxErrors with
    | some n => [(Settings.maxErrorsName, Value.int n)]
    | none => []
  let settings ← settings config limit
  let schema ← schema schemaPath
  let checked ← ((← files).documents paths).mapM (checkDocument schema settings)
  if checked.isEmpty then throw (.usage "No .json/.yaml documents found")
  let found : Report := Members.ofPairs checked
  if let some path := report then
    write path (found.stored settings.reportFormat)
    say ("Wrote validation report to " ++ toString path)
  return if found.hasErrors then .failure else .success

def getPart (schemaPath documentPath : Path) (pointer : String) (config : Option Path) :
    Activity Status := do
  let settings ← settings config []
  let _ ← schema schemaPath
  match Schema.partAt (some (← document documentPath)) pointer with
  | some part =>
    sayValue settings part
    return .success
  | none =>
    complain ("Nothing at " ++ pointer)
    return .failure

/-- Prints the first message at each path. -/
def listMessages (schema : Schema) (settings : Settings) (value : Value) : Activity Status := do
  let errors ← ofExcept faultFailure (schema.errors schema value "#" settings.maxErrors)
  let messages := messagesByPath errors
  messages.forM fun (path, message) => complain (path ++ ": " ++ message)
  return if messages.isEmpty then .success else .failure

def setPart (schemaPath documentPath : Path) (pointer text : String) (out : Option Path)
    (isChecked : Bool) (config : Option Path) : Activity Status := do
  let settings ← settings config []
  let schema ← schema schemaPath
  let new ← ofExcept (fun cause => .usage ("VALUE is not valid JSON: " ++ cause.message))
    (Json.read text)
  match schema.setAt pointer new (some (← document documentPath)) with
  | .error cause =>
    complain cause.message
    return .failure
  | .ok updated =>
    match out with
    | none => sayValue settings updated
    | some path =>
      write path ((← render settings updated) ++ "\n")
      say ("Wrote " ++ toString path)
    if isChecked then listMessages schema settings updated else return .success

def inferType (schemaPath : Path) (pointer : String) (documentPath : Option Path) :
    Activity Status := do
  let schema ← schema schemaPath
  let value ← documentPath.mapM document
  match ← ofExcept faultFailure (schema.implyType value pointer) with
  | .ok implied =>
    say ("type: " ++ ((implied.type.toValue?).map Json.compact).getD "any")
    return .success
  | .error problem =>
    say "type: any"
    complain ("error: " ++ problem.message)
    return .failure

def resolveNode (schemaPath : Path) (pointer : String) (config : Option Path) :
    Activity Status := do
  let settings ← settings config []
  let schema ← schema schemaPath
  match schema.nodeAt pointer with
  | some node =>
    sayValue settings (Schema.node node).encode
    return .success
  | none =>
    complain ("No schema at " ++ pointer)
    return .failure

end Activity

namespace Command

variable [Platform]

def run : Command → Activity Status
  | .validate schema documents report maxErrors config =>
    Activity.validate schema documents report maxErrors config
  | .get schema document pointer config => Activity.getPart schema document pointer config
  | .set schema document pointer value out isChecked config =>
    Activity.setPart schema document pointer value out isChecked config
  | .infer schema pointer document => Activity.inferType schema pointer document
  | .resolve schema pointer config => Activity.resolveNode schema pointer config

def runWords (words : List String) : Activity Status := do
  let command ← Activity.ofExcept (fun cause => .usage cause.message) (parse words)
  command.run

end Command

end JsonSchema
