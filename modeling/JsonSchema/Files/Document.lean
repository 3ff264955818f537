import JsonSchema.Files.Tree
import JsonSchema.Json.Reader
import JsonSchema.Platform
import JsonSchema.Schema.Decode
import JsonSchema.Validation

/-!
# Documents

A document is a file that holds a value, in YAML if its suffix says so and in JSON otherwise. The
errors of a document are those of its value; a document or a schema that is malformed counts as one
error at the root.
-/

namespace JsonSchema

inductive DocumentError where
  | unreadable (cause : FileError)
  | badJson (cause : Json.ReadError)
  | badYaml (cause : YamlError)

inductive SchemaFileError where
  | noValue (cause : DocumentError)
  | noSchema (cause : DecodeError)

inductive Interruption where
  | unreadable (cause : FileError)
  | undecodable (cause : DecodeError)
  | fault (cause : Fault)

namespace Files

variable [Platform]

def document (files : Files) (path : Path) : Except DocumentError Value := do
  let text ← (files.read path).mapError .unreadable
  if path.isYaml then return (← (Platform.readYaml text).mapError .badYaml).toValue
  else (Json.read text).mapError .badJson

def schema (files : Files) (path : Path) : Except SchemaFileError Schema := do
  (Schema.decode (← (files.document path).mapError .noValue)).mapError .noSchema

def malformedDocument (message : String) : List Diagnostic := [{ path := "#", message }]

/-- The first errors of a document, at most `limit` of them. References are resolved against `root`,
or against the schema itself if there is none. -/
def errors (files : Files) (path : Path) (schema : Except DecodeError Schema) (root : Option Schema)
    (limit : Int) : Except Interruption (List Diagnostic) :=
  match files.document path, schema with
  | .error (.unreadable cause), _ => .error (.unreadable cause)
  | .error (.badJson cause), _ => .ok (malformedDocument ("Invalid JSON: " ++ cause.message))
  | .error (.badYaml cause), _ => .ok (malformedDocument ("Invalid YAML: " ++ cause.message))
  | .ok _, .error cause@(.malformed _ _) =>
    .ok (malformedDocument ("Invalid schema: " ++ cause.message))
  | .ok _, .error cause => .error (.undecodable cause)
  | .ok value, .ok schema =>
    ((root.getD schema).errors schema value "#" limit).mapError .fault

end Files

end JsonSchema
