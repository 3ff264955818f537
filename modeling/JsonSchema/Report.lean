import JsonSchema.Json.Writer
import JsonSchema.Platform
import JsonSchema.Settings

/-!
# Reports

A report lists the errors of documents: as one object with a member for each document, or as lines
that hold one error each. No line feed is written inside a line, so the lines can be told apart.
-/

namespace JsonSchema

/-- Documents in order, each with its errors. -/
abbrev Report := List (String × List Diagnostic)

namespace Diagnostic

def members (d : Diagnostic) : List (String × Value) := [
  ("path", .string d.path), ("message", .string d.message), ("detail", .string d.describe)]

def toRecord (document : String) (d : Diagnostic) : Value :=
  .object (("document", .string document) :: d.members)

end Diagnostic

namespace Report

def records (report : Report) : List Value :=
  report.flatMap fun (document, errors) => errors.map (·.toRecord document)

/-- One object on each line; every line is closed by a line feed. -/
def lines (records : List Value) : String :=
  String.ofList (records.flatMap fun record => (Json.write .spaced record).toList ++ ['\n'])

def toValue (report : Report) : Value :=
  .object (report.map fun (document, errors) =>
    (document, .array (errors.map fun d => .object d.members)))

def render (report : Report) : ReportFormat → String
  | .json => Json.write (.indented 2) report.toValue ++ "\n"
  | .jsonLines => lines report.records

/-- What is stored of a report; as one object it is written in the encoding of the locale. -/
def stored [Platform] (report : Report) : ReportFormat → String
  | .json => Platform.inLocale (report.render .json)
  | .jsonLines => report.render .jsonLines

def hasErrors (report : Report) : Bool := report.any fun (_, errors) => !errors.isEmpty

end Report

end JsonSchema
