import JsonSchema.Command.Run

/-!
# The program

The files that the words of the command line mention are taken from the disk, the command is run on
them, and what it has changed is written back.
-/

namespace JsonSchema

def settingsVariable : String := "SCHEMAKIT_CONFIG"

/-- The texts that may be paths: every word, and what stands behind an equals sign. -/
def mentionedPaths (words : List String) (environment : Option String) : List String :=
  words ++ words.filterMap (fun word => (Arguments.splitWord word).2) ++ environment.toList

def FileError.message : FileError → String
  | .missing => "there is no such file"
  | .isDirectory => "a directory is no file"
  | .notADirectory => "a file is no directory"
  | .exists => "there is a file in the place of a directory"

def Fault.message : Fault → String
  | .infiniteMultiple => "no multiple of or by an infinite number can be told"
  | .undefinedMultiple => "no multiple of something that is not a number can be told"
  | .hugeRepetition => "a pattern has too large a repetition count"
  | .conflictingFlags => "a pattern has flags that exclude each other"
  | .hugeLookBehind => "a pattern looks behind too far"
  | .badLimit => "the limit on errors is too large"
  | .outOfFuel => "the check was ended before its time"

def Interruption.message : Interruption → String
  | .unreadable cause => cause.message
  | .undecodable cause => cause.message
  | .fault cause => cause.message

def SettingsFailure.message : SettingsFailure → String
  | .unreadable cause => cause.message
  | .badYaml cause => cause.message
  | .nameNotText => "the name of a setting is not a text"
  | .noSetting name => "there is no setting " ++ name
  | .invalid cause => cause.message

def Failure.message : Failure → String
  | .usage message => message
  | .settings cause => cause.message
  | .interrupted cause => cause.message
  | .hugeIndent => "the indentation is too wide"

def Failure.code : Failure → UInt32
  | .usage _ => 2
  | _ => 1

end JsonSchema

open JsonSchema in
def main (words : List String) : IO UInt32 := do
  let here ← IO.currentDir
  let environment ← IO.getEnv settingsVariable
  let working := Path.ofString here.toString
  let mut files : Files := { workingDirectory := working.names }
  if let .ok found := files.addDirectory working then files := found
  for text in mentionedPaths words environment do
    let path := Path.ofString text
    let location := here / toString path
    if ← location.isDir then
      if let .ok found := files.addDirectory path then files := found
      for entry in ← location.readDir do
        let child := path.child entry.fileName
        if child.isDocument then
          let found ←
            if ← entry.path.isDir then pure (files.addDirectory child)
            else files.write child <$> IO.FS.readFile entry.path
          if let .ok found := found then files := found
    else if ← location.pathExists then
      if let .ok found := files.write path (← IO.FS.readFile location) then files := found
  let (result, session) := (Command.runWords words).run.run { files, environment }
  IO.print session.out
  IO.eprint session.err
  for (place, text) in session.files.changedSince files do
    let location := here / ("/" ++ "/".intercalate place)
    if let some parent := location.parent then IO.FS.createDirAll parent
    IO.FS.writeFile location text
  match result with
  | .ok status => return status.code
  | .error failure =>
    IO.eprintln failure.message
    return failure.code
