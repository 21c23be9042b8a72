import BuildConstants.Command.Run

/-!
# The program

Runs on the files of the system.
-/

namespace BuildConstants.System

/-- Why the system refuses something. -/
def fileErrorOf : IO.Error → FileError
  | .noFileOrDirectory .. => .missing
  | .alreadyExists .. => .alreadyExists
  | .inappropriateType _ 20 _ => .notDirectory
  | .inappropriateType _ 21 _ => .isDirectory
  | .invalidArgument _ 36 _ => .nameTooLong
  | error => .other (toString error)

/-- Does something with the result that it has or the reason why it fails. -/
def attempt {α : Type} (action : IO α) : IO (Except FileError α) := do
  match ← action.toBaseIO with
  | .ok value => pure (.ok value)
  | .error error => pure (.error (fileErrorOf error))

/-- The text of a file. -/
def readText (path : Path) : IO (Except FileError String) := do
  match ← attempt (IO.FS.readBinFile path.text) with
  | .ok octets =>
    match String.fromUTF8? octets with
    | some text => pure (.ok text)
    | none => pure (.error .notText)
  | .error error => pure (.error error)

/-- Whether a path leads to something of a kind. -/
def isOfType (type : IO.FS.FileType) (path : Path) : IO Bool := do
  match ← (((← IO.currentDir) / path.text).metadata).toBaseIO with
  | .ok found => pure (found.type == type)
  | .error _ => pure false

/-- The names in a directory. -/
def names (path : Path) : IO (List String) := do
  let entries ← ((← IO.currentDir) / path.text).readDir
  pure (entries.toList.map (·.fileName))

instance : Files IO where
  isFile := isOfType .file
  isDirectory := isOfType .dir
  readText := readText
  names path := attempt (names path)
  makeDirectory path := attempt (IO.FS.createDir path.text)
  writeText path text := attempt (IO.FS.writeFile path.text text)
  removeFile path := attempt (IO.FS.removeFile path.text)

/-- A variable with its value, if it has one. -/
def valueOf (name : String) : IO (Option (String × String)) := do
  pure ((← IO.getEnv name).map fun value => (name, value))

/-- What the run finds around it. -/
def surroundings : IO Surroundings := do
  let workingDirectory : Path := ⟨(← IO.currentDir).toString⟩
  pure (.ofValues workingDirectory (← Surroundings.watched.filterMapM valueOf))

end BuildConstants.System

open BuildConstants in
/-- Runs with the words behind the program's name. -/
def main (words : List String) : IO UInt32 := do
  let outcome : Outcome ← run words (← System.surroundings)
  IO.print outcome.output
  IO.eprint outcome.errors
  pure outcome.status.code
