import BuildConstants.Failure

/-!
# Files

What the commands ask of a file system, and what they build from it. A file system is a parameter,
so that commands can be run on the files of the system and on a `FileTree`.
-/

namespace BuildConstants

/-- A file system. Operations on a path that cannot be used fail; the two questions are answered
with no in that case. -/
class Files (m : Type → Type) where
  isFile : Path → m Bool
  isDirectory : Path → m Bool
  /-- The text of a file. -/
  readText : Path → m (Except FileError String)
  /-- The names in a directory, in any order. -/
  names : Path → m (Except FileError (List String))
  makeDirectory : Path → m (Except FileError Unit)
  /-- Gives a file its text; makes the file if it is missing. -/
  writeText : Path → String → m (Except FileError Unit)
  removeFile : Path → m (Except FileError Unit)

namespace Files

variable {m : Type → Type} [Monad m] [Files m]

/-- The paths above a path, the closest one first. Each has fewer components than the one before, of
which there are `count`. -/
def above : (count : Nat) → Path → List Path
  | 0, _ => []
  | count + 1, path =>
    match path.parent? with
    | none => []
    | some parent => if parent.text = "" then [] else parent :: above count parent

/-- The path and the paths above it. -/
def ancestors (path : Path) : List Path :=
  path :: above path.components.length path

/-- The directory could not be made because it is there. -/
def isThere (path : Path) (error : FileError) : m Bool :=
  if error = .alreadyExists then isDirectory path else pure false

/-- Makes the first of the directories that can be made; gives those in front of it, which are still
missing, the last one first. -/
def makeFirst (missing : List Path) : List Path → m (Except FileError (List Path))
  | [] => pure (.ok missing)
  | path :: rest => do
    match ← makeDirectory path with
    | .ok () => pure (.ok missing)
    | .error .missing => makeFirst (path :: missing) rest
    | .error error => do
      if ← isThere path error then pure (.ok missing) else pure (.error error)

/-- Makes directories in order. -/
def makeEach : List Path → m (Except FileError Unit)
  | [] => pure (.ok ())
  | path :: rest => do
    match ← makeDirectory path with
    | .ok () => makeEach rest
    | .error error => do
      if ← isThere path error then makeEach rest else pure (.error error)

/-- Makes a directory and those above it that are missing. -/
def makeDirectories (path : Path) : m (Except FileError Unit) := do
  if path.text = "" then pure (.ok ())
  else
    match ← makeFirst [] (ancestors path) with
    | .ok missing => makeEach missing
    | .error error => pure (.error error)

end Files

end BuildConstants
