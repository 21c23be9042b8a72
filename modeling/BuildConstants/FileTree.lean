import BuildConstants.Files

/-!
# File trees

A file system as a value: files and directories below a root, and the directory that relative paths
start from. The root is a directory, and every other directory and file is an entry. There can be
files that cannot be read. They can be written and taken away nevertheless, and writing does not
make them readable; a file that is made can be read.

Links are outside the model: every file has one place, and what is at a place is a directory or a
file itself. So are the permissions of directories, which can all be listed and entered.
-/

namespace BuildConstants

/-- What a file holds. -/
inductive FileContents where
  | text (text : String)
  /-- Octets that are no text. -/
  | octets (octets : List UInt8)
deriving DecidableEq

/-- A file or a directory. -/
inductive FileNode where
  | directory
  | file (contents : FileContents)
deriving DecidableEq

/-- The names on the way from the root to a file or directory. -/
abbrev Place : Type :=
  List String

/-- The files and directories of a system. -/
structure FileTree where
  entries : List (Place × FileNode)
  /-- The directory that relative paths start from. -/
  working : Place
  /-- Where the files are that cannot be read. -/
  unreadable : List Place := []

namespace FileTree

/-- What is at a place. -/
def node? (tree : FileTree) (place : Place) : Option FileNode :=
  if place = [] then some .directory else tree.entries.lookup place

def isDirectoryAt (tree : FileTree) (place : Place) : Bool :=
  tree.node? place = some .directory

/-- Puts a file or directory at a place. -/
def put (tree : FileTree) (place : Place) (node : FileNode) : FileTree :=
  { tree with entries := tree.entries.filter (·.1 ≠ place) ++ [(place, node)] }

/-- Takes away what is at a place. -/
def erase (tree : FileTree) (place : Place) : FileTree :=
  { tree with
    entries := tree.entries.filter (·.1 ≠ place)
    unreadable := tree.unreadable.filter (· ≠ place) }

/-- The names of the entries directly below a place. -/
def namesAt (tree : FileTree) (place : Place) : List String :=
  tree.entries.filterMap fun (other, _) =>
    match other.reverse with
    | [] => none
    | name :: above => if above.reverse = place then some name else none

/-! ## Paths -/

/-- The number of octets that a name can have. -/
def nameLimit : Nat :=
  255

/-- The number of octets that a path has to stay below. -/
def pathLimit : Nat :=
  4096

/-- Follows segments of a path from a place, which has to be a directory if there are any. -/
def follow (tree : FileTree) : Place → List String → Except FileError Place
  | place, [] => .ok place
  | place, segment :: rest =>
    if !tree.isDirectoryAt place then .error .notDirectory
    else if segment = "" || segment = "." then tree.follow place rest
    else if segment = ".." then tree.follow place.dropLast rest
    else if segment.utf8ByteSize > nameLimit then .error .nameTooLong
    else if (tree.node? (place ++ [segment])).isNone then .error .missing
    else tree.follow (place ++ [segment]) rest

/-- Refuses the paths that no system can use. -/
def checkPath (path : Path) : Except FileError Unit :=
  if '\x00' ∈ path.text.toList then .error .zeroInName
  else if path.text = "" then .error .missing
  else if path.text.utf8ByteSize ≥ pathLimit then .error .nameTooLong
  else .ok ()

/-- The place that a path starts from. -/
def startOf (tree : FileTree) (path : Path) : Place :=
  if path.isAbsolute then [] else tree.working

/-- The place that a path leads to, at which there is something. -/
def locate (tree : FileTree) (path : Path) : Except FileError Place := do
  checkPath path
  tree.follow (tree.startOf path) (Text.parts '/' path.text)

/-- What a path leads to. -/
def nodeOf? (tree : FileTree) (path : Path) : Option FileNode :=
  match tree.locate path with
  | .ok place => tree.node? place
  | .error _ => none

/-- Where a path asks for an entry to be made. -/
inductive Target where
  /-- A name in a directory; `slashed` says that slashes follow it. -/
  | entry (place : Place) (slashed : Bool)
  /-- The directory itself that the path leads to, or the one above it. -/
  | directory

/-- Where a path asks for an entry to be made. The directory has to be there, and the entry itself
need not. -/
def target (tree : FileTree) (path : Path) : Except FileError Target := do
  checkPath path
  let segments := Text.parts '/' path.text
  let (slashes, reversed) := segments.reverse.span (· = "")
  match reversed with
  | [] => .ok .directory
  | last :: before =>
    let place ← tree.follow (tree.startOf path) before.reverse
    if !tree.isDirectoryAt place then .error .notDirectory
    else if last = "." || last = ".." then .ok .directory
    else if last.utf8ByteSize > nameLimit then .error .nameTooLong
    else .ok (.entry (place ++ [last]) (!slashes.isEmpty))

/-! ## Operations -/

def isFile (tree : FileTree) (path : Path) : Bool :=
  match tree.nodeOf? path with
  | some (.file _) => true
  | _ => false

def isDirectory (tree : FileTree) (path : Path) : Bool :=
  tree.nodeOf? path = some .directory

/-- Why a file cannot be read that others can be. -/
def permissionDenied : FileError :=
  .other "Permission denied (os error 13)"

/-- The text of a file. -/
def readText (tree : FileTree) (path : Path) : Except FileError String := do
  let place ← tree.locate path
  if place ∈ tree.unreadable then .error permissionDenied
  else
    match tree.node? place with
    | some (.file (.text text)) => .ok text
    | some (.file (.octets _)) => .error .notText
    | some .directory => .error .isDirectory
    | none => .error .missing

/-- The names in a directory. -/
def names (tree : FileTree) (path : Path) : Except FileError (List String) := do
  let place ← tree.locate path
  if tree.isDirectoryAt place then .ok (tree.namesAt place) else .error .notDirectory

/-- Makes a directory, where nothing is yet. -/
def makeDirectory (tree : FileTree) (path : Path) : Except FileError FileTree := do
  match ← tree.target path with
  | .directory => .error .alreadyExists
  | .entry place _ =>
    if (tree.node? place).isSome then .error .alreadyExists
    else .ok (tree.put place .directory)

/-- Gives a file its contents. -/
def write (tree : FileTree) (path : Path) (contents : FileContents) :
    Except FileError FileTree := do
  match ← tree.target path with
  | .directory | .entry _ true => .error .isDirectory
  | .entry place false =>
    if tree.isDirectoryAt place then .error .isDirectory
    else .ok (tree.put place (.file contents))

/-- Takes a file away. -/
def removeFile (tree : FileTree) (path : Path) : Except FileError FileTree := do
  let place ← tree.locate path
  if tree.isDirectoryAt place then .error .isDirectory else .ok (tree.erase place)

/-- An operation that changes the tree when it succeeds. -/
def change (step : FileTree → Except FileError FileTree) :
    StateM FileTree (Except FileError Unit) :=
  modifyGet fun tree =>
    match step tree with
    | .ok changed => (.ok (), changed)
    | .error error => (.error error, tree)

instance : Files (StateM FileTree) where
  isFile path := modifyGet fun tree => (tree.isFile path, tree)
  isDirectory path := modifyGet fun tree => (tree.isDirectory path, tree)
  readText path := modifyGet fun tree => (tree.readText path, tree)
  names path := modifyGet fun tree => (tree.names path, tree)
  makeDirectory path := change (·.makeDirectory path)
  writeText path text := change (·.write path (.text text))
  removeFile path := change (·.removeFile path)

end FileTree

end BuildConstants
