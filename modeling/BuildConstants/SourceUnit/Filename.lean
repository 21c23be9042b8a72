import BuildConstants.Text.Split

/-!
# File names of units

A unit is named after its container. Different containers can ask for the same name, so names are
handed out by an allocator: the first container gets the plain name, and the later ones get the
least number from two on whose name is free.
-/

namespace BuildConstants

/-- The end of every generated file's name. -/
def generatedSuffix : String :=
  ".g.cs"

/-- The file that declares the marker attribute. -/
def markerFilename : String :=
  "BuildPropertyAttribute.g.cs"

/-- Type parameters are written with square brackets in a file name. -/
def bracketed (c : Char) : Char :=
  if c = '<' then '[' else if c = '>' then ']' else c

/-- The dots of a namespace become underscores in a file name. -/
def underscored (c : Char) : Char :=
  if c = '.' then '_' else c

/-- The file name of a container without its suffix. -/
def filenameStem (namespaceName containerName : String) : String :=
  let scope := if namespaceName = "" then "" else namespaceName.map underscored ++ "_"
  scope ++ containerName.map bracketed

/-- The name of the first unit with a stem. -/
def plainFilename (stem : String) : String :=
  stem ++ generatedSuffix

/-- The name of a later unit with a stem. -/
def numberedFilename (stem : String) (number : Nat) : String :=
  s!"{stem}.{number}{generatedSuffix}"

/-- The file names in use. -/
structure Filenames where
  used : List String

namespace Filenames

def empty : Filenames :=
  ⟨[]⟩

/-- Takes a name out of the supply. -/
def reserve (names : Filenames) (filename : String) : Filenames :=
  if filename ∈ names.used then names else ⟨filename :: names.used⟩

/-- The first free name among the numbers from `number` on; `tries` of them are looked at, and the
one after these is taken unseen. -/
def firstFree (used : List String) (stem : String) : (tries number : Nat) → String
  | 0, number => numberedFilename stem number
  | tries + 1, number =>
    if numberedFilename stem number ∈ used then firstFree used stem tries (number + 1)
    else numberedFilename stem number

/-- A free name with the given stem. As many numbers are looked at as names are in use: one of these
is the plain name, so the other names cannot take them all. -/
def freeFor (names : Filenames) (stem : String) : String :=
  if plainFilename stem ∈ names.used then firstFree names.used stem names.used.length 2
  else plainFilename stem

/-- Hands out a free name for the unit of a container. -/
def allocate (names : Filenames) (namespaceName containerName : String) : String × Filenames :=
  let filename := names.freeFor (filenameStem namespaceName containerName)
  (filename, ⟨filename :: names.used⟩)

end Filenames

end BuildConstants
