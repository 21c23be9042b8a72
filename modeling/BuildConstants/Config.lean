import BuildConstants.Document.Path
import BuildConstants.Document.Toml.Table
import BuildConstants.Files
import BuildConstants.Generation.Pass

/-!
# Configuration

What a project sets once for all its runs. The configuration is a file in TOML that is looked for in
a few places of the project.
-/

namespace BuildConstants

open Document (Field RecordLayout)

/-- The settings of a project. -/
structure Config where
  /-- The raw property text. -/
  properties : Option String := none
  /-- The manifest. -/
  declarations : Option Path := none
  /-- The output directory. -/
  output : Option Path := none
  /-- What is emitted besides the units of groups. -/
  options : GenerateOptions := {}
deriving DecidableEq

/-- The places of the configuration, the first one that is a file being used. -/
def configPlaces : List Path :=
  [⟨"bakeprop.toml"⟩, ⟨".bakeprop.toml"⟩, ⟨".config/bakeprop.toml"⟩]

/-- The output directory unless another is chosen. -/
def defaultOutput : Path :=
  ⟨"Generated"⟩

namespace Config

def optionsLayout : RecordLayout GenerateOptions :=
  { fields :=
      [Field.of "emit" .anywhere Document.asBool fun emitMarker o => { o with emitMarker },
        Field.of "namespace" .anywhere Document.asText
          fun markerNamespace o => { o with markerNamespace }]
    start := {} }

def layout : RecordLayout Config :=
  { fields :=
      [Field.of "properties" .anywhere (Document.asOption Document.asText)
          fun properties c => { c with properties },
        Field.of "declarations" .anywhere (Document.asOption Path.ofDocument)
          fun declarations c => { c with declarations },
        Field.of "output" .anywhere (Document.asOption Path.ofDocument)
          fun output c => { c with output },
        Field.of "marker" .anywhere (optionsLayout.read .toml) fun options c => { c with options }]
    start := {} }

/-- Reads the settings from their text. -/
def ofText (text : String) : Except Failure Config :=
  ((Toml.read text).decode (layout.read .toml)).mapError fun error =>
    .configUnreadable (.decode error)

/-- The output directory of a project in `root`. -/
def outputDirectory (config : Config) (root : Path) : Path :=
  root.join (config.output.getD defaultOutput)

variable {m : Type → Type} [Monad m] [Files m]

/-- The first of some paths that is a file. -/
def firstFile? : List Path → m (Option Path)
  | [] => pure none
  | path :: rest => do
    if ← Files.isFile path then pure (some path) else firstFile? rest

/-- Where the configuration of the project in `root` is. -/
def place? (root : Path) : m (Option Path) :=
  firstFile? (configPlaces.map root.join)

/-- Reads the configuration of the project in `root`, if there is one. -/
def load (root : Path) : m (Except Failure (Option Config)) := do
  match ← place? root with
  | none => pure (.ok none)
  | some path =>
    match ← Files.readText path with
    | .ok text => pure ((ofText text).map some)
    | .error error => pure (.error (.file error))

end Config

end BuildConstants
