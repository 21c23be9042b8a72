import BuildConstants.Command.Arguments
import BuildConstants.Command.Session
import BuildConstants.Command.Surroundings
import BuildConstants.Config
import BuildConstants.Generation.Log
import BuildConstants.Manifest

/-!
# Projects

Everything a task works with: what the command line gives, and what the configuration gives where
the command line is silent.
-/

namespace BuildConstants

/-- A project as a task sees it. -/
structure Project where
  root : Path
  /-- The configuration, if there is one. -/
  configPlace : Option Path
  rawProperties : Option String
  manifest : Manifest
  output : Path
  options : GenerateOptions
deriving DecidableEq

namespace Project

/-- The event that the configuration was read. -/
def configEvent (place : Path) : LogEvent :=
  { level := .debug, target := "bakeprop_core::config", message := "loaded config",
    fields := [("path", place.text)] }

/-- The event that the manifest was read. -/
def manifestEvent (manifest : Manifest) : LogEvent :=
  { level := .debug, target := "bakeprop_core::manifest", message := "loaded declaration manifest",
    fields :=
      [("path", manifest.path.text), ("candidates", toString manifest.declarations.length)] }

/-- The event that all of a project is known. -/
def loadEvent (project : Project) : LogEvent :=
  { level := .debug, target := "bakeprop", message := "loaded project",
    fields :=
      [("root", project.root.text), ("output", project.output.text),
        ("candidates", toString project.manifest.declarations.length)] }

variable {m : Type → Type} [Monad m] [Files m]

/-- Finds out all of a project. -/
def load (invocation : Invocation) (surroundings : Surroundings) : Session m Project := do
  let root := invocation.path.getD surroundings.workingDirectory
  let configPlace ← Session.perform (Config.place? root)
  let found ← Session.attempt (Config.load root)
  Session.tell (if found.isSome then configPlace.toList.map configEvent else [])
  let config := found.getD {}
  let some manifestPath := invocation.declarations.or config.declarations
    | Session.ofResult (.error .missingManifest)
  let manifest ← Session.attempt (Manifest.load (root.join manifestPath))
  let options := { config.options with
    emitMarker := config.options.emitMarker || invocation.emitMarker }
  let project : Project :=
    { root, configPlace, manifest, options
      rawProperties := (invocation.properties.or surroundings.properties).or config.properties
      output := (invocation.output.map root.join).getD (config.outputDirectory root) }
  Session.tell [manifestEvent manifest, project.loadEvent]
  pure project

/-- A path as it is shown. -/
def shown (project : Project) (path : Path) : String :=
  path.relativeTo project.root

/-- Where a unit is written. -/
def placeOf (project : Project) (unit : SourceUnit) : Path :=
  project.output.join ⟨unit.filename⟩

/-- One pass over the declarations of the project. -/
def pass (project : Project) : Session m GenerationOutput := do
  let declarations := project.manifest.declarations
  Session.tell (passEvents project.options project.rawProperties declarations)
  Session.ofResult (generate project.options project.rawProperties declarations .never)

/-- The name is that of a generated file. -/
def isGeneratedName (name : String) : Bool :=
  generatedSuffix.toList.isSuffixOf name.toList

/-- The files among some names in the output directory. -/
def filesAmong (project : Project) : List String → m (List String)
  | [] => pure []
  | name :: rest => do
    let others ← filesAmong project rest
    pure (if ← Files.isFile (project.output.join ⟨name⟩) then name :: others else others)

/-- The generated files in the output directory that are none of the given units, in the order of
their names. -/
def leftovers (project : Project) (units : List SourceUnit) : Session m (List Path) := do
  if ← Session.perform (Files.isDirectory project.output) then
    let names ← Session.attemptOutput (Files.names project.output)
    let suspects := names.filter fun name =>
      isGeneratedName name && !units.any (·.filename = name)
    let files ← Session.perform (project.filesAmong suspects)
    pure ((files.mergeSort (· ≤ ·)).map fun name => project.output.join ⟨name⟩)
  else pure []

end Project

end BuildConstants
