import BuildConstants.Generation.Cache
import BuildConstants.Generation.Cancellation

/-!
# Generation passes

A pass turns a raw property text and declarations into units and diagnostics. The stages that it is
made of are a parameter: computed afresh, or read through a cache.
-/

namespace BuildConstants

/-- The namespace of the marker attribute unless another is chosen. -/
def defaultMarkerNamespace : String :=
  "BakeProp"

/-- What a pass emits besides the units of groups. -/
structure GenerateOptions where
  emitMarker : Bool := false
  markerNamespace : String := defaultMarkerNamespace
deriving DecidableEq

/-- The result of a pass. -/
structure GenerationOutput where
  units : List SourceUnit
  diagnostics : List Diagnostic
deriving DecidableEq

def GenerationOutput.hasDiagnostics (output : GenerationOutput) : Bool :=
  !output.diagnostics.isEmpty

/-- The stages of a pass. -/
structure Stages (m : Type → Type) where
  properties : Option String → m PropertyMap
  verdict : Declaration → m Verdict
  unitText : Group → PropertyMap → m String

namespace Stages

/-- The stages computed afresh. -/
def direct : Stages Id where
  properties raw := PropertyMap.resolve raw
  verdict d := d.verdict
  unitText g properties := g.unitText properties

/-- The stages read through a cache by the pass with the given number. -/
def cached (pass : Nat) : Stages (StateM Cache) where
  properties := Cache.readProperties pass
  verdict := Cache.readVerdict pass
  unitText := Cache.readUnitText pass

variable {m : Type → Type} [Monad m]

/-- Looks at the signal for the check with the given number. -/
def check (signal : Signal) (number : Nat) : ExceptT Failure m Unit :=
  ExceptT.mk (pure (signal.check number))

/-- The verdicts on some declarations, with a check before each; `number` is that of the next
check. -/
def verdicts (stages : Stages m) (signal : Signal) :
    (number : Nat) → List Declaration → ExceptT Failure m (List Verdict)
  | _, [] => pure []
  | number, d :: rest => do
    check signal number
    let verdict ← stages.verdict d
    let others ← verdicts stages signal (number + 1) rest
    pure (verdict :: others)

/-- The units of some groups, with a check before each; `number` is that of the next check. -/
def units (stages : Stages m) (signal : Signal) (properties : PropertyMap) :
    (number : Nat) → Filenames → List Group → ExceptT Failure m (List SourceUnit)
  | _, _, [] => pure []
  | number, names, g :: rest => do
    check signal number
    let (filename, names) := names.allocate g.container.namespaceName g.container.name
    let text ← stages.unitText g properties
    let others ← units stages signal properties (number + 1) names rest
    pure ({ filename, text } :: others)

/-- One pass. The marker unit comes first, and no other unit takes its name. -/
def run (stages : Stages m) (options : GenerateOptions) (raw : Option String)
    (declarations : List Declaration) (signal : Signal) : ExceptT Failure m GenerationOutput := do
  let properties ← stages.properties raw
  let verdicts ← verdicts stages signal 0 declarations
  let groups := Group.ofModels (verdicts.filterMap Verdict.model?)
  let markers := if options.emitMarker then [SourceUnit.marker options.markerNamespace] else []
  let names := if options.emitMarker then Filenames.empty.reserve markerFilename else .empty
  let units ← units stages signal properties declarations.length names groups
  pure { units := markers ++ units, diagnostics := verdicts.filterMap Verdict.diagnostic? }

end Stages

/-- A pass that computes every stage afresh. -/
def generate (options : GenerateOptions) (raw : Option String) (declarations : List Declaration)
    (signal : Signal) : Except Failure GenerationOutput :=
  Id.run (Stages.direct.run options raw declarations signal).run

/-- A pass that reads every stage through the cache. A pass that is cancelled is dropped. -/
def generateCached (options : GenerateOptions) (raw : Option String)
    (declarations : List Declaration) (signal : Signal) :
    StateM Cache (Except Failure GenerationOutput) := do
  let pass ← Cache.begin
  let result ← ((Stages.cached pass).run options raw declarations signal).run
  match result with
  | .ok output =>
    Cache.finish pass
    pure (.ok output)
  | .error failure => pure (.error failure)

end BuildConstants
