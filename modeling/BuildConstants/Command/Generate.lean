import BuildConstants.Command.Project
import BuildConstants.Command.Result

/-!
# Generating

The task that writes the units of a project and takes away the generated files that are left over.
A dry run only says what it would do.
-/

namespace BuildConstants

/-- What generating did, or would do. -/
structure GenerateResult where
  project : Project
  output : GenerationOutput
  leftovers : List Path
  denyWarnings : Bool
  dryRun : Bool

namespace GenerateResult

/-- The warnings, if there are any, are admitted. -/
def isGood (result : GenerateResult) : Bool :=
  !(result.denyWarnings && result.output.hasDiagnostics)

/-- The sentence that sums up. -/
def summary (result : GenerateResult) (isColored : Bool) : String :=
  let verb := if result.dryRun then "Would generate" else "Generated"
  Text.inked isColored (if result.output.hasDiagnostics then .yellow else .green)
    (s!"{verb} {result.output.units.length} file(s) with " ++
      s!"{result.output.diagnostics.length} diagnostic(s).")

/-- The files that were written, or would be. -/
def written (result : GenerateResult) : List String :=
  result.output.units.map fun unit => result.project.shown (result.project.placeOf unit)

/-- The files that were taken away, or would be. -/
def removed (result : GenerateResult) : List String :=
  result.leftovers.map result.project.shown

/-- The lines on what was done. -/
def lines (result : GenerateResult) (isColored : Bool) : List String :=
  let (write, remove) :=
    if result.dryRun then ("Would write", "Would remove") else ("Wrote", "Removed")
  result.written.map (fun file => s!"  {write} {file}") ++
    result.removed.map (fun file => s!"  {remove} {file}") ++ [result.summary isColored]

def toDocument (result : GenerateResult) : Document :=
  let unitRecord (unit : SourceUnit) : Document :=
    .record
      [("file", .text (result.project.shown (result.project.placeOf unit))),
        ("bytes", .integer unit.text.utf8ByteSize)]
  .record
    [("ok", .bool result.isGood), ("dry_run", .bool result.dryRun),
      ("units", .list (result.output.units.map unitRecord)),
      ("removed", .list (result.removed.map .text)),
      ("diagnostics", .list (result.output.diagnostics.map (·.toDocument result.project.root)))]

/-- The result in the form asked for. -/
def present (result : GenerateResult) (format : ReportFormat) (isColored : Bool) : TaskResult :=
  let diagnostics := result.output.diagnostics
  let root := result.project.root
  match format with
  | .json => { output := TaskResult.recordLine result.toDocument, isGood := result.isGood }
  | .github =>
    { output := textOfLines (diagnostics.map (·.notice root))
      errors := textOfLines [result.summary isColored]
      isGood := result.isGood }
  | .text =>
    { output := textOfLines (result.lines isColored)
      errors := reportsText diagnostics root result.denyWarnings isColored
      isGood := result.isGood }

end GenerateResult

namespace Project

variable {m : Type → Type} [Monad m] [Files m]

/-- The event that a file was taken away. -/
def removalEvent (place : Path) : LogEvent :=
  { level := .debug, target := "bakeprop", message := "removed leftover generated file",
    fields := [("path", place.text)] }

/-- Writes some units into the output directory. -/
def writeUnits (project : Project) : List SourceUnit → Session m Unit
  | [] => pure ()
  | unit :: rest => do
    Session.attemptOutput (Files.writeText (project.placeOf unit) unit.text)
    writeUnits project rest

/-- Takes some files away. -/
def removeFiles : List Path → Session m Unit
  | [] => pure ()
  | place :: rest => do
    Session.attemptOutput (Files.removeFile place)
    Session.tell [removalEvent place]
    removeFiles rest

/-- Generates the units of the project. -/
def generate (project : Project) (denyWarnings dryRun : Bool) : Session m GenerateResult := do
  let output ← project.pass
  let leftovers ← project.leftovers output.units
  if !dryRun then
    Session.attemptOutput (Files.makeDirectories project.output)
    project.writeUnits output.units
    removeFiles leftovers
  pure { project, output, leftovers, denyWarnings, dryRun }

end Project

end BuildConstants
