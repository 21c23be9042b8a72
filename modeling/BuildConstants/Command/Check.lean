import BuildConstants.Command.Project
import BuildConstants.Command.Result
import BuildConstants.Text.LineDiff

/-!
# Checking

The task that compares the files in the output directory with the units of a project. It changes
nothing.
-/

namespace BuildConstants

/-- A unit whose file is missing or has another text. -/
structure StaleUnit where
  unit : SourceUnit
  /-- The text of the file, unless it is missing. -/
  current : Option String

/-- What checking found. -/
structure CheckResult where
  project : Project
  diagnostics : List Diagnostic
  stale : List StaleUnit
  leftovers : List Path

namespace CheckResult

/-- All files are as they would be generated. -/
def isGood (result : CheckResult) : Bool :=
  result.stale.isEmpty && result.leftovers.isEmpty

/-- The file of a stale unit as it is shown. -/
def fileOf (result : CheckResult) (entry : StaleUnit) : String :=
  result.project.shown (result.project.placeOf entry.unit)

/-- The files that no unit belongs to. -/
def orphaned (result : CheckResult) : List String :=
  result.leftovers.map result.project.shown

def toDocument (result : CheckResult) : Document :=
  let staleRecord (entry : StaleUnit) : Document :=
    .record
      [("file", .text (result.fileOf entry)), ("missing", .bool entry.current.isNone)]
  .record
    [("ok", .bool result.isGood), ("stale", .list (result.stale.map staleRecord)),
      ("orphaned", .list (result.orphaned.map .text)),
      ("diagnostics", .list (result.diagnostics.map (·.toDocument result.project.root)))]

/-- The notice of a file that is not as it should be. -/
def fileNotice (problem file : String) : String :=
  s!"::error file={file}::Generated file {problem}. Run `bakeprop generate`."

/-- The notices of diagnostics and files. -/
def notices (result : CheckResult) : List String :=
  result.diagnostics.map (·.notice result.project.root) ++
    result.stale.map (fun entry => fileNotice "is out of date" (result.fileOf entry)) ++
    result.orphaned.map (fileNotice "has no matching declarations")

/-- A line of a difference with its line break, which a last line may lack. -/
def finished (line : String) : String :=
  if Text.endsLine line then line else line ++ "\n"

/-- A change of a line as it is shown. -/
def changeText (isColored : Bool) : Text.Edit.Change String → String
  | .kept line => s!"   {finished line}"
  | .removed line => "  " ++ Text.inked isColored .red ("-" ++ finished line)
  | .added line => "  " ++ Text.inked isColored .green ("+" ++ finished line)

/-- What changes a text into another one. -/
def differenceText (current expected : String) (isColored : Bool) : String :=
  let changes := Text.Edit.difference (Text.lines current) (Text.lines expected)
  String.join (changes.map (changeText isColored))

/-- The line on a file that is not as it should be. -/
def fileLine (isColored : Bool) (ink : Text.Ink) (problem file : String) : String :=
  "  " ++ Text.inked isColored ink problem ++ " " ++ file ++ "\n"

/-- A stale unit in the list of problems. -/
def staleText (result : CheckResult) (showDiff isColored : Bool) (entry : StaleUnit) : String :=
  let file := result.fileOf entry
  match entry.current with
  | some current =>
    fileLine isColored .yellow "stale" file ++
      if showDiff then differenceText current entry.unit.text isColored else ""
  | none => fileLine isColored .red "missing" file

/-- The list of problems. -/
def problemsText (result : CheckResult) (showDiff isColored : Bool) : String :=
  let orphaned := result.orphaned
  let counts :=
    ["Check failed.", s!"  stale files: {result.stale.length}"] ++
      (if orphaned.isEmpty then [] else [s!"  orphaned files: {orphaned.length}"]) ++ [""]
  textOfLines counts ++
    String.join (orphaned.map (fileLine isColored .red "orphaned")) ++
    String.join (result.stale.map (result.staleText showDiff isColored)) ++
    textOfLines ["", "Run `bakeprop generate` to update them."]

/-- The result in the form asked for. -/
def present (result : CheckResult) (showDiff : Bool) (format : ReportFormat) (isColored : Bool) :
    TaskResult :=
  match format with
  | .json => { output := TaskResult.recordLine result.toDocument, isGood := result.isGood }
  | .github => { output := textOfLines result.notices, isGood := result.isGood }
  | .text =>
    let reports := reportsText result.diagnostics result.project.root false isColored
    if result.isGood then
      { output := textOfLines ["Check passed: all generated files are up to date."]
        errors := reports }
    else { errors := reports ++ result.problemsText showDiff isColored, isGood := false }

end CheckResult

namespace Project

variable {m : Type → Type} [Monad m] [Files m]

/-- The text of a file, if it can be read. -/
def readIfThere (place : Path) : m (Option String) := do
  match ← Files.readText place with
  | .ok text => pure (some text)
  | .error _ => pure none

/-- The stale ones of some units. -/
def staleUnits (project : Project) : List SourceUnit → m (List StaleUnit)
  | [] => pure []
  | unit :: rest => do
    let current ← readIfThere (project.placeOf unit)
    let others ← staleUnits project rest
    pure (if current = some unit.text then others else { unit, current } :: others)

/-- Compares the files in the output directory with the units of the project. -/
def check (project : Project) : Session m CheckResult := do
  let output ← project.pass
  let stale ← Session.perform (project.staleUnits output.units)
  let leftovers ← project.leftovers output.units
  pure { project, diagnostics := output.diagnostics, stale, leftovers }

end Project

end BuildConstants
