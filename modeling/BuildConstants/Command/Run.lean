import BuildConstants.Command.Check
import BuildConstants.Command.Generate
import BuildConstants.Command.Info
import BuildConstants.Log.Filter

/-!
# Runs

A run from its words and surroundings to what it prints and the status it ends with.
-/

namespace BuildConstants

/-- How a run ends. -/
inductive ExitStatus where
  | success
  /-- The task found that not all is in order, or there was no task. -/
  | unsatisfied
  /-- There was a failure, or the words could not be understood. -/
  | failed
deriving DecidableEq

def ExitStatus.code : ExitStatus → UInt32
  | success => 0
  | unsatisfied => 1
  | failed => 2

/-- What a run leaves behind besides its files. -/
structure Outcome where
  status : ExitStatus
  output : String := ""
  errors : String := ""
deriving DecidableEq

/-- The name of the program with its version. -/
def versionLine : String :=
  "bakeprop_cli 0.3.0"

/-- How the program is used. -/
def usageLines : List String :=
  ["Bake build properties into generated source as compile-time constants.", "",
    "Usage: bakeprop [OPTIONS] [COMMAND]", "", "Commands:"] ++
  TaskName.all.map (fun task => s!"  {task.text}") ++ ["", "Options:"] ++
  (switchesOf none).map (fun switch => s!"  {switch.text}")

/-- The outcome of a run that has nothing to do. -/
def Halt.outcome : Halt → Outcome
  | .usage error => { status := .failed, errors := textOfLines [s!"error: {error.message}"] }
  | .help => { status := .success, output := textOfLines usageLines }
  | .version => { status := .success, output := textOfLines [versionLine] }

/-- The outcome of a run that is not given a task. -/
def idleOutcome : Outcome :=
  { status := .unsatisfied
    errors := textOfLines ["No subcommand specified. Run `bakeprop --help` for usage."] }

/-- An error as it is shown at the end of a run. -/
def CommandError.text (error : CommandError) (isColored : Bool) : String :=
  match error with
  | .reported failure => failure.report.text isColored
  | .output error => textOfLines [Text.inked isColored .red "error:" ++ " " ++ error.message]

namespace Task

variable {m : Type → Type} [Monad m] [Files m]

/-- Does a task for a project. -/
def perform (task : Task) (project : Project) (isColored : Bool) : Session m TaskResult :=
  match task with
  | .generate denyWarnings dryRun format => do
    pure ((← project.generate denyWarnings dryRun).present format isColored)
  | .check showDiff format => do
    pure ((← project.check).present showDiff format isColored)
  | .info format => do
    Session.tell (PropertyMap.resolutionEvents project.rawProperties)
    pure (project.info format isColored)

end Task

/-- The outcome of a task; `log` is the text of the events that are shown. -/
def outcomeOf (log : String) (isColored : Bool) : Except CommandError TaskResult → Outcome
  | .ok result =>
    { status := if result.isGood then .success else .unsatisfied
      output := result.output
      errors := log ++ result.errors }
  | .error error => { status := .failed, errors := log ++ error.text isColored }

variable {m : Type → Type} [Monad m] [Files m]

/-- Does what an invocation asks for. -/
def Invocation.run (invocation : Invocation) (surroundings : Surroundings) : m Outcome := do
  match invocation.task with
  | none => pure idleOutcome
  | some task =>
    let isColored := !(invocation.noColor || surroundings.noColor)
    let filter := LogFilter.ofChoice surroundings.log invocation.isVerbose
    let session : Session m TaskResult := do
      let project ← Project.load invocation surroundings
      task.perform project isColored
    let (result, events) ← session.run.run []
    let shown := events.filter filter.admits
    pure (outcomeOf (String.join (shown.map (·.line isColored))) isColored result)

/-- A run with the given words. -/
def run (words : List String) (surroundings : Surroundings) : m Outcome :=
  match Invocation.ofWords words with
  | .ok invocation => invocation.run surroundings
  | .error halt => pure halt.outcome

end BuildConstants
