import BuildConstants.Command.Run
import BuildConstants.Proofs.Command.Output
import BuildConstants.Proofs.Command.Project

/-!
# How runs end

A run reads its words, loads the project and does the task. `runOn_generate` and `runOn_check` say
how it ends when it gets to the task, and `runOn_cases` that it changes nothing when it does not.
-/

namespace BuildConstants

variable {words : List String} {surroundings : Surroundings} {tree : FileTree}
  {invocation : Invocation} {project : Project} {output : GenerationOutput} {task : Task}
  {ending : Except CommandError TaskResult × FileTree}

/-- The output of a run is colored. -/
def Invocation.isColored (invocation : Invocation) (surroundings : Surroundings) : Bool :=
  !(invocation.noColor || surroundings.noColor)

/-- What a run leaves behind on a file tree. -/
def runOn (words : List String) (surroundings : Surroundings) (tree : FileTree) :
    Outcome × FileTree :=
  (run words surroundings : StateM FileTree Outcome).run tree

/-- A run ends as loading its project and doing its task end. -/
theorem runOn_of_session (understood : Invocation.ofWords words = .ok invocation)
    (asked : invocation.task = some task)
    (gives : Session.Gives (do
      let project ← Project.load invocation surroundings
      task.perform project (invocation.isColored surroundings)) tree ending) :
    ∃ log, runOn words surroundings tree =
      (outcomeOf log (invocation.isColored surroundings) ending.1, ending.2) := by
  let isColored := invocation.isColored surroundings
  obtain ⟨events, ran⟩ := gives []
  let filter := LogFilter.ofChoice surroundings.log invocation.isVerbose
  let logOf (events : List LogEvent) : String :=
    String.join ((events.filter filter.admits).map (·.line isColored))
  refine ⟨logOf events, ?_⟩
  rw [runOn, run, understood]
  dsimp only
  rw [Invocation.run, asked]
  dsimp only
  rw [FileTree.run_bind]
  exact congrArg (fun ended : (Except CommandError TaskResult × List LogEvent) × FileTree =>
    (outcomeOf (logOf ended.1.2) isColored ended.1.1, ended.2)) ran

/-- A run ends as its task does on the project that is loaded. -/
theorem runOn_of_gives (understood : Invocation.ofWords words = .ok invocation)
    (asked : invocation.task = some task)
    (loaded : Project.loadIn tree invocation surroundings = .ok project)
    (performs : Session.Gives (task.perform project (invocation.isColored surroundings)) tree
      ending) :
    ∃ log, runOn words surroundings tree =
      (outcomeOf log (invocation.isColored surroundings) ending.1, ending.2) := by
  exact runOn_of_session understood asked ((Project.gives_load_iff.2 loaded).bind performs)

/-- A run that does not get to a task changes nothing. -/
theorem runOn_cases (words : List String) (surroundings : Surroundings) (tree : FileTree) :
    (runOn words surroundings tree).2 = tree ∨
      ∃ invocation task project, Invocation.ofWords words = .ok invocation ∧
        invocation.task = some task ∧
        Project.loadIn tree invocation surroundings = .ok project := by
  cases understood : Invocation.ofWords words with
  | error halt =>
      left
      rw [runOn, run, understood]
      rfl
  | ok invocation =>
      cases asked : invocation.task with
      | none =>
          left
          rw [runOn, run, understood]
          dsimp only
          rw [Invocation.run, asked]
          rfl
      | some task =>
          cases loaded : Project.loadIn tree invocation surroundings with
          | error error =>
              have loads := Project.gives_load tree invocation surroundings
              rw [loaded] at loads
              obtain ⟨log, ran⟩ := runOn_of_session understood asked (loads.bind_error _)
              exact .inl (congrArg Prod.snd ran)
          | ok project => exact .inr ⟨invocation, task, project, rfl, asked, loaded⟩

/-- What a run that checks finds. -/
def Project.checkResult (tree : FileTree) (project : Project) (output : GenerationOutput) :
    CheckResult :=
  { project, diagnostics := output.diagnostics
    stale := staleIn tree project output.units
    leftovers := (leftoverNames tree project output.units).map fun name =>
      project.output.join ⟨name⟩ }

section

variable (understood : Invocation.ofWords words = .ok invocation)
  (loaded : Project.loadIn tree invocation surroundings = .ok project)
  (passed : generate project.options project.rawProperties project.manifest.declarations .never =
    .ok output)

include understood loaded passed

theorem runOn_generate {denyWarnings dryRun : Bool} {format : ReportFormat}
    (asked : invocation.task = some (.generate denyWarnings dryRun format)) :
    ∃ log, runOn words surroundings tree =
      (outcomeOf log (invocation.isColored surroundings)
        ((Project.generated tree project output denyWarnings dryRun).1.map fun result =>
          result.present format (invocation.isColored surroundings)),
        (Project.generated tree project output denyWarnings dryRun).2) :=
  runOn_of_gives understood asked loaded
    ((Project.gives_generate passed tree denyWarnings dryRun).map _)

theorem runOn_check {showDiff : Bool} {format : ReportFormat}
    (asked : invocation.task = some (.check showDiff format)) :
    ∃ log, runOn words surroundings tree =
      (outcomeOf log (invocation.isColored surroundings)
        (.ok ((Project.checkResult tree project output).present showDiff format
          (invocation.isColored surroundings))), tree) :=
  runOn_of_gives understood asked loaded ((Project.gives_check passed tree).map _)

end

/-- A run does not fail when its task does not. -/
theorem exists_ok_of_status {log : String} {isColored : Bool}
    {result : Except CommandError TaskResult}
    (ended : (outcomeOf log isColored result).status ≠ .failed) : ∃ found, result = .ok found := by
  cases result with
  | error error => exact absurd rfl ended
  | ok found => exact ⟨found, rfl⟩

theorem GenerateResult.isGood_present (result : GenerateResult) (format : ReportFormat)
    (isColored : Bool) : (result.present format isColored).isGood = result.isGood := by
  cases format <;> rfl

theorem CheckResult.isGood_present (result : CheckResult) (showDiff : Bool)
    (format : ReportFormat) (isColored : Bool) :
    (result.present showDiff format isColored).isGood = result.isGood := by
  cases format with
  | json => rfl
  | github => rfl
  | text =>
      rw [present]
      split
      next good => exact good.symm
      next bad => exact (Bool.eq_false_iff.2 bad).symm

end BuildConstants
