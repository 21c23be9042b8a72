import BuildConstants.Proofs.Command.Agreement

/-!
# Checking foretells generating

A run that checks and a dry run change nothing, and both find what a run that generates on the same
tree does: `check_foresees_generate`. A file that checking complains about is touched unless it
cannot be read, which asks that the output directory, if it is there before the run, is where its
path leads then; `Disagreement.checked_unlike_generated` has runs where it is not, and runs where a
file cannot be read.
-/

namespace BuildConstants

variable {surroundings : Surroundings} {before after : FileTree} {project : Project}
  {output : GenerationOutput} {directory place : Place} {unit : SourceUnit}

/-! ### The verdict of a check -/

/-- Lines behind others are seen. -/
theorem textOfLines_append_eq_left_iff {first second : List String} :
    textOfLines (first ++ second) = textOfLines first ↔ second = [] := by
  have joined : textOfLines (first ++ second) = textOfLines first ++ textOfLines second := by
    rw [textOfLines, List.map_append, String.join_append]
    rfl
  rw [joined, ← String.toList_inj, String.toList_append, List.append_right_eq_self]
  cases second with
  | nil => exact ⟨fun _ => rfl, fun _ => rfl⟩
  | cons line rest =>
      rw [textOfLines, List.map_cons, String.join_cons]
      simp

/-- The line of a record starts with its first field. -/
theorem exists_recordLine_eq (good : Bool) (next : String × Document)
    (others : List (String × Document)) :
    ∃ rest, TaskResult.recordLine (.record (("ok", .bool good) :: next :: others)) =
      "\x7b\"ok\":" ++ toString good ++ "," ++ rest := by
  have written : Json.write (.bool good) = toString good := by
    cases good <;> rfl
  have named : Json.write (.text "ok") = "\"ok\"" := by decide +kernel
  have front : "\x7b\"ok\":" = "\x7b" ++ ("\"ok\"" ++ ":") := by decide +kernel
  rw [TaskResult.recordLine, Document.record, List.map_cons, List.map_cons, Json.write,
    Json.writeEntries, Json.writeEntries, Text.joinWith, String.intercalate_cons_cons, written,
    named, front]
  simp only [String.append_assoc]
  exact ⟨_, rfl⟩

namespace CheckResult

/-- What a check prints in a form of the report tells whether all files are as they should be. -/
def Tells (found : CheckResult) (format : ReportFormat) (output : String) : Prop :=
  match format with
  | .text => output = "Check passed: all generated files are up to date.\n" ↔ found.isGood
  | .json => ∃ rest, output = "\x7b\"ok\":" ++ toString found.isGood ++ "," ++ rest
  | .github =>
    output = textOfLines (found.diagnostics.map (·.notice found.project.root)) ↔ found.isGood

/-- A check tells in each form of the report whether all files are as they should be. -/
theorem tells_present (found : CheckResult) (showDiff : Bool) (format : ReportFormat)
    (isColored : Bool) : found.Tells format (found.present showDiff format isColored).output := by
  cases format with
  | text =>
      have shown : (found.present showDiff .text isColored).output =
          if found.isGood then textOfLines ["Check passed: all generated files are up to date."]
          else "" := by
        rw [present]
        split <;> rfl
      rw [Tells, shown]
      cases found.isGood <;> decide +kernel
  | json => exact exists_recordLine_eq found.isGood _ _
  | github =>
      have shown : (found.present showDiff .github isColored).output =
          textOfLines (found.diagnostics.map (·.notice found.project.root) ++
            (found.stale.map (fun entry => fileNotice "is out of date" (found.fileOf entry)) ++
              found.orphaned.map (fileNotice "has no matching declarations"))) := by
        rw [← List.append_assoc]
        rfl
      rw [Tells, shown, textOfLines_append_eq_left_iff, isGood_iff]
      simp [orphaned]

end CheckResult

/-! ### What generating does -/

/-- The units that a check reports as stale are those whose texts are not read in their files. -/
theorem Project.mem_stale_checkResult :
    unit ∈ (checkResult before project output).stale.map (·.unit) ↔
      unit ∈ output.units ∧ before.readText (project.placeOf unit) ≠ .ok unit.text := by
  have unread : (before.readText (project.placeOf unit)).toOption ≠ some unit.text ↔
      before.readText (project.placeOf unit) ≠ .ok unit.text := by
    cases before.readText (project.placeOf unit) <;> simp [Except.toOption]
  rw [← unread]
  constructor
  · intro listed
    obtain ⟨entry, isEntry, rfl⟩ := List.mem_map.1 listed
    obtain ⟨member, current, differs⟩ := mem_staleIn.1 isEntry
    exact ⟨member, current ▸ differs⟩
  · rintro ⟨member, differs⟩
    exact List.mem_map.2 ⟨⟨unit, _⟩, mem_staleIn.2 ⟨member, rfl, differs⟩, rfl⟩

/-- What is found on a tree foretells how the tree changes: which files are taken away, and which
are created or given other contents in the output directory. -/
structure CheckResult.Foretells (found : CheckResult) (project : Project) (units : List SourceUnit)
    (directory : Place) (before after : FileTree) : Prop where
  located : after.locate project.output = .ok directory
  /-- The files that are taken away are those reported as left over. -/
  dropped : ∀ place, before.Drops after place ↔
    ∃ path ∈ found.leftovers, before.locate path = .ok place
  /-- The files that are created or given other contents are files of units, and these units are
  reported as stale. -/
  filled : ∀ place, before.Fills after place → ∃ unit ∈ units, place = directory ++ [unit.filename]
  reported : ∀ unit ∈ units, before.Fills after (directory ++ [unit.filename]) →
    unit ∈ found.stale.map (·.unit)
  good : found.isGood → ∀ place, ¬ before.Touches after place
  /-- What is reported as stale are the units whose files are created or changed, or cannot be read,
  unless the output directory was there and its path did not lead to it. -/
  exactly : (before.isDirectoryAt directory → before.locate project.output = .ok directory) →
    (∀ unit, unit ∈ found.stale.map (·.unit) ↔ unit ∈ units ∧
      (before.Fills after (directory ++ [unit.filename]) ∨
        directory ++ [unit.filename] ∈ before.unreadable)) ∧
    (found.isGood ↔ (∀ place, ¬ before.Touches after place) ∧
      ∀ unit ∈ units, directory ++ [unit.filename] ∉ before.unreadable)

namespace Project.Effect

variable (effect : Effect project output.units directory before after)

include effect

/-- The files that are taken away are where the paths of the leftovers lead beforehand. -/
theorem drops_iff_leftover : before.Drops after place ↔
    ∃ path ∈ (checkResult before project output).leftovers, before.locate path = .ok place := by
  have led : ∀ name ∈ leftoverNames before project output.units,
      before.locate (project.output.join ⟨name⟩) = .ok (directory ++ [name]) :=
    fun name member => (effect.gone name member).1.locate
  rw [effect.drops_iff]
  constructor
  · rintro ⟨name, member, rfl⟩
    exact ⟨_, List.mem_map_of_mem member, led name member⟩
  · rintro ⟨path, listed, located⟩
    obtain ⟨name, member, rfl⟩ := List.mem_map.1 listed
    exact ⟨name, member, Except.ok.inj (located.symm.trans (led name member))⟩

/-- A unit whose file is created or given other contents is stale. -/
theorem mem_stale_of_fills (member : unit ∈ output.units)
    (fills : before.Fills after (directory ++ [unit.filename])) :
    unit ∈ (checkResult before project output).stale.map (·.unit) :=
  mem_stale_checkResult.2 ⟨member, fun read =>
    (effect.fills_unit_iff member).1 fills (effect.read_of_readText member read).1⟩

/-- A unit whose file cannot be read is stale. -/
theorem mem_stale_of_unreadable (member : unit ∈ output.units)
    (barred : directory ++ [unit.filename] ∈ before.unreadable) :
    unit ∈ (checkResult before project output).stale.map (·.unit) :=
  mem_stale_checkResult.2 ⟨member, fun read => (effect.read_of_readText member read).2 barred⟩

/-- The file of a stale unit is created or given other contents unless it cannot be read, when the
path of the output directory led to it. -/
theorem fills_of_mem_stale (wellFormed : before.WellFormed)
    (led : before.isDirectoryAt directory → before.locate project.output = .ok directory)
    (listed : unit ∈ (checkResult before project output).stale.map (·.unit)) :
    unit ∈ output.units ∧ (before.Fills after (directory ++ [unit.filename]) ∨
      directory ++ [unit.filename] ∈ before.unreadable) := by
  obtain ⟨member, differs⟩ := mem_stale_checkResult.1 listed
  refine ⟨member, or_iff_not_imp_right.2 fun allowed => ?_⟩
  exact (effect.fills_unit_iff member).2 fun same =>
    differs (effect.readText_of_fileAt? wellFormed led member same allowed)

/-- The units that are stale, when the path of the output directory led to it. -/
theorem mem_stale_iff (wellFormed : before.WellFormed)
    (led : before.isDirectoryAt directory → before.locate project.output = .ok directory) :
    unit ∈ (checkResult before project output).stale.map (·.unit) ↔ unit ∈ output.units ∧
      (before.Fills after (directory ++ [unit.filename]) ∨
        directory ++ [unit.filename] ∈ before.unreadable) := by
  refine ⟨effect.fills_of_mem_stale wellFormed led, ?_⟩
  rintro ⟨member, fills | barred⟩
  · exact effect.mem_stale_of_fills member fills
  · exact effect.mem_stale_of_unreadable member barred

/-- A check that complains about nothing comes before a run that touches nothing. -/
theorem not_touches_of_isGood (good : (checkResult before project output).isGood) :
    ¬ before.Touches after place := by
  intro touches
  obtain ⟨noStale, noLeftovers⟩ := CheckResult.isGood_iff.1 good
  rcases FileTree.touches_iff.1 touches with fills | drops
  · obtain ⟨unit, member, rfl⟩ := effect.exists_unit_of_fills fills
    have listed := effect.mem_stale_of_fills member fills
    rw [noStale] at listed
    cases listed
  · obtain ⟨path, listed, -⟩ := effect.drops_iff_leftover.1 drops
    rw [noLeftovers] at listed
    cases listed

/-- A check complains about nothing exactly before a run that touches nothing, when the files of the
units can be read and the path of the output directory led to it. -/
theorem isGood_iff_untouched (wellFormed : before.WellFormed)
    (led : before.isDirectoryAt directory → before.locate project.output = .ok directory) :
    (checkResult before project output).isGood ↔ (∀ place, ¬ before.Touches after place) ∧
      ∀ unit ∈ output.units, directory ++ [unit.filename] ∉ before.unreadable := by
  constructor
  · intro good
    refine ⟨fun place => effect.not_touches_of_isGood good, fun unit member barred => ?_⟩
    have listed := effect.mem_stale_of_unreadable member barred
    rw [(CheckResult.isGood_iff.1 good).1] at listed
    cases listed
  · rintro ⟨untouched, allowed⟩
    refine CheckResult.isGood_iff.2 ⟨?_, ?_⟩
    · refine List.eq_nil_iff_forall_not_mem.2 fun entry isEntry => ?_
      obtain ⟨member, fills | barred⟩ :=
        effect.fills_of_mem_stale wellFormed led (List.mem_map_of_mem isEntry)
      · exact untouched _ (FileTree.touches_iff.2 (.inl fills))
      · exact allowed _ member barred
    · refine List.map_eq_nil_iff.2 (List.eq_nil_iff_forall_not_mem.2 fun name member => ?_)
      have drops := effect.drops_iff.2 ⟨name, member, rfl⟩
      exact untouched _ (FileTree.touches_iff.2 (.inr drops))

/-- What a check finds foretells what generating that ends well does. -/
theorem foretells (wellFormed : before.WellFormed) :
    (checkResult before project output).Foretells project output.units directory before after where
  located := effect.located
  dropped _ := effect.drops_iff_leftover
  filled _ fills := effect.exists_unit_of_fills fills
  reported _ member fills := effect.mem_stale_of_fills member fills
  good good _ := effect.not_touches_of_isGood good
  exactly led :=
    ⟨fun _ => effect.mem_stale_iff wellFormed led, effect.isGood_iff_untouched wellFormed led⟩

end Project.Effect

/-- What runs that check, runs that only say what they would do, and runs that generate end with on
one tree, all with the same options in front of the task. -/
structure CheckResult.Foresees (found : CheckResult) (surroundings : Surroundings)
    (invocation : Invocation) (project : Project) (output : GenerationOutput) (before : FileTree) :
    Prop where
  checked : ∀ words showDiff format,
    Invocation.ofWords words = .ok { invocation with task := some (.check showDiff format) } →
    let outcome := (runOn words surroundings before).1
    outcome.status = (if found.isGood then .success else .unsatisfied) ∧
      found.Tells format outcome.output ∧
      ∃ log, outcome = outcomeOf log (invocation.isColored surroundings)
        (.ok (found.present showDiff format (invocation.isColored surroundings)))
  planned : ∀ words denyWarnings format,
    Invocation.ofWords words =
      .ok { invocation with task := some (.generate denyWarnings true format) } →
    ∃ log, ∃ planned : GenerateResult,
      (runOn words surroundings before).1 = outcomeOf log (invocation.isColored surroundings)
        (.ok (planned.present format (invocation.isColored surroundings))) ∧
      planned.dryRun ∧ planned.leftovers = found.leftovers ∧ planned.removed = found.orphaned
  generated : ∀ words denyWarnings format,
    Invocation.ofWords words =
      .ok { invocation with task := some (.generate denyWarnings false format) } →
    (runOn words surroundings before).1.status ≠ .failed →
    (∃ log, ∃ done : GenerateResult,
      (runOn words surroundings before).1 = outcomeOf log (invocation.isColored surroundings)
        (.ok (done.present format (invocation.isColored surroundings))) ∧
      !done.dryRun ∧ done.leftovers = found.leftovers ∧ done.removed = found.orphaned) ∧
    ∃ directory, found.Foretells project output.units directory before
      (runOn words surroundings before).2

/-- The task only looks at files. -/
def Task.Looks (task : Task) : Prop :=
  (∃ showDiff format, task = .check showDiff format) ∨
    ∃ denyWarnings format, task = .generate denyWarnings true format

/-- A run whose task only looks at files changes nothing. -/
theorem runOn_of_looks {words : List String} {invocation : Invocation} {task : Task}
    (understood : Invocation.ofWords words = .ok invocation) (asked : invocation.task = some task)
    (looks : task.Looks) : (runOn words surroundings before).2 = before := by
  rcases runOn_cases words surroundings before with unchanged | ⟨other, given, project, ran⟩
  · exact unchanged
  obtain ⟨again, -, loaded⟩ := ran
  cases understood.symm.trans again
  have passed := generate_never project.options project.rawProperties
    project.manifest.declarations
  rcases looks with ⟨showDiff, format, rfl⟩ | ⟨denyWarnings, format, rfl⟩
  · obtain ⟨log, ended⟩ := runOn_check understood loaded passed asked
    rw [ended]
  · obtain ⟨log, ended⟩ := runOn_generate understood loaded passed asked
    rw [ended]
    rfl

/-- A run that generates and does not fail does what is found beforehand. -/
theorem runOn_generate_foretold {words : List String} {invocation : Invocation}
    {denyWarnings : Bool} {format : ReportFormat} (wellFormed : before.WellFormed)
    (written : project.output.text ≠ "")
    (understood : Invocation.ofWords words = .ok invocation)
    (asked : invocation.task = some (.generate denyWarnings false format))
    (loaded : Project.loadIn before invocation surroundings = .ok project)
    (passed : generate project.options project.rawProperties project.manifest.declarations .never =
      .ok output)
    (whole : ∀ unit ∈ output.units, '/' ∉ unit.filename.toList)
    (ended : (runOn words surroundings before).1.status ≠ .failed) :
    (∃ log, (runOn words surroundings before).1 = outcomeOf log (invocation.isColored surroundings)
      (.ok ((Project.generateResult before project output denyWarnings false).present format
        (invocation.isColored surroundings)))) ∧
    ∃ directory, (Project.checkResult before project output).Foretells project output.units
      directory before (runOn words surroundings before).2 := by
  obtain ⟨distinct, generatedNames⟩ := GenerationOutput.filenames_of_generate passed
  obtain ⟨log, ran⟩ := runOn_generate understood loaded passed asked
  rcases final : Project.generated before project output denyWarnings false with ⟨result, after⟩
  rw [final] at ran
  rw [ran] at ended ⊢
  obtain ⟨shown, good⟩ := exists_ok_of_status ended
  cases result with
  | error error => cases good
  | ok result =>
      obtain ⟨directory, effect⟩ := Project.effect wellFormed written distinct
        (fun unit member => (Project.proper_of_isGeneratedName (generatedNames unit member)).1)
        whole final
      obtain ⟨-, -, -, -, -, rfl⟩ := Project.generated_eq_ok final
      exact ⟨⟨log, rfl⟩, directory, effect.foretells wellFormed⟩

/-- Runs that check and dry runs change nothing, and what they find is what a run that generates and
does not fail does. -/
theorem check_foresees_generate (surroundings : Surroundings) (before : FileTree) :
    (∀ words invocation task, Invocation.ofWords words = .ok invocation →
      invocation.task = some task → task.Looks → (runOn words surroundings before).2 = before) ∧
    ∀ invocation project output, before.WellFormed → surroundings.workingDirectory.text ≠ "" →
      Session.Gives (Project.load invocation surroundings) before (.ok project, before) →
      generate project.options project.rawProperties project.manifest.declarations .never =
        .ok output →
      (∀ unit ∈ output.units, '/' ∉ unit.filename.toList) →
      ∃ found : CheckResult, found.Foresees surroundings invocation project output before := by
  refine ⟨fun words invocation task understood asked => runOn_of_looks understood asked, ?_⟩
  intro invocation project output wellFormed working loaded passed whole
  have loadedIn := Project.gives_load_iff.1 loaded
  refine ⟨Project.checkResult before project output,
    { checked := fun words showDiff format understood => ?checked
      planned := fun words denyWarnings format understood => ?planned
      generated := fun words denyWarnings format understood ended => ?generated }⟩
  case checked =>
    obtain ⟨log, ran⟩ := runOn_check understood loadedIn passed rfl
    rw [ran]
    refine ⟨?_, CheckResult.tells_present _ showDiff format _, log, rfl⟩
    rw [outcomeOf, CheckResult.isGood_present]
  case planned =>
    obtain ⟨log, ran⟩ := runOn_generate understood loadedIn passed rfl
    rw [ran]
    exact ⟨log, _, rfl, rfl, rfl, rfl⟩
  case generated =>
    have written := (Project.loaded_paths_ne understood working loadedIn).2
    obtain ⟨⟨log, shown⟩, foretold⟩ := runOn_generate_foretold wellFormed written understood rfl
      loadedIn passed whole ended
    exact ⟨⟨log, _, shown, rfl, rfl, rfl⟩, foretold⟩

/-- A unit whose file is no text, a leftover that cannot be read, and a file of another name. -/
theorem foreseen_among_others :
    let declared : String :=
      "[[container]]\nname = \"Variants\"\n[[container.member]]\nname = \"Level\"\ntype = \"int\"\n"
    let before : FileTree :=
      { entries := [(["w"], .directory), (["w", "decl.toml"], .file (.text declared)),
          (["w", "Generated"], .directory),
          (["w", "Generated", "Variants.g.cs"], .file (.octets [255])),
          (["w", "Generated", "Old.g.cs"], .file (.text "")),
          (["w", "Generated", "Notes.cs"], .file (.text ""))]
        working := ["w"]
        unreadable := [["w", "Generated", "Old.g.cs"]] }
    let surroundings : Surroundings :=
      { workingDirectory := ⟨"/w"⟩, properties := some "Level=3", log := none, noColor := true }
    let invocation : Invocation :=
      { path := none, properties := none, declarations := some ⟨"decl.toml"⟩, output := none
        emitMarker := false, isVerbose := false, noColor := false, task := none }
    let declaration : Declaration :=
      (Declaration.property ⟨"", "Variants", .reference⟩ "Level" "int").withLocation
        { file := ⟨"/w/decl.toml"⟩, line := none, column := none }
    let project : Project :=
      { root := ⟨"/w"⟩, configPlace := none, rawProperties := some "Level=3", options := {}
        manifest := { path := ⟨"/w/decl.toml"⟩, declarations := [declaration] }
        output := ⟨"/w/Generated"⟩ }
    let after := (runOn ["generate", "-d", "decl.toml"] surroundings before).2
    ∃ (output : GenerationOutput) (found : CheckResult),
      before.WellFormed ∧
      Session.Gives (Project.load invocation surroundings) before (.ok project, before) ∧
      generate project.options project.rawProperties project.manifest.declarations .never =
        .ok output ∧
      (∀ unit ∈ output.units, '/' ∉ unit.filename.toList) ∧
      (runOn ["check", "-d", "decl.toml"] surroundings before).2 = before ∧
      (runOn ["generate", "--dry-run", "-d", "decl.toml"] surroundings before).2 = before ∧
      found.Foresees surroundings invocation project output before ∧
      found.isGood = false ∧
      found.Foretells project output.units ["w", "Generated"] before after ∧
      (∃ unit ∈ found.stale.map (·.unit), unit.filename = "Variants.g.cs") ∧
      ∃ path ∈ found.leftovers, before.locate path = .ok ["w", "Generated", "Old.g.cs"] := by
  intro declared before surroundings invocation declaration project after
  have wellFormed : before.WellFormed := by decide +kernel
  have loaded : Session.Gives (Project.load invocation surroundings) before (.ok project, before) :=
    Project.gives_load_iff.2 (by decide +kernel)
  have passed := generate_never project.options project.rawProperties
    project.manifest.declarations
  have whole : ∀ unit ∈ project.options.markers ++
      SourceUnit.ofModels project.options (.resolve project.rawProperties)
        (Declaration.accepted project.manifest.declarations),
      '/' ∉ unit.filename.toList := by
    decide +kernel
  have checks : Invocation.ofWords ["check", "-d", "decl.toml"] =
      .ok { invocation with task := some (.check false .text) } := by decide +kernel
  have plans : Invocation.ofWords ["generate", "--dry-run", "-d", "decl.toml"] =
      .ok { invocation with task := some (.generate false true .text) } := by decide +kernel
  have generates : Invocation.ofWords ["generate", "-d", "decl.toml"] =
      .ok { invocation with task := some (.generate false false .text) } := by decide +kernel
  obtain ⟨unchanged, foresees⟩ := check_foresees_generate surroundings before
  obtain ⟨found, sees⟩ :=
    foresees invocation project _ wellFormed (by decide +kernel) loaded passed whole
  have checkedUnchanged := unchanged _ _ _ checks rfl (.inl ⟨_, _, rfl⟩)
  have plannedUnchanged := unchanged _ _ _ plans rfl (.inr ⟨_, _, rfl⟩)
  have bad : found.isGood = false := by
    have status := (sees.checked _ _ _ checks).1
    have unsatisfied : (runOn ["check", "-d", "decl.toml"] surroundings before).1.status =
        .unsatisfied := by decide +kernel
    rw [unsatisfied] at status
    by_contra good
    rw [if_pos (by simpa using good)] at status
    cases status
  obtain ⟨-, directory, foretells⟩ := sees.generated _ _ _ generates (by decide +kernel)
  have located : after.locate project.output = .ok ["w", "Generated"] := by decide +kernel
  cases foretells.located.symm.trans located
  have fills : before.Fills after ["w", "Generated", "Variants.g.cs"] := by
    have touches : before.Touches after ["w", "Generated", "Variants.g.cs"] := by decide +kernel
    have still : after.fileAt? ["w", "Generated", "Variants.g.cs"] ≠ none := by decide +kernel
    exact (FileTree.touches_iff.1 touches).resolve_right fun drops => still drops.2
  have drops : before.Drops after ["w", "Generated", "Old.g.cs"] :=
    ⟨⟨.text "", by decide +kernel⟩, by decide +kernel⟩
  obtain ⟨unit, member, here⟩ := foretells.filled _ fills
  have named : "Variants.g.cs" = unit.filename := by simpa using here
  exact ⟨_, found, wellFormed, loaded, passed, whole, checkedUnchanged, plannedUnchanged, sees, bad,
    foretells, ⟨unit, foretells.reported unit member (here ▸ fills), named.symm⟩,
    (foretells.dropped _).1 drops⟩

namespace Disagreement

/-- The output directory is there, but its path leads to it only once another directory is made. -/
def marking (task : String) : List String :=
  [task, "--emit-marker", "-d", "decl.json", "-o", "new/../Generated"]

/-- A check complains about the units of a project on the tree, all of whose files are left as they
are by generating. -/
def Complains (words : String → List String) (tree : FileTree) : Prop :=
  (∃ invocation project output,
    Invocation.ofWords (words "check") =
      .ok { invocation with task := some (.check false .text) } ∧
    Invocation.ofWords (words "generate") =
      .ok { invocation with task := some (.generate false false .text) } ∧
    Session.Gives (Project.load invocation bare) tree (.ok project, tree) ∧
    generate project.options project.rawProperties project.manifest.declarations .never =
      .ok output ∧
    ∀ unit ∈ output.units, '/' ∉ unit.filename.toList) ∧
  (runOn (words "check") bare tree).1.status = .unsatisfied ∧
  (runOn (words "generate") bare tree).1.status = .success ∧
  ∀ place, ¬ tree.Touches (runOn (words "generate") bare tree).2 place

/-- A check complains about a file that generating leaves as it is. In the first run the path of the
output directory goes back from a directory that is missing when the run checks, and made when the
run generates; in the second one the file cannot be read. -/
theorem checked_unlike_generated :
    (marked.WellFormed ∧ Complains marking marked) ∧
      barred.WellFormed ∧ Complains emitting barred := by
  let asked (output : Option Path) : Invocation :=
    { path := none, properties := none, declarations := some ⟨"decl.json"⟩, output
      emitMarker := true, isVerbose := false, noColor := false, task := none }
  have loads : ∀ {tree : FileTree} {invocation : Invocation} {project : Project},
      Project.loadIn tree invocation bare = .ok project →
      Session.Gives (Project.load invocation bare) tree (.ok project, tree) :=
    Project.gives_load_iff.2
  refine ⟨⟨by decide +kernel, ?_, by decide +kernel, by decide +kernel,
    FileTree.not_touches_of_entries (by decide +kernel)⟩, by decide +kernel, ?_,
    by decide +kernel, by decide +kernel, FileTree.not_touches_of_entries (by decide +kernel)⟩
  · let invocation := asked (some ⟨"new/../Generated"⟩)
    exact ⟨invocation, Project.built marked invocation bare {} manifest, _, by decide +kernel,
      by decide +kernel, loads (by decide +kernel), generate_marker, by decide +kernel⟩
  · exact ⟨asked none, Project.built barred (asked none) bare {} manifest, _, by decide +kernel,
      by decide +kernel, loads (by decide +kernel), generate_marker, by decide +kernel⟩

end Disagreement

end BuildConstants
