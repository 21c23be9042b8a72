import BuildConstants.Proofs.Command.Failing

/-!
# What a run that gives up leaves behind

A run that generates and fails gives up in a stage, and the stage says which units have their texts,
which leftovers are gone and which files are touched: `generate_gives_up`. No leftover is gone as
long as a unit is still to be written.
-/

namespace BuildConstants

namespace Project

variable {before made filled after : FileTree} {found : Found} {opened texts : List SourceUnit}
  {names : List String} {directory : Place}

/-! ### What is left behind -/

/-- Units have their texts, files of units have been opened and leftovers are gone; no other file is
touched. -/
structure Found.Leaves (found : Found) (texts opened : List SourceUnit) (gone : List Path)
    (directory : Place) (before after : FileTree) : Prop where
  located : after.locate found.project.output = .ok directory
  written : ∀ unit ∈ texts, after.fileAt? (directory ++ [unit.filename]) = some (.text unit.text)
  dropped : ∀ place, before.Drops after place ↔ ∃ path ∈ gone, before.locate path = .ok place
  touched : ∀ place, before.Touches after place →
    (∃ unit ∈ opened, place = directory ++ [unit.filename]) ∨
      ∃ path ∈ gone, before.locate path = .ok place

namespace Stage

/-- What is left behind when generating gives up in the stage. -/
def Leaves : Stage → FileTree → FileTree → Prop
  | looking, before, after => after = before
  | making _, before, after => ∀ place, ¬ before.Touches after place
  | opening found done _, before, after =>
    ∃ directory, found.Leaves done done [] directory before after
  | filling found done unit, before, after =>
    ∃ directory, found.Leaves done (done ++ [unit]) [] directory before after
  | removing found gone _, before, after =>
    ∃ directory, found.Leaves found.output.units found.output.units gone directory before after

end Stage

/-- Directories are made, files of units are filled and leftovers are taken away, in this order. -/
theorem Found.leaves (grows : before.GrowsTo made)
    (located : made.locate found.project.output = .ok directory)
    (isDirectory : made.isDirectoryAt directory)
    (filling : DiffersIn directory (opened.map (·.filename)) made filled)
    (taking : DiffersIn directory names filled after)
    (units : ∀ unit ∈ opened, unit ∈ found.output.units)
    (there : ∀ unit ∈ opened, ∃ contents,
      filled.node? (directory ++ [unit.filename]) = some (.file contents))
    (within : ∀ unit ∈ texts, unit ∈ opened)
    (written : ∀ unit ∈ texts,
      filled.node? (directory ++ [unit.filename]) = some (.file (.text unit.text)))
    (leftover : ∀ name ∈ names,
      Leftover before found.project found.output.units directory name)
    (gone : ∀ name ∈ names, after.node? (directory ++ [name]) = none) :
    found.Leaves texts opened (names.map fun name => found.project.output.join ⟨name⟩) directory
      before after := by
  have kept : ∀ unit ∈ opened, after.node? (directory ++ [unit.filename]) =
      filled.node? (directory ++ [unit.filename]) := by
    intro unit member
    refine taking.elsewhere _ fun name taken here => ?_
    have own : unit.filename = name := (List.append_singleton_inj.1 here).2
    exact (isSuspect_iff.1 (leftover name taken).suspect).2 unit (units unit member) own
  have touched : ∀ place, before.Touches after place →
      (∃ unit ∈ opened, place = directory ++ [unit.filename]) ∨
        ∃ name ∈ names, place = directory ++ [name] := by
    intro place touches
    by_contra apart
    obtain ⟨noUnit, noName⟩ := not_or.1 apart
    rcases touches.split made with byMaking | bySequel
    · exact grows.not_touches byMaking
    refine bySequel (FileTree.fileAt?_congr ?_)
    rw [taking.elsewhere place fun name member here => noName ⟨name, member, here⟩,
      filling.elsewhere place fun filename given here => ?_]
    obtain ⟨unit, member, rfl⟩ := List.mem_map.1 given
    exact noUnit ⟨unit, member, here⟩
  have led : ∀ place, (∃ name ∈ names, place = directory ++ [name]) ↔
      ∃ path ∈ names.map fun name => found.project.output.join ⟨name⟩,
        before.locate path = .ok place := by
    intro place
    constructor
    · rintro ⟨name, member, rfl⟩
      exact ⟨_, List.mem_map_of_mem member, (leftover name member).locate⟩
    · rintro ⟨path, listed, locates⟩
      obtain ⟨name, member, rfl⟩ := List.mem_map.1 listed
      exact ⟨name, member, Except.ok.inj (locates.symm.trans (leftover name member).locate)⟩
  refine
    { located := ?_
      written := fun unit member => ?_
      dropped := fun place => ⟨fun drops => ?_, fun taken => ?_⟩
      touched := fun place touches => (touched place touches).imp_right (led place).1 }
  · exact ((filling.same.trans taking.same).locate_directory located isDirectory).1
  · rw [FileTree.fileAt?_eq_some_iff, kept unit (within unit member)]
    exact written unit member
  · rcases touched place (FileTree.touches_iff.2 (.inr drops)) with ⟨unit, member, rfl⟩ | taken
    · obtain ⟨contents, holds⟩ := there unit member
      have still := FileTree.fileAt?_eq_some_iff.2 ((kept unit member).trans holds)
      rw [drops.2] at still
      cases still
    · exact (led place).1 taken
  · obtain ⟨name, member, rfl⟩ := (led place).2 taken
    obtain ⟨contents, isFile⟩ := (leftover name member).isFile
    exact ⟨⟨contents, FileTree.fileAt?_eq_some_iff.2 isFile⟩,
      by rw [FileTree.fileAt?, gone name member]⟩

/-! ### Stage by stage -/

section

variable {invocation : Invocation} {surroundings : Surroundings} {start stop looked moment : Moment}
  {error : CommandError} {done rest : List SourceUnit} {unit : SourceUnit} {stage : Stage}

open Session

theorem does_makeOutput {tree : FileTree} (wellFormed : tree.WellFormed)
    (named : found.project.output.text ≠ "") :
    Does found.makeOutput tree fun result later =>
      tree.Prepares later ∧ (result = .ok () → later.isDirectory found.project.output) := by
  refine does_attemptOutput ((FaultyTree.does_makeDirectories wellFormed named).mono ?_)
  rintro (error | ⟨⟨⟩⟩) later ⟨prepares, there⟩
  · exact ⟨prepares, nofun⟩
  · exact ⟨prepares, fun _ => there rfl⟩

/-- The output directory has been made for what was found, and all else is as it was. -/
structure Found.IsMade (found : Found) (before made : FileTree) (directory : Place) : Prop where
  grows : before.GrowsTo made
  located : made.locate found.project.output = .ok directory
  isDirectory : made.isDirectoryAt directory
  leftovers : ∃ names : List String,
    found.leftovers = names.map (fun name => found.project.output.join ⟨name⟩) ∧
      ∀ name ∈ names, Leftover before found.project found.output.units directory name

/-- What is asked of the units for their files to be different files of the output directory. -/
structure Found.HasFiles (found : Found) : Prop where
  distinct : (found.output.units.map (·.filename)).Nodup
  notEmpty : ∀ unit ∈ found.output.units, unit.filename ≠ ""
  whole : ∀ unit ∈ found.output.units, '/' ∉ unit.filename.toList

/-- Units whose names are paths of one component have different files. -/
theorem Found.hasFiles (passed : BuildConstants.generate found.project.options
      found.project.rawProperties found.project.manifest.declarations .never = .ok found.output)
    (single : ∀ unit ∈ found.output.units, IsSingle unit.filename) : found.HasFiles := by
  obtain ⟨distinct, generated⟩ := GenerationOutput.filenames_of_generate passed
  exact
    { distinct
      notEmpty := fun unit member => (proper_of_isGeneratedName (generated unit member)).1
      whole := fun unit member => (isSingle_iff (generated unit member)).1 (single unit member) }

/-- The first of the units have been written. -/
theorem Found.IsMade.fills (isMade : found.IsMade before moment.disk.tree directory)
    (files : found.HasFiles) (units : found.output.units = done ++ rest)
    (writes : Goes (found.project.writeUnits done) moment (.ok ()) stop) :
    (∀ unit ∈ done, stop.disk.tree.node? (directory ++ [unit.filename]) =
      some (.file (.text unit.text))) ∧
    DiffersIn directory (done.map (·.filename)) moment.disk.tree stop.disk.tree := by
  have among : done.Sublist found.output.units := by
    rw [units]
    exact List.sublist_append_left done rest
  obtain ⟨there, filling⟩ := written_ok isMade.located isMade.isDirectory
    (files.distinct.sublist (among.map _))
    (fun unit member => files.notEmpty unit (among.subset member))
    (fun unit member => files.whole unit (among.subset member)) (written_of_goes writes)
  exact ⟨fun unit member => (there unit member).2.2, filling⟩

/-- What is left behind when the first of the units have been written and no leftover is gone. -/
theorem Found.IsMade.leaves_written (isMade : found.IsMade before made directory)
    (units : ∀ unit ∈ opened, unit ∈ found.output.units)
    (filling : DiffersIn directory (opened.map (·.filename)) made after)
    (there : ∀ unit ∈ opened, ∃ contents,
      after.node? (directory ++ [unit.filename]) = some (.file contents))
    (within : ∀ unit ∈ texts, unit ∈ opened)
    (written : ∀ unit ∈ texts,
      after.node? (directory ++ [unit.filename]) = some (.file (.text unit.text))) :
    found.Leaves texts opened [] directory before after :=
  have nothing : DiffersIn directory [] after after := .refl directory after
  Found.leaves isMade.grows isMade.located isMade.isDirectory filling nothing units there within
    written nofun nofun

/-- The file of a unit could not be opened. -/
theorem leaves_of_closed (isMade : found.IsMade before moment.disk.tree directory)
    (files : found.HasFiles) (units : found.output.units = done ++ unit :: rest)
    (writes : Goes (found.project.writeUnits done) moment (.ok ()) looked)
    (same : stop.disk.tree = looked.disk.tree) :
    found.Leaves done done [] directory before stop.disk.tree := by
  obtain ⟨written, filling⟩ := isMade.fills files units writes
  rw [same]
  refine isMade.leaves_written (fun other member => ?_) filling
    (fun other member => ⟨_, written other member⟩) (fun _ => id) written
  rw [units]
  exact List.mem_append_left _ member

/-- The file of a unit was opened and left with some contents. -/
theorem leaves_of_opened (isMade : found.IsMade before moment.disk.tree directory)
    (files : found.HasFiles) (units : found.output.units = done ++ unit :: rest)
    (writes : Goes (found.project.writeUnits done) moment (.ok ()) looked)
    {contents : FileContents}
    (wrote : looked.disk.tree.write (found.project.placeOf unit) contents = .ok stop.disk.tree) :
    found.Leaves done (done ++ [unit]) [] directory before stop.disk.tree := by
  obtain ⟨written, filling⟩ := isMade.fills files units writes
  have member : unit ∈ found.output.units := by
    rw [units]
    exact List.mem_append_right _ List.mem_cons_self
  obtain ⟨located, isDirectory⟩ :=
    filling.same.locate_directory isMade.located isMade.isDirectory
  obtain ⟨holds, opening⟩ := write_placeOf located isDirectory (files.notEmpty unit member)
    (files.whole unit member) wrote
  have filled : DiffersIn directory ((done ++ [unit]).map (·.filename)) moment.disk.tree
      stop.disk.tree := by
    rw [List.map_append]
    exact filling.append opening
  -- The unit is none of those before it, so these keep their texts.
  have kept : ∀ other ∈ done, stop.disk.tree.node? (directory ++ [other.filename]) =
      some (.file (.text other.text)) := by
    intro other isDone
    rw [opening.elsewhere, written other isDone]
    intro name single here
    rw [List.mem_singleton.1 single] at here
    have distinct := files.distinct
    rw [units, List.map_append, List.nodup_append] at distinct
    exact distinct.2.2 _ (List.mem_map_of_mem isDone) _ (List.mem_map_of_mem List.mem_cons_self)
      (List.append_singleton_inj.1 here).2
  refine isMade.leaves_written (fun other isOpened => ?_) filled (fun other isOpened => ?_)
    (fun other isDone => List.mem_append_left _ isDone) kept
  · rw [units]
    rcases List.mem_append.1 isOpened with isDone | single
    · exact List.mem_append_left _ isDone
    · exact List.mem_append_right _ (List.mem_singleton.1 single ▸ List.mem_cons_self)
  · rcases List.mem_append.1 isOpened with isDone | single
    · exact ⟨_, kept other isDone⟩
    · exact ⟨contents, List.mem_singleton.1 single ▸ holds⟩

/-- The units have been written, and some leftovers are gone. -/
theorem leaves_of_removed {gone behind : List Path}
    (isMade : found.IsMade before moment.disk.tree directory) (files : found.HasFiles)
    (writes : Goes (found.project.writeUnits found.output.units) moment (.ok ()) looked)
    (leftovers : found.leftovers = gone ++ behind)
    (removes : Goes (removeFiles gone) looked (.ok ()) stop) :
    found.Leaves found.output.units found.output.units gone directory before stop.disk.tree := by
  obtain ⟨written, filling⟩ := isMade.fills files (List.append_nil _).symm writes
  obtain ⟨located, isDirectory⟩ :=
    filling.same.locate_directory isMade.located isMade.isDirectory
  obtain ⟨names, paths, isLeftover⟩ := isMade.leftovers
  rw [leftovers] at paths
  obtain ⟨taken, others, rfl, rfl, -⟩ := List.append_eq_map_iff.1 paths
  have leftover : ∀ name ∈ taken,
      Leftover before found.project found.output.units directory name :=
    fun name member => isLeftover name (List.mem_append_left _ member)
  obtain ⟨nothing, taking⟩ := removed_ok located isDirectory
    (fun name member => (leftover name member).named) (removed_of_goes removes)
  exact Found.leaves isMade.grows isMade.located isMade.isDirectory filling taking
    (fun _ => id) (fun unit member => ⟨_, written unit member⟩) (fun _ => id) written leftover
    nothing

variable (wellFormed : start.disk.tree.WellFormed)
  (named : ∀ project, HasOutput invocation surroundings project → project.output.text ≠ "")

include wellFormed named

/-- When looking ends well, making the output directory touches no file, and the directory is there
when that ends well. -/
theorem make_of_goes {result : Except CommandError Unit}
    (looks : Goes (look invocation surroundings) start (.ok found) looked)
    (makes : Goes found.makeOutput looked result moment) :
    found.IsOn start.disk.tree invocation surroundings ∧
      start.disk.tree.GrowsTo moment.disk.tree ∧
      (result = .ok () → ∃ directory, found.IsMade start.disk.tree moment.disk.tree directory) := by
  obtain ⟨same, isFound⟩ := looks.does (looks_look start.disk.tree invocation surroundings)
  have isOn := isFound found rfl
  have wellFormedLooked : looked.disk.tree.WellFormed := by rwa [same]
  obtain ⟨prepares, there⟩ :=
    makes.does (does_makeOutput wellFormedLooked (named _ isOn.hasOutput))
  rw [same] at prepares
  obtain ⟨wellFormedMade, grows⟩ := prepares wellFormed
  refine ⟨isOn, grows, fun well => ?_⟩
  obtain ⟨directory, located, isDirectory⟩ := FileTree.isDirectory_iff.1 (there well)
  obtain ⟨names, paths, isLeftover⟩ := isOn.areLeftovers
  refine ⟨directory, grows, located, isDirectory, names, paths, fun name member => ?_⟩
  exact leftover_of_mem wellFormed grows.working (fun _ => grows.directories) located
    (isLeftover name member)

/-- What is left behind when generating gives up in a stage. -/
theorem GivesUp.leaves (givesUp : GivesUp invocation surroundings start error stop stage)
    (single : ∀ found looked, Goes (look invocation surroundings) start (.ok found) looked →
      ∀ unit ∈ found.output.units, IsSingle unit.filename) :
    stage.Leaves start.disk.tree stop.disk.tree := by
  cases givesUp with
  | looking failed => exact (failed.does (looks_look start.disk.tree invocation surroundings)).1
  | making looks failed =>
      obtain ⟨-, grows, -⟩ := make_of_goes wellFormed named looks failed
      exact fun place => grows.not_touches
  | opening looks makes units writes closed failed =>
      obtain ⟨isOn, -, there⟩ := make_of_goes wellFormed named looks makes
      obtain ⟨directory, isMade⟩ := there rfl
      have files := Found.hasFiles isOn.passed (single _ _ looks)
      rcases write_cases_of_goes failed with ⟨-, same⟩ | ⟨opened, -⟩
      · exact ⟨directory, leaves_of_closed isMade files units writes same⟩
      · exact absurd opened closed
  | filling looks makes units writes opened failed =>
      obtain ⟨isOn, -, there⟩ := make_of_goes wellFormed named looks makes
      obtain ⟨directory, isMade⟩ := there rfl
      have files := Found.hasFiles isOn.passed (single _ _ looks)
      rcases write_cases_of_goes failed with ⟨closed, -⟩ | ⟨-, contents, wrote⟩
      · exact absurd opened closed
      · exact ⟨directory, leaves_of_opened isMade files units writes wrote⟩
  | removing looks makes writes leftovers removes failed =>
      obtain ⟨isOn, -, there⟩ := make_of_goes wellFormed named looks makes
      obtain ⟨directory, isMade⟩ := there rfl
      have files := Found.hasFiles isOn.passed (single _ _ looks)
      have same := (failed.does (does_removeLeftover _ _)).2 _ rfl
      rw [Stage.Leaves, same]
      exact ⟨directory, leaves_of_removed isMade files writes leftovers removes⟩

end

end Project

/-! ### Runs -/

/-- What a run leaves behind on a tree on which operations go wrong. -/
def runOnFaulty (words : List String) (surroundings : Surroundings) (disk : FaultyTree) :
    Outcome × FaultyTree :=
  (run words surroundings : StateM FaultyTree Outcome).run disk

section

variable {words : List String} {surroundings : Surroundings} {disk : FaultyTree}
  {invocation : Invocation}

/-- A run ends as its session does. -/
theorem runOnFaulty_of_task {task : Task} (understood : Invocation.ofWords words = .ok invocation)
    (asked : invocation.task = some task) :
    ∃ log result stop,
      Session.Goes (do
        let project ← Project.load invocation surroundings
        task.perform project (invocation.isColored surroundings)) ⟨[], disk⟩ result stop ∧
      runOnFaulty words surroundings disk =
        (outcomeOf log (invocation.isColored surroundings) result, stop.disk) := by
  rw [runOnFaulty, run, understood]
  dsimp only
  rw [Invocation.run, asked]
  exact ⟨_, _, ⟨_, _⟩, rfl, rfl⟩

/-- A run that generates and fails gives up in a stage with the error that it ends with. Looking
leaves the tree as it is, and making the output directory touches no file. When the file of a unit
cannot be opened, the units before it have their texts and nothing else is touched; when it can be
opened and not written, that file is touched besides. Leftovers are gone only when all units have
their texts, those before the one that could not be removed. -/
theorem generate_gives_up {denyWarnings dryRun : Bool} {format : ReportFormat}
    (wellFormed : disk.tree.WellFormed) (working : surroundings.workingDirectory.text ≠ "")
    (understood : Invocation.ofWords words = .ok invocation)
    (asked : invocation.task = some (.generate denyWarnings dryRun format))
    (single : ∀ found looked,
      Session.Goes (Project.look invocation surroundings) ⟨[], disk⟩ (.ok found) looked →
      ∀ unit ∈ found.output.units, IsSingle unit.filename)
    (failed : (runOnFaulty words surroundings disk).1.status = .failed) :
    ∃ stage error stop log,
      Project.GivesUp invocation surroundings ⟨[], disk⟩ error stop stage ∧
      runOnFaulty words surroundings disk =
        (outcomeOf log (invocation.isColored surroundings) (.error error), stop.disk) ∧
      stage.Leaves disk.tree stop.disk.tree := by
  obtain ⟨log, result, stop, goes, ran⟩ := runOnFaulty_of_task understood asked
  rw [ran] at failed
  cases result with
  | ok printed =>
      dsimp only [outcomeOf] at failed
      split at failed <;> cases failed
  | error error =>
      rw [Project.load_generate_eq] at goes
      obtain ⟨stage, givesUp⟩ := Project.exists_givesUp goes
      refine ⟨stage, error, stop, log, givesUp, ran, ?_⟩
      exact givesUp.leaves wellFormed (fun project has => has.named understood working) single

end

namespace Denied

/-- A project with two units, the second of which has a file already, and a leftover. -/
def before : FileTree :=
  { entries := [(["w"], .directory),
      (["w", "decl.toml"], .file (.text
        ("[[container]]\nname = \"First\"\n" ++
          "[[container.member]]\nname = \"Level\"\ntype = \"int\"\n" ++
          "[[container]]\nname = \"Later\"\n" ++
          "[[container.member]]\nname = \"Level\"\ntype = \"int\"\n"))),
      (["w", "Generated"], .directory), (["w", "Generated", "Later.g.cs"], .file (.text "")),
      (["w", "Generated", "Old.g.cs"], .file (.text ""))]
    working := ["w"] }

/-- The file of the second unit may not be opened. -/
def disk : FaultyTree :=
  { tree := before
    faults := List.replicate 13 none ++
      [some (.refused (.other "Permission denied (os error 13)"))] }

def invocation : Invocation :=
  { path := none, properties := none, declarations := some ⟨"decl.toml"⟩, output := none
    emitMarker := false, isVerbose := false, noColor := false
    task := some (.generate false false .text) }

/-- A run that writes one unit and may not open the file of the next one. -/
theorem gives_up_at_second_unit :
    let ran := runOnFaulty ["generate", "-d", "decl.toml"] Disagreement.bare disk
    ∃ stage error stop log,
      before.WellFormed ∧ Invocation.ofWords ["generate", "-d", "decl.toml"] = .ok invocation ∧
      ran.1.status = .failed ∧
      Project.GivesUp invocation Disagreement.bare ⟨[], disk⟩ error stop stage ∧
      ran = (outcomeOf log false (.error error), stop.disk) ∧
      stage.Leaves before stop.disk.tree ∧
      before.Touches ran.2.tree ["w", "Generated", "First.g.cs"] ∧
      ¬ before.Touches ran.2.tree ["w", "Generated", "Later.g.cs"] ∧
      ¬ before.Touches ran.2.tree ["w", "Generated", "Old.g.cs"] := by
  intro ran
  have wellFormed : disk.tree.WellFormed := by decide +kernel
  have understood : Invocation.ofWords ["generate", "-d", "decl.toml"] = .ok invocation := by
    decide +kernel
  have seen : ran.1.status = .failed ∧
      before.Touches ran.2.tree ["w", "Generated", "First.g.cs"] ∧
      ¬ before.Touches ran.2.tree ["w", "Generated", "Later.g.cs"] ∧
      ¬ before.Touches ran.2.tree ["w", "Generated", "Old.g.cs"] := by
    decide +kernel
  have single : ∀ found looked,
      Session.Goes (Project.look invocation Disagreement.bare) ⟨[], disk⟩ (.ok found) looked →
      ∀ unit ∈ found.output.units, IsSingle unit.filename := by
    intro found looked looks
    let session : Session (StateM FaultyTree) Project.Found :=
      Project.look invocation Disagreement.bare
    let areSingle (ended : Except CommandError Project.Found) : Bool :=
      match ended with
      | .ok found => decide (∀ unit ∈ found.output.units,
          Path.components ⟨unit.filename⟩ = [.name unit.filename])
      | .error _ => true
    have checked : areSingle ((session.run.run []).run disk).1.1 = true := by decide +kernel
    have ended : ((session.run.run []).run disk).1.1 = .ok found := congrArg (·.1.1) looks
    rw [ended] at checked
    have all : ∀ unit ∈ found.output.units,
        Path.components ⟨unit.filename⟩ = [.name unit.filename] := of_decide_eq_true checked
    exact all
  obtain ⟨stage, error, stop, log, givesUp, ended, leaves⟩ :=
    generate_gives_up wellFormed (by decide +kernel) understood rfl single seen.1
  exact ⟨stage, error, stop, log, wellFormed, understood, seen.1, givesUp, ended, leaves, seen.2⟩

end Denied

end BuildConstants
