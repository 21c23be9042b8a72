import BuildConstants.Proofs.Command.Establish
import BuildConstants.Proofs.Command.Run
import BuildConstants.Proofs.Command.Seen

/-!
# Generating and checking agree

What a run that generates establishes, a run that checks verifies: `generate_establishes` says so
for every project and every file tree on which the run does not fail. It asks that no `..` in the
paths of the project and of its output directory goes back from a directory that is missing before
the run; `Disagreement.generated_unlike_checked` has runs where one does, one where the output
directory holds a file whose path is too long, and one where the file of a unit can be written but
not read, which is the only thing that a run that checks complains about otherwise.
-/

namespace BuildConstants

variable {words : List String} {surroundings : Surroundings} {tree before after : FileTree}
  {invocation : Invocation} {project : Project} {output : GenerationOutput} {place : Place}

/-- The place holds the units: they are its only files with generated names, as far as the paths of
files are not too long, and all other files are those of the tree before. What cannot be read is
what could not be read before and is still there. -/
structure FileTree.HoldsUnits (after : FileTree) (project : Project) (units : List SourceUnit)
    (place : Place) (before : FileTree) : Prop where
  located : after.locate project.output = .ok place
  isDirectory : after.isDirectoryAt place
  there : ∀ unit ∈ units, after.node? (place ++ [unit.filename]) = some (.file (.text unit.text))
  alone : ∀ name contents, Project.isGeneratedName name →
    (project.output.join ⟨name⟩).text.utf8ByteSize < FileTree.pathLimit →
    after.node? (place ++ [name]) = some (.file contents) → ∃ unit ∈ units, unit.filename = name
  elsewhere : ∀ other contents,
    (∀ name, other = place ++ [name] → Project.isGeneratedName name →
      ¬ (project.output.join ⟨name⟩).text.utf8ByteSize < FileTree.pathLimit) →
    (after.node? other = some (.file contents) ↔ before.node? other = some (.file contents))
  kept : ∀ other, before.isDirectoryAt other → after.isDirectoryAt other
  unreadable : ∀ other, other ∈ after.unreadable ↔
    other ∈ before.unreadable ∧ (after.fileAt? other).isSome

/-- What a run that generates establishes: the output directory holds the units, a run that checks
finds nothing stale or left over, and nothing missing but the units whose files could not be read
before, and a run that generates again changes nothing. -/
structure Establishes (words : List String) (surroundings : Surroundings)
    (invocation : Invocation) (project : Project) (output : GenerationOutput) (place : Place)
    (before after : FileTree) : Prop where
  holds : after.HoldsUnits project output.units place before
  checked : ∀ checkWords showDiff format,
    Invocation.ofWords checkWords =
      .ok { invocation with task := some (.check showDiff format) } →
    let barred := output.units.filter fun unit => place ++ [unit.filename] ∈ before.unreadable
    let found : CheckResult :=
      { project, diagnostics := output.diagnostics
        stale := barred.map fun unit => { unit, current := none }
        leftovers := [] }
    let isColored := invocation.isColored surroundings
    (runOn checkWords surroundings after).1.status =
        (if barred = [] then .success else .unsatisfied) ∧
      ∃ log, runOn checkWords surroundings after =
        (outcomeOf log isColored (.ok (found.present showDiff format isColored)), after)
  again : (runOn words surroundings after).1.status = (runOn words surroundings before).1.status ∧
    (runOn words surroundings after).2.working = after.working ∧
    (runOn words surroundings after).2.unreadable = after.unreadable ∧
    ∀ other, (runOn words surroundings after).2.node? other = after.node? other

namespace Project.Established

theorem holdsUnits (established : Established project output.units place before after) :
    after.HoldsUnits project output.units place before where
  located := established.located
  isDirectory := established.isDirectory
  there unit member := (established.there unit member).2.2
  alone name contents generated short isFile := by
    have usable := (FileTree.locate_eq_ok_iff.1 established.located).1
    have named := (established.wellFormed.parent (Option.isSome_of_eq_some isFile)).2
    exact established.alone name contents generated
      ((FileTree.checkPath_join_iff usable named).2 short) isFile
  elsewhere other contents apart := by
    rcases List.eq_nil_or_concat other with rfl | ⟨above, name, rfl⟩
    · rw [FileTree.node?_nil, FileTree.node?_nil]
    · rw [List.concat_eq_append] at apart ⊢
      refine established.elsewhere above name contents fun ⟨here, generated, usable⟩ => ?_
      exact apart name (here ▸ rfl) generated (FileTree.checkPath_eq_ok_iff.1 usable).2.2
  kept := established.kept
  unreadable := established.unreadable

/-- The project is loaded alike when its units were generated. -/
theorem loadIn_eq (established : Established project output.units place before after)
    (wellFormed : before.WellFormed) (written : project.root.text ≠ "")
    (steady : before.Steady project.root)
    (loaded : Project.loadIn before invocation surroundings = .ok project) :
    Project.loadIn after invocation surroundings = .ok project := by
  refine Project.loadIn_of_unseen wellFormed established.wellFormed established.working
    established.kept established.old (fun above name other contents => ?_)
    (fun place barred => ((established.unreadable place).1 barred).1) written steady loaded
  refine established.elsewhere above name contents fun ⟨_, generated, _⟩ => ?_
  rw [other] at generated
  cases generated

end Project.Established

/-- A run that generates and does not fail establishes what a run that checks verifies. -/
theorem generate_establishes {denyWarnings : Bool} {format : ReportFormat}
    (wellFormed : before.WellFormed) (working : surroundings.workingDirectory.text ≠ "")
    (understood : Invocation.ofWords words = .ok invocation)
    (asked : invocation.task = some (.generate denyWarnings false format))
    (loaded : Session.Gives (Project.load invocation surroundings) before (.ok project, before))
    (passed : generate project.options project.rawProperties project.manifest.declarations .never =
      .ok output)
    (whole : ∀ unit ∈ output.units, '/' ∉ unit.filename.toList)
    (steadyRoot : before.Steady project.root) (steadyOutput : before.Steady project.output)
    (ended : (runOn words surroundings before).1.status ≠ .failed) :
    ∃ place, Establishes words surroundings invocation project output place before
      (runOn words surroundings before).2 := by
  have loadedIn : Project.loadIn before invocation surroundings = .ok project :=
    congrArg Prod.fst ((Project.gives_load before invocation surroundings).unique loaded)
  obtain ⟨rootWritten, outputWritten⟩ := Project.loaded_paths_ne understood working loadedIn
  obtain ⟨distinct, generatedNames⟩ := GenerationOutput.filenames_of_generate passed
  have generates := fun tree => (Project.gives_generate passed tree denyWarnings false).map
    fun result => result.present format (invocation.isColored surroundings)
  obtain ⟨log, ran⟩ := runOn_of_gives understood asked loadedIn (generates before)
  rcases final : Project.generated before project output denyWarnings false with ⟨result, after⟩
  rw [final] at ran
  rw [ran] at ended ⊢
  obtain ⟨shown, good⟩ := exists_ok_of_status ended
  cases result with
  | error error => cases good
  | ok result =>
  obtain ⟨place, established⟩ := Project.established wellFormed outputWritten steadyOutput distinct
    generatedNames whole final
  have reloaded := established.loadIn_eq wellFormed rootWritten steadyRoot loadedIn
  refine ⟨place, established.holdsUnits, fun checkWords showDiff checkFormat same => ?_, ?_⟩
  · have checks := (Project.gives_check passed after).map fun result =>
      result.present showDiff checkFormat (invocation.isColored surroundings)
    rw [established.staleIn_eq, established.leftoverNames_eq] at checks
    obtain ⟨checkLog, checked⟩ := runOn_of_gives same rfl reloaded checks
    refine ⟨?_, checkLog, checked⟩
    rw [checked]
    simp only [Except.map, outcomeOf, CheckResult.isGood_present, CheckResult.isGood_iff,
      List.map_nil, List.map_eq_nil_iff, and_true]
  · obtain ⟨later, ranAgain, workingLater, sameLater, unchanged⟩ :=
      established.generated_again denyWarnings
    obtain ⟨logAgain, again⟩ := runOn_of_gives understood asked reloaded (generates after)
    rw [ranAgain] at again
    rw [again, ran]
    refine ⟨?_, workingLater, sameLater, unchanged⟩
    obtain ⟨-, -, -, -, -, rfl⟩ := Project.generated_eq_ok final
    simp only [Except.map, outcomeOf, GenerateResult.isGood_present]
    rfl

/-- A unit that is stale, a leftover that is no text and cannot be read, a file of another name, and
a directory with the name of a generated file. -/
theorem established_among_others :
    let declared : String :=
      "[[container]]\nname = \"Variants\"\n[[container.member]]\nname = \"Level\"\ntype = \"int\"\n"
    let before : FileTree :=
      { entries := [(["w"], .directory), (["w", "decl.toml"], .file (.text declared)),
          (["w", "Generated"], .directory),
          (["w", "Generated", "Variants.g.cs"], .file (.text "")),
          (["w", "Generated", "Old.g.cs"], .file (.octets [255])),
          (["w", "Generated", "Notes.cs"], .file (.text "")),
          (["w", "Generated", "Kept.g.cs"], .directory),
          (["w", "Generated", "Kept.g.cs", "Old.g.cs"], .file (.text ""))]
        working := ["w"]
        unreadable := [["w", "Generated", "Old.g.cs"]] }
    let surroundings : Surroundings :=
      { workingDirectory := ⟨"/w"⟩, properties := some "Level=3", log := none, noColor := true }
    let words : List String := ["generate", "-d", "decl.toml"]
    let invocation : Invocation :=
      { path := none, properties := none, declarations := some ⟨"decl.toml"⟩, output := none
        emitMarker := false, isVerbose := false, noColor := false
        task := some (.generate false false .text) }
    let declaration : Declaration :=
      (Declaration.property ⟨"", "Variants", .reference⟩ "Level" "int").withLocation
        { file := ⟨"/w/decl.toml"⟩, line := none, column := none }
    let project : Project :=
      { root := ⟨"/w"⟩, configPlace := none, rawProperties := some "Level=3", options := {}
        manifest := { path := ⟨"/w/decl.toml"⟩, declarations := [declaration] }
        output := ⟨"/w/Generated"⟩ }
    ∃ output place,
      before.WellFormed ∧ Invocation.ofWords words = .ok invocation ∧
      Session.Gives (Project.load invocation surroundings) before (.ok project, before) ∧
      generate project.options project.rawProperties project.manifest.declarations .never =
        .ok output ∧
      (∀ unit ∈ output.units, '/' ∉ unit.filename.toList) ∧
      before.Steady project.root ∧ before.Steady project.output ∧
      (runOn words surroundings before).1.status = .success ∧
      Establishes words surroundings invocation project output place before
        (runOn words surroundings before).2 ∧
      (runOn ["check", "-d", "decl.toml"] surroundings
        (runOn words surroundings before).2).1.status = .success := by
  intro declared before surroundings words invocation declaration project
  have wellFormed : before.WellFormed := by decide +kernel
  have understood : Invocation.ofWords words = .ok invocation := by decide +kernel
  have loadedIn : Project.loadIn before invocation surroundings = .ok project := by decide +kernel
  have loaded := Project.gives_load before invocation surroundings
  rw [loadedIn] at loaded
  have passed := generate_never project.options project.rawProperties
    project.manifest.declarations
  have whole : ∀ unit ∈ project.options.markers ++
      SourceUnit.ofModels project.options (.resolve project.rawProperties)
        (Declaration.accepted project.manifest.declarations),
      '/' ∉ unit.filename.toList := by
    decide +kernel
  have steadyRoot : before.Steady project.root :=
    FileTree.steady_of_isDirectory (by decide +kernel)
  have steadyOutput : before.Steady project.output :=
    FileTree.steady_of_isDirectory (by decide +kernel)
  have ended : (runOn words surroundings before).1.status = .success := by decide +kernel
  obtain ⟨place, establishes⟩ := generate_establishes wellFormed (by decide +kernel) understood rfl
    loaded passed whole steadyRoot steadyOutput (by rw [ended]; decide)
  exact ⟨_, place, wellFormed, understood, loaded, passed, whole, steadyRoot, steadyOutput, ended,
    establishes, by decide +kernel⟩

/-! ### Runs that disagree -/

/-- The words ask for the units that a project on the tree has, and all its declarations are
valid. -/
def AsksFor (units : List SourceUnit) (words : List String) (surroundings : Surroundings)
    (tree : FileTree) : Prop :=
  ∃ invocation project denyWarnings format,
    Invocation.ofWords words = .ok invocation ∧
    invocation.task = some (.generate denyWarnings false format) ∧
    Project.loadIn tree invocation surroundings = .ok project ∧
    generate project.options project.rawProperties project.manifest.declarations .never =
      .ok { units, diagnostics := [] }

/-- A path behind the switch for the output directory is taken as it is. -/
theorem ofWords_output {path : String} {rest : List Char} (letters : path.toList = '/' :: rest) :
    Invocation.ofWords ["generate", "-d", "decl.json", "-o", path] =
      .ok
        { path := none, properties := none, declarations := some ⟨"decl.json"⟩
          output := some ⟨path⟩, emitMarker := false, isVerbose := false, noColor := false
          task := some (.generate false false .text) } := by
  have named : path ≠ "" := by
    rintro rfl
    cases letters
  let front : Scan :=
    { given := [(.declarations, some "decl.json")], pending := some (.output, none) }
  let filled : Scan := { given := [(.declarations, some "decl.json"), (.output, some path)] }
  have reads : ["-d", "decl.json", "-o"].foldlM (Scan.read (some .generate)) {} = .ok front := rfl
  have value : front.read (some .generate) path =
      .ok { front with pending := some (.output, some path) } := by
    rw [Scan.read, letters]
    rfl
  have settles : Scan.settle (some .generate)
      { front with pending := some (.output, some path) } = .ok filled := by
    have checked : Scan.checkValue (some .generate) .output path = .ok () := if_neg named
    simp only [Scan.settle, Scan.recordValue, checked]
    rfl
  have behind : Scan.readTask .generate ["-d", "decl.json", "-o", path] = .ok filled := by
    have whole : ["-d", "decl.json", "-o", path] = ["-d", "decl.json", "-o"] ++ [path] := rfl
    rw [Scan.readTask, whole, List.foldlM_append, reads]
    simp only [bind, Except.bind, List.foldlM_cons, List.foldlM_nil, value]
    exact settles
  have program : Scan.readProgram {} ["generate", "-d", "decl.json", "-o", path] =
      (Scan.readTask .generate ["-d", "decl.json", "-o", path]).bind fun inner =>
        .ok ({}, some (.generate, inner)) := rfl
  rw [Invocation.ofWords, program, behind]
  rfl

namespace Disagreement

/-- Surroundings without any of the variables that a run looks at, but for the one on color. -/
def bare : Surroundings :=
  { workingDirectory := ⟨"/w"⟩, properties := none, log := none, noColor := true }

/-- A manifest without declarations and a configuration that asks for the marker. -/
def configured : FileTree :=
  { entries := [(["w"], .directory), (["w", "decl.json"], .file (.text "\x7b\x7d")),
      (["w", "bakeprop.toml"], .file (.text "[marker]\nemit = true\n"))]
    working := ["w"] }

/-- The project is in the working directory, once the output directory is there. -/
def rooted (task : String) : List String :=
  [task, "-p", "new/..", "-d", "/w/decl.json", "-o", "/w/new"]

/-- A manifest without declarations and a file with a generated name. -/
def littered : FileTree :=
  { entries := [(["w"], .directory), (["w", "decl.json"], .file (.text "\x7b\x7d")),
      (["w", "Generated"], .directory), (["w", "Generated", "Old.g.cs"], .file (.text ""))]
    working := ["w"] }

/-- The output directory is there, once another directory is. -/
def turning (task : String) : List String :=
  [task, "-d", "decl.json", "-o", "new/../Generated"]

/-- A manifest without declarations and the file of the marker as it is generated. -/
def marked : FileTree :=
  { entries := [(["w"], .directory), (["w", "decl.json"], .file (.text "\x7b\x7d")),
      (["w", "Generated"], .directory),
      (["w", "Generated", "BuildPropertyAttribute.g.cs"],
        .file (.text (SourceUnit.marker "BakeProp").text))]
    working := ["w"] }

/-- The same, but the file of the marker cannot be read. -/
def barred : FileTree :=
  { marked with unreadable := [["w", "Generated", "BuildPropertyAttribute.g.cs"]] }

/-- The marker is all that is generated. -/
def emitting (task : String) : List String :=
  [task, "--emit-marker", "-d", "decl.json"]

/-- The output directory is there, with slashes behind it. -/
def slashed (count : Nat) : List String :=
  ["generate", "-d", "decl.json", "-o", "/w/Generated" ++ Text.slashes count]

def manifest : Manifest :=
  { path := ⟨"/w/decl.json"⟩, declarations := [] }

/-- What the words for generating ask for. -/
def asking (root : Option Path) (declarations output : Path) : Invocation :=
  { path := root, properties := none, declarations := some declarations, output := some output
    emitMarker := false, isVerbose := false, noColor := false
    task := some (.generate false false .text) }

theorem generate_none : generate {} none [] .never = .ok { units := [], diagnostics := [] } := by
  decide +kernel

/-- So many slashes that a system can use the path of the directory, but not that of the file in it:
generating passes over the file. -/
theorem generate_slashed {count : Nat} (short : 12 + count < FileTree.pathLimit)
    (long : FileTree.pathLimit ≤ 12 + count + 8) :
    AsksFor [] (slashed count) bare littered ∧
      (runOn (slashed count) bare littered).1.status = .success ∧
      (runOn (slashed count) bare littered).2 = littered := by
  generalize written : "/w/Generated" ++ Text.slashes count = path
  have letters : path.toList = "/w/Generated".toList ++ (Text.slashes count).toList := by
    rw [← written, String.toList_append]
  have size : path.utf8ByteSize = 12 + count := by
    rw [← written, String.utf8ByteSize_append, Text.utf8ByteSize_slashes]
    rfl
  have understood : Invocation.ofWords (slashed count) =
      .ok (asking none ⟨"decl.json"⟩ ⟨path⟩) := by
    rw [slashed, written]
    exact ofWords_output letters
  let project := Project.built littered (asking none ⟨"decl.json"⟩ ⟨path⟩) bare {} manifest
  have loaded : Project.loadIn littered (asking none ⟨"decl.json"⟩ ⟨path⟩) bare =
      .ok project := by
    have configured : Config.loadIn littered ⟨"/w"⟩ = .ok none := by decide +kernel
    have listed : Manifest.loadIn littered (bare.workingDirectory.join ⟨"decl.json"⟩) =
        .ok manifest := by decide +kernel
    exact Project.loadIn_eq_ok_iff.2
      ⟨none, ⟨"decl.json"⟩, manifest, configured, rfl, listed, rfl⟩
  have output : project.output = ⟨path⟩ := by
    have absolute : Path.isAbsolute ⟨path⟩ := by
      rw [Path.isAbsolute, letters]
      rfl
    exact if_pos absolute
  have located : littered.locate ⟨path⟩ = .ok ["w", "Generated"] := by
    have plain : littered.locate ⟨"/w/Generated"⟩ = .ok ["w", "Generated"] := by decide +kernel
    rw [← written]
    exact FileTree.locate_slashes plain (by decide +kernel) short
  have isDirectory : littered.isDirectoryAt ["w", "Generated"] := by decide +kernel
  have directory : littered.isDirectory project.output := by
    rw [output]
    exact FileTree.isDirectory_iff.2 ⟨_, located, isDirectory⟩
  have nothing : Project.leftoverNames littered project [] = [] := by
    rw [List.eq_nil_iff_forall_not_mem]
    intro name member
    have fits := Project.short_of_mem_leftoverNames member
    rw [output] at fits
    have found := ((Project.mem_leftoverNames (output ▸ located) isDirectory).1 member).1
    have listed : littered.namesAt ["w", "Generated"] = ["Old.g.cs"] := by decide +kernel
    rw [← FileTree.mem_namesAt, listed, List.mem_singleton] at found
    subst found
    have longer := Path.utf8ByteSize_join (p := ⟨path⟩) (q := ⟨"Old.g.cs"⟩) (by decide +kernel)
    have name : "Old.g.cs".utf8ByteSize = 8 := by decide +kernel
    dsimp only at longer
    omega
  have generated : Project.generated littered project ⟨[], []⟩ false false =
      (.ok (Project.generateResult littered project ⟨[], []⟩ false false), littered) :=
    Project.generated_of_written directory nothing rfl
  obtain ⟨log, ran⟩ := runOn_generate understood loaded generate_none rfl
  rw [generated] at ran
  rw [ran]
  exact ⟨⟨_, project, false, .text, understood, rfl, loaded, generate_none⟩, rfl, rfl⟩

theorem generate_marker :
    generate { emitMarker := true } none [] .never =
      .ok { units := [.marker "BakeProp"], diagnostics := [] } := by
  decide +kernel

/-- Three runs that generate and succeed without a unit, and one with a unit. The first two leave
what a run that checks complains about, because a path leads elsewhere when a directory was made;
the third leaves a file with a generated name, whose path is too long. The last one writes a unit
that is reported as missing, because its file cannot be read. -/
theorem generated_unlike_checked :
    configured.WellFormed ∧ littered.WellFormed ∧ barred.WellFormed ∧
    (AsksFor [] (rooted "generate") bare configured ∧
      let generated := runOn (rooted "generate") bare configured
      generated.1.status = .success ∧
        (runOn (rooted "check") bare generated.2).1.status = .unsatisfied) ∧
    (AsksFor [] (turning "generate") bare littered ∧
      let generated := runOn (turning "generate") bare littered
      generated.1.status = .success ∧
        generated.2.node? ["w", "Generated", "Old.g.cs"] = some (.file (.text "")) ∧
        (runOn (turning "check") bare generated.2).1.status = .unsatisfied) ∧
    (AsksFor [] (slashed 4080) bare littered ∧
      let generated := runOn (slashed 4080) bare littered
      generated.1.status = .success ∧
        generated.2.node? ["w", "Generated", "Old.g.cs"] = some (.file (.text ""))) ∧
    (AsksFor [.marker "BakeProp"] (emitting "generate") bare barred ∧
      '/' ∉ (SourceUnit.marker "BakeProp").filename.toList ∧
      let generated := runOn (emitting "generate") bare barred
      generated.1.status = .success ∧
        generated.2.node? ["w", "Generated", (SourceUnit.marker "BakeProp").filename] =
          some (.file (.text (SourceUnit.marker "BakeProp").text)) ∧
        (runOn (emitting "check") bare generated.2).1.status = .unsatisfied) := by
  refine ⟨by decide +kernel, by decide +kernel, by decide +kernel,
    ⟨?_, by decide +kernel, by decide +kernel⟩,
    ⟨?_, by decide +kernel, by decide +kernel, by decide +kernel⟩, ?_,
    ?_, by decide +kernel, by decide +kernel, by decide +kernel, by decide +kernel⟩
  · have loaded : Project.loadIn configured (asking (some ⟨"new/.."⟩) ⟨"/w/decl.json"⟩ ⟨"/w/new"⟩)
        bare = .ok (Project.built configured
          (asking (some ⟨"new/.."⟩) ⟨"/w/decl.json"⟩ ⟨"/w/new"⟩) bare {} manifest) := by
      decide +kernel
    exact ⟨_, _, false, .text, by decide +kernel, rfl, loaded, generate_none⟩
  · have loaded : Project.loadIn littered (asking none ⟨"decl.json"⟩ ⟨"new/../Generated"⟩)
        bare = .ok (Project.built littered
          (asking none ⟨"decl.json"⟩ ⟨"new/../Generated"⟩) bare {} manifest) := by
      decide +kernel
    exact ⟨_, _, false, .text, by decide +kernel, rfl, loaded, generate_none⟩
  · have short : 12 + 4080 < FileTree.pathLimit := by decide
    have long : FileTree.pathLimit ≤ 12 + 4080 + 8 := by decide
    obtain ⟨asks, succeeds, unchanged⟩ := generate_slashed short long
    refine ⟨asks, succeeds, ?_⟩
    rw [unchanged]
    decide +kernel
  · let invocation : Invocation :=
      { path := none, properties := none, declarations := some ⟨"decl.json"⟩, output := none
        emitMarker := true, isVerbose := false, noColor := false
        task := some (.generate false false .text) }
    have loaded : Project.loadIn barred invocation bare =
        .ok (Project.built barred invocation bare {} manifest) := by decide +kernel
    exact ⟨invocation, _, false, .text, by decide +kernel, rfl, loaded, generate_marker⟩

end Disagreement

end BuildConstants
