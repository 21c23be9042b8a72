import BuildConstants.Proofs.Command.Agreement

/-!
# Where generating writes

However a run that generates ends, each file that it touches has the name of a generated file, and
the file is in the output directory as long as the namespaces and names of the containers have no
slashes in them: `generate_confined`. A slash is kept in the name of the unit, so it can lead out of
the output directory, which `Escape.generated_outside` does.
-/

namespace BuildConstants

namespace Project

variable {before middle tree later : FileTree} {project : Project} {output : GenerationOutput}
  {units : List SourceUnit} {unit : SourceUnit} {path : Path} {place other : Place}
  {names : List String} {whole : Prop}

/-- What is touched between the two trees are files with names of generated files, which are in the
directory when `whole` holds. -/
structure StaysIn (place : Place) (whole : Prop) (tree later : FileTree) : Prop where
  same : tree.SameDirectories later
  touched : ∀ other, tree.Touches later other →
    ∃ above name, other = above ++ [name] ∧ isGeneratedName name ∧ (whole → above = place)

theorem StaysIn.refl (place : Place) (whole : Prop) (tree : FileTree) :
    StaysIn place whole tree tree :=
  ⟨.refl tree, fun _ touches => absurd touches FileTree.not_touches_refl⟩

theorem StaysIn.trans (first : StaysIn place whole tree middle)
    (second : StaysIn place whole middle later) : StaysIn place whole tree later := by
  refine ⟨first.same.trans second.same, fun other touches => ?_⟩
  rcases touches.split middle with early | late
  · exact first.touched other early
  · exact second.touched other late

/-- Changes in files of the directory that have names of generated files stay in it. -/
theorem DiffersIn.staysIn (differs : DiffersIn place names tree later)
    (generated : ∀ name ∈ names, isGeneratedName name) : StaysIn place whole tree later := by
  refine ⟨differs.same, fun other touches => ?_⟩
  by_contra apart
  refine touches (FileTree.fileAt?_congr (differs.elsewhere other fun name member here => ?_))
  exact apart ⟨place, name, here, generated name member, fun _ => rfl⟩

/-- What is written under the name of a generated file has such a name, wherever slashes in the name
lead. -/
theorem isGeneratedName_of_target {filename : String} {slashed : Bool}
    (generated : isGeneratedName filename)
    (asked : tree.target (path.join ⟨filename⟩) = .ok (.entry place slashed)) :
    ∃ above name, place = above ++ [name] ∧ isGeneratedName name := by
  obtain ⟨before, name, slashes, above, -, parts, blank, -, -, -, rfl⟩ :=
    FileTree.target_eq_entry asked
  refine ⟨above, name, rfl, ?_⟩
  obtain ⟨stem, rfl⟩ := isGeneratedName_iff.1 generated
  obtain ⟨front, text⟩ := Path.exists_text_join path ⟨stem ++ generatedSuffix⟩
  have noSlash : '/' ∉ generatedSuffix.toList := by decide
  obtain ⟨others, last, cut⟩ := Text.exists_parts_append '/' (front ++ stem) noSlash
  rw [String.append_assoc, ← text] at cut
  have same : before ++ name :: slashes = others ++ [last ++ generatedSuffix] :=
    parts.symm.trans cut
  rcases List.eq_nil_or_concat slashes with rfl | ⟨between, final, rfl⟩
  · rw [(List.append_singleton_inj.1 same).2]
    exact isGeneratedName_append last
  · -- No slash follows the name, as the path ends with the suffix.
    have atEnd : (before ++ name :: between) ++ [final] = others ++ [last ++ generatedSuffix] := by
      rw [← same, List.concat_eq_append, List.append_assoc, List.cons_append]
    have isBlank : last ++ generatedSuffix = "" :=
      (List.append_singleton_inj.1 atEnd).2.symm.trans (blank final (by simp))
    exact absurd isBlank (proper_of_isGeneratedName (isGeneratedName_append last)).1

section

variable (located : tree.locate project.output = .ok place)
  (isDirectory : tree.isDirectoryAt place)

include located isDirectory

theorem write_staysIn (generated : isGeneratedName unit.filename)
    (plain : whole → '/' ∉ unit.filename.toList)
    (wrote : tree.write (project.placeOf unit) (.text unit.text) = .ok later) :
    StaysIn place whole tree later := by
  by_cases slash : '/' ∈ unit.filename.toList
  · obtain ⟨_, asked, free, rfl⟩ := FileTree.write_eq_ok wrote
    obtain ⟨above, name, rfl, isGenerated⟩ := isGeneratedName_of_target generated asked
    refine ⟨FileTree.sameDirectories_put free, fun other touches => ?_⟩
    exact ⟨above, name, FileTree.eq_of_touches_put touches, isGenerated,
      fun holds => absurd slash (plain holds)⟩
  · have differs :=
      (write_placeOf located isDirectory (proper_of_isGeneratedName generated).1 slash wrote).2
    refine differs.staysIn fun name member => ?_
    rwa [List.mem_singleton.1 member]

/-- Changes stay in the directory, whether all of them end well or not, when each one does that ends
well. -/
theorem changedFor_staysIn {β : Type} {change : β → FileTree → Except FileError FileTree}
    {items : List β}
    (each : ∀ item ∈ items, ∀ tree later : FileTree, tree.locate project.output = .ok place →
      tree.isDirectoryAt place → change item tree = .ok later → StaysIn place whole tree later) :
    StaysIn place whole tree (changedFor change tree items).2 := by
  induction items generalizing tree with
  | nil => exact .refl place whole tree
  | cons item rest ih =>
      cases step : change item tree with
      | error error =>
          simp only [changedFor, step]
          exact .refl place whole tree
      | ok middle =>
          have first := each item List.mem_cons_self tree middle located isDirectory step
          obtain ⟨locatedNow, isDirectoryNow⟩ := first.same.locate_directory located isDirectory
          rw [changedFor_of_ok step]
          exact first.trans (ih locatedNow isDirectoryNow
            fun item member => each item (List.mem_cons_of_mem _ member))

theorem written_staysIn (generated : ∀ unit ∈ units, isGeneratedName unit.filename)
    (plain : whole → ∀ unit ∈ units, '/' ∉ unit.filename.toList) :
    StaysIn place whole tree (written project tree units).2 :=
  changedFor_staysIn located isDirectory fun unit member _ _ located isDirectory wrote =>
    write_staysIn located isDirectory (generated unit member)
      (fun holds => plain holds unit member) wrote

theorem removed_staysIn (named : ∀ name ∈ names, IsName name ∧ isGeneratedName name) :
    StaysIn place whole tree
      (removed tree (names.map fun name => project.output.join ⟨name⟩)).2 := by
  rw [removed, changedFor_map]
  refine changedFor_staysIn located isDirectory fun name member _ _ located isDirectory took => ?_
  have differs := (removeFile_join located isDirectory (named name member).1 took).2
  refine differs.staysIn fun other isOther => ?_
  rw [List.mem_singleton.1 isOther]
  exact (named name member).2

end

/-- Generating makes directories, if anything, and thereafter it stays in the output directory. -/
theorem generated_cases (wellFormed : before.WellFormed) (written : project.output.text ≠ "")
    (generatedNames : ∀ unit ∈ output.units, isGeneratedName unit.filename)
    (denyWarnings dryRun : Bool) :
    let later := (generated before project output denyWarnings dryRun).2
    ∃ made, before.GrowsTo made ∧
      (later = made ∨ ∃ place, made.locate project.output = .ok place ∧ made.isDirectoryAt place ∧
        StaysIn place (∀ unit ∈ output.units, '/' ∉ unit.filename.toList) made later) := by
  cases dryRun with
  | true => exact ⟨before, .refl before, .inl rfl⟩
  | false =>
      have prepared := (FileTree.makeDirectories_prepares before project.output wellFormed).2
      rw [generated]
      simp only [Bool.false_eq_true, if_false]
      rcases directories : (Files.makeDirectories project.output : StateM FileTree _).run before
        with ⟨result, made⟩
      rw [directories] at prepared
      cases result with
      | error error => exact ⟨made, prepared, .inl rfl⟩
      | ok _ =>
          obtain ⟨place, located, isDirectory⟩ :=
            FileTree.isDirectory_iff.1 (FileTree.makeDirectories_ok wellFormed written directories)
          refine ⟨made, prepared, .inr ⟨place, located, isDirectory, ?_⟩⟩
          dsimp only
          have wrote := written_staysIn located isDirectory generatedNames id
          rcases writing : Project.written project made output.units with ⟨result, filled⟩
          rw [writing] at wrote
          cases result with
          | error error => exact wrote
          | ok _ =>
              dsimp only
              have named : ∀ name ∈ leftoverNames before project output.units,
                  IsName name ∧ isGeneratedName name := by
                intro name member
                have leftover := leftover_of_mem wellFormed prepared.working
                  (fun _ => prepared.directories) located member
                exact ⟨leftover.named, (isSuspect_iff.1 leftover.suspect).1⟩
              obtain ⟨locatedNow, isDirectoryNow⟩ := wrote.same.locate_directory located isDirectory
              have took := wrote.trans (removed_staysIn locatedNow isDirectoryNow named)
              rw [generateResult]
              rcases removing : removed filled
                ((leftoverNames before project output.units).map fun name =>
                  project.output.join ⟨name⟩) with ⟨result, last⟩
              rw [removing] at took
              cases result <;> exact took

/-- Generating touches files with names of generated files, whether it ends well or not, and these
are in the output directory when no unit's name has a slash in it. -/
theorem generated_touches (wellFormed : before.WellFormed) (written : project.output.text ≠ "")
    (generatedNames : ∀ unit ∈ output.units, isGeneratedName unit.filename)
    (denyWarnings dryRun : Bool)
    (touches : before.Touches (generated before project output denyWarnings dryRun).2 other) :
    ∃ above name, other = above ++ [name] ∧ isGeneratedName name ∧
      ((∀ unit ∈ output.units, '/' ∉ unit.filename.toList) →
        (generated before project output denyWarnings dryRun).2.locate project.output =
          .ok above) := by
  obtain ⟨made, grows, ended⟩ :=
    generated_cases wellFormed written generatedNames denyWarnings dryRun
  have sequel := (touches.split made).resolve_left grows.not_touches
  rcases ended with same | ⟨place, located, isDirectory, stays⟩
  · rw [same] at sequel
    exact absurd sequel FileTree.not_touches_refl
  · obtain ⟨above, name, rfl, isGenerated, inside⟩ := stays.touched other sequel
    refine ⟨above, name, rfl, isGenerated, fun whole => ?_⟩
    rw [inside whole]
    exact (stays.same.locate_directory located isDirectory).1

/-- The accepted declarations of the project have no slashes in their namespaces and in the names of
their containers. -/
def IsPlain (project : Project) : Prop :=
  ∀ model ∈ Declaration.accepted project.manifest.declarations,
    '/' ∉ model.namespaceName.toList ∧ '/' ∉ model.containerName.toList

instance (project : Project) : Decidable project.IsPlain :=
  inferInstanceAs (Decidable (∀ model ∈ Declaration.accepted project.manifest.declarations, _))

end Project

section

variable {words : List String} {surroundings : Surroundings} {before : FileTree}
  {invocation : Invocation} {project : Project} {output : GenerationOutput} {place : Place}

/-- What a run that generates touches. -/
theorem exists_of_runOn_touches {denyWarnings dryRun : Bool} {format : ReportFormat}
    (wellFormed : before.WellFormed) (working : surroundings.workingDirectory.text ≠ "")
    (understood : Invocation.ofWords words = .ok invocation)
    (asked : invocation.task = some (.generate denyWarnings dryRun format))
    (touches : before.Touches (runOn words surroundings before).2 place) :
    ∃ project above name,
      Session.Gives (Project.load invocation surroundings) before (.ok project, before) ∧
      place = above ++ [name] ∧ Project.isGeneratedName name ∧
      (project.IsPlain →
        (runOn words surroundings before).2.locate project.output = .ok above) := by
  rcases runOn_cases words surroundings before with unchanged | ⟨other, task, project, ran⟩
  · rw [unchanged] at touches
    exact absurd touches FileTree.not_touches_refl
  obtain ⟨again, -, loaded⟩ := ran
  cases understood.symm.trans again
  have passed := generate_never project.options project.rawProperties
    project.manifest.declarations
  obtain ⟨-, written⟩ := Project.loaded_paths_ne understood working loaded
  have generatedNames := (GenerationOutput.filenames_of_generate passed).2
  obtain ⟨log, ended⟩ := runOn_generate understood loaded passed asked
  rw [ended] at touches ⊢
  obtain ⟨above, name, here, isGenerated, inside⟩ := Project.generated_touches wellFormed written
    generatedNames denyWarnings dryRun touches
  refine ⟨project, above, name, Project.gives_load_iff.2 loaded, here, isGenerated,
    fun plain => inside ?_⟩
  exact fun unit member => GenerationOutput.whole_of_generate passed plain member

/-- Units of a plain project are different files, wherever its output directory is. -/
theorem eq_of_locate_placeOf (plain : project.IsPlain) (written : project.output.text ≠ "")
    (passed : generate project.options project.rawProperties project.manifest.declarations .never =
      .ok output) {unit other : SourceUnit} (member : unit ∈ output.units)
    (isOther : other ∈ output.units) {tree : FileTree}
    (located : tree.locate (project.placeOf unit) = .ok place)
    (locatedOther : tree.locate (project.placeOf other) = .ok place) : unit = other := by
  obtain ⟨distinct, generatedNames⟩ := GenerationOutput.filenames_of_generate passed
  obtain ⟨above, rfl⟩ := FileTree.exists_of_locate_join written
    (GenerationOutput.whole_of_generate passed plain member)
    (Project.proper_of_isGeneratedName (generatedNames unit member)) located
  obtain ⟨_, same⟩ := FileTree.exists_of_locate_join written
    (GenerationOutput.whole_of_generate passed plain isOther)
    (Project.proper_of_isGeneratedName (generatedNames other isOther)) locatedOther
  exact List.inj_on_of_nodup_map distinct member isOther (List.append_singleton_inj.1 same).2

/-- Every file that a run that generates touches, however it ends, has the name of a generated file,
and it is in the output directory when no accepted declaration has a slash in its namespace or in
the name of its container. A container is given a name of one component when it has no such slash,
and units with such names are different files wherever the output directory is. -/
theorem generate_confined {denyWarnings dryRun : Bool} {format : ReportFormat}
    (wellFormed : before.WellFormed) (working : surroundings.workingDirectory.text ≠ "")
    (understood : Invocation.ofWords words = .ok invocation)
    (asked : invocation.task = some (.generate denyWarnings dryRun format)) :
    (∀ place, before.Touches (runOn words surroundings before).2 place →
      ∃ project above name,
        Session.Gives (Project.load invocation surroundings) before (.ok project, before) ∧
        place = above ++ [name] ∧ Project.isGeneratedName name ∧
        (project.IsPlain →
          (runOn words surroundings before).2.locate project.output = .ok above)) ∧
    (∀ (names : Filenames) namespaceName containerName,
      IsSingle (names.allocate namespaceName containerName).1 ↔
        '/' ∉ namespaceName.toList ∧ '/' ∉ containerName.toList) ∧
    ∀ project output,
      Session.Gives (Project.load invocation surroundings) before (.ok project, before) →
      generate project.options project.rawProperties project.manifest.declarations .never =
        .ok output → project.IsPlain →
      (∀ unit ∈ output.units, IsSingle unit.filename) ∧
      ∀ unit ∈ output.units, ∀ other ∈ output.units, ∀ (tree : FileTree) place,
        tree.locate (project.placeOf unit) = .ok place →
        tree.locate (project.placeOf other) = .ok place → unit = other := by
  refine ⟨fun place => exists_of_runOn_touches wellFormed working understood asked,
    Filenames.isSingle_allocate_iff, fun project output loads passed plain => ⟨?_, ?_⟩⟩
  · intro unit member
    exact (isSingle_iff ((GenerationOutput.filenames_of_generate passed).2 unit member)).2
      (GenerationOutput.whole_of_generate passed plain member)
  · intro unit member other isOther tree place
    have written :=
      (Project.loaded_paths_ne understood working (Project.gives_load_iff.1 loads)).2
    exact eq_of_locate_placeOf plain written passed member isOther

end

/-- A run that writes one unit and fails at the next one, in whose place a directory stands. -/
theorem confined_when_failing :
    let declared : String :=
      "[[container]]\nname = \"First\"\n[[container.member]]\nname = \"Level\"\ntype = \"int\"\n" ++
        "[[container]]\nname = \"Later\"\n[[container.member]]\nname = \"Level\"\ntype = \"int\"\n"
    let before : FileTree :=
      { entries := [(["w"], .directory), (["w", "decl.toml"], .file (.text declared)),
          (["w", "Generated"], .directory), (["w", "Generated", "Later.g.cs"], .directory),
          (["w", "Generated", "Old.g.cs"], .file (.text ""))]
        working := ["w"] }
    let words : List String := ["generate", "-d", "decl.toml"]
    let invocation : Invocation :=
      { path := none, properties := none, declarations := some ⟨"decl.toml"⟩, output := none
        emitMarker := false, isVerbose := false, noColor := false
        task := some (.generate false false .text) }
    let declaration (name : String) : Declaration :=
      (Declaration.property ⟨"", name, .reference⟩ "Level" "int").withLocation
        { file := ⟨"/w/decl.toml"⟩, line := none, column := none }
    let project : Project :=
      { root := ⟨"/w"⟩, configPlace := none, rawProperties := none, options := {}
        manifest :=
          { path := ⟨"/w/decl.toml"⟩, declarations := [declaration "First", declaration "Later"] }
        output := ⟨"/w/Generated"⟩ }
    let after := (runOn words Disagreement.bare before).2
    ∃ above name,
      before.WellFormed ∧ Invocation.ofWords words = .ok invocation ∧
      Session.Gives (Project.load invocation Disagreement.bare) before (.ok project, before) ∧
      project.IsPlain ∧ (runOn words Disagreement.bare before).1.status = .failed ∧
      before.Touches after ["w", "Generated", "First.g.cs"] ∧
      ["w", "Generated", "First.g.cs"] = above ++ [name] ∧ Project.isGeneratedName name ∧
      after.locate project.output = .ok above := by
  intro declared before words invocation declaration project after
  have wellFormed : before.WellFormed := by decide +kernel
  have understood : Invocation.ofWords words = .ok invocation := by decide +kernel
  have loads : Session.Gives (Project.load invocation Disagreement.bare) before
      (.ok project, before) := Project.gives_load_iff.2 (by decide +kernel)
  have plain : project.IsPlain := by decide +kernel
  have touches : before.Touches after ["w", "Generated", "First.g.cs"] := by decide +kernel
  obtain ⟨loaded, above, name, again, here, isGenerated, inside⟩ :=
    (generate_confined wellFormed (by decide +kernel) understood rfl).1 _ touches
  cases loads.unique again
  exact ⟨above, name, wellFormed, understood, loads, plain, by decide +kernel, touches, here,
    isGenerated, inside plain⟩

namespace Escape

/-- A container whose name goes back from the output directory. -/
def climbing : FileTree :=
  { entries := [(["w"], .directory),
      (["w", "decl.json"], .file (.text
        ("\x7b\"container\":[\x7b\"name\":\"../Escaped\"," ++
          "\"member\":[\x7b\"name\":\"Level\",\"type\":\"int\"\x7d]\x7d]\x7d")))]
    working := ["w"] }

/-- A slash in the name of a container is kept in the name of the unit, which is written beside the
output directory. -/
theorem generated_outside :
    let ran := runOn ["generate", "-d", "decl.json"] Disagreement.bare climbing
    climbing.WellFormed ∧
    (∃ invocation project,
      Invocation.ofWords ["generate", "-d", "decl.json"] = .ok invocation ∧
      invocation.task = some (.generate false false .text) ∧
      Session.Gives (Project.load invocation Disagreement.bare) climbing (.ok project, climbing) ∧
      ran.2.locate project.output = .ok ["w", "Generated"]) ∧
    ran.1.status = .success ∧ climbing.Touches ran.2 ["w", "Escaped.g.cs"] ∧
    ¬ IsSingle (Filenames.empty.allocate "" "../Escaped").1 := by
  intro ran
  let invocation : Invocation :=
    { path := none, properties := none, declarations := some ⟨"decl.json"⟩, output := none
      emitMarker := false, isVerbose := false, noColor := false
      task := some (.generate false false .text) }
  let declaration : Declaration :=
    (Declaration.property ⟨"", "../Escaped", .reference⟩ "Level" "int").withLocation
      { file := ⟨"/w/decl.json"⟩, line := none, column := none }
  let project : Project :=
    { root := ⟨"/w"⟩, configPlace := none, rawProperties := none, options := {}
      manifest := { path := ⟨"/w/decl.json"⟩, declarations := [declaration] }
      output := ⟨"/w/Generated"⟩ }
  have loads : Session.Gives (Project.load invocation Disagreement.bare) climbing
      (.ok project, climbing) := Project.gives_load_iff.2 (by decide +kernel)
  refine ⟨by decide +kernel, ⟨invocation, project, by decide +kernel, rfl, loads,
    by decide +kernel⟩, by decide +kernel, by decide +kernel, ?_⟩
  rw [Filenames.isSingle_allocate_iff]
  decide +kernel

end Escape

end BuildConstants
