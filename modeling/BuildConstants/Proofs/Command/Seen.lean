import BuildConstants.Proofs.Command.Project
import BuildConstants.Proofs.FileTree.Reach

/-!
# What loading sees

Loading a project reads configurations and manifests. None of them has the name of a generated file,
so changes to generated files are not seen: `Project.loadIn_of_unseen` says when a project is loaded
alike from a later tree.
-/

namespace BuildConstants

namespace Path

variable {path : Path} {front : List String} {last : String}

/-- The last part of a path is its file name, unless it stands for something else. -/
theorem fileName?_eq (parts : path.parts = front ++ [last])
    (proper : last ≠ "" ∧ last ≠ "." ∧ last ≠ "..") : path.fileName? = some last := by
  obtain ⟨notEmpty, notHere, notUp⟩ := proper
  have inner : Component.ofInner? last = some (.name last) := by
    simp [Component.ofInner?, notEmpty, notHere, notUp]
  have final : path.components.getLast? = some (.name last) := by
    rw [components, segments, show Text.parts '/' path.text = front ++ [last] from parts]
    cases front with
    | nil => simp [Component.ofFirst?, notEmpty, notHere, inner]
    | cons first more =>
        rw [List.cons_append]
        simp only [List.map_append, List.map_singleton, inner]
        rw [← List.cons_append, List.filterMap_append]
        simp
  rw [fileName?, final]

end Path

/-- The extension of a generated file's name is that of a source file. -/
theorem extension?_of_generated {path : Path} {name : String}
    (named : path.fileName? = some name) (generated : Project.isGeneratedName name) :
    path.extension? = some "cs" := by
  obtain ⟨stem, whole⟩ := List.isSuffixOf_iff_suffix.1 generated
  have letters : generatedSuffix.toList = ['.', 'g', '.', 'c', 's'] := by decide
  have turned : name.toList.reverse = 's' :: 'c' :: '.' :: 'g' :: '.' :: stem.reverse := by
    rw [← whole, letters]
    simp
  have cut : Text.splitFirst '.' name.toList.reverse =
      some (['s', 'c'], 'g' :: '.' :: stem.reverse) := by
    rw [turned]
    simp [Text.splitFirst]
  rw [Path.extension?, named]
  simp only [Option.bind_eq_bind, Option.bind_some, cut, List.isEmpty_cons, Bool.false_eq_true,
    if_false]
  rfl

namespace DocumentFormat

/-- No manifest has the name of a generated file. -/
theorem not_generated_of_ofPath {path : Path} {name : String} {format : DocumentFormat}
    (named : path.fileName? = some name) (read : ofPath path = .ok format) :
    Project.isGeneratedName name = false := by
  rw [← Bool.not_eq_true]
  intro generated
  have unsupported : ofPath path = .error (.unsupportedManifestFormat "cs") := by
    rw [ofPath, extension?_of_generated named generated]
    decide +kernel
  rw [unsupported] at read
  cases read

end DocumentFormat

namespace Project

variable {before after : FileTree} {invocation : Invocation} {surroundings : Surroundings}
  {project : Project} {root path : Path} {place : Place} {contents : FileContents}

/-- The configurations are named by relative paths without `..`, whose last parts are not the names
of generated files. -/
theorem configPlaces_spec : ∀ place ∈ configPlaces,
    place.isAbsolute = false ∧ ".." ∉ place.parts ∧
      ∃ name ∈ place.parts.getLast?, isGeneratedName name = false := by
  decide +kernel

/-- What loading a project can read is not a generated file. -/
theorem not_generated_of_reads (wellFormed : before.WellFormed) (written : root.text ≠ "")
    (reads : Reads root path) (located : before.locate path = .ok place)
    (isFile : before.node? place = some (.file contents)) :
    ∃ above name, place = above ++ [name] ∧ isGeneratedName name = false := by
  obtain ⟨-, steps⟩ := FileTree.locate_eq_ok_iff.1 located
  obtain ⟨front, last, above, parts, rfl, proper⟩ :=
    steps.last_name wellFormed (Text.parts_ne_nil '/' path.text) isFile
  refine ⟨above, last, rfl, ?_⟩
  rcases reads with configured | ⟨format, listed⟩
  · obtain ⟨inner, member, rfl⟩ := List.mem_map.1 configured
    obtain ⟨relative, -, name, final, notGenerated⟩ := configPlaces_spec inner member
    rw [Path.parts_join relative written] at parts
    have same : some last = some name := by
      rw [← final, ← List.getLast?_concat (l := front), ← parts, List.getLast?_append, final]
      rfl
    rw [Option.some.inj same]
    exact notGenerated
  · exact DocumentFormat.not_generated_of_ofPath (Path.fileName?_eq parts proper) listed

/-- A project is loaded alike from a later tree that has the same files apart from generated ones,
when no directory was lost, none was added in the sight of a path through its root, and what could
be read can be read. -/
theorem loadIn_of_unseen (wellFormed : before.WellFormed) (wellFormedAfter : after.WellFormed)
    (working : after.working = before.working)
    (kept : ∀ place, before.isDirectoryAt place → after.isDirectoryAt place)
    (old : ∀ place, after.isDirectoryAt place → (before.node? place).isSome →
      before.isDirectoryAt place)
    (files : ∀ above name, isGeneratedName name = false → ∀ contents,
      after.node? (above ++ [name]) = some (.file contents) ↔
        before.node? (above ++ [name]) = some (.file contents))
    (readable : ∀ place ∈ after.unreadable, place ∈ before.unreadable)
    (written : project.root.text ≠ "") (steady : before.Steady project.root)
    (loaded : loadIn before invocation surroundings = .ok project) :
    loadIn after invocation surroundings = .ok project := by
  have forward : ∀ path place contents, Reads project.root path →
      before.locate path = .ok place → before.node? place = some (.file contents) →
      after.locate path = .ok place ∧ after.node? place = some (.file contents) := by
    intro path place contents reads located isFile
    obtain ⟨above, name, rfl, notGenerated⟩ :=
      not_generated_of_reads wellFormed written reads located isFile
    have still := (files above name notGenerated contents).2 isFile
    exact ⟨FileTree.locate_mono working kept located (Option.isSome_of_eq_some still), still⟩
  refine loadIn_of_seen loaded (fun inner member => ?_) fun path text reads read => ?_
  · obtain ⟨relative, ahead, -⟩ := configPlaces_spec inner member
    have reads : Reads project.root (project.root.join inner) :=
      .inl (List.mem_map_of_mem member)
    rw [Bool.eq_iff_iff, FileTree.isFile_iff, FileTree.isFile_iff]
    constructor
    · rintro ⟨place, contents, located, isFile⟩
      obtain ⟨above, name, rfl, notGenerated⟩ :=
        not_generated_of_reads wellFormedAfter written reads located isFile
      have was := (files above name notGenerated contents).1 isFile
      have inSight := (steady.join written relative ahead).locate wellFormed working kept old
        located (Option.isSome_of_eq_some was)
      exact ⟨_, contents, inSight, was⟩
    · rintro ⟨place, contents, located, isFile⟩
      exact ⟨place, contents, forward _ place contents reads located isFile⟩
  · obtain ⟨place, located, isFile, allowed⟩ := FileTree.readText_eq_ok_iff.1 read
    obtain ⟨locatedNow, isFileNow⟩ := forward path place _ reads located isFile
    exact FileTree.readText_eq_ok_iff.2
      ⟨place, locatedNow, isFileNow, fun barred => allowed (readable place barred)⟩

end Project

end BuildConstants
