import BuildConstants.Proofs.Command.Effect
import BuildConstants.Proofs.Generation.Filename

/-!
# What generating establishes

Generating makes the output directory, writes the units and removes what was left over before it
began. `Project.established` says what the tree is when all of this ends well: the files with
generated names in the output directory are the units, no other file is touched, and no permission
is changed. On such a tree nothing is left over, nothing is stale but the units whose files could
not be read before, and generating again changes nothing.
-/

namespace BuildConstants

namespace Project

variable {before after : FileTree} {project : Project} {output : GenerationOutput} {place : Place}
  {denyWarnings : Bool} {result : GenerateResult}

/-- In a directory that is there and in which nothing is left over, generating only writes. -/
theorem generated_of_written (directory : before.isDirectory project.output)
    (nothing : leftoverNames before project output.units = [])
    (wrote : written project before output.units = (.ok (), after)) :
    generated before project output denyWarnings false =
      (.ok (generateResult before project output denyWarnings false), after) := by
  have none : (generateResult before project output denyWarnings false).leftovers = [] := by
    rw [generateResult, nothing]
    rfl
  rw [generated]
  simp only [Bool.false_eq_true, if_false, FileTree.makeDirectories_of_isDirectory directory,
    wrote, none, removed, changedFor]

/-- A tree after units were generated into a directory of it, and the tree before. -/
structure Established (project : Project) (units : List SourceUnit) (place : Place)
    (before after : FileTree) : Prop where
  wellFormed : after.WellFormed
  working : after.working = before.working
  kept : ∀ other, before.isDirectoryAt other → after.isDirectoryAt other
  old : ∀ other, after.isDirectoryAt other → (before.node? other).isSome →
    before.isDirectoryAt other
  located : after.locate project.output = .ok place
  isDirectory : after.isDirectoryAt place
  there : ∀ unit ∈ units, IsName unit.filename ∧
    FileTree.checkPath (project.placeOf unit) = .ok () ∧
    after.node? (place ++ [unit.filename]) = some (.file (.text unit.text))
  /-- No other file has the name of a generated file, unless its path cannot be used. -/
  alone : ∀ name contents, isGeneratedName name →
    FileTree.checkPath (project.output.join ⟨name⟩) = .ok () →
    after.node? (place ++ [name]) = some (.file contents) → ∃ unit ∈ units, unit.filename = name
  elsewhere : ∀ above name contents,
    ¬ (above = place ∧ isGeneratedName name ∧
      FileTree.checkPath (project.output.join ⟨name⟩) = .ok ()) →
    (after.node? (above ++ [name]) = some (.file contents) ↔
      before.node? (above ++ [name]) = some (.file contents))
  unreadable : ∀ other, other ∈ after.unreadable ↔
    other ∈ before.unreadable ∧ (after.fileAt? other).isSome

/-- Generating that ends well establishes the units in the output directory. -/
theorem established (wellFormed : before.WellFormed) (written : project.output.text ≠ "")
    (steady : before.Steady project.output)
    (distinct : (output.units.map (·.filename)).Nodup)
    (generatedNames : ∀ unit ∈ output.units, isGeneratedName unit.filename)
    (whole : ∀ unit ∈ output.units, '/' ∉ unit.filename.toList)
    (ended : generated before project output denyWarnings false = (.ok result, after)) :
    ∃ place, Established project output.units place before after := by
  obtain ⟨place, effect⟩ := effect wellFormed written distinct
    (fun unit member => (proper_of_isGeneratedName (generatedNames unit member)).1) whole ended
  have led : before.isDirectoryAt place → before.locate project.output = .ok place :=
    fun isDirectory => steady.locate wellFormed effect.working effect.kept effect.old
      effect.located (FileTree.isSome_of_isDirectoryAt isDirectory)
  have unchanged : ∀ {other contents},
      (∀ unit ∈ output.units, other ≠ place ++ [unit.filename]) →
      (∀ name ∈ leftoverNames before project output.units, other ≠ place ++ [name]) →
      (after.node? other = some (.file contents) ↔ before.node? other = some (.file contents)) := by
    intro other contents noUnit noLeftover
    have same := FileTree.not_touches_iff.1 (effect.elsewhere other noUnit noLeftover)
    rw [← FileTree.fileAt?_eq_some_iff, same, FileTree.fileAt?_eq_some_iff]
  refine ⟨place,
    { wellFormed := effect.wellFormed
      working := effect.working
      kept := effect.kept
      old := effect.old
      located := effect.located
      isDirectory := effect.isDirectory
      there := effect.there
      alone := fun name contents generated usable isFile => ?alone
      elsewhere := fun above name contents apart => unchanged ?units ?leftovers
      unreadable := effect.unreadable }⟩
  case alone =>
    by_contra none
    have suspect : isSuspect output.units name :=
      isSuspect_iff.2 ⟨generated, fun unit member own => none ⟨unit, member, own⟩⟩
    by_cases taken : name ∈ leftoverNames before project output.units
    · rw [(effect.gone name taken).2] at isFile
      cases isFile
    · refine taken ((effect.mem_leftoverNames_iff wellFormed led).2
        ⟨suspect, usable, contents, (unchanged ?_ ?_).1 isFile⟩)
      · rintro unit member here
        exact none ⟨unit, member, (List.append_singleton_inj.1 here).2.symm⟩
      · rintro other member here
        exact taken ((List.append_singleton_inj.1 here).2 ▸ member)
  case units =>
    rintro unit member here
    obtain ⟨rfl, rfl⟩ := List.append_singleton_inj.1 here
    exact apart ⟨rfl, generatedNames unit member, (effect.there unit member).2.1⟩
  case leftovers =>
    rintro other member here
    obtain ⟨rfl, rfl⟩ := List.append_singleton_inj.1 here
    have leftover := (effect.gone name member).1
    exact apart ⟨rfl, (isSuspect_iff.1 leftover.suspect).1, leftover.usable⟩

namespace Established

variable (established : Established project output.units place before after)

include established

/-- A unit has its text, unless its file could not be read before. -/
theorem toOption_readText {unit : SourceUnit} (member : unit ∈ output.units) :
    (after.readText (project.placeOf unit)).toOption =
      if place ++ [unit.filename] ∈ before.unreadable then none else some unit.text := by
  obtain ⟨named, usable, found⟩ := established.there unit member
  have isFile := Option.isSome_of_eq_some (FileTree.fileAt?_eq_some_iff.2 found)
  have same : place ++ [unit.filename] ∈ after.unreadable ↔
      place ++ [unit.filename] ∈ before.unreadable := by
    rw [established.unreadable, and_iff_left isFile]
  split
  next barred =>
    cases read : after.readText (project.placeOf unit) with
    | error error => rfl
    | ok text =>
        have reads :=
          (FileTree.readText_join established.located established.isDirectory named).1 read
        exact absurd (same.2 barred) reads.2.2
  next allowed =>
    have read := (FileTree.readText_join established.located established.isDirectory named).2
      ⟨usable, found, fun barred => allowed (same.1 barred)⟩
    rw [placeOf, read, Except.toOption]

/-- The units whose files could not be read before are stale, and no others. -/
theorem staleIn_eq : staleIn after project output.units =
    (output.units.filter fun unit => place ++ [unit.filename] ∈ before.unreadable).map
      fun unit => { unit, current := none } := by
  rw [staleIn, ← List.filterMap_eq_filter, List.map_filterMap]
  refine List.filterMap_congr fun unit member => ?_
  rw [established.toOption_readText member]
  by_cases barred : place ++ [unit.filename] ∈ before.unreadable <;> simp [Option.guard, barred]

/-- Nothing is left over. -/
theorem leftoverNames_eq : leftoverNames after project output.units = [] := by
  rw [List.eq_nil_iff_forall_not_mem]
  intro name member
  obtain ⟨found, suspect, isFile⟩ :=
    (mem_leftoverNames established.located established.isDirectory).1 member
  have named := (established.wellFormed.parent found).2
  obtain ⟨usable, contents, isFile⟩ :=
    (FileTree.isFile_join established.located established.isDirectory named).1 isFile
  obtain ⟨generated, none⟩ := isSuspect_iff.1 suspect
  obtain ⟨unit, member, same⟩ := established.alone name contents generated usable isFile
  exact none unit member same

/-- Generating again ends well and changes nothing. -/
theorem generated_again (denyWarnings : Bool) :
    ∃ later, generated after project output denyWarnings false =
        (.ok (generateResult after project output denyWarnings false), later) ∧
      later.working = after.working ∧ later.unreadable = after.unreadable ∧
        ∀ other, later.node? other = after.node? other := by
  have directory : after.isDirectory project.output :=
    FileTree.isDirectory_iff.2 ⟨place, established.located, established.isDirectory⟩
  obtain ⟨later, wrote, same, unchanged⟩ :=
    written_again established.located established.isDirectory established.there
  exact ⟨later, generated_of_written directory established.leftoverNames_eq wrote, same.working,
    unreadable_written wrote, unchanged⟩

end Established

end Project

end BuildConstants
