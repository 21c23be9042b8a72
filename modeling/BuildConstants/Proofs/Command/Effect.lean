import BuildConstants.Proofs.Command.Write
import BuildConstants.Proofs.FileTree.Touch
import BuildConstants.Proofs.Generation.Unit

/-!
# What generating does to files

Generating makes the output directory, writes the units and removes what was left over before it
began. `Project.effect` says what this does to the tree when all of it ends well. Nothing is asked
of the path of the output directory, which may lead elsewhere before the directory is made.
-/

namespace BuildConstants

namespace Project

variable {before after : FileTree} {project : Project} {output : GenerationOutput}
  {units : List SourceUnit} {unit : SourceUnit} {place other : Place} {name : String}
  {denyWarnings : Bool} {result : GenerateResult}

/-- Generating ends well when the directory is made, the units are written, and what was left over
at the beginning is removed. -/
theorem generated_eq_ok
    (ended : generated before project output denyWarnings false = (.ok result, after)) :
    ∃ made filled,
      (Files.makeDirectories project.output : StateM FileTree _).run before = (.ok (), made) ∧
      written project made output.units = (.ok (), filled) ∧
      removed filled ((leftoverNames before project output.units).map fun name =>
        project.output.join ⟨name⟩) = (.ok (), after) ∧
      result = generateResult before project output denyWarnings false := by
  rw [generated] at ended
  simp only [Bool.false_eq_true, if_false] at ended
  split at ended
  · cases ended
  next made directories =>
    split at ended
    · cases ended
    next filled wrote =>
      split at ended
      · cases ended
      next last took =>
        cases ended
        exact ⟨made, filled, directories, wrote, took, rfl⟩

/-- A name is left over: it is that of a file in the output directory. -/
structure Leftover (before : FileTree) (project : Project) (units : List SourceUnit)
    (place : Place) (name : String) : Prop where
  located : before.locate project.output = .ok place
  isDirectory : before.isDirectoryAt place
  suspect : isSuspect units name
  named : IsName name
  usable : FileTree.checkPath (project.output.join ⟨name⟩) = .ok ()
  isFile : ∃ contents, before.node? (place ++ [name]) = some (.file contents)

theorem Leftover.mem (leftover : Leftover before project units place name) :
    name ∈ leftoverNames before project units := by
  obtain ⟨located, isDirectory, suspect, named, usable, contents, isFile⟩ := leftover
  refine (mem_leftoverNames located isDirectory).2 ⟨Option.isSome_of_eq_some isFile, suspect, ?_⟩
  exact (FileTree.isFile_join located isDirectory named).2 ⟨usable, contents, isFile⟩

/-- The path of a name that is left over leads to its file. -/
theorem Leftover.locate (leftover : Leftover before project units place name) :
    before.locate (project.output.join ⟨name⟩) = .ok (place ++ [name]) := by
  obtain ⟨located, isDirectory, -, named, usable, contents, isFile⟩ := leftover
  rw [FileTree.locate_join located isDirectory named, usable, isFile]
  rfl

/-- What is left over is in the directory that the path of the output directory leads to later. -/
theorem leftover_of_mem (wellFormed : before.WellFormed) (working : after.working = before.working)
    (kept : ∀ other, before.isDirectoryAt other → after.isDirectoryAt other)
    (located : after.locate project.output = .ok place)
    (member : name ∈ leftoverNames before project units) :
    Leftover before project units place name := by
  have asked : before.isDirectory project.output := by
    by_contra missing
    rw [leftoverNames, if_neg missing] at member
    cases member
  obtain ⟨led, isDirectory⟩ := FileTree.isDirectory_back working kept asked located
  obtain ⟨found, suspect, isFile⟩ := (mem_leftoverNames led isDirectory).1 member
  have named := (wellFormed.parent found).2
  obtain ⟨usable, isFile⟩ := (FileTree.isFile_join led isDirectory named).1 isFile
  exact ⟨led, isDirectory, suspect, named, usable, isFile⟩

/-- A tree after units were generated into a directory of it, and the tree before. -/
structure Effect (project : Project) (units : List SourceUnit) (place : Place)
    (before after : FileTree) : Prop where
  wellFormed : after.WellFormed
  working : after.working = before.working
  kept : ∀ other, before.isDirectoryAt other → after.isDirectoryAt other
  old : ∀ other, after.isDirectoryAt other → (before.node? other).isSome →
    before.isDirectoryAt other
  located : after.locate project.output = .ok place
  isDirectory : after.isDirectoryAt place
  there : ∀ unit ∈ units, IsName unit.filename ∧
    FileTree.checkPath (project.placeOf unit) = .ok () ∧
    after.node? (place ++ [unit.filename]) = some (.file (.text unit.text))
  gone : ∀ name ∈ leftoverNames before project units,
    Leftover before project units place name ∧ after.node? (place ++ [name]) = none
  elsewhere : ∀ other, (∀ unit ∈ units, other ≠ place ++ [unit.filename]) →
    (∀ name ∈ leftoverNames before project units, other ≠ place ++ [name]) →
    ¬ before.Touches after other
  /-- What cannot be read is what could not be read before and is still there. -/
  unreadable : ∀ other, other ∈ after.unreadable ↔
    other ∈ before.unreadable ∧ (after.fileAt? other).isSome

/-- What generating that ends well does. -/
theorem effect (wellFormed : before.WellFormed) (written : project.output.text ≠ "")
    (distinct : (output.units.map (·.filename)).Nodup)
    (notEmpty : ∀ unit ∈ output.units, unit.filename ≠ "")
    (whole : ∀ unit ∈ output.units, '/' ∉ unit.filename.toList)
    (ended : generated before project output denyWarnings false = (.ok result, after)) :
    ∃ place, Effect project output.units place before after := by
  obtain ⟨made, filled, directories, wrote, took, -⟩ := generated_eq_ok ended
  -- The directory is made.
  have prepared := FileTree.makeDirectories_prepares before project.output wellFormed
  rw [directories] at prepared
  obtain ⟨wellFormedMade, grows⟩ := prepared
  obtain ⟨place, located, isDirectory⟩ :=
    FileTree.isDirectory_iff.1 (FileTree.makeDirectories_ok wellFormed written directories)
  have leftover : ∀ name ∈ leftoverNames before project output.units,
      Leftover before project output.units place name := fun name member =>
    leftover_of_mem wellFormed grows.working (fun _ => grows.directories) located member
  -- The units are written.
  obtain ⟨there, filling⟩ := written_ok located isDirectory distinct notEmpty whole wrote
  obtain ⟨locatedFilled, isDirectoryFilled⟩ := filling.same.locate_directory located isDirectory
  -- What was left over is removed.
  obtain ⟨gone, taking⟩ := removed_ok locatedFilled isDirectoryFilled
    (fun name member => (leftover name member).named) took
  obtain ⟨locatedAfter, isDirectoryAfter⟩ :=
    taking.same.locate_directory locatedFilled isDirectoryFilled
  have same := filling.same.trans taking.same
  have wellFormedFilled := filling.wellFormed wellFormedMade
  have permissions : filled.unreadable = before.unreadable :=
    (unreadable_written wrote).trans grows.unreadable
  refine ⟨place,
    { wellFormed := taking.wellFormed wellFormedFilled
      working := same.working.trans grows.working
      kept := fun other was => (same.directories other).trans (grows.directories was)
      old := fun other now => grows.old ((same.directories other).symm.trans now)
      located := locatedAfter
      isDirectory := isDirectoryAfter
      there := fun unit member => ?there
      gone := fun name member => ⟨leftover name member, gone name member⟩
      elsewhere := fun other noUnit noLeftover => ?elsewhere
      unreadable := fun other => ?unreadable }⟩
  case there =>
    obtain ⟨isName, usable, found⟩ := there unit member
    refine ⟨isName, usable, ?_⟩
    rw [taking.elsewhere, found]
    intro name taken here
    have own : unit.filename = name := (List.append_singleton_inj.1 here).2
    exact (isSuspect_iff.1 (leftover name taken).suspect).2 unit member own
  case elsewhere =>
    intro touches
    rcases touches.split made with byMaking | bySequel
    · exact grows.not_touches byMaking
    refine bySequel (FileTree.fileAt?_congr ?_)
    rw [taking.elsewhere other noLeftover, filling.elsewhere other fun filename given => ?_]
    obtain ⟨unit, member, rfl⟩ := List.mem_map.1 given
    exact noUnit unit member
  case unreadable =>
    by_cases taken : ∃ name ∈ leftoverNames before project output.units, other = place ++ [name]
    · obtain ⟨name, member, rfl⟩ := taken
      have absent : ¬ (after.fileAt? (place ++ [name])).isSome := by
        rw [FileTree.fileAt?, gone name member]
        simp
      have stays := (taking.wellFormed wellFormedFilled).unreadable (place ++ [name])
      exact ⟨fun barred => absurd (stays barred) absent, fun both => absurd both.2 absent⟩
    · have apart : ∀ name ∈ leftoverNames before project output.units, other ≠ place ++ [name] :=
        fun name member here => taken ⟨name, member, here⟩
      rw [taking.unreadable other apart, permissions, FileTree.fileAt?,
        taking.elsewhere other apart, ← FileTree.fileAt?]
      refine ⟨fun barred => ⟨barred, wellFormedFilled.unreadable other ?_⟩, And.left⟩
      rwa [permissions]

namespace Effect

variable (effect : Effect project units place before after)

include effect

/-- The path of an output directory that was there led to it. -/
theorem led_of_isDirectory (there : before.isDirectory project.output) :
    before.locate project.output = .ok place ∧ before.isDirectoryAt place :=
  FileTree.isDirectory_back effect.working effect.kept there effect.located

/-- The files that are taken away are those that were left over. -/
theorem drops_iff : before.Drops after other ↔
    ∃ name ∈ leftoverNames before project units, other = place ++ [name] := by
  constructor
  · rintro ⟨⟨contents, was⟩, gone⟩
    by_contra apart
    refine effect.elsewhere other (fun unit member here => ?_)
      (fun name member here => apart ⟨name, member, here⟩) ?_
    · have now := FileTree.fileAt?_eq_some_iff.2 (effect.there unit member).2.2
      rw [← here, gone] at now
      cases now
    · exact FileTree.touches_iff.2 (.inr ⟨⟨contents, was⟩, gone⟩)
  · rintro ⟨name, member, rfl⟩
    obtain ⟨leftover, gone⟩ := effect.gone name member
    obtain ⟨contents, isFile⟩ := leftover.isFile
    exact ⟨⟨contents, FileTree.fileAt?_eq_some_iff.2 isFile⟩, by rw [FileTree.fileAt?, gone]⟩

/-- The file of a unit is created or given other contents unless it had the text of the unit. -/
theorem fills_unit_iff (member : unit ∈ units) :
    before.Fills after (place ++ [unit.filename]) ↔
      before.fileAt? (place ++ [unit.filename]) ≠ some (.text unit.text) := by
  have now := FileTree.fileAt?_eq_some_iff.2 (effect.there unit member).2.2
  constructor
  · rintro ⟨contents, found, differs⟩
    cases now.symm.trans found
    exact differs
  · exact fun differs => ⟨_, now, differs⟩

/-- No other file than those of the units is created or given other contents. -/
theorem exists_unit_of_fills (fills : before.Fills after other) :
    ∃ unit ∈ units, other = place ++ [unit.filename] := by
  by_contra apart
  refine effect.elsewhere other (fun unit member here => apart ⟨unit, member, here⟩)
    (fun name member here => ?_) (FileTree.touches_iff.2 (.inl fills))
  obtain ⟨contents, found, -⟩ := fills
  rw [here, FileTree.fileAt?, (effect.gone name member).2] at found
  cases found

/-- A unit whose file was read had the text in the file, which could be read. -/
theorem read_of_readText {text : String} (member : unit ∈ units)
    (read : before.readText (project.placeOf unit) = .ok text) :
    before.fileAt? (place ++ [unit.filename]) = some (.text text) ∧
      place ++ [unit.filename] ∉ before.unreadable := by
  have named := (effect.there unit member).1
  have usable := (FileTree.locate_eq_ok_iff.1 effect.located).1
  obtain ⟨_, located, -⟩ := FileTree.readText_eq_ok_iff.1 read
  obtain ⟨led, isDirectory⟩ :=
    effect.led_of_isDirectory (FileTree.isDirectory_of_locate_join usable named located)
  obtain ⟨-, isFile, allowed⟩ := (FileTree.readText_join led isDirectory named).1 read
  exact ⟨FileTree.fileAt?_eq_some_iff.2 isFile, allowed⟩

section

variable (wellFormed : before.WellFormed)
  (led : before.isDirectoryAt place → before.locate project.output = .ok place)

include wellFormed led

/-- A unit that had its text before is not stale, when its file can be read and the path of the
output directory led to it. -/
theorem readText_of_fileAt? (member : unit ∈ units)
    (found : before.fileAt? (place ++ [unit.filename]) = some (.text unit.text))
    (readable : place ++ [unit.filename] ∉ before.unreadable) :
    before.readText (project.placeOf unit) = .ok unit.text := by
  obtain ⟨named, usable, -⟩ := effect.there unit member
  have isFile := FileTree.fileAt?_eq_some_iff.1 found
  have isDirectory := (wellFormed.parent (Option.isSome_of_eq_some isFile)).1
  exact (FileTree.readText_join (led isDirectory) isDirectory named).2 ⟨usable, isFile, readable⟩

/-- What is left over, when the path of the output directory led to it. -/
theorem mem_leftoverNames_iff : name ∈ leftoverNames before project units ↔
    isSuspect units name ∧ FileTree.checkPath (project.output.join ⟨name⟩) = .ok () ∧
      ∃ contents, before.node? (place ++ [name]) = some (.file contents) := by
  constructor
  · intro member
    have leftover := (effect.gone name member).1
    exact ⟨leftover.suspect, leftover.usable, leftover.isFile⟩
  · rintro ⟨suspect, usable, contents, isFile⟩
    obtain ⟨isDirectory, named⟩ := wellFormed.parent (Option.isSome_of_eq_some isFile)
    exact Leftover.mem ⟨led isDirectory, isDirectory, suspect, named, usable, contents, isFile⟩

end

end Effect

end Project

end BuildConstants
