import BuildConstants.Proofs.FileTree.Reach

/-!
# Files in a directory

Writing and removing files leaves the directories of a tree as they are, so paths lead where they
led. Under the path of a directory, a name is written to and removed in that directory.
-/

namespace BuildConstants.FileTree

variable {tree middle later : FileTree} {place other : Place} {path : Path} {name : String}
  {contents : FileContents}

/-- The two trees have the same directories. -/
structure SameDirectories (tree later : FileTree) : Prop where
  working : later.working = tree.working
  directories : ∀ place, later.isDirectoryAt place = tree.isDirectoryAt place

namespace SameDirectories

theorem refl (tree : FileTree) : tree.SameDirectories tree :=
  ⟨rfl, fun _ => rfl⟩

theorem trans (first : tree.SameDirectories middle) (second : middle.SameDirectories later) :
    tree.SameDirectories later :=
  ⟨second.working.trans first.working,
    fun place => (second.directories place).trans (first.directories place)⟩

/-- A path leads where it led, as long as something is there. -/
theorem locate (same : tree.SameDirectories later) (located : tree.locate path = .ok place)
    (still : (later.node? place).isSome) : later.locate path = .ok place :=
  locate_mono same.working (fun place isDirectory => (same.directories place).trans isDirectory)
    located still

theorem locate_directory (same : tree.SameDirectories later)
    (located : tree.locate path = .ok place) (isDirectory : tree.isDirectoryAt place) :
    later.locate path = .ok place ∧ later.isDirectoryAt place := by
  have still : later.isDirectoryAt place := (same.directories place).trans isDirectory
  exact ⟨same.locate located (isSome_of_isDirectoryAt still), still⟩

end SameDirectories

/-- A file that is put where no directory is leaves the directories as they are. -/
theorem sameDirectories_put (noDirectory : tree.isDirectoryAt (place ++ [name]) = false) :
    tree.SameDirectories (tree.put (place ++ [name]) (.file contents)) := by
  refine ⟨rfl, fun other => ?_⟩
  by_cases here : other = place ++ [name]
  · rw [here, noDirectory, isDirectoryAt, node?_put, if_pos rfl]
    rfl
  · rw [isDirectoryAt, node?_put, if_neg here, isDirectoryAt]

theorem sameDirectories_erase (noDirectory : tree.isDirectoryAt (place ++ [name]) = false) :
    tree.SameDirectories (tree.erase (place ++ [name])) := by
  refine ⟨rfl, fun other => ?_⟩
  by_cases here : other = place ++ [name]
  · rw [here, noDirectory, isDirectoryAt, node?_erase, if_pos rfl]
    rfl
  · rw [isDirectoryAt, node?_erase, if_neg here, isDirectoryAt]

section

variable (located : tree.locate path = .ok place) (isDirectory : tree.isDirectoryAt place)
  (named : IsName name)

include located isDirectory named

/-- A name behind the path of a directory is written in the directory. -/
theorem write_join (contents : FileContents) :
    tree.write (path.join ⟨name⟩) contents =
      (checkPath (path.join ⟨name⟩)).bind fun _ =>
        if tree.isDirectoryAt (place ++ [name]) then .error .isDirectory
        else .ok (tree.put (place ++ [name]) (.file contents)) := by
  rw [write, target_join located isDirectory named]
  cases checkPath (path.join ⟨name⟩) <;> rfl

/-- A name behind the path of a directory is removed from the directory. -/
theorem removeFile_join :
    tree.removeFile (path.join ⟨name⟩) =
      (checkPath (path.join ⟨name⟩)).bind fun _ =>
        if (tree.node? (place ++ [name])).isNone then .error .missing
        else if tree.isDirectoryAt (place ++ [name]) then .error .isDirectory
        else .ok (tree.erase (place ++ [name])) := by
  rw [removeFile, locate_join located isDirectory named]
  cases checkPath (path.join ⟨name⟩) with
  | error error => rfl
  | ok _ =>
      cases there : tree.node? (place ++ [name]) with
      | none => simp [bind, Except.bind]
      | some node => simp [bind, Except.bind]

/-- A name behind the path of a directory is that of a file when a system can use the path and the
directory has a file of the name. -/
theorem isFile_join :
    tree.isFile (path.join ⟨name⟩) ↔
      checkPath (path.join ⟨name⟩) = .ok () ∧
        ∃ contents, tree.node? (place ++ [name]) = some (.file contents) := by
  rw [isFile_iff, locate_join located isDirectory named]
  cases usable : checkPath (path.join ⟨name⟩) with
  | error error => simp [Except.bind]
  | ok _ =>
      cases there : tree.node? (place ++ [name]) with
      | none => simp [Except.bind]
      | some node => simp [Except.bind, there]

/-- A name behind the path of a directory can be read when a system can use the path and the
directory has a readable text of the name. -/
theorem readText_join {text : String} :
    tree.readText (path.join ⟨name⟩) = .ok text ↔
      checkPath (path.join ⟨name⟩) = .ok () ∧
        tree.node? (place ++ [name]) = some (.file (.text text)) ∧
          place ++ [name] ∉ tree.unreadable := by
  rw [readText_eq_ok_iff, locate_join located isDirectory named]
  cases usable : checkPath (path.join ⟨name⟩) with
  | error error => simp [Except.bind]
  | ok _ =>
      cases there : tree.node? (place ++ [name]) with
      | none => simp [Except.bind]
      | some node => simp [Except.bind, there]

end

/-- A path that leads to a name behind another one goes through the directory of that one. -/
theorem isDirectory_of_locate_join (usable : checkPath path = .ok ()) (named : IsName name)
    (located : tree.locate (path.join ⟨name⟩) = .ok place) : tree.isDirectory path := by
  have written := (checkPath_eq_ok_iff.1 usable).2.1
  have relative := isAbsolute_of_isName named
  have steps := (locate_eq_ok_iff.1 located).2
  rw [Path.parts_join relative written, steps_append, startOf,
    Path.isAbsolute_join relative written, parts_of_isName named] at steps
  obtain ⟨above, front, last⟩ := steps
  have isDirectory := last.isDirectoryAt (List.cons_ne_nil name [])
  exact isDirectory_iff.2
    ⟨above, locate_eq_ok_iff.2 ⟨usable, (steps_parts_iff isDirectory).2 front⟩, isDirectory⟩

/-- A file is written where no directory is. -/
theorem write_eq_ok (wrote : tree.write path contents = .ok later) :
    ∃ place, tree.target path = .ok (.entry place false) ∧ tree.isDirectoryAt place = false ∧
      later = tree.put place (.file contents) := by
  rw [write] at wrote
  cases asked : tree.target path with
  | error error => simp [asked, bind, Except.bind] at wrote
  | ok target =>
      simp only [asked, bind, Except.bind] at wrote
      split at wrote
      · cases wrote
      · cases wrote
      next place =>
          split at wrote
          · cases wrote
          next free =>
              cases wrote
              exact ⟨place, rfl, by simpa using free, rfl⟩

/-- A path that ends with a name leads to something of that name. -/
theorem exists_of_locate_join (written : path.text ≠ "") (whole : '/' ∉ name.toList)
    (proper : name ≠ "" ∧ name ≠ "." ∧ name ≠ "..")
    (located : tree.locate (path.join ⟨name⟩) = .ok place) : ∃ above, place = above ++ [name] := by
  have relative := isAbsolute_of_notMem whole
  have steps := (locate_eq_ok_iff.1 located).2
  rw [Path.parts_join relative written, steps_append] at steps
  obtain ⟨above, -, last⟩ := steps
  rw [Path.parts, Text.parts_of_notMem whole] at last
  obtain ⟨notEmpty, notHere, notUp⟩ := proper
  cases last with
  | stay _ blank _ => exact absurd blank (not_or.2 ⟨notEmpty, notHere⟩)
  | up => exact absurd rfl notUp
  | enter _ _ _ _ onward =>
      cases onward
      exact ⟨above, rfl⟩

/-- What can be written behind the path of a directory has a name, and a system can use its path. -/
theorem usable_of_write (written : path.text ≠ "") (notEmpty : name ≠ "")
    (whole : '/' ∉ name.toList) (wrote : tree.write (path.join ⟨name⟩) contents = .ok later) :
    IsName name ∧ checkPath (path.join ⟨name⟩) = .ok () := by
  have relative := isAbsolute_of_notMem whole
  have parts : (path.join ⟨name⟩).parts = path.base ++ [name] := by
    rw [Path.parts_join relative written]
    exact congrArg _ (Text.parts_of_notMem whole)
  obtain ⟨place, asked, -, -⟩ := write_eq_ok wrote
  obtain ⟨before, last, slashes, _, usable, cut, blank, -, -, named, -⟩ := target_eq_entry asked
  refine ⟨?_, usable⟩
  rw [parts] at cut
  rcases List.eq_nil_or_concat slashes with rfl | ⟨front, final, rfl⟩
  · have same : name = last := (List.append_singleton_inj.1 cut).2
    exact same ▸ named
  · have cutAtEnd : path.base ++ [name] = (before ++ last :: front) ++ [final] := by
      rw [cut, List.concat_eq_append, List.append_assoc, List.cons_append]
    have same : name = final := (List.append_singleton_inj.1 cutAtEnd).2
    exact absurd (same.trans (blank final (by simp))) notEmpty

end BuildConstants.FileTree
