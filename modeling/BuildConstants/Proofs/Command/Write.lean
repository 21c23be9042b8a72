import BuildConstants.Proofs.Command.Output
import BuildConstants.Proofs.FileTree.Files
import Mathlib.Data.List.Nodup

/-!
# What writing and removing leave

In an output directory, units that could all be written have their texts, files that could all be
removed are gone, and nothing else is touched. Writing units over files with the same texts changes
nothing.
-/

namespace BuildConstants.Project

variable {tree later : FileTree} {project : Project} {units : List SourceUnit} {place : Place}

/-- The two trees differ in nothing but files of some names in a directory. -/
structure DiffersIn (place : Place) (names : List String) (tree later : FileTree) : Prop where
  wellFormed : tree.WellFormed → later.WellFormed
  same : tree.SameDirectories later
  elsewhere : ∀ other, (∀ name ∈ names, other ≠ place ++ [name]) →
    later.node? other = tree.node? other
  unreadable : ∀ other, (∀ name ∈ names, other ≠ place ++ [name]) →
    (other ∈ later.unreadable ↔ other ∈ tree.unreadable)

theorem DiffersIn.refl (place : Place) (tree : FileTree) : DiffersIn place [] tree tree :=
  ⟨id, .refl tree, fun _ _ => rfl, fun _ _ => .rfl⟩

/-- Changes in some files come before changes in others. -/
theorem DiffersIn.append {middle : FileTree} {names others : List String}
    (first : DiffersIn place names tree middle) (second : DiffersIn place others middle later) :
    DiffersIn place (names ++ others) tree later := by
  refine ⟨second.wellFormed ∘ first.wellFormed, first.same.trans second.same,
    fun other apart => ?_, fun other apart => ?_⟩
  · rw [second.elsewhere other fun name member => apart name (List.mem_append_right _ member),
      first.elsewhere other fun name member => apart name (List.mem_append_left _ member)]
  · rw [second.unreadable other fun name member => apart name (List.mem_append_right _ member),
      first.unreadable other fun name member => apart name (List.mem_append_left _ member)]

section

variable (located : tree.locate project.output = .ok place)
  (isDirectory : tree.isDirectoryAt place)

include located isDirectory

/-- The file of a unit that could be written holds what was written, and nothing else is touched. -/
theorem write_placeOf {unit : SourceUnit} {contents : FileContents} (notEmpty : unit.filename ≠ "")
    (whole : '/' ∉ unit.filename.toList)
    (wrote : tree.write (project.placeOf unit) contents = .ok later) :
    later.node? (place ++ [unit.filename]) = some (.file contents) ∧
      DiffersIn place [unit.filename] tree later := by
  have written := (FileTree.checkPath_eq_ok_iff.1 (FileTree.locate_eq_ok_iff.1 located).1).2.1
  obtain ⟨named, usable⟩ := FileTree.usable_of_write written notEmpty whole wrote
  rw [placeOf, FileTree.write_join located isDirectory named, usable] at wrote
  simp only [Except.bind] at wrote
  split at wrote
  · cases wrote
  next free =>
    cases wrote
    rw [Bool.not_eq_true] at free
    refine ⟨?_, fun wellFormed => ?_, FileTree.sameDirectories_put free, fun other apart => ?_,
      fun _ _ => .rfl⟩
    · rw [FileTree.node?_put, if_pos rfl]
    · refine wellFormed.put isDirectory named fun old found => ?_
      rw [FileTree.isDirectoryAt, found] at free
      simpa using free
    · rw [FileTree.node?_put, if_neg (apart _ (List.mem_singleton_self _))]

/-- A file that could be removed is gone, and nothing else is touched. -/
theorem removeFile_join {name : String} (named : IsName name)
    (took : tree.removeFile (project.output.join ⟨name⟩) = .ok later) :
    later.node? (place ++ [name]) = none ∧ DiffersIn place [name] tree later := by
  rw [FileTree.removeFile_join located isDirectory named] at took
  cases usable : FileTree.checkPath (project.output.join ⟨name⟩) with
  | error error => simp [usable, Except.bind] at took
  | ok _ =>
      simp only [usable, Except.bind] at took
      split at took
      · cases took
      · split at took
        · cases took
        next isFile =>
          cases took
          refine ⟨?_, fun wellFormed => wellFormed.erase isFile,
            FileTree.sameDirectories_erase (by simpa using isFile), fun other apart => ?_,
            fun other apart => ?_⟩
          · rw [FileTree.node?_erase, if_pos rfl]
          · rw [FileTree.node?_erase, if_neg (apart _ (List.mem_singleton_self _))]
          · simp [FileTree.erase, apart]

end

/-- Writing changes no permissions. -/
theorem unreadable_written (wrote : written project tree units = (.ok (), later)) :
    later.unreadable = tree.unreadable := by
  induction units generalizing tree with
  | nil =>
      cases wrote
      rfl
  | cons unit rest ih =>
      obtain ⟨middle, step, wrote⟩ := changedFor_cons_eq_ok wrote
      obtain ⟨_, -, -, put⟩ := FileTree.write_eq_ok step
      rw [ih wrote, put]
      rfl

section

variable (located : tree.locate project.output = .ok place)
  (isDirectory : tree.isDirectoryAt place)

include located isDirectory

/-- Changes that each touch one file of the directory all end well: every file is as its change left
it, when changes of one file agree, and nothing else is touched. -/
theorem changedFor_ok {β : Type} {change : β → FileTree → Except FileError FileTree}
    {nameOf : β → String} {result : β → Option FileNode} {items : List β}
    (each : ∀ item ∈ items, ∀ tree later : FileTree, tree.locate project.output = .ok place →
      tree.isDirectoryAt place → change item tree = .ok later →
      later.node? (place ++ [nameOf item]) = result item ∧
        DiffersIn place [nameOf item] tree later)
    (agree : ∀ one ∈ items, ∀ other ∈ items, nameOf one = nameOf other →
      result one = result other)
    (ended : changedFor change tree items = (.ok (), later)) :
    (∀ item ∈ items, later.node? (place ++ [nameOf item]) = result item) ∧
      DiffersIn place (items.map nameOf) tree later := by
  induction items generalizing tree with
  | nil =>
      cases ended
      exact ⟨nofun, .refl place _⟩
  | cons item rest ih =>
      obtain ⟨middle, step, ended⟩ := changedFor_cons_eq_ok ended
      obtain ⟨found, differs⟩ :=
        each item List.mem_cons_self tree middle located isDirectory step
      obtain ⟨locatedNow, isDirectoryNow⟩ := differs.same.locate_directory located isDirectory
      obtain ⟨others, differsOn⟩ := ih locatedNow isDirectoryNow
        (fun item member => each item (List.mem_cons_of_mem _ member))
        (fun one isOne other isOther =>
          agree one (List.mem_cons_of_mem _ isOne) other (List.mem_cons_of_mem _ isOther))
        ended
      refine ⟨fun other member => ?_, differs.append differsOn⟩
      rcases List.mem_cons.1 member with rfl | further
      · by_cases again : nameOf other ∈ rest.map nameOf
        · obtain ⟨last, isLast, same⟩ := List.mem_map.1 again
          rw [← same, others last isLast]
          exact agree last (List.mem_cons_of_mem _ isLast) other member same
        · have untouched : ∀ name ∈ rest.map nameOf,
              place ++ [nameOf other] ≠ place ++ [name] := by
            intro name given same
            obtain ⟨-, rfl⟩ := List.append_singleton_inj.1 same
            exact again given
          exact (differsOn.elsewhere _ untouched).trans found
      · exact others other further

/-- Units that could all be written have their texts, and nothing else is touched. -/
theorem written_ok (distinct : (units.map (·.filename)).Nodup)
    (notEmpty : ∀ unit ∈ units, unit.filename ≠ "")
    (whole : ∀ unit ∈ units, '/' ∉ unit.filename.toList)
    (wrote : written project tree units = (.ok (), later)) :
    (∀ unit ∈ units, IsName unit.filename ∧
      FileTree.checkPath (project.placeOf unit) = .ok () ∧
      later.node? (place ++ [unit.filename]) = some (.file (.text unit.text))) ∧
    DiffersIn place (units.map (·.filename)) tree later := by
  obtain ⟨found, differs⟩ := changedFor_ok located isDirectory
    (fun unit member tree later located isDirectory step =>
      write_placeOf located isDirectory (notEmpty unit member) (whole unit member) step)
    (fun one isOne other isOther same => by
      rw [List.inj_on_of_nodup_map distinct isOne isOther same]) wrote
  refine ⟨fun unit member => ?_, differs⟩
  obtain ⟨before, after, step⟩ := exists_change_of_changedFor wrote member
  have written := (FileTree.checkPath_eq_ok_iff.1 (FileTree.locate_eq_ok_iff.1 located).1).2.1
  obtain ⟨named, usable⟩ :=
    FileTree.usable_of_write written (notEmpty unit member) (whole unit member) step
  exact ⟨named, usable, found unit member⟩

/-- Files that could all be removed are gone, and nothing else is touched. -/
theorem removed_ok {names : List String} (named : ∀ name ∈ names, IsName name)
    (took : removed tree (names.map fun name => project.output.join ⟨name⟩) = (.ok (), later)) :
    (∀ name ∈ names, later.node? (place ++ [name]) = none) ∧ DiffersIn place names tree later := by
  rw [removed, changedFor_map] at took
  have each : ∀ name ∈ names, ∀ tree later : FileTree, tree.locate project.output = .ok place →
      tree.isDirectoryAt place → tree.removeFile (project.output.join ⟨name⟩) = .ok later →
      later.node? (place ++ [id name]) = none ∧ DiffersIn place [id name] tree later :=
    fun name member _ _ located isDirectory step =>
      removeFile_join located isDirectory (named name member) step
  have ended := changedFor_ok located isDirectory each (fun _ _ _ _ _ => rfl) took
  rwa [List.map_id] at ended

/-- Units whose files have their texts already can be written, and nothing is changed. -/
theorem written_again (there : ∀ unit ∈ units, IsName unit.filename ∧
      FileTree.checkPath (project.placeOf unit) = .ok () ∧
      tree.node? (place ++ [unit.filename]) = some (.file (.text unit.text))) :
    ∃ later, written project tree units = (.ok (), later) ∧
      tree.SameDirectories later ∧ ∀ other, later.node? other = tree.node? other := by
  induction units generalizing tree with
  | nil => exact ⟨tree, rfl, .refl tree, fun _ => rfl⟩
  | cons unit rest ih =>
      obtain ⟨named, usable, found⟩ := there unit List.mem_cons_self
      have noDirectory : tree.isDirectoryAt (place ++ [unit.filename]) = false := by
        rw [FileTree.isDirectoryAt, found]
        rfl
      have step : tree.write (project.placeOf unit) (.text unit.text) =
          .ok (tree.put (place ++ [unit.filename]) (.file (.text unit.text))) := by
        rw [placeOf] at usable ⊢
        rw [FileTree.write_join located isDirectory named, usable]
        simp [Except.bind, noDirectory]
      have unchanged : ∀ other,
          (tree.put (place ++ [unit.filename]) (.file (.text unit.text))).node? other =
            tree.node? other := by
        intro other
        rw [FileTree.node?_put]
        split
        next here => rw [here, found]
        next => rfl
      have same : tree.SameDirectories
          (tree.put (place ++ [unit.filename]) (.file (.text unit.text))) :=
        FileTree.sameDirectories_put noDirectory
      obtain ⟨locatedNow, isDirectoryNow⟩ := same.locate_directory located isDirectory
      obtain ⟨later, wrote, sameLater, unchangedLater⟩ := ih locatedNow isDirectoryNow
        fun other member => by
          rw [unchanged]
          exact there other (List.mem_cons_of_mem _ member)
      refine ⟨later, ?_, same.trans sameLater, fun other => ?_⟩
      · exact (changedFor_of_ok step).trans wrote
      · rw [unchangedLater, unchanged]

end

end BuildConstants.Project
