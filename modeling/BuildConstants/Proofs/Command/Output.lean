import BuildConstants.Command.Check
import BuildConstants.Command.Generate
import BuildConstants.Proofs.Command.Session
import BuildConstants.Proofs.FileTree.Reach

/-!
# The output directory

Generating and checking as functions on file trees: which names are left over, what the tree is when
units have been written and leftovers removed, and which units are stale. `Project.gives_generate`
and `Project.gives_check` say that the commands do what these functions say; checking never fails,
and it changes nothing.
-/

namespace BuildConstants

theorem CheckResult.isGood_iff {result : CheckResult} :
    result.isGood ↔ result.stale = [] ∧ result.leftovers = [] := by
  simp [isGood]

namespace Project

open Session

variable {tree : FileTree} {project : Project} {units : List SourceUnit} {place : Place}
  {name : String} {output : GenerationOutput}

/-- A pass over the declarations of a project fails in no case. -/
theorem gives_pass (generated : BuildConstants.generate project.options project.rawProperties
    project.manifest.declarations .never = .ok output) (tree : FileTree) :
    Gives project.pass tree (.ok output, tree) := by
  refine (gives_tell _ tree).bind ?_
  rw [generated]
  exact gives_ofResult (.ok output) tree

/-! ### Leftovers -/

/-- The name is that of a generated file, and none of the units has it. -/
def isSuspect (units : List SourceUnit) (name : String) : Bool :=
  isGeneratedName name && !units.any (·.filename = name)

theorem isSuspect_iff :
    isSuspect units name ↔ isGeneratedName name ∧ ∀ unit ∈ units, unit.filename ≠ name := by
  simp [isSuspect]

/-- The names in the output directory that are left over, in increasing order. -/
def leftoverNames (tree : FileTree) (project : Project) (units : List SourceUnit) : List String :=
  if tree.isDirectory project.output then
    let names := (tree.names project.output).toOption.getD []
    ((names.filter (isSuspect units)).filter fun name =>
      tree.isFile (project.output.join ⟨name⟩)).mergeSort (· ≤ ·)
  else []

theorem run_filesAmong (names : List String) :
    (project.filesAmong names : StateM FileTree _).run tree =
      (names.filter fun name => tree.isFile (project.output.join ⟨name⟩), tree) := by
  induction names with
  | nil => rfl
  | cons name rest ih =>
      rw [filesAmong, FileTree.run_bind, ih, FileTree.run_bind, FileTree.run_isFile,
        List.filter_cons]
      rfl

/-- Looking for leftovers never fails. -/
theorem gives_leftovers (tree : FileTree) (project : Project) (units : List SourceUnit) :
    Gives (project.leftovers units) tree
      (.ok ((leftoverNames tree project units).map fun name => project.output.join ⟨name⟩),
        tree) := by
  have first := gives_perform (Files.isDirectory project.output) tree
  rw [FileTree.run_isDirectory] at first
  refine first.bind ?_
  rw [leftoverNames]
  cases there : tree.isDirectory project.output with
  | false => exact gives_pure [] tree
  | true =>
      obtain ⟨place, located, isDirectory⟩ := FileTree.isDirectory_iff.1 there
      have names := FileTree.names_eq located isDirectory
      have second := gives_attemptOutput (Files.names project.output) tree
      rw [FileTree.run_names, names] at second
      refine second.bind ?_
      have third := gives_perform
        (project.filesAmong ((tree.namesAt place).filter (isSuspect units))) tree
      rw [run_filesAmong] at third
      rw [names]
      exact third.bind (gives_pure _ tree)

/-- What is left over in a directory: the files under suspect names. -/
theorem mem_leftoverNames (located : tree.locate project.output = .ok place)
    (isDirectory : tree.isDirectoryAt place) :
    name ∈ leftoverNames tree project units ↔
      (tree.node? (place ++ [name])).isSome ∧ isSuspect units name ∧
        tree.isFile (project.output.join ⟨name⟩) := by
  have there : tree.isDirectory project.output :=
    FileTree.isDirectory_iff.2 ⟨place, located, isDirectory⟩
  simp [leftoverNames, there, FileTree.names_eq located isDirectory, Except.toOption,
    FileTree.mem_namesAt, and_comm]

/-- A file whose path is too long is no leftover. -/
theorem short_of_mem_leftoverNames (member : name ∈ leftoverNames tree project units) :
    (project.output.join ⟨name⟩).text.utf8ByteSize < FileTree.pathLimit := by
  rw [leftoverNames] at member
  split at member
  next =>
      have isFile := (List.mem_filter.1 (List.mem_mergeSort.1 member)).2
      obtain ⟨_, _, located, -⟩ := FileTree.isFile_iff.1 isFile
      exact (FileTree.checkPath_eq_ok_iff.1 (FileTree.locate_eq_ok_iff.1 located).1).2.2
  next => cases member

/-! ### Writing and removing -/

/-- How changing a tree for each of some things ends, one after the other. -/
def changedFor {β : Type} (change : β → FileTree → Except FileError FileTree) :
    FileTree → List β → Except CommandError Unit × FileTree
  | tree, [] => (.ok (), tree)
  | tree, item :: rest =>
    match change item tree with
    | .ok later => changedFor change later rest
    | .error error => (.error (.output error), tree)

/-- How writing some units ends. -/
def written (project : Project) :
    FileTree → List SourceUnit → Except CommandError Unit × FileTree :=
  changedFor fun unit tree => tree.write (project.placeOf unit) (.text unit.text)

/-- How taking some files away ends. -/
def removed : FileTree → List Path → Except CommandError Unit × FileTree :=
  changedFor fun path tree => tree.removeFile path

section

variable {β : Type} {change : β → FileTree → Except FileError FileTree} {item : β} {rest : List β}

theorem changedFor_of_ok {middle : FileTree} (changed : change item tree = .ok middle) :
    changedFor change tree (item :: rest) = changedFor change middle rest := by
  simp only [changedFor, changed]

/-- Changes all end well when the first one does and the others do on what it leaves. -/
theorem changedFor_cons_eq_ok {later : FileTree}
    (ended : changedFor change tree (item :: rest) = (.ok (), later)) :
    ∃ middle, change item tree = .ok middle ∧
      changedFor change middle rest = (.ok (), later) := by
  cases outcome : change item tree with
  | ok middle => exact ⟨middle, rfl, by rwa [changedFor_of_ok outcome] at ended⟩
  | error error =>
      simp only [changedFor, outcome] at ended
      cases ended

theorem changedFor_map {γ : Type} (itemOf : γ → β) (names : List γ) (tree : FileTree) :
    changedFor change tree (names.map itemOf) =
      changedFor (fun name => change (itemOf name)) tree names := by
  induction names generalizing tree with
  | nil => rfl
  | cons name rest ih =>
      simp only [List.map_cons, changedFor]
      cases change (itemOf name) tree with
      | ok later => exact ih later
      | error error => rfl

/-- When changes all end well, each one does on some tree. -/
theorem exists_change_of_changedFor {items : List β} {later : FileTree}
    (ended : changedFor change tree items = (.ok (), later)) (member : item ∈ items) :
    ∃ before after, change item before = .ok after := by
  induction items generalizing tree with
  | nil => cases member
  | cons first rest ih =>
      obtain ⟨middle, step, ended⟩ := changedFor_cons_eq_ok ended
      rcases List.mem_cons.1 member with rfl | further
      · exact ⟨tree, middle, step⟩
      · exact ih ended further

/-- A program that goes from one thing to the next ends as the changes for these things do. -/
theorem gives_changedFor {act : β → Session (StateM FileTree) Unit}
    {program : List β → Session (StateM FileTree) Unit} (ends : program [] = pure ())
    (goesOn : ∀ item rest, program (item :: rest) = act item >>= fun _ => program rest)
    (does : ∀ item tree later, change item tree = .ok later →
      Gives (act item) tree (.ok (), later))
    (fails : ∀ item tree error, change item tree = .error error →
      Gives (act item) tree (.error (.output error), tree))
    (tree : FileTree) (items : List β) :
    Gives (program items) tree (changedFor change tree items) := by
  induction items generalizing tree with
  | nil =>
      rw [ends]
      exact gives_pure () tree
  | cons item rest ih =>
      rw [goesOn]
      cases outcome : change item tree with
      | ok later =>
          rw [changedFor_of_ok outcome]
          exact (does item tree later outcome).bind (ih later)
      | error error =>
          simp only [changedFor, outcome]
          exact (fails item tree error outcome).bind_error _

end

theorem gives_writeUnits (tree : FileTree) (project : Project) (units : List SourceUnit) :
    Gives (project.writeUnits units) tree (written project tree units) := by
  refine gives_changedFor rfl (fun _ _ => rfl) (fun unit tree later wrote => ?_)
    (fun unit tree error refused => ?_) tree units
  · exact gives_change_ok wrote
  · exact gives_change_error refused

theorem gives_removeFiles (tree : FileTree) (paths : List Path) :
    Gives (removeFiles paths) tree (removed tree paths) := by
  refine gives_changedFor rfl (fun _ _ => (bind_assoc _ _ _).symm) (fun path tree later took => ?_)
    (fun path tree error refused => ?_) tree paths
  · exact (gives_change_ok took).bind (gives_tell _ later)
  · exact (gives_change_error refused).bind_error _

/-! ### The commands -/

/-- What generating finds on a tree, and reports when it ends well. -/
def generateResult (tree : FileTree) (project : Project) (output : GenerationOutput)
    (denyWarnings dryRun : Bool) : GenerateResult :=
  { project, output, denyWarnings, dryRun
    leftovers := (leftoverNames tree project output.units).map fun name =>
      project.output.join ⟨name⟩ }

/-- How generating ends on a tree. -/
def generated (tree : FileTree) (project : Project) (output : GenerationOutput)
    (denyWarnings dryRun : Bool) : Except CommandError GenerateResult × FileTree :=
  let result := generateResult tree project output denyWarnings dryRun
  if dryRun then (.ok result, tree)
  else
    match (Files.makeDirectories project.output : StateM FileTree _).run tree with
    | (.error error, made) => (.error (.output error), made)
    | (.ok (), made) =>
      match written project made output.units with
      | (.error error, filled) => (.error error, filled)
      | (.ok (), filled) =>
        match removed filled result.leftovers with
        | (.error error, later) => (.error error, later)
        | (.ok (), later) => (.ok result, later)

theorem gives_generate (passed : BuildConstants.generate project.options project.rawProperties
      project.manifest.declarations .never = .ok output) (tree : FileTree)
    (denyWarnings dryRun : Bool) :
    Gives (project.generate denyWarnings dryRun) tree
      (generated tree project output denyWarnings dryRun) := by
  refine (gives_pass passed tree).bind ((gives_leftovers tree project output.units).bind ?_)
  rw [generated]
  cases dryRun with
  | true => exact gives_pure _ tree
  | false =>
      have made := gives_attemptOutput (Files.makeDirectories project.output) tree
      simp only [Bool.not_false, if_true, Bool.false_eq_true, if_false]
      rcases directories : (Files.makeDirectories project.output : StateM FileTree _).run tree
        with ⟨result, later⟩
      rw [directories] at made
      cases result with
      | error error => exact made.bind_error _
      | ok _ =>
          refine made.bind ?_
          dsimp only
          have wrote := gives_writeUnits later project output.units
          rcases writing : written project later output.units with ⟨result, filled⟩
          rw [writing] at wrote
          cases result with
          | error error => exact wrote.bind_error _
          | ok _ =>
              refine wrote.bind ?_
              dsimp only
              have took := gives_removeFiles filled
                (generateResult tree project output denyWarnings false).leftovers
              rcases removing : removed filled
                (generateResult tree project output denyWarnings false).leftovers
                with ⟨result, last⟩
              rw [removing] at took
              cases result with
              | error error => exact took.bind_error _
              | ok _ => exact took.bind (gives_pure _ last)

/-- The stale ones of some units on a tree. -/
def staleIn (tree : FileTree) (project : Project) (units : List SourceUnit) : List StaleUnit :=
  units.filterMap fun unit =>
    let current := (tree.readText (project.placeOf unit)).toOption
    if current = some unit.text then none else some { unit, current }

theorem run_staleUnits (units : List SourceUnit) :
    (project.staleUnits units : StateM FileTree _).run tree =
      (staleIn tree project units, tree) := by
  induction units with
  | nil => rfl
  | cons unit rest ih =>
      have read : (readIfThere (project.placeOf unit) : StateM FileTree _).run tree =
          ((tree.readText (project.placeOf unit)).toOption, tree) := by
        rw [readIfThere, FileTree.run_bind, FileTree.run_readText]
        cases tree.readText (project.placeOf unit) <;> rfl
      rw [staleUnits, FileTree.run_bind, read, FileTree.run_bind, ih]
      simp only [staleIn, List.filterMap_cons]
      split <;> rfl

/-- The stale units are those whose files do not have their texts. -/
theorem mem_staleIn {entry : StaleUnit} :
    entry ∈ staleIn tree project units ↔
      entry.unit ∈ units ∧
        entry.current = (tree.readText (project.placeOf entry.unit)).toOption ∧
        entry.current ≠ some entry.unit.text := by
  rw [staleIn, List.mem_filterMap]
  constructor
  · rintro ⟨unit, member, kept⟩
    dsimp only at kept
    split at kept
    next => cases kept
    next differs =>
        cases kept
        exact ⟨member, rfl, differs⟩
  · obtain ⟨unit, current⟩ := entry
    rintro ⟨member, read, differs⟩
    dsimp only at read
    subst read
    exact ⟨unit, member, if_neg differs⟩

/-- Checking never fails, and it changes nothing. -/
theorem gives_check (passed : BuildConstants.generate project.options project.rawProperties
      project.manifest.declarations .never = .ok output) (tree : FileTree) :
    Gives project.check tree
      (.ok
        { project, diagnostics := output.diagnostics
          stale := staleIn tree project output.units
          leftovers := (leftoverNames tree project output.units).map fun name =>
            project.output.join ⟨name⟩ }, tree) := by
  have compared := gives_perform (project.staleUnits output.units) tree
  rw [run_staleUnits] at compared
  exact (gives_pass passed tree).bind (compared.bind
    ((gives_leftovers tree project output.units).bind (gives_pure _ tree)))

end Project

end BuildConstants
