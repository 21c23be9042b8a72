import BuildConstants.Proofs.FileTree.Operations
import BuildConstants.Proofs.FileTree.Reach

/-!
# Making directories

Making a directory with those above it adds directories to a tree and leaves all else as it is,
whether it ends well or not: `makeDirectories_grows`. When it ends well, the directory is there, and
when it was there before, nothing is changed.
-/

namespace BuildConstants.FileTree

variable {tree middle later : FileTree} {place above : Place} {path : Path} {paths : List Path}

/-- The later tree has everything that the earlier one has, and directories besides. -/
structure GrowsTo (tree later : FileTree) : Prop where
  working : later.working = tree.working
  unreadable : later.unreadable = tree.unreadable
  kept : ∀ place node, tree.node? place = some node → later.node? place = some node
  added : ∀ place, tree.node? place = none → later.node? place = none ∨
    later.node? place = some .directory

namespace GrowsTo

theorem refl (tree : FileTree) : tree.GrowsTo tree :=
  ⟨rfl, rfl, fun _ _ found => found, fun _ absent => .inl absent⟩

theorem trans (first : tree.GrowsTo middle) (second : middle.GrowsTo later) :
    tree.GrowsTo later := by
  refine ⟨second.working.trans first.working, second.unreadable.trans first.unreadable,
    fun place node found => ?_, fun place absent => ?_⟩
  · exact second.kept place node (first.kept place node found)
  · rcases first.added place absent with still | made
    · exact second.added place still
    · exact .inr (second.kept place _ made)

theorem directories (grows : tree.GrowsTo later) (isDirectory : tree.isDirectoryAt place) :
    later.isDirectoryAt place :=
  isDirectoryAt_iff.2 (grows.kept place _ (isDirectoryAt_iff.1 isDirectory))

/-- What was there before is a directory only if it was one. -/
theorem old (grows : tree.GrowsTo later) (isDirectory : later.isDirectoryAt place)
    (there : (tree.node? place).isSome) : tree.isDirectoryAt place := by
  obtain ⟨node, found⟩ := Option.isSome_iff_exists.1 there
  have same := grows.kept place node found
  rw [isDirectoryAt_iff.1 isDirectory] at same
  rw [isDirectoryAt_iff, found, same]

/-- No file is added, and none is changed. -/
theorem file_iff (grows : tree.GrowsTo later) {contents : FileContents} :
    later.node? place = some (.file contents) ↔ tree.node? place = some (.file contents) := by
  refine ⟨fun found => ?_, grows.kept place _⟩
  cases was : tree.node? place with
  | none =>
      rcases grows.added place was with still | made
      · rw [still] at found
        cases found
      · rw [made] at found
        cases found
  | some node =>
      have same := grows.kept place node was
      rw [found] at same
      exact same.symm

theorem locate (grows : tree.GrowsTo later) (located : tree.locate path = .ok place)
    (there : (tree.node? place).isSome) : later.locate path = .ok place := by
  obtain ⟨node, found⟩ := Option.isSome_iff_exists.1 there
  exact locate_mono grows.working (fun _ => grows.directories) located
    (Option.isSome_of_eq_some (grows.kept place node found))

theorem isDirectory (grows : tree.GrowsTo later) (isDirectory : tree.isDirectory path) :
    later.isDirectory path := by
  obtain ⟨place, located, here⟩ := isDirectory_iff.1 isDirectory
  have locatedNow := grows.locate located (isSome_of_isDirectoryAt here)
  exact isDirectory_iff.2 ⟨place, locatedNow, grows.directories here⟩

end GrowsTo

/-! ### One directory -/

/-- A directory is made at a free name of a directory. -/
theorem makeDirectory_eq_ok (made : tree.makeDirectory path = .ok later) :
    ∃ place slashed, tree.target path = .ok (.entry place slashed) ∧
      tree.node? place = none ∧ later = tree.put place .directory := by
  rw [makeDirectory] at made
  cases asked : tree.target path with
  | error error => simp [asked, bind, Except.bind] at made
  | ok target =>
      cases target with
      | directory => simp [asked, bind, Except.bind] at made
      | entry place slashed =>
          simp only [asked, bind, Except.bind] at made
          split at made
          · cases made
          next free =>
            cases made
            exact ⟨place, slashed, rfl, by simpa using free, rfl⟩

theorem WellFormed.makeDirectory (wellFormed : tree.WellFormed)
    (made : tree.makeDirectory path = .ok later) : later.WellFormed := by
  obtain ⟨place, slashed, asked, free, rfl⟩ := makeDirectory_eq_ok made
  obtain ⟨_, name, _, above, -, -, -, -, isDirectory, named, rfl⟩ := target_eq_entry asked
  refine wellFormed.put isDirectory named fun old found => ?_
  rw [free] at found
  cases found

theorem makeDirectory_grows (made : tree.makeDirectory path = .ok later) :
    tree.GrowsTo later := by
  obtain ⟨place, slashed, asked, free, rfl⟩ := makeDirectory_eq_ok made
  obtain ⟨_, name, _, above, -, -, -, -, -, -, rfl⟩ := target_eq_entry asked
  refine ⟨rfl, rfl, fun other node found => ?_, fun other absent => ?_⟩
  · have differs : other ≠ above ++ [name] := by
      rintro rfl
      rw [free] at found
      cases found
    rw [node?_put, if_neg differs, found]
  · rw [node?_put]
    split
    · exact .inr rfl
    · exact .inl absent

/-- A directory that has been made is there. -/
theorem isDirectory_of_makeDirectory (made : tree.makeDirectory path = .ok later) :
    later.isDirectory path := by
  have grows := makeDirectory_grows made
  obtain ⟨place, slashed, asked, free, rfl⟩ := makeDirectory_eq_ok made
  obtain ⟨before, name, slashes, above, usable, parts, blank, steps, isDirectory, named, rfl⟩ :=
    target_eq_entry asked
  have here : (tree.put (above ++ [name]) .directory).node? (above ++ [name]) =
      some .directory := by
    rw [node?_put, if_pos rfl]
  have front := steps.mono (fun _ => grows.directories)
    (isSome_of_isDirectoryAt (grows.directories isDirectory))
  have behind := steps_blank (isDirectoryAt_iff.2 here) blank
  refine isDirectory_iff.2 ⟨above ++ [name], locate_eq_ok_iff.2 ⟨usable, ?_⟩,
    isDirectoryAt_iff.2 here⟩
  rw [parts, steps_append]
  obtain ⟨notEmpty, notHere, notUp, -, -, short⟩ := named
  exact ⟨above, front, .enter (grows.directories isDirectory) ⟨notEmpty, notHere, notUp⟩ short
    (by rw [here]; rfl) behind⟩

/-- A directory that is there is not made again. -/
theorem makeDirectory_of_isDirectory (there : tree.isDirectory path) :
    tree.makeDirectory path = .error .alreadyExists := by
  obtain ⟨place, located, isDirectory⟩ := isDirectory_iff.1 there
  obtain ⟨usable, steps⟩ := locate_eq_ok_iff.1 located
  rw [makeDirectory, target_eq, usable]
  cases split : turned path with
  | nil => rfl
  | cons last before =>
      rw [parts_eq_turned, split, List.reverse_cons, List.append_assoc, steps_append] at steps
      obtain ⟨above, front, onward⟩ := steps
      have below := onward.isDirectoryAt (List.append_ne_nil_of_left_ne_nil (by simp) _)
      have notEmpty := ne_blank_of_turned split
      by_cases dots : last = "." ∨ last = ".."
      · simp [Except.bind, bind, follow_eq_ok_iff.2 front, below, dots]
      · obtain ⟨notHere, notUp⟩ := not_or.1 dots
        have entered : last.utf8ByteSize ≤ nameLimit ∧
            (tree.node? (above ++ [last])).isSome := by
          rw [List.singleton_append] at onward
          cases onward with
          | stay _ blank _ => exact absurd blank (not_or.2 ⟨notEmpty, notHere⟩)
          | up => exact absurd rfl notUp
          | enter _ _ short there _ => exact ⟨short, there⟩
        simp [Except.bind, bind, follow_eq_ok_iff.2 front, below, notHere, notUp,
          Nat.not_lt.2 entered.1, entered.2]

/-! ### A directory with those above it -/

theorem run_isThere (error : FileError) :
    (Files.isThere path error : StateM FileTree Bool).run tree =
      (error = .alreadyExists && tree.isDirectory path, tree) := by
  rw [Files.isThere]
  by_cases there : error = .alreadyExists
  · rw [if_pos there, there]
    rfl
  · rw [if_neg there, decide_eq_false there]
    rfl

theorem run_makeFirst_cons (missing : List Path) :
    (Files.makeFirst missing (path :: paths) : StateM FileTree _).run tree =
      match tree.makeDirectory path with
      | .ok later => (.ok missing, later)
      | .error .missing => (Files.makeFirst (path :: missing) paths : StateM FileTree _).run tree
      | .error error =>
        if error = .alreadyExists && tree.isDirectory path then (.ok missing, tree)
        else (.error error, tree) := by
  rw [Files.makeFirst, run_bind, run_makeDirectory, run_change]
  cases tree.makeDirectory path with
  | ok later => rfl
  | error error =>
      cases error with
      | missing => rfl
      | alreadyExists =>
          simp only [run_bind, run_isThere]
          cases tree.isDirectory path <;> rfl
      | _ => rfl

theorem run_makeEach_cons :
    (Files.makeEach (path :: paths) : StateM FileTree _).run tree =
      match tree.makeDirectory path with
      | .ok later => (Files.makeEach paths : StateM FileTree _).run later
      | .error error =>
        if error = .alreadyExists && tree.isDirectory path then
          (Files.makeEach paths : StateM FileTree _).run tree
        else (.error error, tree) := by
  rw [Files.makeEach, run_bind, run_makeDirectory, run_change]
  cases tree.makeDirectory path with
  | ok later => rfl
  | error error =>
      simp only [run_bind, run_isThere]
      cases error = .alreadyExists && tree.isDirectory path <;> rfl

/-- The trees before and after some directories are made: the later one is well-formed when the
earlier one is, and has all that the earlier one has. -/
def Prepares (tree later : FileTree) : Prop :=
  tree.WellFormed → later.WellFormed ∧ tree.GrowsTo later

theorem Prepares.refl (tree : FileTree) : tree.Prepares tree :=
  fun wellFormed => ⟨wellFormed, .refl tree⟩

theorem Prepares.trans (first : tree.Prepares middle) (second : middle.Prepares later) :
    tree.Prepares later := by
  intro wellFormed
  obtain ⟨wellFormedMiddle, grows⟩ := first wellFormed
  obtain ⟨wellFormedLater, growsOn⟩ := second wellFormedMiddle
  exact ⟨wellFormedLater, grows.trans growsOn⟩

theorem makeDirectory_prepares (made : tree.makeDirectory path = .ok later) :
    tree.Prepares later :=
  fun wellFormed => ⟨wellFormed.makeDirectory made, makeDirectory_grows made⟩

theorem makeFirst_prepares (tree : FileTree) (missing paths : List Path) :
    tree.Prepares ((Files.makeFirst missing paths : StateM FileTree _).run tree).2 := by
  induction paths generalizing missing with
  | nil => exact .refl tree
  | cons path rest ih =>
      rw [run_makeFirst_cons]
      split
      next made => exact makeDirectory_prepares made
      · exact ih _
      · split <;> exact .refl tree

theorem makeEach_prepares (tree : FileTree) (paths : List Path) :
    tree.Prepares ((Files.makeEach paths : StateM FileTree _).run tree).2 := by
  induction paths generalizing tree with
  | nil => exact .refl tree
  | cons path rest ih =>
      rw [run_makeEach_cons]
      split
      next made => exact (makeDirectory_prepares made).trans (ih _)
      · split
        · exact ih tree
        · exact .refl tree

/-- When making the first directory ends well, it is there, or it is among those that are still
missing. -/
theorem makeFirst_ok {missing left : List Path}
    (made : (Files.makeFirst missing (path :: paths) : StateM FileTree _).run tree =
      (.ok left, later)) : later.isDirectory path ∨ path ∈ left := by
  -- Those that are found missing stay among those that are given back.
  have kept : ∀ {paths missing left : List Path} {tree later : FileTree},
      (Files.makeFirst missing paths : StateM FileTree _).run tree = (.ok left, later) →
      ∀ path ∈ missing, path ∈ left := by
    intro paths
    induction paths with
    | nil =>
        intro missing left tree later made path member
        cases made
        exact member
    | cons path rest ih =>
        intro missing left tree later made other member
        rw [run_makeFirst_cons] at made
        split at made
        · cases made
          exact member
        · exact ih made other (List.mem_cons_of_mem _ member)
        · split at made
          · cases made
            exact member
          · cases made
  rw [run_makeFirst_cons] at made
  split at made
  next found =>
      cases made
      exact .inl (isDirectory_of_makeDirectory found)
  · exact .inr (kept made path List.mem_cons_self)
  · split at made
    next there =>
        cases made
        rw [Bool.and_eq_true] at there
        exact .inl there.2
    · cases made

/-- When making some directories ends well, they are all there. -/
theorem makeEach_ok (wellFormed : tree.WellFormed)
    (made : (Files.makeEach paths : StateM FileTree _).run tree = (.ok (), later)) :
    ∀ path ∈ paths, later.isDirectory path := by
  induction paths generalizing tree with
  | nil => nofun
  | cons path rest ih =>
      have onward : ∀ {middle : FileTree}, middle.WellFormed → middle.isDirectory path →
          (Files.makeEach rest : StateM FileTree _).run middle = (.ok (), later) →
          ∀ other ∈ path :: rest, later.isDirectory other := by
        intro middle wellFormed there ran other member
        rcases List.mem_cons.1 member with rfl | further
        · have grows := (makeEach_prepares middle rest wellFormed).2
          rw [ran] at grows
          exact grows.isDirectory there
        · exact ih wellFormed ran other further
      rw [run_makeEach_cons] at made
      split at made
      next found =>
          exact onward (wellFormed.makeDirectory found) (isDirectory_of_makeDirectory found) made
      · split at made
        next there =>
            rw [Bool.and_eq_true] at there
            exact onward wellFormed there.2 made
        · cases made

/-- Whether making a directory with those above it ends well or not, it only adds directories. -/
theorem makeDirectories_prepares (tree : FileTree) (path : Path) :
    tree.Prepares ((Files.makeDirectories path : StateM FileTree _).run tree).2 := by
  rw [Files.makeDirectories]
  split
  · exact .refl tree
  · rw [run_bind]
    have first := makeFirst_prepares tree [] (Files.ancestors path)
    split
    · exact first.trans (makeEach_prepares _ _)
    · exact first

/-- When making a directory with those above it ends well, it is there. -/
theorem makeDirectories_ok (wellFormed : tree.WellFormed) (named : path.text ≠ "")
    (made : (Files.makeDirectories path : StateM FileTree _).run tree = (.ok (), later)) :
    later.isDirectory path := by
  rw [Files.makeDirectories, if_neg named, run_bind] at made
  have prepared := (makeFirst_prepares tree [] (Files.ancestors path) wellFormed).1
  split at made
  next left found =>
      have present := makeFirst_ok (Prod.ext found rfl)
      rcases present with there | missing
      · have grows := (makeEach_prepares _ left prepared).2
        rw [made] at grows
        exact grows.isDirectory there
      · exact makeEach_ok prepared made path missing
  · cases made

/-- A directory that is there is left as it is, with those above it. -/
theorem makeDirectories_of_isDirectory (there : tree.isDirectory path) :
    (Files.makeDirectories path : StateM FileTree _).run tree = (.ok (), tree) := by
  rw [Files.makeDirectories]
  split
  · rfl
  · rw [run_bind, Files.ancestors, run_makeFirst_cons, makeDirectory_of_isDirectory there]
    simp only [there]
    rfl

end BuildConstants.FileTree
