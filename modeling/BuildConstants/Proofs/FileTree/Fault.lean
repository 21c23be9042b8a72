import BuildConstants.Proofs.FileTree.Files
import BuildConstants.Proofs.FileTree.Growth

/-!
# Trees on which operations go wrong

An operation on files can go wrong for a reason that is not in the tree, such as a permission or a
full disk. On a `FaultyTree` every operation meets a fault or none. `FaultyTree.Does` says what an
action does whatever faults it meets, and `FaultyTree.Looks` that it changes nothing.
-/

namespace BuildConstants

/-- What goes wrong in an operation. -/
inductive Fault where
  /-- The operation is refused. -/
  | refused (error : FileError)
  /-- A file is opened for writing, and then it is left with some contents. Any other operation is
  refused. -/
  | cutShort (contents : FileContents) (error : FileError)

def Fault.error : Fault → FileError
  | refused error => error
  | cutShort _ error => error

/-- A file tree with what its operations meet, one after the other. All goes well behind the
last. -/
structure FaultyTree where
  tree : FileTree
  faults : List (Option Fault)

namespace FaultyTree

variable {α β : Type} {tree later middle : FileTree} {disk : FaultyTree} {path : Path}
  {paths : List Path} {text : String}

/-- What the next operation meets. -/
def next? (disk : FaultyTree) : Option Fault :=
  disk.faults.head?.join

/-- An operation on the tree, and what is done instead at a fault. -/
def meeting (operation : StateM FileTree α) (atFault : Fault → StateM FileTree α) :
    StateM FaultyTree α :=
  modifyGet fun disk =>
    let ended := match disk.next? with
      | none => operation.run disk.tree
      | some fault => (atFault fault).run disk.tree
    (ended.1, { tree := ended.2, faults := disk.faults.tail })

theorem run_meeting (operation : StateM FileTree α) (atFault : Fault → StateM FileTree α)
    (disk : FaultyTree) :
    (meeting operation atFault).run disk =
      let ended := match disk.next? with
        | none => operation.run disk.tree
        | some fault => (atFault fault).run disk.tree
      (ended.1, { tree := ended.2, faults := disk.faults.tail }) := rfl

/-- A question is answered with no at a fault. -/
instance : Files (StateM FaultyTree) where
  isFile path := meeting (Files.isFile path) fun _ => pure false
  isDirectory path := meeting (Files.isDirectory path) fun _ => pure false
  readText path := meeting (Files.readText path) fun fault => pure (.error fault.error)
  names path := meeting (Files.names path) fun fault => pure (.error fault.error)
  makeDirectory path := meeting (Files.makeDirectory path) fun fault => pure (.error fault.error)
  writeText path text := meeting (Files.writeText path text) fun
    | .refused error => pure (.error error)
    | .cutShort contents error => do
      match ← FileTree.change (·.write path contents) with
      | .ok () => pure (.error error)
      | .error refusal => pure (.error refusal)
  removeFile path := meeting (Files.removeFile path) fun fault => pure (.error fault.error)

/-! ### What an action does -/

/-- Whatever goes wrong, the action ends on the tree with a result and a later tree that are as
stated. -/
def Does (action : StateM FaultyTree α) (tree : FileTree) (post : α → FileTree → Prop) : Prop :=
  ∀ faults, post (action.run ⟨tree, faults⟩).1 (action.run ⟨tree, faults⟩).2.tree

theorem does_pure {post : α → FileTree → Prop} {value : α} (holds : post value tree) :
    Does (pure value) tree post :=
  fun _ => holds

theorem Does.mono {action : StateM FaultyTree α} {one post : α → FileTree → Prop}
    (does : Does action tree one) (weaker : ∀ value later, one value later → post value later) :
    Does action tree post :=
  fun faults => weaker _ _ (does faults)

theorem Does.bind {first : StateM FaultyTree α} {next : α → StateM FaultyTree β}
    {one : α → FileTree → Prop} {post : β → FileTree → Prop} (does : Does first tree one)
    (onward : ∀ value middle, one value middle → Does (next value) middle post) :
    Does (first >>= next) tree post :=
  fun faults => onward _ _ (does faults) (first.run ⟨tree, faults⟩).2.faults

theorem does_meeting {operation : StateM FileTree α} {atFault : Fault → StateM FileTree α}
    {post : α → FileTree → Prop} (well : post (operation.run tree).1 (operation.run tree).2)
    (wrong : ∀ fault, post ((atFault fault).run tree).1 ((atFault fault).run tree).2) :
    Does (meeting operation atFault) tree post := by
  intro faults
  rw [run_meeting]
  dsimp only
  cases next? ⟨tree, faults⟩ with
  | none => exact well
  | some fault => exact wrong fault

/-! ### Actions that only look -/

/-- Whatever goes wrong, the action leaves the tree as it is and ends with a value that is as
stated. -/
def Looks (action : StateM FaultyTree α) (tree : FileTree) (sees : α → Prop) : Prop :=
  Does action tree fun value later => later = tree ∧ sees value

theorem looks_pure {sees : α → Prop} {value : α} (holds : sees value) :
    Looks (pure value) tree sees :=
  does_pure ⟨rfl, holds⟩

theorem Looks.mono {action : StateM FaultyTree α} {one sees : α → Prop}
    (looks : Looks action tree one) (weaker : ∀ value, one value → sees value) :
    Looks action tree sees :=
  Does.mono looks fun value _ looked => looked.imp_right (weaker value)

theorem Looks.bind {first : StateM FaultyTree α} {next : α → StateM FaultyTree β} {one : α → Prop}
    {sees : β → Prop} (looks : Looks first tree one)
    (onward : ∀ value, one value → Looks (next value) tree sees) :
    Looks (first >>= next) tree sees := by
  refine Does.bind looks fun value middle looked => ?_
  obtain ⟨rfl, holds⟩ := looked
  exact onward value holds

theorem looks_isFile (tree : FileTree) (path : Path) :
    Looks (Files.isFile path) tree fun found => found → tree.isFile path :=
  does_meeting ⟨rfl, id⟩ fun _ => ⟨rfl, nofun⟩

theorem looks_isDirectory (tree : FileTree) (path : Path) :
    Looks (Files.isDirectory path) tree fun found => found → tree.isDirectory path :=
  does_meeting ⟨rfl, id⟩ fun _ => ⟨rfl, nofun⟩

theorem looks_readText (tree : FileTree) (path : Path) :
    Looks (Files.readText path) tree fun _ => True :=
  does_meeting ⟨rfl, trivial⟩ fun _ => ⟨rfl, trivial⟩

theorem looks_names (tree : FileTree) (path : Path) :
    Looks (Files.names path) tree fun result =>
      ∀ names, result = .ok names → tree.names path = .ok names :=
  does_meeting ⟨rfl, fun _ => id⟩ fun _ => ⟨rfl, nofun⟩

/-! ### Actions that change something -/

/-- A change is made when it ends well, and nothing is done when it fails. -/
def Changes (step : FileTree → Except FileError FileTree) (tree : FileTree)
    (result : Except FileError Unit) (later : FileTree) : Prop :=
  match result with
  | .ok () => step tree = .ok later
  | .error _ => later = tree

theorem changes_run (step : FileTree → Except FileError FileTree) (tree : FileTree) :
    Changes step tree ((FileTree.change step).run tree).1 ((FileTree.change step).run tree).2 := by
  rw [FileTree.run_change]
  cases outcome : step tree with
  | ok changed => exact outcome
  | error error => rfl

theorem does_makeDirectory (tree : FileTree) (path : Path) :
    Does (Files.makeDirectory path) tree (Changes (·.makeDirectory path) tree) :=
  does_meeting (changes_run _ tree) fun _ => rfl

theorem does_removeFile (tree : FileTree) (path : Path) :
    Does (Files.removeFile path) tree (Changes (·.removeFile path) tree) :=
  does_meeting (changes_run _ tree) fun _ => rfl

/-- A file that can be written with some contents can be written with others. -/
theorem write_other {contents : FileContents} (wrote : tree.write path contents = .ok later)
    (other : FileContents) : ∃ changed, tree.write path other = .ok changed := by
  obtain ⟨place, asked, free, -⟩ := FileTree.write_eq_ok wrote
  exact ⟨tree.put place (.file other), by simp [FileTree.write, asked, free, bind, Except.bind]⟩

/-- The file at the path is opened when it is written next. -/
def Opens (disk : FaultyTree) (path : Path) : Prop :=
  (∀ error, disk.next? ≠ some (.refused error)) ∧
    ∃ later, disk.tree.write path (.text "") = .ok later

/-- A file is written, or it is not opened and nothing is done, or it is opened and left with some
contents. -/
theorem writeText_cases (disk : FaultyTree) (path : Path) (text : String) :
    let ended := (Files.writeText path text : StateM FaultyTree _).run disk
    (ended.1 = .ok () ∧ disk.tree.write path (.text text) = .ok ended.2.tree) ∨
    (∃ error, ended.1 = .error error) ∧
      (¬ disk.Opens path ∧ ended.2.tree = disk.tree ∨
        disk.Opens path ∧ ∃ contents, disk.tree.write path contents = .ok ended.2.tree) := by
  have closed : ∀ {contents : FileContents} {error : FileError},
      disk.tree.write path contents = .error error → ¬ disk.Opens path := by
    rintro contents error refused ⟨-, later, wrote⟩
    obtain ⟨changed, wrote⟩ := write_other wrote contents
    rw [refused] at wrote
    cases wrote
  have run : (Files.writeText path text : StateM FaultyTree _).run disk = _ :=
    run_meeting _ _ disk
  rw [run]
  dsimp only
  cases met : disk.next? with
  | none =>
      rw [FileTree.run_writeText, FileTree.run_change]
      cases outcome : disk.tree.write path (.text text) with
      | ok later => exact .inl ⟨rfl, rfl⟩
      | error error => exact .inr ⟨⟨error, rfl⟩, .inl ⟨closed outcome, rfl⟩⟩
  | some fault =>
      cases fault with
      | refused error => exact .inr ⟨⟨error, rfl⟩, .inl ⟨fun opens => opens.1 error met, rfl⟩⟩
      | cutShort contents error =>
          dsimp only
          rw [FileTree.run_bind, FileTree.run_change]
          cases outcome : disk.tree.write path contents with
          | ok later =>
              obtain ⟨changed, wrote⟩ := write_other outcome (.text "")
              refine .inr ⟨⟨error, rfl⟩, .inr ⟨⟨fun other same => ?_, changed, wrote⟩, contents,
                outcome⟩⟩
              rw [met] at same
              cases same
          | error refusal => exact .inr ⟨⟨refusal, rfl⟩, .inl ⟨closed outcome, rfl⟩⟩

/-! ### Making directories -/

/-- The directories that are made on the way are there, or still to be made: what making the first
of some directories leaves. -/
def Begins (tree : FileTree) (missing paths : List Path) (result : Except FileError (List Path))
    (later : FileTree) : Prop :=
  tree.Prepares later ∧ ∀ left, result = .ok left →
    (∀ path ∈ missing, path ∈ left) ∧ ∀ path ∈ paths.head?, later.isDirectory path ∨ path ∈ left

theorem looks_isThere (tree : FileTree) (path : Path) (error : FileError) :
    Looks (Files.isThere path error) tree fun found => found → tree.isDirectory path := by
  rw [Files.isThere]
  split
  · exact looks_isDirectory tree path
  · exact looks_pure (by simp)

theorem does_makeFirst (tree : FileTree) (missing paths : List Path) :
    Does (Files.makeFirst missing paths) tree (Begins tree missing paths) := by
  induction paths generalizing tree missing with
  | nil => exact does_pure ⟨.refl tree, by rintro left ⟨⟩; exact ⟨fun _ => id, nofun⟩⟩
  | cons path rest ih =>
      refine (does_makeDirectory tree path).bind fun result middle changes => ?_
      split
      · have made : tree.makeDirectory path = .ok middle := changes
        refine does_pure ⟨FileTree.makeDirectory_prepares made, ?_⟩
        rintro left ⟨⟩
        refine ⟨fun _ => id, ?_⟩
        rintro other ⟨⟩
        exact .inl (FileTree.isDirectory_of_makeDirectory made)
      · obtain rfl : middle = tree := changes
        refine (ih middle (path :: missing)).mono fun result later ⟨prepares, kept⟩ => ?_
        refine ⟨prepares, fun left found => ⟨fun other member => ?_, ?_⟩⟩
        · exact (kept left found).1 other (List.mem_cons_of_mem _ member)
        · rintro other ⟨⟩
          exact .inr ((kept left found).1 path List.mem_cons_self)
      next error _ =>
        obtain rfl : middle = tree := changes
        refine Does.bind (looks_isThere middle path error) fun found later looked => ?_
        obtain ⟨rfl, isThere⟩ := looked
        split
        next yes =>
          refine does_pure ⟨.refl later, ?_⟩
          rintro left ⟨⟩
          refine ⟨fun _ => id, ?_⟩
          rintro other ⟨⟩
          exact .inl (isThere yes)
        · exact does_pure ⟨.refl later, nofun⟩

theorem does_makeEach (wellFormed : tree.WellFormed) (paths : List Path) :
    Does (Files.makeEach paths) tree fun result later =>
      tree.Prepares later ∧ (result = .ok () → ∀ path ∈ paths, later.isDirectory path) := by
  induction paths generalizing tree with
  | nil => exact does_pure ⟨.refl tree, fun _ => nofun⟩
  | cons path rest ih =>
      have onward : ∀ {middle : FileTree}, tree.Prepares middle → middle.isDirectory path →
          Does (Files.makeEach rest) middle fun result later => tree.Prepares later ∧
            (result = .ok () → ∀ other ∈ path :: rest, later.isDirectory other) := by
        intro middle prepares there
        refine (ih (prepares wellFormed).1).mono fun result later ⟨more, made⟩ => ?_
        refine ⟨prepares.trans more, fun well => List.forall_mem_cons.2 ⟨?_, made well⟩⟩
        exact (more (prepares wellFormed).1).2.isDirectory there
      refine (does_makeDirectory tree path).bind fun result middle changes => ?_
      split
      · have made : tree.makeDirectory path = .ok middle := changes
        exact onward (FileTree.makeDirectory_prepares made)
          (FileTree.isDirectory_of_makeDirectory made)
      next error =>
        obtain rfl : middle = tree := changes
        refine Does.bind (looks_isThere middle path error) fun found later looked => ?_
        obtain ⟨rfl, isThere⟩ := looked
        split
        next yes => exact onward (.refl later) (isThere yes)
        · exact does_pure ⟨.refl later, nofun⟩

/-- Whatever goes wrong, making a directory with those above it only adds directories, and the
directory is there when it ends well. -/
theorem does_makeDirectories (wellFormed : tree.WellFormed) (named : path.text ≠ "") :
    Does (Files.makeDirectories path) tree fun result later =>
      tree.Prepares later ∧ (result = .ok () → later.isDirectory path) := by
  rw [Files.makeDirectories, if_neg named]
  refine (does_makeFirst tree [] (Files.ancestors path)).bind fun result middle begins => ?_
  obtain ⟨prepares, left⟩ := begins
  split
  next missing =>
      refine (does_makeEach (prepares wellFormed).1 missing).mono fun result later makes => ?_
      obtain ⟨more, made⟩ := makes
      refine ⟨prepares.trans more, fun well => ?_⟩
      rcases (left missing rfl).2 path rfl with there | isLeft
      · exact (more (prepares wellFormed).1).2.isDirectory there
      · exact made well path isLeft
  · exact does_pure ⟨prepares, by simp⟩

end FaultyTree

end BuildConstants
