import BuildConstants.Proofs.Command.Agreement
import BuildConstants.Proofs.Command.Look
import BuildConstants.Proofs.Generation.Filename

/-!
# Where generating gives up

Generating looks at everything first, then makes the output directory, writes the units in order and
removes the leftovers in order, and the first operation that goes wrong ends it.
`generate_gives_up` says for each of these stages what is left behind.
-/

namespace BuildConstants

namespace Project

/-! ### The changes in order -/

namespace Found

variable {m : Type → Type} [Monad m] [Files m]

def makeOutput (found : Found) : Session m Unit :=
  Session.attemptOutput (Files.makeDirectories found.project.output)

def writeUnit (found : Found) (unit : SourceUnit) : Session m Unit :=
  Session.attemptOutput (Files.writeText (found.project.placeOf unit) unit.text)

def removeLeftover (path : Path) : Session m Unit :=
  Session.attemptOutput (Files.removeFile path)

/-- The changes that generating makes, in order. -/
def change (found : Found) : Session m Unit := do
  found.makeOutput
  found.project.writeUnits found.output.units
  removeFiles found.leftovers

/-- A dry run makes no changes. -/
def changeUnless (found : Found) (dryRun : Bool) : Session m Unit :=
  if dryRun then pure () else found.change

end Found

/-- Loading a project and generating is looking first and changing thereafter, unless the run is
dry. -/
theorem load_generate_eq {m : Type → Type} [Monad m] [LawfulMonad m] [Files m]
    (invocation : Invocation) (surroundings : Surroundings) (denyWarnings dryRun : Bool)
    (format : ReportFormat) (isColored : Bool) :
    (do
      let project ← load invocation surroundings
      Task.perform (.generate denyWarnings dryRun format) project isColored :
        Session m TaskResult) =
    (do
      let found ← look invocation surroundings
      found.changeUnless dryRun
      let result : GenerateResult :=
        { project := found.project, output := found.output, leftovers := found.leftovers
          denyWarnings, dryRun }
      pure (result.present format isColored)) := by
  cases dryRun <;>
    simp [look, Task.perform, generate, Found.changeUnless, Found.change, Found.makeOutput]

/-! ### Stages -/

/-- The operation that ends generating. -/
inductive Stage where
  /-- Something that is looked at before anything is changed. -/
  | looking
  /-- Making the output directory. -/
  | making (found : Found)
  /-- Opening the file of a unit for writing, when some units have been written. -/
  | opening (found : Found) (done : List SourceUnit) (unit : SourceUnit)
  /-- Writing to the file of a unit that is open. -/
  | filling (found : Found) (done : List SourceUnit) (unit : SourceUnit)
  /-- Removing a leftover, when all units have been written and some leftovers are gone. -/
  | removing (found : Found) (gone : List Path) (path : Path)

section

variable {invocation : Invocation} {surroundings : Surroundings} {start stop : Moment}
  {error : CommandError}

open Session in
/-- Generating gives up with an error in a stage: all that comes before ends well, and the operation
itself fails. -/
inductive GivesUp (invocation : Invocation) (surroundings : Surroundings) (start : Moment)
    (error : CommandError) (stop : Moment) : Stage → Prop
  | looking (failed : Goes (look invocation surroundings) start (.error error) stop) :
      GivesUp invocation surroundings start error stop .looking
  | making {found : Found} {looked : Moment}
      (looks : Goes (look invocation surroundings) start (.ok found) looked)
      (failed : Goes found.makeOutput looked (.error error) stop) :
      GivesUp invocation surroundings start error stop (.making found)
  | opening {found : Found} {looked made written : Moment} {done rest : List SourceUnit}
      {unit : SourceUnit} (looks : Goes (look invocation surroundings) start (.ok found) looked)
      (makes : Goes found.makeOutput looked (.ok ()) made)
      (units : found.output.units = done ++ unit :: rest)
      (writes : Goes (found.project.writeUnits done) made (.ok ()) written)
      (closed : ¬ written.disk.Opens (found.project.placeOf unit))
      (failed : Goes (found.writeUnit unit) written (.error error) stop) :
      GivesUp invocation surroundings start error stop (.opening found done unit)
  | filling {found : Found} {looked made written : Moment} {done rest : List SourceUnit}
      {unit : SourceUnit} (looks : Goes (look invocation surroundings) start (.ok found) looked)
      (makes : Goes found.makeOutput looked (.ok ()) made)
      (units : found.output.units = done ++ unit :: rest)
      (writes : Goes (found.project.writeUnits done) made (.ok ()) written)
      (opened : written.disk.Opens (found.project.placeOf unit))
      (failed : Goes (found.writeUnit unit) written (.error error) stop) :
      GivesUp invocation surroundings start error stop (.filling found done unit)
  | removing {found : Found} {looked made written removed : Moment} {gone rest : List Path}
      {path : Path} (looks : Goes (look invocation surroundings) start (.ok found) looked)
      (makes : Goes found.makeOutput looked (.ok ()) made)
      (writes : Goes (found.project.writeUnits found.output.units) made (.ok ()) written)
      (leftovers : found.leftovers = gone ++ path :: rest)
      (removes : Goes (removeFiles gone) written (.ok ()) removed)
      (failed : Goes (Found.removeLeftover path) removed (.error error) stop) :
      GivesUp invocation surroundings start error stop (.removing found gone path)

end

/-! ### One thing after the other -/

section

variable {β : Type} {act : β → Session (StateM FaultyTree) Unit}
  {program : List β → Session (StateM FaultyTree) Unit} {items : List β} {start stop : Moment}

open Session in
/-- A program that goes from one thing to the next ends well or gives up at one of them, when those
before it have ended well. -/
theorem goes_each (ends : program [] = pure ())
    (goesOn : ∀ item rest, program (item :: rest) = act item >>= fun _ => program rest)
    {result : Except CommandError Unit} (goes : Goes (program items) start result stop) :
    result = .ok () ∨ ∃ done item rest middle error, items = done ++ item :: rest ∧
      result = .error error ∧ Goes (program done) start (.ok ()) middle ∧
      Goes (act item) middle (.error error) stop := by
  induction items generalizing start with
  | nil =>
      rw [ends] at goes
      exact .inl ((goes.unique (goes_pure () start)).1)
  | cons item rest ih =>
      rw [goesOn, goes_bind_iff] at goes
      rcases goes with ⟨error, rfl, failed⟩ | ⟨_, middle, acts, onward⟩
      · refine .inr ⟨[], item, rest, start, error, rfl, rfl, ?_, failed⟩
        rw [ends]
        exact goes_pure () start
      · refine (ih onward).imp_right ?_
        rintro ⟨done, other, behind, last, error, rfl, rfl, goes, failed⟩
        refine ⟨item :: done, other, behind, last, error, rfl, rfl, ?_, failed⟩
        rw [goesOn]
        exact acts.bind goes

open Session in
/-- A program that ends well makes the changes for each thing. -/
theorem changedFor_of_goes {change : β → FileTree → Except FileError FileTree}
    (ends : program [] = pure ())
    (goesOn : ∀ item rest, program (item :: rest) = act item >>= fun _ => program rest)
    (does : ∀ item start stop, Goes (act item) start (.ok ()) stop →
      change item start.disk.tree = .ok stop.disk.tree)
    (goes : Goes (program items) start (.ok ()) stop) :
    changedFor change start.disk.tree items = (.ok (), stop.disk.tree) := by
  induction items generalizing start with
  | nil =>
      rw [ends] at goes
      rw [(goes.unique (goes_pure () start)).2]
      rfl
  | cons item rest ih =>
      rw [goesOn, goes_bind_iff] at goes
      rcases goes with ⟨error, absurdity, -⟩ | ⟨_, middle, acts, onward⟩
      · cases absurdity
      · rw [changedFor_of_ok (does item start middle acts)]
        exact ih onward

end

/-! ### What the changes do -/

section

variable {found : Found} {start stop : Moment} {unit : SourceUnit} {path : Path}
  {error : CommandError} {units : List SourceUnit} {paths : List Path}

open Session

theorem write_of_goes (goes : Goes (found.writeUnit unit) start (.ok ()) stop) :
    start.disk.tree.write (found.project.placeOf unit) (.text unit.text) = .ok stop.disk.tree := by
  obtain ⟨ended, same⟩ := goes.of_attemptOutput
  rw [same]
  rcases start.disk.writeText_cases (found.project.placeOf unit) unit.text with
    ⟨-, wrote⟩ | ⟨⟨error, failed⟩, -⟩
  · exact wrote
  · rw [failed] at ended
    cases ended

/-- A unit that cannot be written is left as it is, or its file is open and left with something. -/
theorem write_cases_of_goes (goes : Goes (found.writeUnit unit) start (.error error) stop) :
    ¬ start.disk.Opens (found.project.placeOf unit) ∧ stop.disk.tree = start.disk.tree ∨
      start.disk.Opens (found.project.placeOf unit) ∧ ∃ contents,
        start.disk.tree.write (found.project.placeOf unit) contents = .ok stop.disk.tree := by
  obtain ⟨ended, same⟩ := goes.of_attemptOutput
  rw [same]
  rcases start.disk.writeText_cases (found.project.placeOf unit) unit.text with
    ⟨well, -⟩ | ⟨-, cases⟩
  · rw [well] at ended
    cases ended
  · exact cases

theorem writeUnits_cons (found : Found) (unit : SourceUnit) (rest : List SourceUnit) :
    (found.project.writeUnits (unit :: rest) : Session (StateM FaultyTree) Unit) =
      found.writeUnit unit >>= fun _ => found.project.writeUnits rest := rfl

theorem written_of_goes (goes : Goes (found.project.writeUnits units) start (.ok ()) stop) :
    written found.project start.disk.tree units = (.ok (), stop.disk.tree) :=
  changedFor_of_goes rfl (writeUnits_cons found) (fun _ _ _ => write_of_goes) goes

theorem does_removeLeftover (tree : FileTree) (path : Path) :
    Does (Found.removeLeftover path) tree fun result later =>
      (result = .ok () → tree.removeFile path = .ok later) ∧
        ∀ error, result = .error error → later = tree := by
  refine does_attemptOutput ((FaultyTree.does_removeFile tree path).mono ?_)
  rintro (error | ⟨⟨⟩⟩) later changes
  · exact ⟨nofun, fun _ _ => changes⟩
  · exact ⟨fun _ => changes, nofun⟩

/-- Removing a leftover, with the event that tells of it. -/
def removal (path : Path) : Session (StateM FaultyTree) Unit :=
  Found.removeLeftover path >>= fun _ => tell [removalEvent path]

theorem removeFiles_cons (path : Path) (rest : List Path) :
    (removeFiles (path :: rest) : Session (StateM FaultyTree) Unit) =
      removal path >>= fun _ => removeFiles rest := by
  simp [removeFiles, removal, Found.removeLeftover]

theorem removed_of_goes (goes : Goes (removeFiles paths) start (.ok ()) stop) :
    removed start.disk.tree paths = (.ok (), stop.disk.tree) := by
  refine changedFor_of_goes rfl removeFiles_cons (fun path start stop removes => ?_) goes
  rcases goes_bind_iff.1 removes with ⟨error, absurdity, -⟩ | ⟨_, middle, removes, tells⟩
  · cases absurdity
  · rw [(tells.unique (goes_tell _ middle)).2]
    exact (removes.does (does_removeLeftover start.disk.tree path)).1 rfl

end

/-! ### Every failure is in a stage -/

section

variable {invocation : Invocation} {surroundings : Surroundings} {start stop looked : Moment}
  {error : CommandError} {found : Found}

open Session

/-- The changes give up in a stage. -/
theorem exists_givesUp_of_change
    (looks : Goes (look invocation surroundings) start (.ok found) looked)
    (failed : Goes found.change looked (.error error) stop) :
    ∃ stage, GivesUp invocation surroundings start error stop stage := by
  rcases goes_bind_iff.1 failed with ⟨_, ⟨⟩, failed⟩ | ⟨_, made, makes, failed⟩
  · exact ⟨_, .making looks failed⟩
  rcases goes_bind_iff.1 failed with ⟨_, ⟨⟩, failed⟩ | ⟨_, written, writes, failed⟩
  · rcases goes_each rfl (writeUnits_cons found) failed with absurdity |
      ⟨done, unit, rest, middle, _, units, ⟨⟩, writes, failed⟩
    · cases absurdity
    · by_cases opened : middle.disk.Opens (found.project.placeOf unit)
      · exact ⟨_, .filling looks makes units writes opened failed⟩
      · exact ⟨_, .opening looks makes units writes opened failed⟩
  · rcases goes_each rfl removeFiles_cons failed with absurdity |
      ⟨gone, path, rest, middle, _, leftovers, ⟨⟩, removes, failed⟩
    · cases absurdity
    · rcases goes_bind_iff.1 failed with ⟨_, ⟨⟩, failed⟩ | ⟨_, _, _, tells⟩
      · exact ⟨_, .removing looks makes writes leftovers removes failed⟩
      · cases tells

/-- Looking first and changing thereafter gives up in a stage. -/
theorem exists_givesUp {α : Type} {dryRun : Bool} {result : Found → α}
    (failed : Goes (do
      let found ← look invocation surroundings
      found.changeUnless dryRun
      pure (result found)) start (.error error) stop) :
    ∃ stage, GivesUp invocation surroundings start error stop stage := by
  rcases goes_bind_iff.1 failed with ⟨_, ⟨⟩, failed⟩ | ⟨found, looked, looks, failed⟩
  · exact ⟨_, .looking failed⟩
  rcases goes_bind_iff.1 failed with ⟨_, ⟨⟩, failed⟩ | ⟨_, _, _, ends⟩
  · cases dryRun with
    | true => cases failed
    | false => exact exists_givesUp_of_change looks failed
  · cases ends

end

end Project

end BuildConstants
