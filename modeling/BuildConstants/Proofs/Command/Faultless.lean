import BuildConstants.Proofs.Command.Aftermath
import BuildConstants.Proofs.Command.Run

/-!
# Runs on which nothing goes wrong

A tree without faults is as good as the tree alone. Every action of a run does on the one what it
does on the other, so the run does: `runOnFaulty_faultless`.
-/

namespace BuildConstants

variable {α β : Type}

/-! ### Actions -/

namespace FaultyTree

/-- A tree on which nothing goes wrong. -/
def faultless (tree : FileTree) : FaultyTree :=
  { tree, faults := [] }

/-- Where nothing goes wrong, the one action does what the other one does on the tree alone. -/
def Copies (faulty : StateM FaultyTree α) (plain : StateM FileTree α) : Prop :=
  ∀ tree, faulty.run (faultless tree) = ((plain.run tree).1, faultless (plain.run tree).2)

theorem copies_pure (value : α) : Copies (pure value) (pure value) :=
  fun _ => rfl

theorem Copies.bind {faulty : StateM FaultyTree α} {plain : StateM FileTree α}
    {nextFaulty : α → StateM FaultyTree β} {next : α → StateM FileTree β}
    (first : Copies faulty plain) (onward : ∀ value, Copies (nextFaulty value) (next value)) :
    Copies (faulty >>= nextFaulty) (plain >>= next) := by
  intro tree
  rw [StateT.run_bind, first tree]
  exact onward _ _

theorem copies_meeting (operation : StateM FileTree α) (atFault : Fault → StateM FileTree α) :
    Copies (meeting operation atFault) operation :=
  fun _ => rfl

theorem copies_isThere (path : Path) (error : FileError) :
    Copies (Files.isThere path error) (Files.isThere path error) := by
  unfold Files.isThere
  split
  · exact copies_meeting _ _
  · exact copies_pure false

theorem copies_makeFirst (missing paths : List Path) :
    Copies (Files.makeFirst missing paths) (Files.makeFirst missing paths) := by
  induction paths generalizing missing with
  | nil => exact copies_pure _
  | cons path rest ih =>
      refine (copies_meeting _ _).bind fun result => ?_
      split
      · exact copies_pure _
      · exact ih _
      · refine (copies_isThere path _).bind fun found => ?_
        split <;> exact copies_pure _

theorem copies_makeEach (paths : List Path) :
    Copies (Files.makeEach paths) (Files.makeEach paths) := by
  induction paths with
  | nil => exact copies_pure _
  | cons path rest ih =>
      refine (copies_meeting _ _).bind fun result => ?_
      split
      · exact ih
      · refine (copies_isThere path _).bind fun found => ?_
        split
        · exact ih
        · exact copies_pure _

theorem copies_makeDirectories (path : Path) :
    Copies (Files.makeDirectories path) (Files.makeDirectories path) := by
  unfold Files.makeDirectories
  split
  · exact copies_pure _
  · refine (copies_makeFirst [] _).bind fun result => ?_
    split
    · exact copies_makeEach _
    · exact copies_pure _

end FaultyTree

/-! ### Sessions -/

namespace Session

/-- Where nothing goes wrong, the one session does what the other one does on the tree alone. -/
def Copies (faulty : Session (StateM FaultyTree) α) (plain : Session (StateM FileTree) α) : Prop :=
  ∀ told, FaultyTree.Copies (faulty.run.run told) (plain.run.run told)

theorem copies_pure (value : α) : Copies (pure value) (pure value) :=
  fun _ _ => rfl

theorem Copies.bind {faulty : Session (StateM FaultyTree) α} {plain : Session (StateM FileTree) α}
    {nextFaulty : α → Session (StateM FaultyTree) β} {next : α → Session (StateM FileTree) β}
    (first : Copies faulty plain) (onward : ∀ value, Copies (nextFaulty value) (next value)) :
    Copies (faulty >>= nextFaulty) (plain >>= next) := by
  intro told tree
  rw [run_bind, run_bind, first told tree]
  rcases (plain.run.run told).run tree with ⟨⟨ended, log⟩, later⟩
  cases ended with
  | error error => rfl
  | ok value => exact onward value log later

theorem copies_tell (events : List LogEvent) : Copies (tell events) (tell events) :=
  fun _ _ => rfl

theorem copies_ofResult (result : Except Failure α) : Copies (ofResult result) (ofResult result) :=
  fun _ _ => rfl

theorem copies_perform {faulty : StateM FaultyTree α} {plain : StateM FileTree α}
    (copies : FaultyTree.Copies faulty plain) : Copies (perform faulty) (perform plain) :=
  fun told tree =>
    congrArg (fun ended : α × FaultyTree =>
      (((.ok ended.1, told) : Except CommandError α × List LogEvent), ended.2)) (copies tree)

theorem copies_attempt {faulty : StateM FaultyTree (Except Failure α)}
    {plain : StateM FileTree (Except Failure α)} (copies : FaultyTree.Copies faulty plain) :
    Copies (attempt faulty) (attempt plain) :=
  (copies_perform copies).bind copies_ofResult

theorem copies_attemptOutput {faulty : StateM FaultyTree (Except FileError α)}
    {plain : StateM FileTree (Except FileError α)} (copies : FaultyTree.Copies faulty plain) :
    Copies (attemptOutput faulty) (attemptOutput plain) :=
  (copies_perform copies).bind fun _ _ _ => rfl

end Session

/-! ### Loading -/

theorem Config.copies_firstFile? (paths : List Path) :
    FaultyTree.Copies (firstFile? paths) (firstFile? paths) := by
  induction paths with
  | nil => exact FaultyTree.copies_pure none
  | cons path rest ih =>
      refine (FaultyTree.copies_meeting _ _).bind fun found => ?_
      split
      · exact FaultyTree.copies_pure _
      · exact ih

theorem Config.copies_load (root : Path) : FaultyTree.Copies (load root) (load root) := by
  refine (copies_firstFile? _).bind fun found => ?_
  cases found with
  | none => exact FaultyTree.copies_pure _
  | some path =>
      refine (FaultyTree.copies_meeting _ _).bind fun result => ?_
      cases result <;> exact FaultyTree.copies_pure _

theorem Manifest.copies_load (path : Path) : FaultyTree.Copies (load path) (load path) := by
  unfold load
  cases DocumentFormat.ofPath path with
  | error failure => exact FaultyTree.copies_pure _
  | ok format =>
      refine (FaultyTree.copies_meeting _ _).bind fun result => ?_
      cases result <;> exact FaultyTree.copies_pure _

namespace Project

open Session

theorem copies_load (invocation : Invocation) (surroundings : Surroundings) :
    Copies (load invocation surroundings) (load invocation surroundings) := by
  unfold load
  refine (copies_perform (Config.copies_firstFile? _)).bind fun place => ?_
  refine (copies_attempt (Config.copies_load _)).bind fun found => ?_
  refine (copies_tell _).bind fun _ => ?_
  dsimp only
  cases invocation.declarations.or (found.getD {}).declarations with
  | none => exact copies_ofResult _
  | some manifestPath =>
      refine (copies_attempt (Manifest.copies_load _)).bind fun manifest => ?_
      exact (copies_tell _).bind fun _ => copies_pure _

theorem copies_pass (project : Project) : Copies project.pass project.pass :=
  (copies_tell _).bind fun _ => copies_ofResult _

theorem copies_filesAmong (project : Project) (names : List String) :
    FaultyTree.Copies (project.filesAmong names) (project.filesAmong names) := by
  induction names with
  | nil => exact FaultyTree.copies_pure []
  | cons name rest ih =>
      refine ih.bind fun others => (FaultyTree.copies_meeting _ _).bind fun found => ?_
      exact FaultyTree.copies_pure _

theorem copies_leftovers (project : Project) (units : List SourceUnit) :
    Copies (project.leftovers units) (project.leftovers units) := by
  refine (copies_perform (FaultyTree.copies_meeting _ _)).bind fun found => ?_
  split
  · refine (copies_attemptOutput (FaultyTree.copies_meeting _ _)).bind fun names => ?_
    refine (copies_perform (copies_filesAmong project _)).bind fun files => ?_
    exact copies_pure _
  · exact copies_pure []

/-! ### Tasks -/

theorem copies_writeUnits (project : Project) (units : List SourceUnit) :
    Copies (project.writeUnits units) (project.writeUnits units) := by
  induction units with
  | nil => exact copies_pure ()
  | cons unit rest ih =>
      exact (copies_attemptOutput (FaultyTree.copies_meeting _ _)).bind fun _ => ih

theorem copies_removeFiles (paths : List Path) :
    Copies (removeFiles paths) (removeFiles paths) := by
  induction paths with
  | nil => exact copies_pure ()
  | cons path rest ih =>
      refine (copies_attemptOutput (FaultyTree.copies_meeting _ _)).bind fun _ => ?_
      exact (copies_tell _).bind fun _ => ih

theorem copies_generate (project : Project) (denyWarnings dryRun : Bool) :
    Copies (project.generate denyWarnings dryRun) (project.generate denyWarnings dryRun) := by
  refine (copies_pass project).bind fun output => ?_
  refine (copies_leftovers project _).bind fun leftovers => ?_
  cases dryRun with
  | true => exact copies_pure _
  | false =>
      refine (copies_attemptOutput (FaultyTree.copies_makeDirectories _)).bind fun _ => ?_
      refine (copies_writeUnits project _).bind fun _ => ?_
      exact (copies_removeFiles leftovers).bind fun _ => copies_pure _

theorem copies_staleUnits (project : Project) (units : List SourceUnit) :
    FaultyTree.Copies (project.staleUnits units) (project.staleUnits units) := by
  induction units with
  | nil => exact FaultyTree.copies_pure []
  | cons unit rest ih =>
      have reads : FaultyTree.Copies (readIfThere (project.placeOf unit))
          (readIfThere (project.placeOf unit)) := by
        refine (FaultyTree.copies_meeting _ _).bind fun result => ?_
        cases result <;> exact FaultyTree.copies_pure _
      exact reads.bind fun current => ih.bind fun others => FaultyTree.copies_pure _

theorem copies_check (project : Project) : Copies project.check project.check := by
  refine (copies_pass project).bind fun output => ?_
  refine (copies_perform (copies_staleUnits project _)).bind fun stale => ?_
  exact (copies_leftovers project _).bind fun leftovers => copies_pure _

end Project

open Session in
theorem Task.copies_perform (task : Task) (project : Project) (isColored : Bool) :
    Copies (task.perform project isColored) (task.perform project isColored) := by
  cases task with
  | generate denyWarnings dryRun format =>
      exact (project.copies_generate denyWarnings dryRun).bind fun _ => copies_pure _
  | check showDiff format => exact project.copies_check.bind fun _ => copies_pure _
  | info format => exact (copies_tell _).bind fun _ => copies_pure _

/-! ### Runs -/

theorem Invocation.copies_run (invocation : Invocation) (surroundings : Surroundings) :
    FaultyTree.Copies (invocation.run surroundings) (invocation.run surroundings) := by
  unfold Invocation.run
  cases invocation.task with
  | none => exact FaultyTree.copies_pure _
  | some task =>
      have session := (Project.copies_load invocation surroundings).bind fun project =>
        task.copies_perform project (invocation.isColored surroundings)
      exact (session []).bind fun _ => FaultyTree.copies_pure _

/-- Where nothing goes wrong, a run does what it does on the tree alone. -/
theorem runOnFaulty_faultless (words : List String) (surroundings : Surroundings)
    (tree : FileTree) :
    runOnFaulty words surroundings (.faultless tree) =
      ((runOn words surroundings tree).1, .faultless (runOn words surroundings tree).2) := by
  unfold runOnFaulty runOn run
  cases Invocation.ofWords words with
  | error halt => rfl
  | ok invocation => exact invocation.copies_run surroundings tree

end BuildConstants
