import BuildConstants.Command.Run
import BuildConstants.Proofs.Command.Course
import BuildConstants.Proofs.Command.Output
import BuildConstants.Proofs.Command.Project
import BuildConstants.Proofs.Generation.Unit

/-!
# Looking before changing

Generating looks at everything before it changes anything: it loads the project, makes a pass and
finds the leftovers. Whatever goes wrong, looking leaves the tree as it is, and what it finds is
there: `Project.looks_look`.
-/

namespace BuildConstants

variable {tree : FileTree}

/-! ### Loading -/

theorem Config.looks_firstFile? (tree : FileTree) (paths : List Path) :
    FaultyTree.Looks (firstFile? paths) tree fun _ => True := by
  induction paths with
  | nil => exact FaultyTree.looks_pure trivial
  | cons path rest ih =>
      refine (FaultyTree.looks_isFile tree path).bind fun found _ => ?_
      cases found with
      | true => exact FaultyTree.looks_pure trivial
      | false => exact ih

theorem Config.looks_load (tree : FileTree) (root : Path) :
    FaultyTree.Looks (load root) tree fun _ => True := by
  refine (looks_firstFile? tree _).bind fun found _ => ?_
  cases found with
  | none => exact FaultyTree.looks_pure trivial
  | some path =>
      refine (FaultyTree.looks_readText tree path).bind fun result _ => ?_
      cases result <;> exact FaultyTree.looks_pure trivial

theorem Manifest.looks_load (tree : FileTree) (path : Path) :
    FaultyTree.Looks (load path) tree fun _ => True := by
  rw [load]
  cases DocumentFormat.ofPath path with
  | error failure => exact FaultyTree.looks_pure trivial
  | ok format =>
      refine (FaultyTree.looks_readText tree path).bind fun result _ => ?_
      cases result <;> exact FaultyTree.looks_pure trivial

namespace Project

variable {invocation : Invocation} {surroundings : Surroundings} {project : Project}
  {units : List SourceUnit}

/-- The output directory of a project that is loaded is chosen on the command line or by some
configuration. -/
def HasOutput (invocation : Invocation) (surroundings : Surroundings) (project : Project) : Prop :=
  let root := invocation.path.getD surroundings.workingDirectory
  ∃ config : Config,
    project.output = (invocation.output.map root.join).getD (config.outputDirectory root)

open Session in
theorem looks_load (tree : FileTree) (invocation : Invocation) (surroundings : Surroundings) :
    Looks (load invocation surroundings) tree (HasOutput invocation surroundings) := by
  unfold load
  let root := invocation.path.getD surroundings.workingDirectory
  have placed : Looks (perform (Config.place? root)) tree fun _ => True :=
    looks_perform (Config.looks_firstFile? tree _)
  have configured : Looks (attempt (Config.load root)) tree fun _ => True :=
    looks_attempt ((Config.looks_load tree root).mono fun _ _ _ _ => trivial)
  refine placed.bind fun place _ => configured.bind fun found _ => ?_
  refine (looks_tell _ tree).bind fun _ _ => ?_
  dsimp only
  cases invocation.declarations.or (found.getD {}).declarations with
  | none => exact fun _ _ => ⟨rfl, nofun⟩
  | some manifestPath =>
      have listed : Looks (attempt (Manifest.load (root.join manifestPath))) tree fun _ => True :=
        looks_attempt ((Manifest.looks_load tree _).mono fun _ _ _ _ => trivial)
      refine listed.bind fun manifest _ => (looks_tell _ tree).bind fun _ _ => ?_
      exact looks_pure ⟨found.getD {}, rfl⟩

theorem HasOutput.named {words : List String} (has : HasOutput invocation surroundings project)
    (understood : Invocation.ofWords words = .ok invocation)
    (working : surroundings.workingDirectory.text ≠ "") : project.output.text ≠ "" := by
  obtain ⟨config, output⟩ := has
  rw [output]
  exact output_ne (root_ne understood working) invocation.output config

/-! ### Leftovers -/

theorem looks_filesAmong (tree : FileTree) (project : Project) (names : List String) :
    FaultyTree.Looks (project.filesAmong names) tree fun files =>
      ∀ name ∈ files, name ∈ names ∧ tree.isFile (project.output.join ⟨name⟩) := by
  induction names with
  | nil => exact FaultyTree.looks_pure nofun
  | cons name rest ih =>
      refine ih.bind fun others among => ?_
      have behind : ∀ other ∈ others,
          other ∈ name :: rest ∧ tree.isFile (project.output.join ⟨other⟩) :=
        fun other member => (among other member).imp_left (List.mem_cons_of_mem name)
      refine (FaultyTree.looks_isFile tree _).bind fun found isFile => FaultyTree.looks_pure ?_
      split
      next yes => exact List.forall_mem_cons.2 ⟨⟨List.mem_cons_self, isFile yes⟩, behind⟩
      · exact behind

/-- What is found to be left over is left over. -/
def AreLeftovers (tree : FileTree) (project : Project) (units : List SourceUnit)
    (paths : List Path) : Prop :=
  ∃ names : List String, paths = names.map (fun name => project.output.join ⟨name⟩) ∧
    ∀ name ∈ names, name ∈ leftoverNames tree project units

open Session in
theorem looks_leftovers (tree : FileTree) (project : Project) (units : List SourceUnit) :
    Looks (project.leftovers units) tree (AreLeftovers tree project units) := by
  have looks := looks_perform (FaultyTree.looks_isDirectory tree project.output)
  refine looks.bind fun found there => ?_
  cases found with
  | false => exact looks_pure ⟨[], rfl, nofun⟩
  | true =>
      have listed : Looks (attemptOutput (Files.names project.output)) tree fun names =>
          tree.names project.output = .ok names :=
        looks_attemptOutput (FaultyTree.looks_names tree project.output)
      refine listed.bind fun names isListed => ?_
      have chosen : FaultyTree.Looks (project.filesAmong (names.filter (isSuspect units))) tree
          fun files => ∀ name ∈ files, name ∈ leftoverNames tree project units := by
        refine (looks_filesAmong tree project _).mono fun files among name member => ?_
        obtain ⟨suspect, isFile⟩ := among name member
        rw [leftoverNames, if_pos (there rfl), isListed]
        exact List.mem_mergeSort.2 (List.mem_filter.2 ⟨suspect, isFile⟩)
      refine (looks_perform chosen).bind fun files areLeftovers => looks_pure ?_
      exact ⟨files.mergeSort (· ≤ ·), rfl, fun name member =>
        areLeftovers name (List.mem_mergeSort.1 member)⟩

/-! ### All that is looked at -/

/-- What generating works with: a project, what a pass over its declarations gives, and the files
that are left over. -/
structure Found where
  project : Project
  output : GenerationOutput
  leftovers : List Path

/-- All that generating does before it changes anything. -/
def look {m : Type → Type} [Monad m] [Files m] (invocation : Invocation)
    (surroundings : Surroundings) : Session m Found := do
  let project ← load invocation surroundings
  let output ← project.pass
  let leftovers ← project.leftovers output.units
  pure { project, output, leftovers }

/-- What is found on a tree belongs to a project with an output directory, and what is left over is
left over there. -/
structure Found.IsOn (found : Found) (tree : FileTree) (invocation : Invocation)
    (surroundings : Surroundings) : Prop where
  hasOutput : HasOutput invocation surroundings found.project
  passed : BuildConstants.generate found.project.options found.project.rawProperties
    found.project.manifest.declarations .never = .ok found.output
  areLeftovers : AreLeftovers tree found.project found.output.units found.leftovers

open Session in
/-- Whatever goes wrong, looking leaves the tree as it is. -/
theorem looks_look (tree : FileTree) (invocation : Invocation) (surroundings : Surroundings) :
    Looks (look invocation surroundings) tree fun found =>
      found.IsOn tree invocation surroundings := by
  refine (looks_load tree invocation surroundings).bind fun project hasOutput => ?_
  have passes : Looks project.pass tree fun output =>
      BuildConstants.generate project.options project.rawProperties
        project.manifest.declarations .never = .ok output :=
    (looks_tell _ tree).bind fun _ _ => looks_ofResult _ tree
  refine passes.bind fun output passed => ?_
  refine (looks_leftovers tree project output.units).bind fun leftovers areLeftovers => ?_
  exact looks_pure ⟨hasOutput, passed, areLeftovers⟩

end Project

end BuildConstants
