import BuildConstants.Command.Project
import BuildConstants.Proofs.Command.Arguments
import BuildConstants.Proofs.Command.Session
import BuildConstants.Proofs.Path.Parts

/-!
# Loading projects

On a file tree, loading a project reads the configuration and the manifest and changes nothing:
`Project.gives_load`. What is loaded depends on little of the tree, so a later tree that answers the
same questions alike gives the same project, which `Project.loadIn_of_seen` says.
-/

namespace BuildConstants

variable {tree later : FileTree}

theorem run_firstFile? (paths : List Path) :
    (Config.firstFile? paths : StateM FileTree _).run tree = (paths.find? tree.isFile, tree) := by
  induction paths with
  | nil => rfl
  | cons path rest ih =>
      rw [Config.firstFile?, FileTree.run_bind, FileTree.run_isFile, List.find?_cons]
      cases tree.isFile path with
      | true => rfl
      | false => exact ih

namespace Config

/-- Where the configuration of the project in `root` is on a tree. -/
def placeIn (tree : FileTree) (root : Path) : Option Path :=
  (configPlaces.map root.join).find? tree.isFile

/-- The configuration of the project in `root` as a tree has it. -/
def loadIn (tree : FileTree) (root : Path) : Except Failure (Option Config) :=
  match placeIn tree root with
  | none => .ok none
  | some path =>
    match tree.readText path with
    | .ok text => (ofText text).map some
    | .error error => .error (.file error)

theorem run_place? (root : Path) :
    (place? root : StateM FileTree _).run tree = (placeIn tree root, tree) :=
  run_firstFile? _

theorem run_load (root : Path) :
    (load root : StateM FileTree _).run tree = (loadIn tree root, tree) := by
  rw [load, FileTree.run_bind, run_place?, loadIn]
  cases placeIn tree root with
  | none => rfl
  | some path =>
      simp only [FileTree.run_bind, FileTree.run_readText]
      cases tree.readText path <;> rfl

end Config

namespace Manifest

/-- The manifest at a path as a tree has it. -/
def loadIn (tree : FileTree) (path : Path) : Except Failure Manifest :=
  match DocumentFormat.ofPath path with
  | .error failure => .error failure
  | .ok format =>
    match tree.readText path with
    | .ok text => ofText text format path
    | .error error => .error (.file error)

theorem run_load (path : Path) :
    (load path : StateM FileTree _).run tree = (loadIn tree path, tree) := by
  rw [load, loadIn]
  cases DocumentFormat.ofPath path with
  | error failure => rfl
  | ok format =>
      simp only [FileTree.run_bind, FileTree.run_readText]
      cases tree.readText path <;> rfl

end Manifest

namespace Project

variable {invocation : Invocation} {surroundings : Surroundings} {project : Project}

/-- The project as a tree has it, with what the command line and the configuration say. -/
def built (tree : FileTree) (invocation : Invocation) (surroundings : Surroundings)
    (config : Config) (manifest : Manifest) : Project :=
  let root := invocation.path.getD surroundings.workingDirectory
  { root, manifest
    configPlace := Config.placeIn tree root
    options := { config.options with
      emitMarker := config.options.emitMarker || invocation.emitMarker }
    rawProperties := (invocation.properties.or surroundings.properties).or config.properties
    output := (invocation.output.map root.join).getD (config.outputDirectory root) }

/-- The project that is loaded from a tree. -/
def loadIn (tree : FileTree) (invocation : Invocation) (surroundings : Surroundings) :
    Except CommandError Project :=
  let root := invocation.path.getD surroundings.workingDirectory
  match Config.loadIn tree root with
  | .error failure => .error (.reported failure)
  | .ok found =>
    match invocation.declarations.or (found.getD {}).declarations with
    | none => .error (.reported .missingManifest)
    | some manifestPath =>
      match Manifest.loadIn tree (root.join manifestPath) with
      | .error failure => .error (.reported failure)
      | .ok manifest => .ok (built tree invocation surroundings (found.getD {}) manifest)

open Session in
/-- Loading a project changes nothing. -/
theorem gives_load (tree : FileTree) (invocation : Invocation) (surroundings : Surroundings) :
    Gives (load invocation surroundings) tree (loadIn tree invocation surroundings, tree) := by
  unfold load loadIn
  refine (gives_perform _ tree).bind ?_
  rw [Config.run_place?]
  dsimp only
  have attempted := gives_attempt
    (Config.load (invocation.path.getD surroundings.workingDirectory)) tree
  rw [Config.run_load] at attempted
  cases configured : Config.loadIn tree (invocation.path.getD surroundings.workingDirectory) with
  | error failure =>
      rw [configured] at attempted
      exact attempted.bind_error _
  | ok found =>
      rw [configured] at attempted
      refine attempted.bind ((gives_tell _ tree).bind ?_)
      dsimp only
      cases chosen : invocation.declarations.or (found.getD {}).declarations with
      | none => exact gives_ofResult (.error .missingManifest) tree
      | some manifestPath =>
          dsimp only
          have read := gives_attempt (Manifest.load
            ((invocation.path.getD surroundings.workingDirectory).join manifestPath)) tree
          rw [Manifest.run_load] at read
          cases listed : Manifest.loadIn tree
            ((invocation.path.getD surroundings.workingDirectory).join manifestPath) with
          | error failure =>
              rw [listed] at read
              exact read.bind_error _
          | ok manifest =>
              rw [listed] at read
              exact read.bind ((gives_tell _ tree).bind (gives_pure _ tree))

open Session in
theorem gives_load_iff :
    Gives (load invocation surroundings) tree (.ok project, tree) ↔
      loadIn tree invocation surroundings = .ok project := by
  constructor
  · intro loaded
    exact congrArg Prod.fst ((gives_load tree invocation surroundings).unique loaded)
  · intro loaded
    exact loaded ▸ gives_load tree invocation surroundings

/-- What is loaded: a configuration, if there is one, and a manifest that the command line or the
configuration names. -/
theorem loadIn_eq_ok_iff :
    loadIn tree invocation surroundings = .ok project ↔
      ∃ found manifestPath manifest,
        Config.loadIn tree (invocation.path.getD surroundings.workingDirectory) = .ok found ∧
        invocation.declarations.or (found.getD {}).declarations = some manifestPath ∧
        Manifest.loadIn tree
          ((invocation.path.getD surroundings.workingDirectory).join manifestPath) =
            .ok manifest ∧
        project = built tree invocation surroundings (found.getD {}) manifest := by
  unfold loadIn
  constructor
  · intro loaded
    dsimp only at loaded
    split at loaded
    · cases loaded
    next found configured =>
      split at loaded
      · cases loaded
      next manifestPath chosen =>
        split at loaded
        · cases loaded
        next manifest listed =>
          cases loaded
          exact ⟨found, manifestPath, manifest, configured, chosen, listed, rfl⟩
  · rintro ⟨found, manifestPath, manifest, configured, chosen, listed, rfl⟩
    simp only [configured, chosen, listed]

/-- A path that loading the project in `root` can read. -/
def Reads (root path : Path) : Prop :=
  path ∈ configPlaces.map root.join ∨ ∃ format, DocumentFormat.ofPath path = .ok format

/-- A later tree gives the same project when the configuration is found in the same place and the
texts that were read are still there. -/
theorem loadIn_of_seen (loaded : loadIn tree invocation surroundings = .ok project)
    (placed : ∀ place ∈ configPlaces,
      later.isFile (project.root.join place) = tree.isFile (project.root.join place))
    (kept : ∀ path text, Reads project.root path → tree.readText path = .ok text →
      later.readText path = .ok text) :
    loadIn later invocation surroundings = .ok project := by
  obtain ⟨found, manifestPath, manifest, configured, chosen, listed, rfl⟩ :=
    loadIn_eq_ok_iff.1 loaded
  have root : (built tree invocation surroundings (found.getD {}) manifest).root =
      invocation.path.getD surroundings.workingDirectory := rfl
  rw [root] at placed kept
  have samePlace : Config.placeIn later (invocation.path.getD surroundings.workingDirectory) =
      Config.placeIn tree (invocation.path.getD surroundings.workingDirectory) := by
    rw [Config.placeIn, Config.placeIn, ← List.head?_filter, ← List.head?_filter]
    refine congrArg List.head? (List.filter_congr fun path member => ?_)
    obtain ⟨place, isPlace, rfl⟩ := List.mem_map.1 member
    exact placed place isPlace
  refine loadIn_eq_ok_iff.2 ⟨found, manifestPath, manifest, ?_, chosen, ?_, ?_⟩
  · rw [Config.loadIn, samePlace]
    rw [Config.loadIn] at configured
    cases place : Config.placeIn tree (invocation.path.getD surroundings.workingDirectory) with
    | none =>
        rw [place] at configured
        exact configured
    | some path =>
        simp only [place] at configured ⊢
        cases read : tree.readText path with
        | error error =>
            rw [read] at configured
            cases configured
        | ok text =>
            rw [read] at configured
            rw [kept path text (.inl (List.mem_of_find?_eq_some place)) read]
            exact configured
  · rw [Manifest.loadIn] at listed ⊢
    cases format : DocumentFormat.ofPath
      ((invocation.path.getD surroundings.workingDirectory).join manifestPath) with
    | error failure =>
        rw [format] at listed
        cases listed
    | ok format =>
        simp only [format] at listed ⊢
        split at listed
        next text read =>
            rw [kept _ text (.inr ⟨_, format⟩) read]
            exact listed
        · cases listed
  · rw [built, built, samePlace]

theorem root_ne {words : List String} (understood : Invocation.ofWords words = .ok invocation)
    (working : surroundings.workingDirectory.text ≠ "") :
    (invocation.path.getD surroundings.workingDirectory).text ≠ "" := by
  obtain ⟨pathNamed, -, -⟩ := Invocation.paths_ne understood
  cases given : invocation.path with
  | none => exact working
  | some path =>
      intro empty
      rw [given] at pathNamed
      exact pathNamed (congrArg (some ∘ Path.mk) empty)

theorem output_ne {root : Path} (named : root.text ≠ "") (chosen : Option Path) (config : Config) :
    ((chosen.map root.join).getD (config.outputDirectory root)).text ≠ "" := by
  cases chosen with
  | none => exact Path.text_join_ne named
  | some output => exact Path.text_join_ne named

/-- A project has a root and an output directory. -/
theorem loaded_paths_ne {words : List String}
    (understood : Invocation.ofWords words = .ok invocation)
    (working : surroundings.workingDirectory.text ≠ "")
    (loaded : loadIn tree invocation surroundings = .ok project) :
    project.root.text ≠ "" ∧ project.output.text ≠ "" := by
  obtain ⟨found, manifestPath, manifest, -, -, -, rfl⟩ := loadIn_eq_ok_iff.1 loaded
  have root := root_ne understood working
  exact ⟨root, output_ne root invocation.output _⟩

end Project

end BuildConstants
