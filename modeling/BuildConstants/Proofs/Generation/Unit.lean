import BuildConstants.Proofs.Declaration.Verdict
import BuildConstants.Proofs.Generation.Output
import BuildConstants.Proofs.Group.Partition
import BuildConstants.Proofs.SourceUnit.Filename
import BuildConstants.Proofs.SourceUnit.Frame

/-!
# The units of a pass

A pass that nothing stops gives one unit for each scope of the accepted declarations, in the order
in which the scopes occur first, behind the marker unit if there is one. `generate_never` says so,
with the names that the units are handed out.
-/

namespace BuildConstants

/-- The models of the accepted ones among some declarations. -/
def Declaration.accepted (declarations : List Declaration) : List Model :=
  declarations.filterMap (·.verdict.model?)

theorem Declaration.mem_accepted {declarations : List Declaration} {model : Model} :
    model ∈ accepted declarations ↔ ∃ d ∈ declarations, d.verdict = .ok model := by
  simp only [accepted, List.mem_filterMap, Verdict.model?_eq_some_iff]

/-- The diagnostics against the rejected ones among some declarations. -/
def Declaration.rejections (declarations : List Declaration) : List Diagnostic :=
  declarations.filterMap (·.verdict.diagnostic?)

theorem Declaration.mem_rejections {declarations : List Declaration} {diagnostic : Diagnostic} :
    diagnostic ∈ rejections declarations ↔ ∃ d ∈ declarations, d.verdict = .error diagnostic := by
  simp only [rejections, List.mem_filterMap, Verdict.diagnostic?_eq_some_iff]

/-- The units that come before those of containers. -/
def GenerateOptions.markers (options : GenerateOptions) : List SourceUnit :=
  if options.emitMarker then [SourceUnit.marker options.markerNamespace] else []

/-- The names that are in use before the first container is given one. -/
def GenerateOptions.reserved (options : GenerateOptions) : Filenames :=
  if options.emitMarker then Filenames.empty.reserve markerFilename else .empty

/-- The name is one that a container of the scope can be given. -/
def Filenames.Suits (scope : String × String) (filename : String) : Prop :=
  let stem := filenameStem scope.1 scope.2
  filename = plainFilename stem ∨ ∃ number, filename = numberedFilename stem number

namespace Group

variable {names : Filenames} {groups : List Group}

/-- Every group is given a name that suits its scope. -/
theorem forall₂_filenames (names : Filenames) (groups : List Group) :
    List.Forall₂ (fun g filename => Filenames.Suits g.scope filename) groups
      (filenames names groups) := by
  induction groups generalizing names with
  | nil => exact .nil
  | cons g rest ih =>
      refine .cons ?_ (ih _)
      have free := (names.freeFor_eq (filenameStem g.scope.1 g.scope.2)).2
      rcases free with plain | ⟨-, number, found, -⟩
      · exact .inl plain
      · exact .inr ⟨number, found⟩

theorem length_filenames (names : Filenames) (groups : List Group) :
    (filenames names groups).length = groups.length :=
  (forall₂_filenames names groups).length_eq.symm

/-- No name is given that is in use. -/
theorem notMem_filenames {filename : String} (taken : filename ∈ names.used) :
    filename ∉ filenames names groups := by
  induction groups generalizing names with
  | nil => exact List.not_mem_nil
  | cons g rest ih =>
      intro member
      rcases List.mem_cons.1 member with rfl | later
      · exact (names.freeFor_eq _).1 taken
      · exact ih (List.mem_cons_of_mem _ taken) later

/-- No name is given twice. -/
theorem nodup_filenames (names : Filenames) (groups : List Group) :
    (filenames names groups).Nodup := by
  induction groups generalizing names with
  | nil => exact List.nodup_nil
  | cons g rest ih => exact List.nodup_cons.2 ⟨notMem_filenames List.mem_cons_self, ih _⟩

end Group

/-- The units that a pass over some accepted models gives to their scopes. -/
def SourceUnit.ofModels (options : GenerateOptions) (properties : PropertyMap)
    (models : List Model) : List SourceUnit :=
  let groups := Group.ofModels models
  (Group.filenames options.reserved groups).zipWith SourceUnit.mk
    (groups.map (·.unitText properties))

/-- A pass that nothing stops gives the units of the accepted declarations and the diagnostics
against the others. -/
theorem generate_never (options : GenerateOptions) (raw : Option String)
    (declarations : List Declaration) :
    generate options raw declarations .never =
      .ok
        { units := options.markers ++
            SourceUnit.ofModels options (.resolve raw) (Declaration.accepted declarations)
          diagnostics := Declaration.rejections declarations } := by
  rw [generate_eq, Signal.never_stops, if_neg Bool.false_ne_true]
  simp only [GenerationOutput.ofVerdicts, GenerationOutput.assembled, Group.ofVerdicts,
    List.filterMap_map]
  rfl

namespace SourceUnit

variable {options : GenerateOptions} {properties : PropertyMap} {models : List Model}

theorem map_filename_zipWith {names texts : List String} (paired : names.length = texts.length) :
    (names.zipWith mk texts).map (·.filename) = names := by
  induction names generalizing texts with
  | nil => rfl
  | cons name rest ih =>
      cases texts with
      | nil => cases paired
      | cons text others => exact congrArg (name :: ·) (ih (Nat.succ.inj paired))

theorem forall₂_zipWith {α : Type} {suits : α → String → Prop} {pieces : List α}
    {names : List String} (textOf : α → String) (named : List.Forall₂ suits pieces names) :
    List.Forall₂ (fun piece unit => suits piece unit.filename ∧ unit.text = textOf piece) pieces
      (names.zipWith mk (pieces.map textOf)) := by
  induction named with
  | nil => exact .nil
  | cons head _ ih => exact .cons ⟨head, rfl⟩ ih

/-- The units stand one by one for the scopes of the models: each has a name that suits its scope
and the text of the models of that scope. -/
theorem forall₂_ofModels (options : GenerateOptions) (properties : PropertyMap)
    (models : List Model) :
    List.Forall₂
      (fun scope unit => Filenames.Suits scope unit.filename ∧
        unit.text = (Group.among models scope).unitText properties)
      (Model.scopes models) (ofModels options properties models) := by
  have named := Group.forall₂_filenames options.reserved (Group.ofModels models)
  have units := forall₂_zipWith (·.unitText properties) named
  rw [← ofModels, Group.ofModels_eq, List.forall₂_map_left_iff] at units
  exact units

/-- The file names of a pass are those that the allocator hands out. -/
theorem map_filename_ofModels :
    (ofModels options properties models).map (·.filename) =
      Group.filenames options.reserved (Group.ofModels models) :=
  map_filename_zipWith (by rw [Group.length_filenames, List.length_map])

/-- No two units of a pass have one name. -/
theorem nodup_filenames :
    ((options.markers ++ ofModels options properties models).map (·.filename)).Nodup := by
  rw [List.map_append, map_filename_ofModels]
  refine List.nodup_append.2 ⟨?_, Group.nodup_filenames _ _, ?_⟩
  · unfold GenerateOptions.markers
    split <;> simp
  · intro name isMarker other given same
    unfold GenerateOptions.markers at isMarker
    split at isMarker
    next emitted =>
        have taken : name ∈ options.reserved.used := by
          rw [GenerateOptions.reserved, if_pos emitted, List.mem_singleton.1 isMarker]
          exact List.mem_cons_self
        exact Group.notMem_filenames taken (same ▸ given)
    next => cases isMarker

end SourceUnit

end BuildConstants
