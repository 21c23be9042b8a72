import BuildConstants.Proofs.Generation.Filename
import BuildConstants.Proofs.Generation.Locality

/-!
# Further declarations keep file names

The names that a pass gives to its units follow from the scopes of the accepted declarations alone,
in the order of their first occurrence: `map_filename_units`. Further declarations can only add
scopes at the end, so the containers known before keep their names, whatever names collide.
-/

namespace BuildConstants

theorem Model.scopes_isPrefix (models others : List Model) :
    scopes models <+: scopes (models ++ others) := by
  rw [scopes, scopes, List.map_append, List.eraseDups_append]
  exact List.prefix_append _ _

namespace Filenames

variable {names : Filenames} {scopes others : List (String × String)}

/-- The names that containers are handed out, one after the other. -/
def allocateAll : Filenames → List (String × String) → List String
  | _, [] => []
  | names, scope :: rest =>
    let (filename, names) := names.allocate scope.1 scope.2
    filename :: allocateAll names rest

/-- The containers served later have no part in the names handed out before. -/
theorem allocateAll_isPrefix (names : Filenames) (within : scopes <+: others) :
    allocateAll names scopes <+: allocateAll names others := by
  induction scopes generalizing names others with
  | nil => exact List.nil_prefix
  | cons scope rest ih =>
      obtain ⟨later, rfl⟩ := within
      exact List.prefix_cons_inj _ |>.2 (ih _ (List.prefix_append rest later))

theorem length_allocateAll (names : Filenames) (scopes : List (String × String)) :
    (allocateAll names scopes).length = scopes.length := by
  induction scopes generalizing names with
  | nil => rfl
  | cons scope rest ih => exact congrArg (· + 1) (ih _)

/-- Groups are named for their scopes, whatever their members are. -/
theorem filenames_eq (names : Filenames) (groups : List Group) :
    Group.filenames names groups = allocateAll names (groups.map Group.scope) := by
  induction groups generalizing names with
  | nil => rfl
  | cons g rest ih => exact congrArg (_ :: ·) (ih _)

end Filenames

/-- A value that is looked up in a list of pairs can be changed before or after. -/
theorem map_lookup_zip {α β γ : Type} [BEq α] (f : β → γ) (keys : List α) (values : List β)
    (key : α) : ((keys.zip values).lookup key).map f = (keys.zip (values.map f)).lookup key := by
  induction keys generalizing values with
  | nil => rfl
  | cons first rest ih =>
      cases values with
      | nil => rfl
      | cons value others =>
          rw [List.map_cons, List.zip_cons_cons, List.zip_cons_cons, List.lookup_cons,
            List.lookup_cons]
          split
          · rfl
          · exact ih others

/-- What a key leads to in a list of pairs stays when pairs are added behind them. -/
theorem lookup_zip_of_isPrefix {α β : Type} [BEq α] {keys otherKeys : List α}
    {values otherValues : List β} {key : α} {value : β} (paired : keys.length = values.length)
    (keysKept : keys <+: otherKeys) (valuesKept : values <+: otherValues)
    (found : (keys.zip values).lookup key = some value) :
    (otherKeys.zip otherValues).lookup key = some value := by
  obtain ⟨laterKeys, rfl⟩ := keysKept
  obtain ⟨laterValues, rfl⟩ := valuesKept
  rw [List.zip_append paired, List.lookup_append, found]
  rfl

theorem Declaration.scopes_isPrefix (declarations later : List Declaration) :
    scopes declarations <+: scopes (declarations ++ later) := by
  rw [← scopes_accepted, ← scopes_accepted, accepted, accepted, List.filterMap_append]
  exact Model.scopes_isPrefix _ _

namespace GenerationOutput

variable {options : GenerateOptions} {raw : Option String} {declarations : List Declaration}
  {output : GenerationOutput}

/-- The names of a pass follow from the scopes of its accepted declarations. -/
theorem map_filename_units (completed : generate options raw declarations .never = .ok output) :
    output.units.map (·.filename) =
      options.markers.map (·.filename) ++
        options.reserved.allocateAll (Declaration.scopes declarations) := by
  rw [generate_never] at completed
  cases completed
  rw [List.map_append, SourceUnit.map_filename_ofModels, Filenames.filenames_eq, Group.ofModels_eq,
    List.map_map, ← Declaration.scopes_accepted]
  exact congrArg (fun scopes => _ ++ options.reserved.allocateAll scopes) (List.map_id _)

/-- The unit of a scope has the name that is handed out for the scope. -/
theorem map_filename_unitOf? (completed : generate options raw declarations .never = .ok output)
    (scope : String × String) :
    (output.unitOf? options declarations scope).map (·.filename) =
      ((Declaration.scopes declarations).zip
        (options.reserved.allocateAll (Declaration.scopes declarations))).lookup scope := by
  have names := map_filename_units completed
  have markers : options.markers.length = (options.markers.map (·.filename)).length :=
    List.length_map _ |>.symm
  rw [unitOf?, map_lookup_zip, List.map_drop, names, markers, List.drop_left]

/-- The unit of a scope is one of the units. -/
theorem mem_of_unitOf?_eq_some {scope : String × String} {unit : SourceUnit}
    (found : output.unitOf? options declarations scope = some unit) : unit ∈ output.units := by
  obtain ⟨before, rest, split, -⟩ := List.lookup_eq_some_iff.1 found
  have paired : (scope, unit) ∈
      (Declaration.scopes declarations).zip (output.units.drop options.markers.length) := by
    rw [split]
    exact List.mem_append_right _ List.mem_cons_self
  exact List.mem_of_mem_drop (List.of_mem_zip paired).2

/-- The container of an accepted declaration has a unit. -/
theorem exists_unitOf? (completed : generate options raw declarations .never = .ok output)
    {d : Declaration} (member : d ∈ declarations) (isAccepted : d.isAccepted) :
    ∃ unit ∈ output.units, output.unitOf? options declarations d.scope = some unit := by
  have text : (output.unitOf? options declarations d.scope).map (·.text) = _ :=
    map_text_unitOf? completed
  rw [if_pos (Declaration.mem_scopes.2 ⟨d, member, isAccepted, rfl⟩)] at text
  obtain ⟨unit, found, -⟩ := Option.map_eq_some_iff.1 text
  exact ⟨unit, mem_of_unitOf?_eq_some found, found⟩

/-- The containers of accepted declarations have units under good names, and another output keeps
these for the containers that it shares with the first. -/
structure NamesKeptBy (options : GenerateOptions) (declarations others : List Declaration)
    (output other : GenerationOutput) : Prop where
  present : ∀ d ∈ declarations, d.isAccepted →
    ∃ unit ∈ output.units, output.unitOf? options declarations d.scope = some unit
  distinct : (output.units.map (·.filename)).Nodup
  suffixed : ∀ unit ∈ output.units, ∃ stem, unit.filename = stem ++ generatedSuffix
  isPrefix : output.units.map (·.filename) <+: other.units.map (·.filename)
  /-- The unit of a container keeps its name. -/
  kept : ∀ scope unit, output.unitOf? options declarations scope = some unit →
    ∃ same, other.unitOf? options others scope = some same ∧ same.filename = unit.filename

end GenerationOutput

/-- The names of the units of a pass are distinct names of generated files. A pass over more
declarations, whatever it is configured with, begins with the same names and gives them to the same
containers. -/
theorem generate_append_names (options : GenerateOptions) (raw otherRaw : Option String)
    (declarations later : List Declaration) :
    ∃ output extended, generate options raw declarations .never = .ok output ∧
      generate options otherRaw (declarations ++ later) .never = .ok extended ∧
      GenerationOutput.NamesKeptBy options declarations (declarations ++ later) output
        extended := by
  have completed := generate_never options raw declarations
  have extended := generate_never options otherRaw (declarations ++ later)
  have scopes := Declaration.scopes_isPrefix declarations later
  have names := options.reserved.allocateAll_isPrefix scopes
  obtain ⟨distinct, generated⟩ := GenerationOutput.filenames_of_generate completed
  refine ⟨_, _, completed, extended,
    fun d member isAccepted => GenerationOutput.exists_unitOf? completed member isAccepted,
    distinct, fun unit member => ?_, ?_, fun scope unit found => ?_⟩
  · exact Project.isGeneratedName_iff.1 (generated unit member)
  · rw [GenerationOutput.map_filename_units completed, GenerationOutput.map_filename_units extended]
    exact List.prefix_append_right_inj _ |>.2 names
  · have here := GenerationOutput.map_filename_unitOf? completed scope
    rw [found] at here
    have there := GenerationOutput.map_filename_unitOf? extended scope
    rw [lookup_zip_of_isPrefix (Filenames.length_allocateAll _ _).symm scopes names here.symm]
      at there
    exact Option.map_eq_some_iff.1 there

end BuildConstants
