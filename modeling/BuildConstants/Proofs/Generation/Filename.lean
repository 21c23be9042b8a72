import BuildConstants.Command.Project
import BuildConstants.Proofs.Generation.Unit
import BuildConstants.Proofs.Outcome
import BuildConstants.Proofs.Path.Parts

/-!
# Names of generated files

Every unit of a pass has the name of a generated file. The name is that of a file in a directory, a
path of one component, unless the namespace or the name of the container has a slash in it, which is
kept: `Filenames.isSingle_allocate_iff`.
-/

namespace BuildConstants

namespace Project

variable {name : String}

theorem isGeneratedName_iff : isGeneratedName name ↔ ∃ stem, name = stem ++ generatedSuffix := by
  rw [isGeneratedName, List.isSuffixOf_iff_suffix]
  constructor
  · rintro ⟨stem, whole⟩
    exact ⟨String.ofList stem, String.toList_inj.1 (by simp [← whole])⟩
  · rintro ⟨stem, rfl⟩
    rw [String.toList_append]
    exact List.suffix_append _ _

theorem isGeneratedName_append (stem : String) : isGeneratedName (stem ++ generatedSuffix) :=
  isGeneratedName_iff.2 ⟨stem, rfl⟩

/-- The name of a generated file is not empty, and it has a meaning of its own in no path. -/
theorem proper_of_isGeneratedName (generated : isGeneratedName name) :
    name ≠ "" ∧ name ≠ "." ∧ name ≠ ".." := by
  refine ⟨?_, ?_, ?_⟩ <;>
    · rintro rfl
      revert generated
      decide +kernel

end Project

/-- The name is a path of one component. -/
def IsSingle (filename : String) : Prop :=
  Path.components ⟨filename⟩ = [.name filename]

/-- The name of a generated file is a path of one component when no slash is in it. -/
theorem isSingle_iff {filename : String} (generated : Project.isGeneratedName filename) :
    IsSingle filename ↔ '/' ∉ filename.toList := by
  obtain ⟨notEmpty, notHere, notUp⟩ := Project.proper_of_isGeneratedName generated
  constructor
  · intro single
    have isComponent : .name filename ∈ Path.components ⟨filename⟩ := by
      rw [single]
      exact List.mem_singleton_self _
    exact Text.notMem_part (Path.mem_parts_of_mem_components isComponent)
  · intro whole
    rw [IsSingle, Path.components, Path.segments, Text.parts_of_notMem whole]
    simp [Path.Component.ofFirst?, Path.Component.ofInner?, notEmpty, notHere, notUp]

namespace Filenames

variable {scope : String × String} {filename : String}

/-- Every name that a container can be given is that of a generated file. -/
theorem Suits.isGeneratedName (suits : Suits scope filename) :
    Project.isGeneratedName filename := by
  rcases suits with rfl | ⟨number, rfl⟩
  · exact Project.isGeneratedName_append _
  · rw [numberedFilename_eq]
    exact Project.isGeneratedName_append _

theorem slash_mem_filenameStem (namespaceName containerName : String) :
    '/' ∈ (filenameStem namespaceName containerName).toList ↔
      '/' ∈ namespaceName.toList ∨ '/' ∈ containerName.toList := by
  have bracketed_eq : ∀ c, bracketed c = '/' ↔ c = '/' := by
    intro c
    unfold bracketed
    split_ifs <;> simp_all
  have underscored_eq : ∀ c, underscored c = '/' ↔ c = '/' := by
    intro c
    unfold underscored
    split_ifs <;> simp_all
  rw [filenameStem]
  split
  next isGlobal => simp [isGlobal, bracketed_eq]
  next => simp [bracketed_eq, underscored_eq]

/-- A slash in the namespace or in the name of a container is kept in the name that it is given. -/
theorem Suits.slash_mem_iff (suits : Suits scope filename) :
    '/' ∈ filename.toList ↔ '/' ∈ scope.1.toList ∨ '/' ∈ scope.2.toList := by
  have plain : '/' ∉ generatedSuffix.toList := by decide
  rcases suits with rfl | ⟨number, rfl⟩
  · rw [plainFilename, String.toList_append, List.mem_append, or_iff_left plain,
      slash_mem_filenameStem]
  · have digits : '/' ∉ (toString number).toList := by
      intro isDigit
      rw [Nat.toString_eq_ofList_toDigits, String.toList_ofList] at isDigit
      have digit := Nat.isDigit_of_mem_toDigits (by decide) (by decide) isDigit
      revert digit
      decide
    have behind : '/' ∉ ("." ++ toString number ++ generatedSuffix).toList := by
      simp only [String.toList_append, List.mem_append, not_or]
      exact ⟨⟨by decide, digits⟩, plain⟩
    have whole : numberedFilename (filenameStem scope.1 scope.2) number =
        filenameStem scope.1 scope.2 ++ ("." ++ toString number ++ generatedSuffix) := by
      simp only [numberedFilename_eq, String.append_assoc]
    rw [whole, String.toList_append, List.mem_append, or_iff_left behind, slash_mem_filenameStem]

/-- The allocator gives a container a name that suits it. -/
theorem suits_allocate (names : Filenames) (namespaceName containerName : String) :
    Suits (namespaceName, containerName) (names.allocate namespaceName containerName).1 := by
  rcases (names.freeFor_eq (filenameStem namespaceName containerName)).2 with
    plain | ⟨-, number, numbered, -⟩
  · exact .inl plain
  · exact .inr ⟨number, numbered⟩

/-- The name that a container is given is a path of one component exactly when neither the namespace
nor the name of the container has a slash in it. -/
theorem isSingle_allocate_iff (names : Filenames) (namespaceName containerName : String) :
    IsSingle (names.allocate namespaceName containerName).1 ↔
      '/' ∉ namespaceName.toList ∧ '/' ∉ containerName.toList := by
  have suits := suits_allocate names namespaceName containerName
  rw [isSingle_iff suits.isGeneratedName, suits.slash_mem_iff, not_or]

end Filenames

namespace GenerationOutput

variable {options : GenerateOptions} {raw : Option String} {declarations : List Declaration}
  {output : GenerationOutput} {unit : SourceUnit}

/-- The unit of a pass is the marker, or it has a name that suits an accepted declaration. -/
theorem suits_of_mem (passed : generate options raw declarations .never = .ok output)
    (member : unit ∈ output.units) :
    unit.filename = markerFilename ∨
      ∃ model ∈ Declaration.accepted declarations, Filenames.Suits model.scope unit.filename := by
  rw [generate_never] at passed
  cases passed
  rcases List.mem_append.1 member with isMarker | isUnit
  · unfold GenerateOptions.markers at isMarker
    split at isMarker
    · exact .inl (congrArg (·.filename) (List.mem_singleton.1 isMarker))
    · cases isMarker
  · have units := SourceUnit.forall₂_ofModels options (.resolve raw)
      (Declaration.accepted declarations)
    obtain ⟨scope, isScope, suits, -⟩ := exists_of_forall₂ units isUnit
    obtain ⟨model, accepted, rfl⟩ := Model.mem_scopes.1 isScope
    exact .inr ⟨model, accepted, suits⟩

/-- The units of a pass have different names, which are those of generated files. -/
theorem filenames_of_generate (passed : generate options raw declarations .never = .ok output) :
    (output.units.map (·.filename)).Nodup ∧
      ∀ unit ∈ output.units, Project.isGeneratedName unit.filename := by
  refine ⟨?_, fun unit member => ?_⟩
  · rw [generate_never] at passed
    cases passed
    exact SourceUnit.nodup_filenames
  · rcases suits_of_mem passed member with isMarker | ⟨model, -, suits⟩
    · rw [isMarker]
      decide +kernel
    · exact suits.isGeneratedName

/-- The units of a pass have names of one component when no accepted declaration has a slash in its
namespace or in the name of its container. -/
theorem whole_of_generate (passed : generate options raw declarations .never = .ok output)
    (plain : ∀ model ∈ Declaration.accepted declarations,
      '/' ∉ model.namespaceName.toList ∧ '/' ∉ model.containerName.toList)
    (member : unit ∈ output.units) : '/' ∉ unit.filename.toList := by
  rcases suits_of_mem passed member with isMarker | ⟨model, accepted, suits⟩
  · rw [isMarker]
    decide
  · rw [suits.slash_mem_iff, not_or]
    exact plain model accepted

end GenerationOutput

end BuildConstants
