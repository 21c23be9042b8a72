import BuildConstants.Proofs.Command.Output
import BuildConstants.Proofs.Generation.Unit
import BuildConstants.Proofs.SourceUnit.Decoding

/-!
# Nothing baked goes stale unnoticed

Checking compares texts. The text of a unit tells what was baked into it, so a file that was
generated from something else is always found: `Group.unitText_tells_baked`.
-/

namespace BuildConstants

namespace Group

variable {g other : Group} {properties otherProperties : PropertyMap}

/-- Units of legible groups have the same text only when the containers and what is baked into the
members are the same. So a file with the text of one group, where the unit of another one belongs,
is reported with that text when the groups differ in any of this. -/
theorem unitText_tells_baked (legible : g.Legible properties)
    (legibleOther : other.Legible otherProperties) :
    (g.unitText properties = other.unitText otherProperties →
      g.container = other.container ∧
        g.members.map (·.baked properties) = other.members.map (·.baked otherProperties)) ∧
    ∀ (project : Project) (tree : FileTree) (output : GenerationOutput) (filename : String)
      (found : CheckResult),
      let unit : SourceUnit := ⟨filename, other.unitText otherProperties⟩
      generate project.options project.rawProperties project.manifest.declarations .never =
        .ok output →
      unit ∈ output.units →
      Session.Gives project.check tree (.ok found, tree) →
      tree.readText (project.placeOf unit) = .ok (g.unitText properties) →
      (g.container ≠ other.container ∨
        g.members.map (·.baked properties) ≠ other.members.map (·.baked otherProperties)) →
      ⟨unit, some (g.unitText properties)⟩ ∈ found.stale ∧ found.isGood = false := by
  have tells := eq_of_unitText_eq legible legibleOther
  refine ⟨tells, ?_⟩
  intro project tree output filename found unit passed member checked read differs
  have ended := (Project.gives_check passed tree).unique checked
  cases ended
  have stale : ⟨unit, some (g.unitText properties)⟩ ∈
      Project.staleIn tree project output.units := by
    refine Project.mem_staleIn.2 ⟨member, ?_, fun same => ?_⟩
    · rw [read]
      rfl
    · obtain ⟨containers, baked⟩ := tells (Option.some.inj same)
      exact differs.elim (fun apart => apart containers) fun apart => apart baked
  refine ⟨stale, Bool.eq_false_iff.2 fun good => ?_⟩
  have none : Project.staleIn tree project output.units = [] := (CheckResult.isGood_iff.1 good).1
  rw [none] at stale
  cases stale

/-- A text that holds what looks like the end of its literal, another member and the end of the
container is replaced by a shorter one. -/
theorem change_of_text_noticed :
    let container : Container := ⟨"Develop", "Variants", .reference⟩
    let declarations : List Declaration :=
      [Declaration.property container "Note" "string",
        (Declaration.method container "Level" " int? ").withAccessibility .internal]
    let note : String :=
      "a\";\n\n        public static partial string Text => @\"b\";\n    \x7d\n\x7d"
    let old : PropertyMap := .resolve (some ("Level=3,Note=" ++ note))
    let new : PropertyMap := .resolve (some "Level=3,Note=a")
    let g : Group := ⟨container, Declaration.accepted declarations⟩
    let unit : SourceUnit := ⟨"Develop_Variants.g.cs", g.unitText new⟩
    let project : Project :=
      { root := ⟨"/w"⟩, configPlace := none, rawProperties := some "Level=3,Note=a", options := {}
        manifest := { path := ⟨"/w/decl.toml"⟩, declarations }, output := ⟨"/w/Generated"⟩ }
    let tree : FileTree :=
      { entries := [(["w"], .directory), (["w", "Generated"], .directory),
          (["w", "Generated", "Develop_Variants.g.cs"], .file (.text (g.unitText old)))]
        working := ["w"] }
    let stale : StaleUnit := ⟨unit, some (g.unitText old)⟩
    ∃ output found,
      g.Legible old ∧ g.Legible new ∧
      old.get? "Note" = some note ∧
      generate project.options project.rawProperties project.manifest.declarations .never =
        .ok output ∧
      unit ∈ output.units ∧ Session.Gives project.check tree (.ok found, tree) ∧
      tree.readText (project.placeOf unit) = .ok (g.unitText old) ∧
      g.members.map (·.baked old) ≠ g.members.map (·.baked new) ∧
      stale ∈ found.stale ∧ found.isGood = false := by
  intro container declarations note old new g unit project tree stale
  have legible : ∀ properties : PropertyMap, properties.get? "Level" = some "3" →
      g.Legible properties := by
    intro properties level
    have named : ∀ model ∈ g.members,
        ' ' ∉ model.memberName.toList ∧ '(' ∉ model.memberName.toList := by
      decide +kernel
    have plain : ∀ model ∈ g.members, model.typeRef.base ≠ .string → model.key = "Level" := by
      decide +kernel
    refine ⟨⟨by decide +kernel, by decide +kernel⟩, fun model member => ?_⟩
    have isNamed := named model member
    have isLevel := plain model member
    dsimp only [g] at member
    obtain ⟨d, -, judged⟩ := Declaration.mem_accepted.1 member
    refine ⟨⟨d, judged⟩, isNamed, fun isPlain value reads => ?_⟩
    rw [Model.value?, isLevel isPlain, level] at reads
    cases reads
    decide
  have legibleOld : g.Legible old := legible old (by decide +kernel)
  have legibleNew : g.Legible new := legible new (by decide +kernel)
  have passed := generate_never project.options project.rawProperties
    project.manifest.declarations
  have checked := Project.gives_check passed tree
  have member : unit ∈ project.options.markers ++
      SourceUnit.ofModels project.options (.resolve project.rawProperties)
        (Declaration.accepted project.manifest.declarations) := by
    decide +kernel
  have read : tree.readText (project.placeOf unit) = .ok (g.unitText old) := by decide +kernel
  have differs : g.members.map (·.baked old) ≠ g.members.map (·.baked new) := by decide +kernel
  have noticed := (unitText_tells_baked legibleOld legibleNew).2 project tree _ _ _ passed member
    checked read (.inr differs)
  exact ⟨_, _, legibleOld, legibleNew, by decide +kernel, passed, member, checked, read, differs,
    noticed⟩

end Group

end BuildConstants
