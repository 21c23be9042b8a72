import BuildConstants.Proofs.Generation.Unit
import BuildConstants.Proofs.SourceUnit.Member

/-!
# Rejected declarations do not disturb the others

A pass that nothing stops accounts for each of its declarations once: a rejected one has its
diagnostic, and an accepted one has one line in the unit of its container. `generate_isolated` says
so about the declarations themselves and the texts of the units; that a model keeps the container of
its declaration is all that it needs beside the partition into groups and the line of a member.
-/

namespace BuildConstants

namespace Declaration

/-- The container that the declaration names, whatever its kind. -/
def scope (d : Declaration) : String × String :=
  (d.container.namespaceName, d.container.name)

def isAccepted (d : Declaration) : Bool :=
  d.verdict.model?.isSome

/-- The text that completes an accepted declaration. -/
def completion? (properties : PropertyMap) (d : Declaration) : Option String :=
  d.verdict.model?.map fun model => model.completion (model.value? properties)

/-- The scopes of the accepted ones among some declarations, each at its first occurrence. -/
def scopes (declarations : List Declaration) : List (String × String) :=
  ((declarations.filter (·.isAccepted)).map scope).eraseDups

/-- The texts that complete the accepted declarations of a scope, in their order. -/
def completionsIn (properties : PropertyMap) (declarations : List Declaration)
    (scope : String × String) : List String :=
  (declarations.filter (·.scope = scope)).filterMap (completion? properties)

variable {d : Declaration} {model : Model} {declarations : List Declaration}
  {properties : PropertyMap} {scope : String × String}

/-- A model keeps the container of its declaration. -/
theorem container_of_model? (accepted : d.verdict.model? = some model) :
    d.container = ⟨model.namespaceName, model.containerName, model.containerKind⟩ :=
  (verdict_eq_ok_iff.1 (Verdict.model?_eq_some_iff.1 accepted)).2.container.symm

theorem scope_of_model? (accepted : d.verdict.model? = some model) : model.scope = d.scope := by
  rw [scope, container_of_model? accepted]
  rfl

/-- The models of a scope are those of the declarations of the scope. -/
theorem filter_accepted :
    (accepted declarations).filter (·.scope = scope) =
      (declarations.filter (·.scope = scope)).filterMap (·.verdict.model?) := by
  rw [accepted, List.filter_filterMap, List.filterMap_filter]
  refine List.filterMap_congr fun d _ => ?_
  cases judged : d.verdict.model? with
  | none => simp
  | some model => simp [scope_of_model? judged, Option.filter]

theorem map_scope_accepted :
    (accepted declarations).map Model.scope =
      (declarations.filter (·.isAccepted)).map Declaration.scope := by
  rw [accepted, List.map_filterMap, ← List.filterMap_eq_map, List.filterMap_filter]
  refine List.filterMap_congr fun d _ => ?_
  cases judged : d.verdict.model? with
  | none => simp [isAccepted, judged]
  | some model => simp [isAccepted, judged, scope_of_model? judged]

theorem scopes_accepted : Model.scopes (accepted declarations) = scopes declarations := by
  rw [Model.scopes, map_scope_accepted, scopes]

theorem filterMap_completion? :
    declarations.filterMap (completion? properties) =
      (accepted declarations).map fun model => model.completion (model.value? properties) := by
  rw [accepted, List.map_filterMap]
  rfl

/-- A declaration is completed when it is accepted. -/
theorem isSome_completion? : (d.completion? properties).isSome = d.isAccepted := by
  rw [completion?, Option.isSome_map, isAccepted]

theorem isCompletedBy_of_completion? {line : String}
    (given : d.completion? properties = some line) : d.IsCompletedBy properties line := by
  obtain ⟨model, judged, rfl⟩ := Option.map_eq_some_iff.1 given
  exact isCompletedBy_completion (Verdict.model?_eq_some_iff.1 judged) properties

/-- The texts that complete declarations are the lines of the accepted ones among them. -/
theorem forall₂_completion? (properties : PropertyMap) (declarations : List Declaration) :
    List.Forall₂ (·.IsCompletedBy properties ·) (declarations.filter (·.isAccepted))
      (declarations.filterMap (completion? properties)) := by
  induction declarations with
  | nil => exact .nil
  | cons d rest ih =>
      have same : (d.completion? properties).isSome = d.isAccepted := isSome_completion?
      cases given : d.completion? properties with
      | none =>
          rw [given] at same
          rw [List.filterMap_cons_none given, List.filter_cons_of_neg (by simp [← same])]
          exact ih
      | some line =>
          rw [given] at same
          rw [List.filterMap_cons_some given, List.filter_cons_of_pos same.symm]
          exact .cons (isCompletedBy_of_completion? given) ih

theorem forall₂_completionsIn (properties : PropertyMap) (declarations : List Declaration)
    (scope : String × String) :
    List.Forall₂ (·.IsCompletedBy properties ·)
      (declarations.filter fun d => d.isAccepted && d.scope = scope)
      (completionsIn properties declarations scope) := by
  rw [completionsIn, ← List.filter_filter]
  exact forall₂_completion? properties _

theorem completionsIn_eq :
    completionsIn properties declarations scope =
      ((accepted declarations).filter (·.scope = scope)).map fun model =>
        model.completion (model.value? properties) := by
  rw [filter_accepted, List.map_filterMap]
  rfl

theorem mem_scopes :
    scope ∈ scopes declarations ↔ ∃ d ∈ declarations, d.isAccepted ∧ d.scope = scope := by
  simp [scopes, and_assoc]

/-- The first model of a scope is that of the first accepted declaration of the scope. -/
theorem head?_filter_accepted (declarations : List Declaration) (scope : String × String) :
    ((accepted declarations).filter (·.scope = scope)).head? =
      (declarations.find? fun d => d.isAccepted && d.scope = scope).bind (·.verdict.model?) := by
  rw [filter_accepted]
  induction declarations with
  | nil => rfl
  | cons d rest ih =>
      by_cases same : d.scope = scope
      · cases judged : d.verdict.model? <;> simp [isAccepted, judged, same, ih]
      · simp [same, ih]

/-- The group of a scope has the container of the first accepted declaration of the scope. -/
theorem container_among (known : scope ∈ scopes declarations) :
    ∃ first, declarations.find? (fun d => d.isAccepted && d.scope = scope) = some first ∧
      (Group.among (accepted declarations) scope).container = first.container := by
  obtain ⟨d, member, isAccepted, isOfScope⟩ := mem_scopes.1 known
  cases found : declarations.find? fun d => d.isAccepted && d.scope = scope with
  | none => simpa [isAccepted, isOfScope] using List.find?_eq_none.1 found d member
  | some first =>
      have fits := List.find?_some found
      rw [Bool.and_eq_true, decide_eq_true_iff] at fits
      obtain ⟨model, judged⟩ := Option.isSome_iff_exists.1 fits.1
      refine ⟨first, rfl, ?_⟩
      have head := head?_filter_accepted declarations scope
      rw [found, Option.bind_some, judged] at head
      rw [Group.among, head, container_of_model? judged, ← fits.2, ← scope_of_model? judged]
      rfl

/-- The rejected declarations are those with a diagnostic. -/
theorem map_verdict_rejected :
    (declarations.filter (!·.isAccepted)).map verdict =
      (rejections declarations).map Except.error := by
  rw [rejections, List.map_filterMap, ← List.filterMap_eq_map, List.filterMap_filter]
  refine List.filterMap_congr fun d _ => ?_
  cases judged : d.verdict with
  | ok model => simp [isAccepted, judged, Verdict.model?, Verdict.diagnostic?]
  | error diagnostic => simp [isAccepted, judged, Verdict.model?, Verdict.diagnostic?]

theorem accepted_filter :
    accepted (declarations.filter (·.isAccepted)) = accepted declarations := by
  rw [accepted, List.filterMap_filter]
  refine List.filterMap_congr fun d _ => ?_
  cases judged : d.verdict.model? <;> simp [isAccepted, judged]

theorem rejections_filter : rejections (declarations.filter (·.isAccepted)) = [] := by
  refine List.filterMap_eq_nil_iff.2 fun d member => ?_
  have isAccepted := (List.mem_filter.1 member).2
  cases judged : d.verdict with
  | ok model => rfl
  | error diagnostic => simp [Declaration.isAccepted, judged, Verdict.model?] at isAccepted

/-- Each declaration is accepted or rejected. -/
theorem length_accepted_add_length_rejections (declarations : List Declaration) :
    (accepted declarations).length + (rejections declarations).length = declarations.length := by
  induction declarations with
  | nil => rfl
  | cons d rest ih =>
      cases judged : d.verdict <;>
        simp only [accepted, rejections, List.filterMap_cons, judged, Verdict.model?,
          Verdict.diagnostic?, List.length_cons] at ih ⊢ <;> omega

/-- The scopes share out the members. -/
theorem flatMap_completionsIn (properties : PropertyMap) (declarations : List Declaration) :
    ((scopes declarations).flatMap (completionsIn properties declarations)).Perm
      (declarations.filterMap (completion? properties)) := by
  have shared := (Group.flatMap_members_ofModels (accepted declarations)).map fun model =>
    model.completion (model.value? properties)
  rw [Group.ofModels_eq, List.flatMap_map, List.map_flatMap, scopes_accepted] at shared
  rw [filterMap_completion?, List.flatMap_congr fun scope _ => completionsIn_eq]
  exact shared

end Declaration

/-- A unit with some lines is the one of a scope among some declarations: its name suits the scope,
in the container of the first accepted declaration of the scope it has these lines, and the lines
complete the accepted declarations of the scope, one each, in their order. -/
structure SourceUnit.IsOf (unit : SourceUnit) (lines : List String) (properties : PropertyMap)
    (declarations : List Declaration) (scope : String × String) : Prop where
  filename : Filenames.Suits scope unit.filename
  text : ∃ first, declarations.find? (fun d => d.isAccepted && d.scope = scope) = some first ∧
    unit.text = first.container.framed lines
  lines : List.Forall₂ (·.IsCompletedBy properties ·)
    (declarations.filter fun d => d.isAccepted && d.scope = scope) lines

/-- An output accounts for each declaration once. Its units come with the lines that stand in
them. -/
structure GenerationOutput.Isolates (options : GenerateOptions) (raw : Option String)
    (declarations : List Declaration) (output : GenerationOutput)
    (parts : List (SourceUnit × List String)) : Prop where
  /-- The rejected declarations have their diagnostics, in their order. -/
  diagnostics :
    (declarations.filter (!·.isAccepted)).map Declaration.verdict =
      output.diagnostics.map Except.error
  /-- Without the rejected declarations the units are the same. -/
  undisturbed :
    generate options raw (declarations.filter (·.isAccepted)) .never =
      .ok { units := output.units, diagnostics := [] }
  /-- Behind the marker unit, one unit stands for each scope. -/
  units : output.units = options.markers ++ parts.map (·.1)
  each : List.Forall₂ (fun scope part => part.1.IsOf part.2 (.resolve raw) declarations scope)
    (Declaration.scopes declarations) parts
  distinct : (output.units.map (·.filename)).Nodup
  /-- The lines of all units complete the accepted declarations, one each. -/
  members : ∃ lines,
    List.Forall₂ (·.IsCompletedBy (.resolve raw) ·) (declarations.filter (·.isAccepted)) lines ∧
      (parts.flatMap (·.2)).Perm lines
  conserved : (parts.flatMap (·.2)).length + output.diagnostics.length = declarations.length

/-- The unit of each scope has the lines of the scope. -/
theorem SourceUnit.forall₂_isOf (options : GenerateOptions) (properties : PropertyMap)
    (declarations : List Declaration) :
    List.Forall₂
      (fun scope unit => unit.IsOf (Declaration.completionsIn properties declarations scope)
        properties declarations scope)
      (Declaration.scopes declarations)
      (ofModels options properties (Declaration.accepted declarations)) := by
  have units := forall₂_ofModels options properties (Declaration.accepted declarations)
  rw [Declaration.scopes_accepted] at units
  have each := (List.forall₂_and_left _ _).2 ⟨fun _ known => known, units⟩
  refine each.imp fun scope unit ⟨known, suits, text⟩ => ?_
  obtain ⟨first, found, container⟩ := Declaration.container_among known
  refine ⟨suits, ⟨first, found, ?_⟩,
    Declaration.forall₂_completionsIn properties declarations scope⟩
  rw [text, Group.unitText_eq, container, Declaration.completionsIn_eq]
  rfl

/-- Values that stand beside keys can be paired with what is said of the keys. -/
theorem exists_parts {α β γ : Type} (suits : α → β → γ → Prop) (said : α → γ) {keys : List α}
    {values : List β}
    (paired : List.Forall₂ (fun key value => suits key value (said key)) keys values) :
    ∃ parts : List (β × γ), parts.map (·.1) = values ∧ parts.map (·.2) = keys.map said ∧
      List.Forall₂ (fun key part => suits key part.1 part.2) keys parts := by
  induction paired with
  | nil => exact ⟨[], rfl, rfl, .nil⟩
  | @cons key value _ _ here _ ih =>
      obtain ⟨parts, firsts, seconds, each⟩ := ih
      exact ⟨(value, said key) :: parts, by rw [List.map_cons, firsts],
        by rw [List.map_cons, List.map_cons, seconds], .cons here each⟩

/-- Whatever the properties, the options and the declarations are, a pass that nothing stops
succeeds and isolates each rejected declaration from the others. -/
theorem generate_isolated (options : GenerateOptions) (raw : Option String)
    (declarations : List Declaration) :
    ∃ output parts, generate options raw declarations .never = .ok output ∧
      output.Isolates options raw declarations parts := by
  obtain ⟨parts, units, lines, each⟩ :=
    exists_parts
      (fun scope unit lines => SourceUnit.IsOf unit lines (.resolve raw) declarations scope) _
      (SourceUnit.forall₂_isOf options (.resolve raw) declarations)
  have shared : (parts.flatMap (·.2)).Perm
      (declarations.filterMap (Declaration.completion? (.resolve raw))) := by
    rw [List.flatMap_def, lines, ← List.flatMap_def]
    exact Declaration.flatMap_completionsIn (.resolve raw) declarations
  refine ⟨_, parts, generate_never options raw declarations,
    { diagnostics := Declaration.map_verdict_rejected
      undisturbed := ?undisturbed
      units := congrArg (options.markers ++ ·) units.symm
      each := each
      distinct := SourceUnit.nodup_filenames
      members := ⟨_, Declaration.forall₂_completion? (.resolve raw) declarations, shared⟩
      conserved := ?conserved }⟩
  case undisturbed =>
    rw [generate_never, Declaration.accepted_filter, Declaration.rejections_filter]
  case conserved =>
    rw [shared.length_eq, Declaration.filterMap_completion?, List.length_map]
    exact Declaration.length_accepted_add_length_rejections declarations

/-- The lines of a unit are all that can stand in it. -/
theorem SourceUnit.IsOf.lines_eq {unit : SourceUnit} {lines : List String}
    {properties : PropertyMap} {declarations : List Declaration} {scope : String × String}
    (isOf : unit.IsOf lines properties declarations scope) :
    lines = Declaration.completionsIn properties declarations scope := by
  have unique : Relator.RightUnique fun (d : Declaration) line => d.IsCompletedBy properties line :=
    fun _ _ _ first second => first.unique second
  exact unique.forall₂ isOf.lines (Declaration.forall₂_completionsIn properties declarations scope)

/-- Two containers whose declarations alternate, with a declaration that is made twice, and two that
are rejected for their type and for their form. -/
theorem isolated_among_rejected :
    let variants : Container := ⟨"Develop", "Variants", .reference⟩
    let limits : Container := ⟨"", "Limits", .value⟩
    let declarations : List Declaration :=
      [.property variants "Level" "int", .property limits "Ratio" "double",
        .method limits "Motto" " string? ", .property variants "Level" "int",
        { Declaration.method variants "Depth" "int" with shape := .method 1 },
        (Declaration.property limits "Strict" "bool").withAccessibility .privAndProt,
        .property variants "Flavor" "string"]
    let raw := some "Level=3,Motto=a\"b"
    ∃ output parts, generate {} raw declarations .never = .ok output ∧
      output.Isolates {} raw declarations parts ∧
      output.units.map (·.filename) = ["Develop_Variants.g.cs", "Limits.g.cs"] ∧
      parts.map (·.2) =
        [["public static partial int Level => 3;", "public static partial int Level => 3;",
            "public static partial string Flavor => default!;"],
          ["public static partial string? Motto() => @\"a\"\"b\";",
            "private protected static partial bool Strict => default!;"]] ∧
      output.diagnostics.map (·.arguments) = [["double"], ["Depth"]] := by
  intro variants limits declarations raw
  obtain ⟨output, parts, completed, isolates⟩ := generate_isolated {} raw declarations
  have lines : parts.map (·.2) = (Declaration.scopes declarations).map
      (Declaration.completionsIn (.resolve raw) declarations) := by
    rw [← List.forall₂_eq_eq_eq, List.forall₂_map_left_iff, List.forall₂_map_right_iff]
    exact isolates.each.flip.imp fun _ _ isOf => isOf.lines_eq
  have evaluated := completed
  rw [generate_never] at evaluated
  cases evaluated
  refine ⟨_, parts, completed, isolates, by decide +kernel, ?_, by decide +kernel⟩
  rw [lines]
  decide +kernel

end BuildConstants
