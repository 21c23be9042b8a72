import BuildConstants.Proofs.Generation.Isolation

/-!
# A unit depends on its own container alone

Two passes give a container the same text when they accept the same models of it and configure these
alike. What else is declared, in which order, and what else is configured makes no difference, and
the diagnostics do not see the properties at all.
-/

namespace BuildConstants

/-- The unit of a scope in the output of a pass over some declarations: behind the marker unit, one
unit stands for each scope, in the order of the scopes. -/
def GenerationOutput.unitOf? (output : GenerationOutput) (options : GenerateOptions)
    (declarations : List Declaration) (scope : String × String) : Option SourceUnit :=
  ((Declaration.scopes declarations).zip (output.units.drop options.markers.length)).lookup scope

/-- In a list of pairs, a known key leads to the value that stands beside it. -/
theorem exists_lookup_zip {α β : Type} [BEq α] [LawfulBEq α] {suits : α → β → Prop}
    {keys : List α} {values : List β} {key : α} (paired : List.Forall₂ suits keys values)
    (known : key ∈ keys) :
    ∃ value, (keys.zip values).lookup key = some value ∧ suits key value := by
  induction paired with
  | nil => cases known
  | @cons first value rest others here _ ih =>
      by_cases same : key = first
      · subst same
        exact ⟨value, by simp, here⟩
      · obtain ⟨found, isFound, suits⟩ := ih ((List.mem_cons.1 known).resolve_left same)
        refine ⟨found, ?_, suits⟩
        rw [List.zip_cons_cons, List.lookup_cons, beq_false_of_ne same]
        exact isFound

/-- In a list of pairs, an unknown key leads to nothing. -/
theorem lookup_zip_eq_none {α β : Type} [BEq α] [LawfulBEq α] {keys : List α} {values : List β}
    {key : α} (unknown : key ∉ keys) : (keys.zip values).lookup key = none := by
  rw [List.lookup_eq_none_iff]
  intro pair member
  have present := (List.of_mem_zip member).1
  simp only [bne_iff_ne]
  rintro rfl
  exact unknown present

namespace Group

variable {models others : List Model} {scope : String × String}

/-- A group follows from the models of its scope. -/
theorem among_congr (same : models.filter (·.scope = scope) = others.filter (·.scope = scope)) :
    among models scope = among others scope := by
  rw [among, among, same]

/-- The text of a unit follows from the group and the values of its members. -/
theorem unitText_congr {g : Group} {properties otherProperties : PropertyMap}
    (same : ∀ model ∈ g.members, properties.get? model.key = otherProperties.get? model.key) :
    g.unitText properties = g.unitText otherProperties := by
  exact congrArg g.textWith (List.map_congr_left same)

end Group

variable {options : GenerateOptions} {raw : Option String} {declarations : List Declaration}
  {output : GenerationOutput} {scope : String × String}

/-- A scope has a unit exactly when a declaration of it is accepted; its text is that of the group
of the scope. -/
theorem map_text_unitOf? (completed : generate options raw declarations .never = .ok output) :
    (output.unitOf? options declarations scope).map (·.text) =
      if scope ∈ Declaration.scopes declarations then
        some ((Group.among (Declaration.accepted declarations) scope).unitText (.resolve raw))
      else none := by
  rw [generate_never] at completed
  cases completed
  rw [GenerationOutput.unitOf?, List.drop_left]
  split
  next known =>
      have units := SourceUnit.forall₂_ofModels options (.resolve raw)
        (Declaration.accepted declarations)
      rw [Declaration.scopes_accepted] at units
      obtain ⟨unit, found, -, text⟩ := exists_lookup_zip units known
      rw [found, Option.map_some, text]
  next unknown => rw [lookup_zip_eq_none unknown, Option.map_none]

/-- Passes that accept the same models of a container, and find the same values for them, give it
the same text; the diagnostics of a pass are the same for all properties. -/
theorem unit_of_own_container (options otherOptions : GenerateOptions)
    {raw otherRaw : Option String} {declarations others : List Declaration}
    {scope : String × String}
    (sameModels : (Declaration.accepted declarations).filter (·.scope = scope) =
      (Declaration.accepted others).filter (·.scope = scope))
    (sameValues : ∀ model ∈ (Declaration.accepted declarations).filter (·.scope = scope),
      (PropertyMap.resolve raw).get? model.key = (PropertyMap.resolve otherRaw).get? model.key) :
    ∃ output other, generate options raw declarations .never = .ok output ∧
      generate otherOptions otherRaw others .never = .ok other ∧
      (output.unitOf? options declarations scope).map (·.text) =
        (other.unitOf? otherOptions others scope).map (·.text) ∧
      ((output.unitOf? options declarations scope).isSome ↔
        ∃ d ∈ declarations, d.isAccepted ∧ d.scope = scope) ∧
      ∀ anyRaw, (generate options anyRaw declarations .never).map (·.diagnostics) =
        .ok output.diagnostics := by
  have completed := generate_never options raw declarations
  have otherCompleted := generate_never otherOptions otherRaw others
  refine ⟨_, _, completed, otherCompleted, ?_, ?_, fun anyRaw => ?_⟩
  · have known : scope ∈ Declaration.scopes declarations ↔ scope ∈ Declaration.scopes others := by
      rw [← Declaration.scopes_accepted, ← Declaration.scopes_accepted, Model.mem_scopes_iff_filter,
        Model.mem_scopes_iff_filter, sameModels]
    have text : (Group.among (Declaration.accepted declarations) scope).unitText (.resolve raw) =
        (Group.among (Declaration.accepted others) scope).unitText (.resolve otherRaw) := by
      rw [← Group.among_congr sameModels]
      exact Group.unitText_congr sameValues
    rw [map_text_unitOf? completed, map_text_unitOf? otherCompleted, text]
    simp only [known]
  · rw [← Declaration.mem_scopes, ← Option.isSome_map, map_text_unitOf? completed]
    split <;> simp [*]
  · rw [generate_never]
    rfl

/-- Another order of the containers, a rejected declaration between the members and further
properties leave the text of a unit as it is. -/
theorem unit_among_other_containers :
    let variants : Container := ⟨"Develop", "Variants", .reference⟩
    let limits : Container := ⟨"Develop", "Limits", .value⟩
    let declarations : List Declaration :=
      [.property variants "Flavor" "string", .method limits "Depth" "int",
        .property variants "Level" "int"]
    let others : List Declaration :=
      [.property limits "Width" "int", .property variants "Flavor" "string",
        .property variants "Ratio" "double", .property variants "Level" "int"]
    ∃ output other unit otherUnit,
      generate {} (some "Flavor=sweet,Depth=3") declarations .never = .ok output ∧
      generate {} (some "Width=2,Flavor=sweet") others .never = .ok other ∧
      output.unitOf? {} declarations ("Develop", "Variants") = some unit ∧
      other.unitOf? {} others ("Develop", "Variants") = some otherUnit ∧
      unit.text = otherUnit.text := by
  intro variants limits declarations others
  have sameModels :
      (Declaration.accepted declarations).filter (·.scope = ("Develop", "Variants")) =
        (Declaration.accepted others).filter (·.scope = ("Develop", "Variants")) := by
    decide +kernel
  have sameValues : ∀ model ∈
      (Declaration.accepted declarations).filter (·.scope = ("Develop", "Variants")),
      (PropertyMap.resolve (some "Flavor=sweet,Depth=3")).get? model.key =
        (PropertyMap.resolve (some "Width=2,Flavor=sweet")).get? model.key := by
    decide +kernel
  obtain ⟨output, other, completed, otherCompleted, texts, present, -⟩ :=
    unit_of_own_container {} {} sameModels sameValues
  have declared : ∃ d ∈ declarations, d.isAccepted ∧ d.scope = ("Develop", "Variants") :=
    ⟨_, List.mem_cons_self, by decide +kernel, rfl⟩
  obtain ⟨unit, isUnit⟩ := Option.isSome_iff_exists.1 (present.2 declared)
  rw [isUnit, Option.map_some] at texts
  obtain ⟨otherUnit, isOther, text⟩ := Option.map_eq_some_iff.1 texts.symm
  exact ⟨output, other, unit, otherUnit, completed, otherCompleted, isUnit, isOther, text.symm⟩

end BuildConstants
