import BuildConstants.Proofs.Group.Scope

/-!
# Groups partition models

Grouping is a stable partition by scope: there is one group for each scope, in the order in which
the scopes occur first, and it holds the models of that scope in their order. `Group.ofModels_eq`
states this, so what a group is follows from the models of its own scope alone.
-/

namespace BuildConstants

/-- The scopes of some models, each at its first occurrence. -/
def Model.scopes (models : List Model) : List (String × String) :=
  (models.map Model.scope).eraseDups

namespace Model

variable {models : List Model} {model : Model} {scope : String × String}

theorem mem_scopes : scope ∈ scopes models ↔ ∃ model ∈ models, model.scope = scope := by
  simp [scopes]

/-- A scope occurs when there are models of it. -/
theorem mem_scopes_iff_filter : scope ∈ scopes models ↔ models.filter (·.scope = scope) ≠ [] := by
  simp [mem_scopes]

/-- A further model adds its scope at the end, unless it is there already. -/
theorem scopes_snoc :
    scopes (models ++ [model]) =
      if model.scope ∈ scopes models then scopes models else scopes models ++ [model.scope] := by
  rw [scopes, List.map_append, List.map_singleton, List.eraseDups_append]
  by_cases known : model.scope ∈ scopes models
  · have removed : [model.scope].removeAll (models.map Model.scope) = [] :=
      List.filter_eq_nil_iff.2 (by simpa using List.mem_eraseDups.1 known)
    rw [removed, if_pos known, List.eraseDups_nil, List.append_nil]
    rfl
  · have kept : [model.scope].removeAll (models.map Model.scope) = [model.scope] :=
      List.filter_eq_self.2 (by simpa using mt List.mem_eraseDups.2 known)
    rw [kept, if_neg known]
    rfl

end Model

namespace Group

variable {groups : List Group} {models : List Model} {model : Model} {scope : String × String}

/-- The group of the models of a scope, with the kind that the first of them gives its container. -/
def among (models : List Model) (scope : String × String) : Group :=
  let members := models.filter (·.scope = scope)
  { container := ⟨scope.1, scope.2, (members.head?.map (·.containerKind)).getD default⟩, members }

@[simp] theorem scope_among : (among models scope).scope = scope := rfl

/-- The group of a scope with one more member at its end. -/
def extend (model : Model) (g : Group) : Group :=
  if g.scope = model.scope then { g with members := g.members ++ [model] } else g

/-- A model of another scope does not change the group of a scope. -/
theorem among_snoc_of_ne (differs : model.scope ≠ scope) :
    among (models ++ [model]) scope = among models scope := by
  simp [among, differs]

/-- A further model of a known scope stands at the end of the group of the scope. -/
theorem among_snoc (known : scope ∈ Model.scopes models) :
    among (models ++ [model]) scope = extend model (among models scope) := by
  by_cases same : model.scope = scope
  · obtain ⟨head, rest, members⟩ :=
      List.exists_cons_of_ne_nil (Model.mem_scopes_iff_filter.1 known)
    rw [extend, scope_among, if_pos same.symm]
    simp [among, List.filter_append, members, same]
  · rw [among_snoc_of_ne same, extend, scope_among, if_neg (Ne.symm same)]

/-- Among groups of distinct scopes, a model is placed in the one of its scope, or in a new one
behind them. -/
theorem place_eq (distinct : (groups.map Group.scope).Nodup) :
    place model groups =
      groups.map (extend model) ++
        if model.scope ∈ groups.map Group.scope then [] else [start model] := by
  induction groups with
  | nil => rfl
  | cons g rest ih =>
      obtain ⟨absent, others⟩ := List.nodup_cons.1 distinct
      by_cases admitted : g.admits model
      · have same := admits_iff.1 admitted
        have unchanged : rest.map (extend model) = rest := by
          refine (List.map_congr_left fun other member => ?_).trans (List.map_id rest)
          exact if_neg fun equal => absent (List.mem_map.2 ⟨other, member, equal.trans same.symm⟩)
        rw [place, if_pos admitted, List.map_cons, unchanged, extend, if_pos same, List.map_cons,
          ← same, if_pos List.mem_cons_self, List.append_nil]
      · have differs : g.scope ≠ model.scope := fun same => admitted (admits_iff.2 same)
        rw [place, if_neg admitted, ih others, List.map_cons, extend, if_neg differs, List.map_cons,
          List.cons_append]
        simp [differs.symm]

/-- There is one group for each scope, in the order of first occurrence, and it holds the models of
its scope in their order. -/
theorem ofModels_eq (models : List Model) :
    ofModels models = (Model.scopes models).map (among models) := by
  induction models using List.reverseRecOn with
  | nil => rfl
  | append_singleton models model ih =>
      have placed : ofModels (models ++ [model]) = place model (ofModels models) := by
        rw [ofModels, List.foldl_append]
        rfl
      have scopes : (ofModels models).map Group.scope = Model.scopes models := by
        rw [ih, List.map_map]
        exact List.map_id _
      rw [placed, place_eq (nodup_scopes_ofModels models), scopes, ih, List.map_map,
        Model.scopes_snoc]
      have known : (Model.scopes models).map (extend model ∘ among models) =
          (Model.scopes models).map (among (models ++ [model])) :=
        List.map_congr_left fun scope member => (among_snoc member).symm
      rw [known]
      split
      next => simp
      next unknown =>
          have first : models.filter (·.scope = model.scope) = [] := by
            refine List.filter_eq_nil_iff.2 fun other member same => unknown ?_
            exact Model.mem_scopes.2 ⟨other, member, by simpa using same⟩
          have started : among (models ++ [model]) model.scope = start model := by
            simp only [among, List.filter_append, first]
            simp [start, Model.scope]
          rw [List.map_append, List.map_singleton, started]

theorem flatMap_members_place :
    ((place model groups).flatMap (·.members)).Perm (groups.flatMap (·.members) ++ [model]) := by
  induction groups with
  | nil => exact .refl _
  | cons g rest ih =>
      rw [place]
      split
      · simp only [List.flatMap_cons, List.append_assoc]
        exact List.perm_append_comm.append_left g.members
      · simp only [List.flatMap_cons, List.append_assoc]
        exact ih.append_left g.members

/-- No model is lost and none is there twice. -/
theorem flatMap_members_ofModels (models : List Model) :
    ((ofModels models).flatMap (·.members)).Perm models := by
  induction models using List.reverseRecOn with
  | nil => exact .refl _
  | append_singleton models model ih =>
      rw [ofModels, List.foldl_append]
      exact flatMap_members_place.trans (ih.append_right [model])

end Group

end BuildConstants
