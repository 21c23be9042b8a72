import BuildConstants.Group
import Mathlib.Data.List.Induction
import Mathlib.Data.List.Nodup

/-!
# Scopes of groups

A group and the models that it admits share a scope: the namespace and the name of their container.
No two groups of a grouping have the same one, so none of them is there twice.
-/

namespace BuildConstants

/-- The container of the model, whatever its kind. -/
def Model.scope (model : Model) : String × String :=
  (model.namespaceName, model.containerName)

namespace Group

/-- The container of the group, whatever its kind. -/
def scope (g : Group) : String × String :=
  (g.container.namespaceName, g.container.name)

variable {g : Group} {model : Model} {groups : List Group}

theorem admits_iff : g.admits model ↔ g.scope = model.scope := by
  simp [admits, scope, Model.scope]

@[simp] theorem scope_start : (start model).scope = model.scope := rfl

/-- Placing a model opens a scope exactly when the groups do not have it. -/
theorem map_scope_place :
    (place model groups).map scope =
      if model.scope ∈ groups.map scope then groups.map scope
      else groups.map scope ++ [model.scope] := by
  induction groups with
  | nil => simp [place]
  | cons g rest ih =>
      by_cases admitted : g.admits model
      · have same := admits_iff.1 admitted
        rw [place, if_pos admitted, ← same, if_pos (by simp)]
        rfl
      · have differs : model.scope ≠ g.scope := fun same => admitted (admits_iff.2 same.symm)
        rw [place, if_neg admitted, List.map_cons, ih]
        simp only [List.map_cons, List.mem_cons, differs, false_or]
        split <;> rfl

/-- Placing a model keeps scopes distinct. -/
theorem nodup_scopes_place (distinct : (groups.map scope).Nodup) :
    ((place model groups).map scope).Nodup := by
  rw [map_scope_place]
  split
  next => exact distinct
  next absent => exact List.nodup_append.2 ⟨distinct, by simp, by simpa using absent⟩

theorem nodup_scopes_ofModels (models : List Model) : ((ofModels models).map scope).Nodup := by
  induction models using List.reverseRecOn with
  | nil => exact List.nodup_nil
  | append_singleton models model ih =>
      rw [ofModels, List.foldl_append]
      exact nodup_scopes_place ih

theorem nodup_ofModels (models : List Model) : (ofModels models).Nodup :=
  (nodup_scopes_ofModels models).of_map scope

end Group

end BuildConstants
