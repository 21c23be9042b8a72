import BuildConstants.Model

/-!
# Groups

Models are grouped by the container that they belong to. A container is told apart by its namespace
and its name; the kind is that of the first model.
-/

namespace BuildConstants

/-- The models of one container. -/
structure Group where
  container : Container
  members : List Model
deriving DecidableEq

namespace Group

/-- A group holds the models that name its container, whatever kind they give it. -/
def admits (g : Group) (model : Model) : Bool :=
  g.container.namespaceName = model.namespaceName && g.container.name = model.containerName

/-- The group of a first model. -/
def start (model : Model) : Group :=
  { container := ⟨model.namespaceName, model.containerName, model.containerKind⟩,
    members := [model] }

/-- Adds a model to its group, which is opened at the end if there is none yet. -/
def place (model : Model) : List Group → List Group
  | [] => [start model]
  | g :: rest =>
    if g.admits model then { g with members := g.members ++ [model] } :: rest
    else g :: place model rest

/-- Groups models by container. The groups are in the order of their first models, and the members
of each in the order of the list. -/
def ofModels (models : List Model) : List Group :=
  models.foldl (fun groups model => place model groups) []

end Group

end BuildConstants
