import BuildConstants.Generation.Pass
import BuildConstants.Log.Event

/-!
# The log of a pass

The events that a pass which is not cancelled tells, in order. They follow from what the pass is
given.
-/

namespace BuildConstants

/-- The configured properties were read. A void text is not worth an event. -/
def PropertyMap.resolutionEvents (raw : Option String) : List LogEvent :=
  if isVoid raw then []
  else
    [{ level := .debug, target := "bakeprop_core::properties",
       message := "resolved build properties",
       fields := [("entries", toString (Property.ofRaw (raw.getD "")).length)] }]

/-- A declaration was judged. -/
def Verdict.event : Verdict → LogEvent
  | .ok model =>
    { level := .trace, target := "bakeprop_core::generator", message := "accepted declaration",
      fields := [("member", model.memberName), ("key", model.key)] }
  | .error diagnostic =>
    { level := .trace, target := "bakeprop_core::diagnostics", message := diagnostic.message,
      fields := [("code", "\"" ++ diagnostic.code ++ "\"")] }

namespace Group

/-- A model gives its container another kind than the group has. -/
def disagreement (g : Group) (model : Model) : LogEvent :=
  { level := .warn, target := "bakeprop_core::group",
    message :=
      s!"container kind disagrees with earlier members; keeping `{g.container.kind.keyword}`",
    fields :=
      [("namespace", model.namespaceName), ("container", model.containerName),
        ("member", model.memberName)] }

/-- The events of placing a model. -/
def placementEvents (groups : List Group) (model : Model) : List LogEvent :=
  match groups.find? (·.admits model) with
  | some g => if g.container.kind = model.containerKind then [] else [g.disagreement model]
  | none => []

/-- The events of placing models one after the other. -/
def groupingEvents : List Group → List Model → List LogEvent
  | _, [] => []
  | groups, model :: rest =>
    placementEvents groups model ++ groupingEvents (place model groups) rest

/-- The events of emitting the units of groups. -/
def emissionEvents : Filenames → List Group → List LogEvent
  | _, [] => []
  | names, g :: rest =>
    let stem := filenameStem g.container.namespaceName g.container.name
    let (filename, names) := names.allocate g.container.namespaceName g.container.name
    let collision : LogEvent :=
      { level := .debug, target := "bakeprop_core::emit",
        message := "generated filename collided; disambiguated",
        fields := [("stem", stem), ("filename", filename)] }
    let emission : LogEvent :=
      { level := .trace, target := "bakeprop_core::generator", message := "emitted unit",
        fields := [("filename", filename), ("members", toString g.members.length)] }
    (if filename = plainFilename stem then [emission] else [collision, emission]) ++
      emissionEvents names rest

end Group

/-- The events of a pass. -/
def passEvents (options : GenerateOptions) (raw : Option String)
    (declarations : List Declaration) : List LogEvent :=
  let properties := PropertyMap.resolve raw
  let verdicts := declarations.map Declaration.verdict
  let models := verdicts.filterMap Verdict.model?
  let groups := Group.ofModels models
  let names := if options.emitMarker then Filenames.empty.reserve markerFilename else .empty
  let markers := if options.emitMarker then 1 else 0
  let start : LogEvent :=
    { level := .debug, target := "bakeprop_core::generator",
      message := "starting generation pass",
      fields :=
        [("candidates", toString declarations.length), ("properties", toString properties.size)] }
  let finish : LogEvent :=
    { level := .debug, target := "bakeprop_core::generator",
      message := "finished generation pass",
      fields :=
        [("units", toString (markers + groups.length)),
          ("diagnostics", toString (verdicts.filterMap Verdict.diagnostic?).length)] }
  PropertyMap.resolutionEvents raw ++ [start] ++ verdicts.map Verdict.event ++
    Group.groupingEvents [] models ++ Group.emissionEvents names groups ++ [finish]

end BuildConstants
