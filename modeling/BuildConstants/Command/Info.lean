import BuildConstants.Command.Project
import BuildConstants.Command.Result
import BuildConstants.Property.Document

/-!
# Information

The task that shows what a project is made of.
-/

namespace BuildConstants.Project

/-- The width of the column that the labels stand in. -/
def labelWidth : Nat :=
  28

/-- A line with a label. -/
def labelled (label value : String) : String :=
  label ++ String.ofList (List.replicate (labelWidth - label.length) ' ') ++ " " ++ value

/-- The lines of a section. -/
def sectionLines (isColored : Bool) (title : String) (body : List String) : List String :=
  ["", Text.marked isColored Text.boldCode title] ++ body

/-- The lines on the configured properties. -/
def propertyLines (properties : PropertyMap) : List String :=
  if properties.entries.isEmpty then ["(none)"]
  else properties.entries.map fun p => labelled p.key p.value

/-- The lines on a project. -/
def infoLines (project : Project) (isColored : Bool) : List String :=
  sectionLines isColored "Project"
    [labelled "Root" project.root.text,
      labelled "Resolved config" ((project.configPlace.map (·.text)).getD "(none)"),
      labelled "Declarations" project.manifest.path.text,
      labelled "Output directory" project.output.text,
      labelled "Marker attribute" (toString project.options.emitMarker)] ++
  sectionLines isColored "Properties" (propertyLines (.resolve project.rawProperties)) ++
  sectionLines isColored "Declarations"
    [labelled "Candidates" (toString project.manifest.declarations.length)]

def toDocument (project : Project) : Document :=
  .record
    [("root", project.root.toDocument),
      ("config", .nullable Path.toDocument project.configPlace),
      ("declarations", project.manifest.path.toDocument),
      ("output", project.output.toDocument),
      ("emit_marker_attribute", .bool project.options.emitMarker),
      ("properties", (PropertyMap.resolve project.rawProperties).toDocument),
      ("candidates", .integer project.manifest.declarations.length)]

/-- What a project is made of, in the form asked for. -/
def info (project : Project) (format : ReportFormat) (isColored : Bool) : TaskResult :=
  match format with
  | .json => { output := TaskResult.recordLine project.toDocument }
  | _ => { output := textOfLines (project.infoLines isColored) }

end BuildConstants.Project
