import BuildConstants.Group
import BuildConstants.Property
import BuildConstants.SourceUnit.Filename
import BuildConstants.SourceUnit.Line

/-!
# The text of units

A unit is a generated source file. The unit of a group completes the members of one container with
the configured values; the marker unit declares the attribute that members are marked with.
-/

namespace BuildConstants

/-- A generated source file. -/
structure SourceUnit where
  filename : String
  text : String
deriving DecidableEq

/-- The expression of a member that is not configured. -/
def unconfigured : String :=
  "default!"

namespace Model

/-- The configured value of the member, if there is one. -/
def value? (model : Model) (properties : PropertyMap) : Option String :=
  properties.get? model.key

/-- The expression of the member for its value. -/
def expression (model : Model) (value : Option String) : String :=
  match value with
  | some value => model.typeRef.express value
  | none => unconfigured

/-- The parameter list of the member: empty parentheses for a method. -/
def parameterText (model : Model) : String :=
  match model.shape with
  | .property _ => ""
  | .method _ => "()"

/-- The line that completes the member with its value. -/
def completion (model : Model) (value : Option String) : String :=
  s!"{model.accessibility.keyword} static partial {model.valueType} {model.memberName}" ++
    s!"{model.parameterText} => {model.expression value};"

end Model

namespace Group

/-- The values that the members read, in the order of the members. -/
def values (g : Group) (properties : PropertyMap) : List (Option String) :=
  g.members.map (·.value? properties)

/-- The lines of members with the given values, with a blank line between each two. -/
def memberLines (members : List Model) (values : List (Option String)) : List SourceUnit.Line :=
  (members.zipWith (fun model value => SourceUnit.Line.text 0 (model.completion value)) values)
    |>.intersperse .blank

/-- The text of the unit whose members have the given values. -/
def textWith (g : Group) (values : List (Option String)) : String :=
  let opening := s!"partial {g.container.kind.keyword} {g.container.name}"
  let body := SourceUnit.Line.scope opening (memberLines g.members values)
  SourceUnit.Line.renderAll
    (SourceUnit.Line.header ++ SourceUnit.Line.inNamespace g.container.namespaceName body)

/-- The text of the unit of a group. -/
def unitText (g : Group) (properties : PropertyMap) : String :=
  g.textWith (g.values properties)

/-- The unit of a group, under a name that the allocator hands out. -/
def emit (g : Group) (properties : PropertyMap) (names : Filenames) : SourceUnit × Filenames :=
  let (filename, names) := names.allocate g.container.namespaceName g.container.name
  ({ filename, text := g.unitText properties }, names)

end Group

namespace SourceUnit

/-- The lines that declare the marker attribute. -/
def markerLines : List Line :=
  let constructor (opening statement : String) := Line.scope opening [.text 0 statement]
  [.text 0 "[global::System.Diagnostics.Conditional(\"COMPILE_TIME_ONLY\")]",
    .text 0
      ("[global::System.AttributeUsage(global::System.AttributeTargets.Property | " ++
        "global::System.AttributeTargets.Method, AllowMultiple = false)]")] ++
  Line.scope "internal sealed class BuildPropertyAttribute : global::System.Attribute"
    (constructor "public BuildPropertyAttribute()" "Key = string.Empty;" ++ [.blank] ++
      constructor "public BuildPropertyAttribute(string key)" "Key = key;" ++ [.blank] ++
      [.text 0 "public string Key \x7b get; \x7d"])

/-- The unit that declares the marker attribute in a namespace. -/
def marker (namespaceName : String) : SourceUnit :=
  { filename := markerFilename
    text := Line.renderAll (Line.header ++ Line.inNamespace namespaceName markerLines) }

end SourceUnit

end BuildConstants
