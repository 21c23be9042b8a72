import BuildConstants.Declaration.Document
import BuildConstants.Document.Json.Read
import BuildConstants.Document.Toml.Table
import BuildConstants.Document.Yaml.Read
import BuildConstants.Files

/-!
# Manifests

A manifest lists declarations by hand, container by container. It is a document in one of the
formats, which the extension of its file tells. Its records are closed: a field of another name is
an error.
-/

namespace BuildConstants

open Document (Field RecordLayout)

namespace DocumentFormat

/-- The extensions of files in each format. -/
def extensions : List (DocumentFormat × List String) :=
  [(.toml, ["toml"]), (.json, ["json"]), (.yaml, ["yaml", "yml"])]

/-- The format of a file, by its extension in any case. -/
def ofPath (path : Path) : Except Failure DocumentFormat :=
  let extension := (path.extension?.getD "").map Char.toLower
  match extensions.find? fun (_, names) => extension ∈ names with
  | some (format, _) => .ok format
  | none => .error (.unsupportedManifestFormat extension)

/-- Reads the document of a text. -/
def read : DocumentFormat → String → DocumentReading
  | toml => Toml.read
  | json => Json.read
  | yaml => Yaml.read

end DocumentFormat

/-- A member as a manifest lists it. -/
structure ManifestMember where
  name : String
  valueType : String
  accessibility : Accessibility := .pub
  isStatic : Bool := true
  isCompletable : Bool := true
  form : MemberShape.Form := .property
  hasGetter : Bool := true
  parameterCount : UInt64 := 0
  key : Option String := none
  file : Option Path := none
  line : Option UInt64 := none
  column : Option UInt64 := none

/-- A container as a manifest lists it. -/
structure ManifestContainer where
  container : Container
  /-- The file of the members that do not give one. -/
  file : Option Path := none
  members : List ManifestMember := []

namespace ManifestMember

def layout (format : DocumentFormat) : RecordLayout ManifestMember :=
  { fields :=
      [Field.of "name" .nowhere Document.asText fun name m => { m with name },
        Field.of "type" .nowhere Document.asText fun valueType m => { m with valueType },
        Field.of "accessibility" .anywhere (Accessibility.ofDocument format)
          fun accessibility m => { m with accessibility },
        Field.of "static" .anywhere Document.asBool fun isStatic m => { m with isStatic },
        Field.of "partial" .anywhere Document.asBool
          fun isCompletable m => { m with isCompletable },
        Field.of "shape" .anywhere (Document.asVariant format MemberShape.Form.spellings)
          fun form m => { m with form },
        Field.of "getter" .anywhere Document.asBool fun hasGetter m => { m with hasGetter },
        Field.of "parameters" .anywhere Document.asCount
          fun parameterCount m => { m with parameterCount },
        Field.of "key" .anywhere (Document.asOption Document.asText) fun key m => { m with key },
        Field.of "file" .anywhere (Document.asOption Path.ofDocument) fun file m => { m with file },
        Field.of "line" .anywhere (Document.asOption Document.asCount)
          fun line m => { m with line },
        Field.of "column" .anywhere (Document.asOption Document.asCount)
          fun column m => { m with column }]
    start := { name := "", valueType := "" } }

/-- The shape of the member: a getter counts for a property and parameters for a method. -/
def shape (m : ManifestMember) : MemberShape :=
  match m.form with
  | .property => .property m.hasGetter
  | .method => .method m.parameterCount

/-- The member as a declaration. It is located in its own file, or else that of its container, or
else in the manifest. -/
def declaration (m : ManifestMember) (owner : ManifestContainer) (manifest : Path) : Declaration :=
  { name := m.name, valueType := m.valueType, accessibility := m.accessibility,
    isStatic := m.isStatic, isCompletable := m.isCompletable, shape := m.shape,
    keyOverride := m.key, container := owner.container,
    location := some
      { file := (m.file.or owner.file).getD manifest, line := m.line, column := m.column } }

end ManifestMember

namespace ManifestContainer

def layout (format : DocumentFormat) : RecordLayout ManifestContainer :=
  { fields :=
      [Field.of "namespace" .anywhere Document.asText
          fun namespaceName c => { c with container := { c.container with namespaceName } },
        Field.of "name" .nowhere Document.asText
          fun name c => { c with container := { c.container with name } },
        Field.of "kind" .anywhere (ContainerKind.ofDocument format)
          fun kind c => { c with container := { c.container with kind } },
        Field.of "file" .anywhere (Document.asOption Path.ofDocument) fun file c => { c with file },
        Field.of "member" .anywhere
          (Document.asList ((ManifestMember.layout format).read format))
          fun members c => { c with members }]
    start := { container := ⟨"", "", .reference⟩ } }

/-- The members of the container as declarations. -/
def declarations (c : ManifestContainer) (manifest : Path) : List Declaration :=
  c.members.map (·.declaration c manifest)

end ManifestContainer

/-- The declarations of a file. -/
structure Manifest where
  path : Path
  declarations : List Declaration
deriving DecidableEq

namespace Manifest

/-- The record that a manifest is: a list of containers. -/
def layout (format : DocumentFormat) : RecordLayout (List ManifestContainer) :=
  { fields :=
      [Field.of "container" .anywhere
        (Document.asList ((ManifestContainer.layout format).read format))
        fun containers _ => containers]
    start := [] }

/-- Reads a manifest from its document, as a whole or not at all. The members keep their order. -/
def ofReading (reading : DocumentReading) (format : DocumentFormat) (path : Path) :
    Except Failure Manifest :=
  match reading.decode ((layout format).read format) with
  | .ok containers => .ok { path, declarations := containers.flatMap (·.declarations path) }
  | .error error => .error (.manifestUnreadable path (.decode error))

/-- Reads a manifest from its text. -/
def ofText (text : String) (format : DocumentFormat) (path : Path) : Except Failure Manifest :=
  ofReading (format.read text) format path

/-- Reads the manifest at a path. Its format is looked at before its text. -/
def load {m : Type → Type} [Monad m] [Files m] (path : Path) : m (Except Failure Manifest) := do
  match DocumentFormat.ofPath path with
  | .error failure => pure (.error failure)
  | .ok format =>
    match ← Files.readText path with
    | .ok text => pure (ofText text format path)
    | .error error => pure (.error (.file error))

end Manifest

end BuildConstants
