import BuildConstants.Declaration
import BuildConstants.Document.Path

/-!
# Declarations as documents

The documents that declarations and their parts are written as, and the decoders that read them
back. Records are open: fields of other names are passed over.
-/

namespace BuildConstants

open Document (Field Omission RecordLayout)

/-- The name of a value among spellings: the first one that it is read from. -/
def Document.Spellings.nameOf {α : Type} [DecidableEq α] (spellings : Document.Spellings α)
    (value : α) : String :=
  ((spellings.find? (·.1 = value)).bind (·.2.head?)).getD ""

/-! ## Accessibilities and kinds -/

def Accessibility.toDocument (accessibility : Accessibility) : Document :=
  .text (Document.Spellings.nameOf spellings accessibility)

def Accessibility.ofDocument (format : DocumentFormat) : Decoder Accessibility :=
  Document.asVariant format spellings

def ContainerKind.toDocument (kind : ContainerKind) : Document :=
  .text (Document.Spellings.nameOf spellings kind)

def ContainerKind.ofDocument (format : DocumentFormat) : Decoder ContainerKind :=
  Document.asVariant format spellings

/-! ## Containers -/

namespace Container

def toDocument (container : Container) : Document :=
  .record
    [("namespace", .text container.namespaceName), ("name", .text container.name),
      ("kind", container.kind.toDocument)]

def layout (format : DocumentFormat) : RecordLayout Container :=
  { fields :=
      [Field.of "namespace" .anywhere Document.asText
          fun value c => { c with namespaceName := value },
        Field.of "name" .nowhere Document.asText fun value c => { c with name := value },
        Field.of "kind" .anywhere (ContainerKind.ofDocument format)
          fun kind c => { c with kind }]
    start := ⟨"", "", .reference⟩
    isOpen := true }

def ofDocument (format : DocumentFormat) : Decoder Container :=
  (layout format).read format

end Container

/-! ## Locations -/

namespace SourceLocation

def toDocument (location : SourceLocation) : Document :=
  .record
    ([("file", location.file.toDocument)] ++
      Document.optionalField "line" (location.line.map Document.count) ++
      Document.optionalField "column" (location.column.map Document.count))

def layout : RecordLayout SourceLocation :=
  { fields :=
      [Field.of "file" .nowhere Path.ofDocument fun value l => { l with file := value },
        Field.of "line" .anywhere (Document.asOption Document.asCount)
          fun value l => { l with line := value },
        Field.of "column" .anywhere (Document.asOption Document.asCount)
          fun value l => { l with column := value }]
    start := ⟨⟨""⟩, none, none⟩
    isOpen := true }

def ofDocument (format : DocumentFormat) : Decoder SourceLocation :=
  layout.read format

end SourceLocation

/-! ## Shapes -/

namespace MemberShape

/-- The two forms of a member, without their contents. -/
inductive Form where
  | property
  | method
deriving DecidableEq

/-- Both forms, with the names they are read from. -/
def Form.spellings : Document.Spellings Form :=
  [(.property, ["property"]), (.method, ["method"])]

/-- The field that holds the form. -/
def formField : String :=
  "shape"

def toDocument : MemberShape → Document
  | property hasGetter =>
    .record
      [(formField, .text (Form.spellings.nameOf .property)), ("has_getter", .bool hasGetter)]
  | method parameterCount =>
    .record
      [(formField, .text (Form.spellings.nameOf .method)),
        ("parameter_count", .count parameterCount)]

/-- The contents of a shape of some form. -/
def contents : Form → RecordLayout MemberShape
  | .property =>
    { fields := [Field.of "has_getter" .nowhere Document.asBool fun value _ => .property value]
      start := .property false
      isOpen := true }
  | .method =>
    { fields := [Field.of "parameter_count" .nowhere Document.asCount fun value _ => .method value]
      start := .method 0
      isOpen := true }

/-- Reads the form of a shape. -/
def readForm : Decoder Form
  | .text name => Document.variantNamed Form.spellings name
  | doc => .error doc.misfit

/-- Sets the form apart from the other entries of a table, which are kept in their order. These are
read as a whole before their form is known, so they can be nested at most `depth` deep. -/
def separate (depth : Nat) :
    Option Form → List (Document × Document) →
      Except DecodeError (Option Form × List (Document × Document))
  | form, [] => .ok (form, [])
  | form, (key, value) :: rest => do
    let name ← RecordLayout.fieldName .json key
    if name = formField then
      if form.isSome then .error (.duplicateField formField)
      else separate depth (some (← readForm value)) rest
    else if value.isReadable depth then
      let (form, others) ← separate depth form rest
      .ok (form, (key, value) :: others)
    else .error .malformed

/-- Reads a shape from a table, or from a list of the form and its contents. -/
def ofDocumentWithin (depth : Nat) : Decoder MemberShape
  | .table entries => do
    match ← separate depth none entries with
    | (some form, others) => (contents form).readTable .json others
    | (none, _) => .error (.missingField formField)
  | .list [] => .error (.missingField formField)
  | .list (item :: items) => do
    let form ← readForm item
    if Document.areReadable depth items then
      let (shape, rest) ← RecordLayout.readItems (contents form).fields (contents form).start items
      if rest.isEmpty then .ok shape else .error .misfit
    else .error .malformed
  | doc => .error doc.misfit

/-- How deeply a document that is read as a whole can be nested. -/
def nestingLimit : Nat :=
  127

/-- Reads a shape that stands alone. -/
def ofDocument : Decoder MemberShape :=
  ofDocumentWithin (nestingLimit - 1)

end MemberShape

/-! ## Declarations -/

namespace Declaration

def toDocument (d : Declaration) : Document :=
  .record
    [("name", .text d.name), ("value_type", .text d.valueType),
      ("accessibility", d.accessibility.toDocument), ("is_static", .bool d.isStatic),
      ("is_completable", .bool d.isCompletable), ("shape", d.shape.toDocument),
      ("key_override", .nullable .text d.keyOverride), ("container", d.container.toDocument),
      ("location", .nullable SourceLocation.toDocument d.location)]

def layout (format : DocumentFormat) : RecordLayout Declaration :=
  { fields :=
      [Field.of "name" .nowhere Document.asText fun value d => { d with name := value },
        Field.of "value_type" .nowhere Document.asText fun value d => { d with valueType := value },
        Field.of "accessibility" .nowhere (Accessibility.ofDocument format)
          fun value d => { d with accessibility := value },
        Field.of "is_static" .nowhere Document.asBool fun value d => { d with isStatic := value },
        Field.of "is_completable" .nowhere Document.asBool
          fun value d => { d with isCompletable := value },
        Field.of "shape" .nowhere (MemberShape.ofDocumentWithin (MemberShape.nestingLimit - 2))
          fun value d => { d with shape := value },
        Field.of "key_override" .inTables (Document.asOption Document.asText)
          fun value d => { d with keyOverride := value },
        Field.of "container" .nowhere (Container.ofDocument format)
          fun value d => { d with container := value },
        Field.of "location" .inTables (Document.asOption (SourceLocation.ofDocument format))
          fun value d => { d with location := value }]
    start := default
    isOpen := true }

def ofDocument (format : DocumentFormat) : Decoder Declaration :=
  (layout format).read format

end Declaration

end BuildConstants
