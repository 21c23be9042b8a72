import BuildConstants.Document.Basic
import BuildConstants.Text.Digits

/-!
# Reading documents as values

Decoders for texts, truth values, counts, options, lists, variants and records. The formats differ
in what they admit for a value, so a decoder is told the format of its document. Records are read in
the order in which the document gives their fields, and the first problem met is the one reported.
-/

namespace BuildConstants

/-- A reader of values of one type. -/
abbrev Decoder (α : Type) : Type :=
  Document → Except DecodeError α

namespace Document

/-- The error for a document of a kind that is not asked for. -/
def misfit : Document → DecodeError
  | .flawed | .broken => .malformed
  | _ => .misfit

/-- The document without its tag. -/
def untagged : Document → Document
  | .tagged _ value => value
  | value => value

/-- The text of a scalar without quotes; `tag` is that of the kind asked for. -/
def unquoted? (tag : String) : Document → Option String
  | .plain value | .tagged _ (.plain value) => some value
  | .tagged found (.block value) => if found = tag then some value else none
  | _ => none

/-! ## Scalars -/

def asText : Decoder String := fun doc =>
  match doc.untagged with
  | .text value | .plain value | .block value => .ok value
  | other => .error other.misfit

/-- The tag of truth values. -/
def boolTag : String :=
  "tag:yaml.org,2002:bool"

/-- The truth value that a text without quotes stands for. -/
def plainBool? (text : String) : Option Bool :=
  if text ∈ ["true", "True", "TRUE"] then some true
  else if text ∈ ["false", "False", "FALSE"] then some false
  else none

def asBool : Decoder Bool
  | .bool value => .ok value
  | doc =>
    match (doc.unquoted? boolTag).bind plainBool? with
    | some value => .ok value
    | none => .error doc.misfit

/-- The tag of integers. -/
def intTag : String :=
  "tag:yaml.org,2002:int"

/-- The number that some digits of a base stand for. At least one digit is needed. -/
def ofSomeDigits? (base : Nat) (digits : List Char) : Option Nat :=
  if digits.isEmpty then none else Text.ofDigits? base digits

/-- A sign may stand before the digits of a number, but not before another sign. -/
def unsigned (text : List Char) : List Char :=
  match text with
  | '+' :: rest => rest
  | text => text

/-- A decimal number that starts with a zero has no other digit. -/
def hasLeadingZero (digits : List Char) : Bool :=
  match digits with
  | '0' :: _ :: _ => digits.all Char.isDigit
  | _ => false

/-- The count that a text without quotes stands for: a number in base ten, or in base sixteen, eight
or two behind `0x`, `0o` or `0b`. -/
def plainCount? (text : String) : Option Nat :=
  match unsigned text.toList with
  | '0' :: 'x' :: digits => ofSomeDigits? 16 digits
  | '0' :: 'o' :: digits => ofSomeDigits? 8 digits
  | '0' :: 'b' :: digits => ofSomeDigits? 2 digits
  | digits => if hasLeadingZero digits then none else ofSomeDigits? 10 digits

/-- The number of counts. -/
def countLimit : Nat :=
  UInt64.size

def asCount : Decoder UInt64
  | .integer value =>
    if 0 ≤ value ∧ value < countLimit then .ok (UInt64.ofNat value.toNat) else .error .misfit
  | doc =>
    match (doc.unquoted? intTag).bind plainCount? with
    | some value => if value < countLimit then .ok (UInt64.ofNat value) else .error .misfit
    | none => .error doc.misfit

/-- The tag of absent values. -/
def nullTag : String :=
  "tag:yaml.org,2002:null"

/-- The texts without quotes that stand for an absent value. -/
def isPlainNull (text : String) : Bool :=
  text ∈ ["", "null", "Null", "NULL", "~"]

/-- Reads a value that may be absent. -/
def asOption {α : Type} (read : Decoder α) : Decoder (Option α)
  | .null => .ok none
  | .plain value => if isPlainNull value then .ok none else (read (.plain value)).map some
  | .tagged tag (.plain value) =>
    if tag = nullTag then
      if value ≠ "" && isPlainNull value then .ok none else .error .misfit
    else (read (.tagged tag (.plain value))).map some
  | doc => (read doc).map some

/-! ## Lists -/

/-- Reads a list. An empty text without quotes is the empty list. -/
def asList {α : Type} (read : Decoder α) : Decoder (List α) := fun doc =>
  match doc.untagged with
  | .list items => items.mapM read
  | .plain "" => .ok []
  | other => .error other.misfit

/-! ## Variants -/

/-- The names of the variants, each kind of value with its names in order. -/
abbrev Spellings (α : Type) : Type :=
  List (α × List String)

/-- The variant with a name. -/
def variantNamed {α : Type} (spellings : Spellings α) (name : String) : Except DecodeError α :=
  match spellings.find? fun (_, names) => name ∈ names with
  | some (value, _) => .ok value
  | none => .error (.unknownVariant name (spellings.flatMap (·.2)))

/-- The variant that a scalar names. -/
def variantOf {α : Type} (spellings : Spellings α) : Decoder α := fun doc => do
  variantNamed spellings (← doc.asText)

/-- A variant without content is followed by an absent value where it stands before one. -/
def requireNull : Decoder Unit
  | .null => .ok ()
  | doc => .error doc.misfit

/-- In a table or list that stands for a variant without content there is nothing. -/
def requireEmpty : Decoder Unit
  | .list [] | .table [] => .ok ()
  | _ => .error .malformed

/-- The name of the variant that a tag gives. -/
def tagVariant? (tag : String) : Option String :=
  match tag.toList with
  | '!' :: c :: rest => some (String.ofList (c :: rest))
  | _ => none

/-- The value behind the tag of a variant without content is empty or stands for an absent value. -/
def requireBlank : Decoder Unit
  | .plain value => if isPlainNull value then .ok () else .error .misfit
  | .text "" | .block "" => .ok ()
  | doc => .error doc.misfit

/-- Reads one of several variants without content. Besides its name alone, a variant can be written
as a table whose only key is its name, or as a tag. -/
def asVariant {α : Type} (format : DocumentFormat) (spellings : Spellings α) : Decoder α :=
  fun doc =>
    match format, doc with
    | .json, .text name => variantNamed spellings name
    | .json, .table ((key, value) :: rest) => do
      let variant ← variantOf spellings key
      requireNull value
      if rest.isEmpty then .ok variant else .error .malformed
    | .toml, .text name => variantNamed spellings name
    | .toml, .table [(key, value)] => do
      let variant ← variantOf spellings key
      requireEmpty value
      .ok variant
    | .json, _ | .toml, _ => .error .malformed
    | .yaml, .tagged tag value =>
      match tagVariant? tag with
      | some name => do
        let variant ← variantNamed spellings name
        requireBlank value
        .ok variant
      | none => variantOf spellings value
    | .yaml, value => variantOf spellings value

/-! ## Records -/

/-- Where a field can be left out. -/
inductive Omission where
  | nowhere
  /-- A table can leave the field out, and a list cannot. -/
  | inTables
  | anywhere
deriving DecidableEq

/-- A field of a record that is gathered in a state. -/
structure Field (σ : Type) where
  name : String
  omission : Omission
  /-- Reads the value of the field into the state. -/
  read : Document → σ → Except DecodeError σ

/-- The field whose value replaces one part of the state. -/
def Field.of {σ α : Type} (name : String) (omission : Omission) (read : Decoder α)
    (set : α → σ → σ) : Field σ :=
  { name, omission, read := fun doc state => (read doc).map (set · state) }

/-- A record that is read field by field. -/
structure RecordLayout (σ : Type) where
  fields : List (Field σ)
  /-- The state before the first field. -/
  start : σ
  /-- Whether fields of other names are passed over. -/
  isOpen : Bool := false

namespace RecordLayout

variable {σ : Type}

def names (layout : RecordLayout σ) : List String :=
  layout.fields.map (·.name)

/-- The name of a field, as a key of a table. -/
def fieldName (format : DocumentFormat) (key : Document) : Except DecodeError String :=
  match format, key with
  | .json, .text name | .toml, .text name => .ok name
  | .json, _ | .toml, _ => .error .malformed
  | .yaml, key => key.asText

/-- Reads the entries of a table; `seen` holds the names of the fields read before. A value that is
passed over is not looked at, but it has to follow its format. -/
def readEntries (layout : RecordLayout σ) (format : DocumentFormat) :
    (seen : List String) → σ → List (Document × Document) → Except DecodeError (List String × σ)
  | seen, state, [] => .ok (seen, state)
  | seen, state, (key, value) :: rest => do
    let name ← fieldName format key
    match layout.fields.find? (·.name = name) with
    | some field =>
      if name ∈ seen then .error (.duplicateField name)
      else layout.readEntries format (name :: seen) (← field.read value state) rest
    | none =>
      if layout.isOpen then
        if value.isSound then layout.readEntries format seen state rest else .error .malformed
      else .error (.unknownField name layout.names)

/-- The first field that a table leaves out although it has to be there. -/
def missing? (layout : RecordLayout σ) (seen : List String) : Option String :=
  (layout.fields.find? fun field => field.omission = .nowhere && field.name ∉ seen).map (·.name)

/-- Reads a table. -/
def readTable (layout : RecordLayout σ) (format : DocumentFormat)
    (entries : List (Document × Document)) : Except DecodeError σ := do
  let (seen, state) ← layout.readEntries format [] layout.start entries
  match layout.missing? seen with
  | some name => .error (.missingField name)
  | none => .ok state

/-- Reads the values of fields from a list, which is in their order; gives the items that are left
over. -/
def readItems : List (Field σ) → σ → List Document → Except DecodeError (σ × List Document)
  | [], state, items => .ok (state, items)
  | field :: fields, state, [] =>
    if (field :: fields).all (·.omission = .anywhere) then .ok (state, []) else .error .misfit
  | field :: fields, state, item :: items => do readItems fields (← field.read item state) items

/-- Reads a list of the fields' values. -/
def readList (layout : RecordLayout σ) (format : DocumentFormat) (items : List Document) :
    Except DecodeError σ := do
  let (state, rest) ← readItems layout.fields layout.start items
  match format with
  | .json => if rest.isEmpty then .ok state else .error .malformed
  | .toml => .ok state
  | .yaml => .error .misfit

/-- The table that a date or time counts as where a record is asked for. -/
def momentEntries : List (Document × Document) :=
  [(.text "$__toml_private_datetime", .text "")]

/-- Reads a record from a table, or from a list of its fields' values where the format admits it. -/
def read (layout : RecordLayout σ) (format : DocumentFormat) : Decoder σ := fun doc =>
  match doc.untagged with
  | .table entries => layout.readTable format entries
  | .plain "" => layout.readTable format []
  | .moment => layout.readTable format momentEntries
  | .list items => if format = .yaml then .error .misfit else layout.readList format items
  | other => .error other.misfit

end RecordLayout

end Document

/-- Reads the value of a text. A text that goes on behind its document, or stops before it, is
malformed, unless another problem is met first. -/
def DocumentReading.decode {α : Type} (reading : DocumentReading) (read : Decoder α) :
    Except DecodeError α := do
  let value ← read reading.document
  if reading.complete then .ok value else .error .malformed

end BuildConstants
