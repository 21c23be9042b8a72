import BuildConstants.Document.DecodeError

/-!
# Documents

A document is the tree that a text in one of the supported formats stands for. A tree also marks the
place where its text stops following the format, so that a problem with a value that comes earlier
in the text is met before it.
-/

namespace BuildConstants

/-- A format that documents are written in. -/
inductive DocumentFormat where
  | toml
  | json
  | yaml
deriving DecidableEq

/-- The value of a text in one of the formats. -/
inductive Document where
  | null
  | bool (value : Bool)
  | integer (value : Int)
  /-- A number that is not written as an integer. -/
  | fraction
  /-- A date, a time or both. -/
  | moment
  | text (value : String)
  /-- Text without quotes, which is a text, a number, a truth value or nothing, as is asked for. -/
  | plain (value : String)
  /-- Text in a block that keeps its lines. It is a text, and under the tag of another kind it is
  that as well. -/
  | block (value : String)
  | tagged (tag : String) (value : Document)
  | list (items : List Document)
  /-- Keys with their values, in the order in which they are read. -/
  | table (entries : List (Document × Document))
  /-- A scalar that follows its format but has no value. It can be passed over. -/
  | flawed
  /-- The place where the text stops following its format. -/
  | broken
deriving Inhabited

namespace Document

/-- A table whose keys are texts. -/
def record (fields : List (String × Document)) : Document :=
  .table (fields.map fun (name, value) => (.text name, value))

/-- The table entry of an optional field; there is none when it is absent. -/
def optionalField (name : String) (value : Option Document) : List (String × Document) :=
  value.toList.map fun document => (name, document)

/-- A count as a document. -/
def count (n : UInt64) : Document :=
  .integer n.toNat

/-- An optional value, which is null when it is absent. -/
def nullable {α : Type} (encode : α → Document) : Option α → Document
  | none => .null
  | some value => encode value

mutual

/-- Every part of the document follows its format. -/
def isSound : Document → Bool
  | .broken => false
  | .tagged _ value => value.isSound
  | .list items => areSound items
  | .table entries => entriesAreSound entries
  | _ => true

def areSound : List Document → Bool
  | [] => true
  | item :: rest => item.isSound && areSound rest

def entriesAreSound : List (Document × Document) → Bool
  | [] => true
  | (key, value) :: rest => key.isSound && value.isSound && entriesAreSound rest

end

mutual

/-- Every scalar of the document has a value, and lists and tables are nested at most `depth`
deep. -/
def isReadable : (depth : Nat) → Document → Bool
  | _, .broken | _, .flawed => false
  | depth, .tagged _ value => isReadable depth value
  | 0, .list _ | 0, .table _ => false
  | depth + 1, .list items => areReadable depth items
  | depth + 1, .table entries => entriesAreReadable depth entries
  | _, _ => true

def areReadable : (depth : Nat) → List Document → Bool
  | _, [] => true
  | depth, item :: rest => isReadable depth item && areReadable depth rest

def entriesAreReadable : (depth : Nat) → List (Document × Document) → Bool
  | _, [] => true
  | depth, (key, value) :: rest =>
    isReadable depth key && isReadable depth value && entriesAreReadable depth rest

end

end Document

/-- What a text stands for: its document, and whether the text ends where the document does. -/
structure DocumentReading where
  document : Document
  complete : Bool

end BuildConstants
