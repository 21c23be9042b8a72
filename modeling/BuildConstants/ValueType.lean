import BuildConstants.Text.Blank
import BuildConstants.Text.Quoted

/-!
# Value types

The types that a configured value can have, and how a value is written as an expression of its type.
A type text is a keyword, optionally followed by a question mark, with blanks around it.
-/

namespace BuildConstants

/-- A type that a configured value can have. -/
inductive ValueType where
  | string
  | int
  | bool
deriving DecidableEq, Inhabited

namespace ValueType

def keyword : ValueType → String
  | string => "string"
  | int => "int"
  | bool => "bool"

def ofKeyword? (text : String) : Option ValueType :=
  [string, int, bool].find? fun type => type.keyword = text

/-- A configured value as an expression: text becomes a verbatim literal, and a value of another
type stands as it was configured. -/
def express (type : ValueType) (value : String) : String :=
  match type with
  | string => Text.Quoted.literal value
  | int | bool => value

end ValueType

/-- A value type, or its form that also admits the absence of a value. -/
structure TypeRef where
  base : ValueType
  optional : Bool
deriving DecidableEq, Inhabited

namespace TypeRef

/-- Reads a type text. One question mark at its end makes the type optional, and nothing may stand
between the keyword and the mark. -/
def ofText? (text : String) : Option TypeRef :=
  let trimmed := Text.trimChars text.toList
  let (keyword, optional) :=
    if trimmed.getLast? = some '?' then (trimmed.dropLast, true) else (trimmed, false)
  (ValueType.ofKeyword? (String.ofList keyword)).map fun base => ⟨base, optional⟩

/-- The type as it is written. -/
def text (type : TypeRef) : String :=
  type.base.keyword ++ if type.optional then "?" else ""

def express (type : TypeRef) (value : String) : String :=
  type.base.express value

end TypeRef

/-- The expression of a value of the type that `typeText` names, if it names one. -/
def expressAs? (typeText value : String) : Option String :=
  (TypeRef.ofText? typeText).map (·.express value)

end BuildConstants
