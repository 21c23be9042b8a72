/-!
# Indented lines

The text of a unit is a sequence of lines. Lines between braces are indented by one more step.
-/

namespace BuildConstants.SourceUnit

/-- A line of a unit: blank, or a text at a depth. -/
inductive Line where
  | blank
  | text (depth : Nat) (content : String)
deriving DecidableEq

namespace Line

/-- One step of indentation. -/
def indentation : String :=
  "    "

/-- The line with its line break. Blank lines carry no indentation. -/
def render : Line → String
  | blank => "\n"
  | text depth content => String.join (List.replicate depth indentation) ++ content ++ "\n"

/-- The line one step deeper. -/
def indent : Line → Line
  | blank => blank
  | text depth content => text (depth + 1) content

/-- Lines between braces, behind the line that opens them. -/
def scope (opening : String) (body : List Line) : List Line :=
  [text 0 opening, text 0 "\x7b"] ++ body.map indent ++ [text 0 "\x7d"]

/-- Lines inside a namespace, if it has a name. -/
def inNamespace (namespaceName : String) (body : List Line) : List Line :=
  if namespaceName = "" then body else scope ("namespace " ++ namespaceName) body

/-- The lines that every generated file starts with. -/
def header : List Line :=
  [text 0 "// <auto-generated />", text 0 "#nullable enable", blank]

/-- The text of some lines. -/
def renderAll (lines : List Line) : String :=
  String.join (lines.map render)

end Line

end BuildConstants.SourceUnit
