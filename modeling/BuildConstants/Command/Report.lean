import BuildConstants.Diagnostic
import BuildConstants.Document.Basic
import BuildConstants.Failure
import BuildConstants.Text.Style
import BuildConstants.Text.Wrap

/-!
# Reports

How problems are shown: as a report for readers, as a notice for a hosted build, and as a record
for other programs. Paths are shown relative to the root of the project.
-/

namespace BuildConstants

/-- The text of some lines. -/
def textOfLines (lines : List String) : String :=
  String.join (lines.map (· ++ "\n"))

/-- A problem as it is shown to a reader. -/
structure Report where
  severity : Severity
  code : String
  message : String
  help : Option String
deriving DecidableEq

namespace Report

def ink (report : Report) : Text.Ink :=
  match report.severity with
  | .warning => .yellow
  | .error => .red

/-- The sign in front of the message; the plain one is for places without color. -/
def sign (report : Report) (isColored : Bool) : String :=
  match report.severity, isColored with
  | .warning, true => "⚠"
  | .warning, false => "!"
  | .error, true => "×"
  | .error, false => "x"

/-- The bar in front of the other lines of the message. -/
def bar (isColored : Bool) : String :=
  if isColored then "│" else "|"

/-- The columns that the lines of the message have behind the sign. -/
def messageWidth : Nat :=
  74

/-- The columns that the lines of the help have behind the label. -/
def helpWidth : Nat :=
  68

/-- Lines with one start in front of the first and another in front of the others. -/
def behind (first others : String) : List String → List String
  | [] => []
  | line :: rest => (first ++ line) :: rest.map (others ++ ·)

/-- The lines of the message. -/
def messageLines (report : Report) (isColored : Bool) : List String :=
  let marked (text : String) : String := Text.marked isColored report.ink.code text
  behind s!"  {marked (report.sign isColored)} " s!"  {marked (bar isColored)} "
    (Text.wrap messageWidth report.message)

/-- The lines of the help. -/
def helpLines (report : Report) (isColored : Bool) : List String :=
  match report.help with
  | none => []
  | some help =>
    behind (Text.marked isColored Text.Ink.cyan.code "  help: ") "        "
      (Text.wrap helpWidth help)

/-- The report with a blank line behind the code and one at the end. -/
def text (report : Report) (isColored : Bool) : String :=
  textOfLines
    ([Text.marked isColored report.ink.code report.code, ""] ++ report.messageLines isColored ++
      report.helpLines isColored ++ [""])

end Report

/-- The report of a failure. -/
def Failure.report (failure : Failure) : Report :=
  { severity := .error, code := failure.code, message := failure.message, help := failure.help? }

namespace SourceLocation

/-- The file and the line, as a message about a project in `root` begins with them. -/
def shortText (location : SourceLocation) (root : Path) : String :=
  let file := location.file.relativeTo root
  match location.line with
  | some line => s!"{file}:{line}"
  | none => file

/-- The place as the properties of a notice. -/
def noticeProperties (location : SourceLocation) (root : Path) : List String :=
  [s!"file={location.file.relativeTo root}"] ++
    (location.line.toList.map fun line => s!"line={line}") ++
    location.column.toList.map fun column => s!"col={column}"

end SourceLocation

namespace Diagnostic

/-- The report of a diagnostic; `asError` shows a warning as an error. -/
def report (d : Diagnostic) (root : Path) (asError : Bool) : Report :=
  { severity := if asError then .error else d.severity
    code := d.code
    message := match d.location with
      | some location => s!"[{location.shortText root}] {d.message}"
      | none => d.message
    help := some d.descriptor.help }

/-- The line that shows a diagnostic beside its place. -/
def notice (d : Diagnostic) (root : Path) : String :=
  let properties := match d.location with
    | some location => location.noticeProperties root
    | none => []
  let place := Text.joinWith "," properties
  s!"::{d.severity.text} {place}::{d.code}: {d.message}"

/-- The record of a diagnostic. -/
def toDocument (d : Diagnostic) (root : Path) : Document :=
  .record
    [("code", .text d.code), ("severity", .text d.severity.text), ("message", .text d.message),
      ("arguments", .list (d.arguments.map .text)),
      ("file", .nullable (fun place => .text (place.file.relativeTo root)) d.location),
      ("line", .nullable .count (d.location.bind (·.line))),
      ("column", .nullable .count (d.location.bind (·.column)))]

end Diagnostic

/-- The reports of some diagnostics. -/
def reportsText (diagnostics : List Diagnostic) (root : Path) (asErrors isColored : Bool) :
    String :=
  String.join (diagnostics.map fun d => (d.report root asErrors).text isColored)

end BuildConstants
