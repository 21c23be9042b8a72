import BuildConstants.Path

/-!
# Switches

The words that the command line is made of: tasks, and switches that say more about a run. Every
switch has a name behind two dashes, some have a letter behind one, and some take a value.
-/

namespace BuildConstants

/-- What the program can be asked to do. -/
inductive TaskName where
  | generate
  | check
  | info
deriving DecidableEq

namespace TaskName

def text : TaskName → String
  | generate => "generate"
  | check => "check"
  | info => "info"

def all : List TaskName :=
  [generate, check, info]

def ofText? (text : String) : Option TaskName :=
  all.find? (·.text = text)

end TaskName

/-- The word that asks for help in the place of a task. -/
def helpWord : String :=
  "help"

/-- Something that can be set for a run. -/
inductive Switch where
  | path
  | properties
  | declarations
  | output
  | emitMarker
  | verbose
  | noColor
  | denyWarnings
  | dryRun
  | diff
  | format
  | help
  | version
deriving DecidableEq

/-- How a switch is written. -/
structure SwitchForm where
  name : String
  letter : Option Char := none
  /-- What the value is called, if the switch takes one. -/
  placeholder : Option String := none

namespace Switch

def form : Switch → SwitchForm
  | path => { name := "path", letter := some 'p', placeholder := some "PATH" }
  | properties => { name := "properties", placeholder := some "PROPERTIES" }
  | declarations =>
    { name := "declarations", letter := some 'd', placeholder := some "DECLARATIONS" }
  | output => { name := "output", letter := some 'o', placeholder := some "OUTPUT" }
  | emitMarker => { name := "emit-marker" }
  | verbose => { name := "verbose", letter := some 'v' }
  | noColor => { name := "no-color" }
  | denyWarnings => { name := "deny-warnings" }
  | dryRun => { name := "dry-run" }
  | diff => { name := "diff" }
  | format => { name := "format", placeholder := some "FORMAT" }
  | help => { name := "help", letter := some 'h' }
  | version => { name := "version", letter := some 'V' }

def takesValue (switch : Switch) : Bool :=
  switch.form.placeholder.isSome

/-- The switch as a message shows it. -/
def text (switch : Switch) : String :=
  match switch.form.placeholder with
  | some placeholder => s!"--{switch.form.name} <{placeholder}>"
  | none => s!"--{switch.form.name}"

end Switch

/-- The switches that can stand before and behind the task. -/
def commonSwitches : List Switch :=
  [.path, .properties, .declarations, .output, .emitMarker, .verbose, .noColor, .help]

/-- The switches of a task alone. -/
def TaskName.switches : TaskName → List Switch
  | generate => [.denyWarnings, .dryRun, .format]
  | check => [.diff, .format]
  | info => [.format]

/-- The switches that can stand in a part of the command line: before any task, or behind one. -/
def switchesOf : Option TaskName → List Switch
  | none => commonSwitches ++ [.version]
  | some task => commonSwitches ++ task.switches

/-- A form of a report. -/
inductive ReportFormat where
  | text
  | json
  /-- Notices that a hosted build shows beside the sources. -/
  | github
deriving DecidableEq

namespace ReportFormat

def name : ReportFormat → String
  | text => "text"
  | json => "json"
  | github => "github"

end ReportFormat

/-- The forms that the report of a task can have. -/
def TaskName.formats : TaskName → List ReportFormat
  | generate | check => [.text, .json, .github]
  | info => [.text, .json]

/-- The form with a name, among those of a task. -/
def TaskName.formatNamed? (task : TaskName) (name : String) : Option ReportFormat :=
  task.formats.find? (·.name = name)

end BuildConstants
