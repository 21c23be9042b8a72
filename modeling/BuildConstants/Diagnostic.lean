import BuildConstants.Declaration

/-!
# Diagnostics

A diagnostic says why one declaration is not completed. Its message is a template in which numbered
slots are filled with arguments.
-/

namespace BuildConstants

/-- How serious a diagnostic is. -/
inductive Severity where
  | warning
  | error
deriving DecidableEq

def Severity.text : Severity → String
  | warning => "warning"
  | error => "error"

/-- Why a declaration is not completed. -/
inductive DiagnosticKind where
  /-- The member is not static, cannot be completed or cannot be read. -/
  | invalidShape
  | unsupportedType
deriving DecidableEq

/-- What the diagnostics of one kind have in common. -/
structure DiagnosticDescriptor where
  code : String
  title : String
  /-- The message with slots for the arguments. -/
  template : String
  category : String
  severity : Severity
  /-- What to do about it. -/
  help : String

def DiagnosticKind.descriptor : DiagnosticKind → DiagnosticDescriptor
  | invalidShape =>
    { code := "BTBP0001"
      title := "Invalid property definition"
      template := "Property must be static partial and has getter. property=[\x7b0\x7d]"
      category := "Usage"
      severity := .warning
      help :=
        "declare the member as `static partial` with a getter, or as a parameterless " ++
          "`static partial` method" }
  | unsupportedType =>
    { code := "BTBP0002"
      title := "Unsupported property type"
      template := "Unsupported property type. type=[\x7b0\x7d]"
      category := "Usage"
      severity := .warning
      help := "supported types: string, int, bool and their nullable forms" }

/-- The slot for the argument with the given number. -/
def slot (number : Nat) : String :=
  s!"\x7b{number}\x7d"

/-- Fills the slots from number `first` on, one argument after the other. A slot that an argument
brings along is filled by the arguments after it. -/
def fillSlots : Nat → List String → String → String
  | _, [], message => message
  | first, argument :: rest, message =>
    fillSlots (first + 1) rest (Text.replace (slot first) argument message)

/-- A reason against completing one declaration. -/
structure Diagnostic where
  kind : DiagnosticKind
  location : Option SourceLocation
  arguments : List String
deriving DecidableEq

namespace Diagnostic

/-- The diagnostic for a member of the wrong form. -/
def invalidShape (member : String) (location : Option SourceLocation) : Diagnostic :=
  ⟨.invalidShape, location, [member]⟩

/-- The diagnostic for a type that no configured value can have. -/
def unsupportedType (type : String) (location : Option SourceLocation) : Diagnostic :=
  ⟨.unsupportedType, location, [type]⟩

def descriptor (d : Diagnostic) : DiagnosticDescriptor :=
  d.kind.descriptor

def code (d : Diagnostic) : String :=
  d.descriptor.code

def severity (d : Diagnostic) : Severity :=
  d.descriptor.severity

def message (d : Diagnostic) : String :=
  fillSlots 0 d.arguments d.descriptor.template

/-- The diagnostic on one line, behind its location. -/
def text (d : Diagnostic) : String :=
  let place := match d.location with
    | none => ""
    | some location => location.text ++ ": "
  s!"{place}{d.severity.text} {d.code}: {d.message}"

end Diagnostic

end BuildConstants
