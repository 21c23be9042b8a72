import BuildConstants.Text.Split
import BuildConstants.Text.Style

/-!
# Log events

What a run tells about its course, and the line on which an event is shown.
-/

namespace BuildConstants

/-- How important an event is, the most important level first. -/
inductive LogLevel where
  | error
  | warn
  | info
  | debug
  | trace
deriving DecidableEq

namespace LogLevel

def name : LogLevel → String
  | error => "ERROR"
  | warn => "WARN"
  | info => "INFO"
  | debug => "DEBUG"
  | trace => "TRACE"

def ink : LogLevel → Text.Ink
  | error => .red
  | warn => .yellow
  | info => .green
  | debug => .blue
  | trace => .magenta

/-- The place of the level, from the most important one on. -/
def rank : LogLevel → Nat
  | error => 1
  | warn => 2
  | info => 3
  | debug => 4
  | trace => 5

/-- The name in a column as wide as the longest name. -/
def column (level : LogLevel) : String :=
  String.ofList (List.replicate (5 - level.name.length) ' ') ++ level.name

end LogLevel

/-- Something that happens in a run. -/
structure LogEvent where
  level : LogLevel
  /-- The part of the program that the event belongs to. -/
  target : String
  message : String
  /-- Names with values as they are shown. -/
  fields : List (String × String)
deriving DecidableEq

namespace LogEvent

/-- A control character that could change the state of a terminal, as it is shown in a message. -/
def shownCharacter (c : Char) : String :=
  match c with
  | '\x1b' => "\\x1b"
  | '\x07' => "\\x07"
  | '\x08' => "\\x08"
  | '\x0c' => "\\x0c"
  | '\x7f' => "\\x7f"
  | c =>
    if 0x80 ≤ c.toNat && c.toNat ≤ 0x9F then
      s!"\\u\x7b{String.ofList (Nat.toDigits 16 c.toNat)}\x7d"
    else c.toString

/-- A field with a blank in front of it. -/
def fieldText (isColored : Bool) (field : String × String) : String :=
  " " ++ Text.marked isColored Text.italicCode field.1 ++
    Text.marked isColored Text.dimmedCode "=" ++ field.2

/-- The line of an event with its line break. -/
def line (isColored : Bool) (event : LogEvent) : String :=
  Text.marked isColored event.level.ink.code event.level.column ++ " " ++
    Text.marked isColored Text.dimmedCode event.target ++
    Text.marked isColored Text.dimmedCode ":" ++ " " ++
    String.join (event.message.toList.map shownCharacter) ++
    String.join (event.fields.map (fieldText isColored)) ++ "\n"

end LogEvent

end BuildConstants
