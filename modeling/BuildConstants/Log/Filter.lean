import BuildConstants.Log.Event
import BuildConstants.Text.Digits

/-!
# Log filters

Which events are shown. A filter is written as directives with commas between them: a level, the
start of a target, or both with an equals sign between them. For an event the directive with the
longest start of its target counts, and of equal ones the last.
-/

namespace BuildConstants

/-- Up to which level the events of some targets are shown; nothing is shown without a limit. -/
structure LogDirective where
  /-- What the targets start with. -/
  target : String
  limit : Option LogLevel
deriving DecidableEq

/-- Which events are shown. -/
structure LogFilter where
  directives : List LogDirective

namespace LogFilter

/-- The limits that a text can name, by their numbers and by their names in any case. -/
def limits : List (Option LogLevel × String) :=
  [(none, "off"), (some .error, "error"), (some .warn, "warn"), (some .info, "info"),
    (some .debug, "debug"), (some .trace, "trace")]

/-- The number that a text of digits stands for, which may have a plus sign. -/
def number? (text : String) : Option Nat :=
  let digits := match text.toList with
    | '+' :: rest => rest
    | rest => rest
  if digits.isEmpty then none else Text.ofDigits? 10 digits

/-- The limit that a text names. -/
def limit? (text : String) : Option (Option LogLevel) :=
  match number? text with
  | some number => (limits[number]?).map (·.1)
  | none => (limits.find? (·.2 = text.map Char.toLower)).map (·.1)

/-- The limit behind an equals sign; without a text everything is shown. -/
def limitOrAll? (text : String) : Option (Option LogLevel) :=
  if text = "" then some (some .trace) else limit? text

/-- The characters that a target can start with. -/
def startsTarget (c : Char) : Bool :=
  c.isAlphanum || c = '-' || c = ':' || c = '_'

/-- Reads a directive. A text without an equals sign that names no limit is a target of which
everything is shown. -/
def directive? (text : String) : Option LogDirective :=
  if text.toList.head?.any startsTarget then
    match Text.splitFirst '=' text.toList with
    | some (target, limit) =>
      (limitOrAll? (String.ofList limit)).map fun limit => ⟨String.ofList target, limit⟩
    | none =>
      match limit? text with
      | some limit => some ⟨"", limit⟩
      | none => some ⟨text, some .trace⟩
  else none

/-- The filter that shows errors only. -/
def errorsOnly : LogFilter :=
  ⟨[⟨"", some .error⟩]⟩

/-- Reads a filter. A text without directives shows errors only. -/
def ofText? (text : String) : Option LogFilter := do
  let parts := (Text.parts ',' text).filter (· ≠ "")
  let directives ← parts.mapM directive?
  if directives.isEmpty then some errorsOnly else some ⟨directives⟩

/-- The directive that counts for a target among the given ones, `best` being the one found so
far. -/
def choose (target : String) :
    (best : Option LogDirective) → List LogDirective → Option LogDirective
  | best, [] => best
  | best, directive :: rest =>
    let counts := directive.target.toList.isPrefixOf target.toList &&
      best.all fun best => best.target.length ≤ directive.target.length
    choose target (if counts then some directive else best) rest

/-- Whether an event is shown. -/
def admits (filter : LogFilter) (event : LogEvent) : Bool :=
  match choose event.target none filter.directives with
  | some ⟨_, some limit⟩ => event.level.rank ≤ limit.rank
  | _ => false

/-- The filter of a run that is not asked to tell much. -/
def usual : LogFilter :=
  ⟨[⟨"", some .warn⟩]⟩

/-- The filter of a run that is asked to tell more. -/
def verbose : LogFilter :=
  ⟨[⟨"bakeprop_core", some .debug⟩, ⟨"bakeprop", some .debug⟩]⟩

/-- The filter of a run: the chosen one, if there is one and it can be read. -/
def ofChoice (text : Option String) (isVerbose : Bool) : LogFilter :=
  (text.bind ofText?).getD (if isVerbose then verbose else usual)

end LogFilter

end BuildConstants
