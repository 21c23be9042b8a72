import BuildConstants.Command.Switch
import BuildConstants.Text.Split

/-!
# Arguments

The words behind the program's name, read as the task of a run and its options. The words before a
task and those behind it are scanned apart. A switch that takes a value and stands without one waits
for the next word, and its value is examined when the next switch is met or the words end.
-/

namespace BuildConstants

/-- Why the words cannot be understood. -/
inductive UsageError where
  | unexpectedWord (word : String)
  | unknownTask (word : String)
  /-- A task stands where only values can stand. -/
  | taskBehindDashes (word : String)
  | unexpectedValue (switch : Switch) (value : String)
  | missingValue (switch : Switch)
  | invalidValue (switch : Switch) (value : String)
  | repeated (switch : Switch)
deriving DecidableEq

def UsageError.message : UsageError → String
  | unexpectedWord word => s!"unexpected argument '{word}' found"
  | unknownTask word => s!"unrecognized subcommand '{word}'"
  | taskBehindDashes word => s!"subcommand '{word}' exists; to use it, remove the '--' before it"
  | unexpectedValue switch value =>
    s!"unexpected value '{value}' for '{switch.text}' found; no more were expected"
  | missingValue switch => s!"a value is required for '{switch.text}' but none was supplied"
  | invalidValue switch value => s!"invalid value '{value}' for '{switch.text}'"
  | repeated switch => s!"the argument '{switch.text}' cannot be used multiple times"

/-- Why there is nothing to run. -/
inductive Halt where
  | usage (error : UsageError)
  | help
  | version
deriving DecidableEq

/-! ## Scanning -/

/-- A switch with its value, if it takes one. -/
abbrev Given : Type :=
  Switch × Option String

/-- What was read from the words of one part of the command line. -/
structure Scan where
  given : List Given := []
  /-- The last switch, if it takes a value that is not examined yet; the value is missing as long as
  the switch waits for it. -/
  pending : Option Given := none
  /-- Two dashes have been read: no word is a switch any more. -/
  isClosed : Bool := false

namespace Scan

/-- The switch that waits for its value. -/
def awaiting? (scan : Scan) : Option Switch :=
  match scan.pending with
  | some (switch, none) => some switch
  | _ => none

/-- A value can belong to a switch. -/
def checkValue (task : Option TaskName) (switch : Switch) (value : String) : Except Halt Unit :=
  match switch with
  | .path | .declarations | .output =>
    if value = "" then .error (.usage (.missingValue switch)) else .ok ()
  | .format =>
    if value = "" then .error (.usage (.missingValue switch))
    else if (task.bind (·.formatNamed? value)).isSome then .ok ()
    else .error (.usage (.invalidValue switch value))
  | _ => .ok ()

/-- No part of the command line names a switch twice. -/
def checkNew (scan : Scan) (switch : Switch) : Except Halt Unit :=
  if (scan.given.lookup switch).isSome then .error (.usage (.repeated switch)) else .ok ()

/-- Adds a switch that has been examined. -/
def record (scan : Scan) (given : Given) : Scan :=
  { scan with given := scan.given ++ [given] }

/-- Examines and records a switch that takes a value. -/
def recordValue (task : Option TaskName) (scan : Scan) (switch : Switch) :
    (value : Option String) → Except Halt Scan
  | none => .error (.usage (.missingValue switch))
  | some value => do
    scan.checkNew switch
    checkValue task switch value
    .ok (scan.record (switch, some value))

/-- Records the switch that is not examined yet. -/
def settle (task : Option TaskName) (scan : Scan) : Except Halt Scan :=
  match scan.pending with
  | none => .ok scan
  | some (switch, value) => recordValue task { scan with pending := none } switch value

/-- Meets a switch that takes no value. -/
def meetFlag (task : Option TaskName) (scan : Scan) (switch : Switch) : Except Halt Scan := do
  let scan ← scan.settle task
  match switch with
  | .help => .error .help
  | .version => .error .version
  | switch => do
    scan.checkNew switch
    .ok (scan.record (switch, none))

/-- Meets a switch that takes a value, which may stand in the same word. -/
def meetOption (task : Option TaskName) (scan : Scan) (switch : Switch) (value : Option String) :
    Except Halt Scan := do
  let scan ← scan.settle task
  match value with
  | some value => recordValue task scan switch (some value)
  | none => .ok { scan with pending := some (switch, none) }

/-- Reads the word behind two dashes: a name, or a name with a value behind an equals sign. -/
def readName (task : Option TaskName) (scan : Scan) (word : List Char) : Except Halt Scan :=
  let (name, value) := match Text.splitFirst '=' word with
    | some (name, value) => (String.ofList name, some (String.ofList value))
    | none => (String.ofList word, none)
  match (switchesOf task).find? (·.form.name = name) with
  | none => .error (.usage (.unexpectedWord ("--" ++ name)))
  | some switch =>
    if switch.takesValue then scan.meetOption task switch value
    else
      match value with
      | some value => .error (.usage (.unexpectedValue switch value))
      | none => scan.meetFlag task switch

/-- The value that stands behind the letter of its switch. -/
def attachedValue? (rest : List Char) : Option String :=
  match rest with
  | [] => none
  | '=' :: value => some (String.ofList value)
  | value => some (String.ofList value)

/-- Reads the letters behind one dash. What stands behind the letter of a switch that takes a value
is that value. -/
def readLetters (task : Option TaskName) (scan : Scan) : List Char → Except Halt Scan
  | [] => .ok scan
  | letter :: rest =>
    match (switchesOf task).find? (·.form.letter = some letter) with
    | none => .error (.usage (.unexpectedWord ("-" ++ letter.toString)))
    | some switch =>
      if switch.takesValue then scan.meetOption task switch (attachedValue? rest)
      else do readLetters task (← scan.meetFlag task switch) rest

/-- The error for a word that is neither a switch nor a value. -/
def strayWord (task : Option TaskName) (scan : Scan) (word : String) : UsageError :=
  match task with
  | some _ => .unexpectedWord word
  | none =>
    if scan.isClosed && ((TaskName.ofText? word).isSome || word = helpWord) then
      .taskBehindDashes word
    else .unknownTask word

/-- Reads a word that is no switch. -/
def readOther (task : Option TaskName) (scan : Scan) (word : String) : Except Halt Scan :=
  match scan.isClosed, scan.awaiting? with
  | false, some switch => .ok { scan with pending := some (switch, some word) }
  | _, _ => .error (.usage (scan.strayWord task word))

/-- Reads a word. -/
def read (task : Option TaskName) (scan : Scan) (word : String) : Except Halt Scan :=
  if scan.isClosed then scan.readOther task word
  else
    match word.toList with
    | ['-', '-'] => .ok { scan with isClosed := true }
    | '-' :: '-' :: name => scan.readName task name
    | '-' :: letter :: letters => scan.readLetters task (letter :: letters)
    | _ => scan.readOther task word

/-- Reads the words behind a task. -/
def readTask (task : TaskName) (words : List String) : Except Halt Scan := do
  let scan ← words.foldlM (read (some task)) {}
  scan.settle (some task)

/-- What help is asked for, by the words behind the one that asks for it. -/
def helpOn (words : List String) : Halt :=
  match words with
  | [] => .help
  | word :: rest =>
    if (TaskName.ofText? word).isSome || word = helpWord then
      match rest with
      | [] => .help
      | word :: _ => .usage (.unknownTask word)
    else .usage (.unknownTask word)

/-- Reads the words up to the task; gives what stands before it, and the task with what stands
behind it. What stands behind a task is examined before the last switch in front of it. -/
def readProgram : Scan → List String → Except Halt (Scan × Option (TaskName × Scan))
  | scan, [] => do
    let scan ← scan.settle none
    .ok (scan, none)
  | scan, word :: rest =>
    if scan.isClosed || scan.awaiting?.isSome then do readProgram (← scan.read none word) rest
    else if word = helpWord then .error (helpOn rest)
    else
      match TaskName.ofText? word with
      | some task => do
        let inner ← readTask task rest
        let outer ← scan.settle none
        .ok (outer, some (task, inner))
      | none => do readProgram (← scan.read none word) rest

end Scan

/-! ## Invocations -/

/-- A task with its options. -/
inductive Task where
  | generate (denyWarnings dryRun : Bool) (format : ReportFormat)
  | check (showDiff : Bool) (format : ReportFormat)
  | info (format : ReportFormat)
deriving DecidableEq

/-- What a run is asked for. -/
structure Invocation where
  /-- The directory of the project. -/
  path : Option Path
  /-- The raw property text. -/
  properties : Option String
  /-- The manifest. -/
  declarations : Option Path
  /-- The output directory. -/
  output : Option Path
  emitMarker : Bool
  isVerbose : Bool
  noColor : Bool
  task : Option Task
deriving DecidableEq

namespace Invocation

/-- The value of a switch. -/
def valueIn (given : List Given) (switch : Switch) : Option String :=
  (given.lookup switch).join

/-- The task with the options that stand behind its name. -/
def taskOf (name : TaskName) (given : List Given) : Task :=
  let has (switch : Switch) : Bool := (given.lookup switch).isSome
  let format := ((valueIn given .format).bind name.formatNamed?).getD .text
  match name with
  | .generate => .generate (has .denyWarnings) (has .dryRun) format
  | .check => .check (has .diff) format
  | .info => .info format

/-- Reads the words of a run. A switch that stands behind the task counts before one that stands in
front of it. -/
def ofWords (words : List String) : Except Halt Invocation := do
  let (outer, chosen) ← Scan.readProgram {} words
  let given := ((chosen.map (·.2.given)).getD []) ++ outer.given
  let has (switch : Switch) : Bool := (given.lookup switch).isSome
  .ok
    { path := (valueIn given .path).map Path.mk
      properties := valueIn given .properties
      declarations := (valueIn given .declarations).map Path.mk
      output := (valueIn given .output).map Path.mk
      emitMarker := has .emitMarker
      isVerbose := has .verbose
      noColor := has .noColor
      task := chosen.map fun (name, scan) => taskOf name scan.given }

end Invocation

end BuildConstants
