import BuildConstants.Document.Basic
import BuildConstants.Document.Json.Number

/-!
# Reading JSON

The document of a JSON text. Where the text stops following the grammar the document is `broken`,
and what comes before that place is kept.
-/

namespace BuildConstants.Json

/-- A document from the front of a text, with the text behind it. There is none behind a break. -/
abbrev Step : Type :=
  Document × Option (List Char)

/-- A break. -/
def broken : Step :=
  (.broken, none)

def isBlank (c : Char) : Bool :=
  c = ' ' || c = '\t' || c = '\n' || c = '\r'

def skipBlanks (cs : List Char) : List Char :=
  cs.dropWhile isBlank

/-! ## Strings -/

/-- The character that a backslash and a letter stand for. -/
def escaped? : Char → Option Char
  | '"' => some '"'
  | '\\' => some '\\'
  | '/' => some '/'
  | 'b' => some '\x08'
  | 'f' => some '\x0c'
  | 'n' => some '\n'
  | 'r' => some '\r'
  | 't' => some '\t'
  | _ => none

/-- A unit that is the first half of a pair. -/
def isHighSurrogate (unit : Nat) : Bool :=
  0xD800 ≤ unit && unit ≤ 0xDBFF

/-- A unit that is the second half of a pair. -/
def isLowSurrogate (unit : Nat) : Bool :=
  0xDC00 ≤ unit && unit ≤ 0xDFFF

/-- The character of a pair. -/
def pairCharacter (high low : Nat) : Char :=
  Char.ofNat (0x10000 + (high - 0xD800) * 0x400 + (low - 0xDC00))

/-- What of a string has been read. -/
structure StringState where
  /-- The characters, the last one first. -/
  characters : List Char
  /-- The half of a pair that has to be completed by the next escape. -/
  pending : Option Nat
  /-- Whether all halves have been completed. -/
  whole : Bool

namespace StringState

/-- Takes in a character. A half that was left open stays without its partner. -/
def add (state : StringState) (c : Char) : StringState :=
  { characters := c :: state.characters, pending := none,
    whole := state.whole && state.pending.isNone }

/-- Takes in a unit that was written by its number. -/
def addUnit (state : StringState) (unit : Nat) : StringState :=
  match state.pending with
  | some high =>
    if isLowSurrogate unit then
      { state with characters := pairCharacter high unit :: state.characters, pending := none }
    else { state with pending := none, whole := false }
  | none =>
    if isHighSurrogate unit then { state with pending := some unit }
    else if isLowSurrogate unit then { state with whole := false }
    else state.add (Char.ofNat unit)

/-- The string that has been read, which has no value when half a pair is in it. -/
def document (state : StringState) : Document :=
  if state.whole && state.pending.isNone then .text (String.ofList state.characters.reverse)
  else .flawed

end StringState

/-- Reads a string behind its opening quote. -/
def readString (state : StringState) : List Char → Step
  | [] => broken
  | '"' :: rest => (state.document, some rest)
  | '\\' :: 'u' :: a :: b :: c :: d :: rest =>
    match Text.ofDigits? 16 [a, b, c, d] with
    | some unit => readString (state.addUnit unit) rest
    | none => broken
  | '\\' :: c :: rest =>
    match escaped? c with
    | some character => readString (state.add character) rest
    | none => broken
  | c :: rest => if c = '\\' || c.toNat < 0x20 then broken else readString (state.add c) rest

/-- A string of which nothing has been read. -/
def StringState.start : StringState :=
  { characters := [], pending := none, whole := true }

/-! ## Values -/

/-- Reads a number. -/
def readNumber (cs : List Char) : Step :=
  match Number.read? cs with
  | none => broken
  | some (number, rest) =>
    if number.isTooLarge then (.flawed, some rest)
    else (number.integer?.elim .fraction .integer, some rest)

/-- Reads a word or a number. -/
def readScalar : List Char → Step
  | 'n' :: 'u' :: 'l' :: 'l' :: rest => (.null, some rest)
  | 't' :: 'r' :: 'u' :: 'e' :: rest => (.bool true, some rest)
  | 'f' :: 'a' :: 'l' :: 's' :: 'e' :: rest => (.bool false, some rest)
  | '"' :: rest => readString .start rest
  | cs => readNumber cs

mutual

/-- Reads a value. The budget is spent on the values inside it; one as large as the text never runs
out. -/
def readValue : (budget : Nat) → List Char → Step
  | 0, _ => broken
  | budget + 1, cs =>
    match skipBlanks cs with
    | '[' :: rest =>
      let (items, rest) := readItems budget true rest
      (.list items, rest)
    | '\x7b' :: rest =>
      let (entries, rest) := readEntries budget true rest
      (.table entries, rest)
    | cs => readScalar cs

/-- Reads the items of a list up to its end; `first` says that no item stands before them. -/
def readItems : (budget : Nat) → (first : Bool) → List Char → List Document × Option (List Char)
  | 0, _, _ => ([.broken], none)
  | budget + 1, first, cs =>
    match first, skipBlanks cs with
    | _, ']' :: rest => ([], some rest)
    | false, ',' :: rest =>
      match skipBlanks rest with
      | ']' :: _ => ([.broken], none)
      | rest => readItem budget rest
    | true, rest => readItem budget rest
    | false, _ => ([.broken], none)

/-- Reads an item and the items behind it. -/
def readItem : (budget : Nat) → List Char → List Document × Option (List Char)
  | 0, _ => ([.broken], none)
  | budget + 1, cs =>
    match readValue budget cs with
    | (item, none) => ([item], none)
    | (item, some rest) =>
      let (items, rest) := readItems budget false rest
      (item :: items, rest)

/-- Reads the entries of a table up to its end; `first` says that no entry stands before them. -/
def readEntries : (budget : Nat) → (first : Bool) → List Char →
    List (Document × Document) × Option (List Char)
  | 0, _, _ => ([(.broken, .broken)], none)
  | budget + 1, first, cs =>
    match first, skipBlanks cs with
    | _, '\x7d' :: rest => ([], some rest)
    | false, ',' :: rest => readEntry budget rest
    | true, rest => readEntry budget rest
    | false, _ => ([(.broken, .broken)], none)

/-- Reads an entry and the entries behind it. The text breaks behind a key that is not a string. -/
def readEntry : (budget : Nat) → List Char → List (Document × Document) × Option (List Char)
  | 0, _ => ([(.broken, .broken)], none)
  | budget + 1, cs =>
    match skipBlanks cs with
    | '"' :: rest =>
      let (key, rest) := readString .start rest
      match rest.map skipBlanks with
      | some (':' :: rest) =>
        match readValue budget rest with
        | (value, none) => ([(key, value)], none)
        | (value, some rest) =>
          let (entries, rest) := readEntries budget false rest
          ((key, value) :: entries, rest)
      | _ => ([(key, .broken)], none)
    | cs => ([((readValue budget cs).1, .broken)], none)

end

/-- The document of a text. -/
def read (text : String) : DocumentReading :=
  let cs := text.toList
  let (document, rest) := readValue (3 * cs.length + 3) cs
  { document, complete := rest.any fun rest => (skipBlanks rest).isEmpty }

end BuildConstants.Json
