import BuildConstants.Document.Yaml.Scalar
import BuildConstants.Document.Yaml.Tag

/-!
# Tokens of YAML

The tokens of a text are read one after the other. Indentation makes tokens of its own, and a token
can turn out to be a key only when the colon behind it is met; until then the tokens from it on are
held back.
-/

namespace BuildConstants.Yaml

/-- How a scalar is written. -/
inductive ScalarStyle where
  | plain
  | quoted
  | literal
  | folded
deriving DecidableEq

/-- A piece of a text. -/
inductive Token where
  | streamEnd
  | directive (directive : Directive)
  | documentStart
  | documentEnd
  | blockListStart
  | blockTableStart
  | blockEnd
  | flowListStart
  | flowListEnd
  | flowTableStart
  | flowTableEnd
  /-- The dash in front of an item. -/
  | blockEntry
  /-- The comma between two items. -/
  | flowEntry
  | key
  | value
  | reference (name : String)
  | anchor (name : String)
  | tag (tag : TagText)
  | scalar (style : ScalarStyle) (text : String)

/-- A token that a colon can turn into a key. -/
structure PossibleKey where
  /-- The number of the token. -/
  number : Nat
  index : Nat
  line : Nat
  column : Nat
  /-- Whether nothing else can stand there. -/
  required : Bool

/-- The reading of a text into tokens. -/
structure Tokens where
  cursor : Cursor
  /-- The column of the innermost list or table in a block, and those around it. -/
  indent : Int
  outerIndents : List Int
  /-- Whether the next token can be a key without a mark. -/
  keyAllowed : Bool
  /-- The possible key of each level of brackets, the innermost level first. -/
  possibleKeys : List (Option PossibleKey)
  /-- The tokens that have been read and not been taken. -/
  queue : List Token
  /-- How many tokens have been taken. -/
  taken : Nat

namespace Tokens

/-- The reading of a text from its start. -/
def start (cs : List Char) : Tokens :=
  { cursor := .start cs, indent := -1, outerIndents := [], keyAllowed := true,
    possibleKeys := [none], queue := [], taken := 0 }

/-- The reading is between brackets. -/
def inFlow (tokens : Tokens) : Bool :=
  1 < tokens.possibleKeys.length

def push (tokens : Tokens) (token : Token) : Tokens :=
  { tokens with queue := tokens.queue ++ [token] }

/-- Puts a token in front of the one with the given number. -/
def insertAt (tokens : Tokens) (number : Nat) (token : Token) : Tokens :=
  { tokens with queue := tokens.queue.insertIdx (number - tokens.taken) token }

/-- Goes on by some characters of the line. -/
def advance (tokens : Tokens) (count : Nat) : Tokens :=
  { tokens with cursor := tokens.cursor.advance count }

/-! ## Indentation -/

/-- Opens a list or table in a block, if the column is further right than those open. -/
def openBlock (tokens : Tokens) (column : Nat) (insert : Tokens → Tokens) : Tokens :=
  if !tokens.inFlow && tokens.indent < column then
    insert { tokens with indent := column, outerIndents := tokens.indent :: tokens.outerIndents }
  else tokens

/-- Closes the lists and tables further right than the column, `indents` being those that are
open. -/
def closeBlocksFrom (column : Int) : List Int → Tokens → Tokens
  | [], tokens => tokens
  | outer :: rest, tokens =>
    if tokens.indent > column then
      closeBlocksFrom column rest
        { tokens.push .blockEnd with indent := outer, outerIndents := rest }
    else tokens

def closeBlocks (tokens : Tokens) (column : Int) : Tokens :=
  if tokens.inFlow then tokens else closeBlocksFrom column tokens.outerIndents tokens

/-! ## Possible keys -/

/-- A key can be this long without a mark. -/
def keyLimit : Nat :=
  1024

/-- A key without a mark is on one line and is not too long. -/
def isStale (tokens : Tokens) (key : PossibleKey) : Bool :=
  key.line < tokens.cursor.line || key.index + keyLimit < tokens.cursor.index

/-- Gives up the possible keys that are stale. None of them may be required. -/
def dropStaleKeys? (tokens : Tokens) : Option Tokens :=
  let isLost (key : Option PossibleKey) : Bool :=
    key.any fun key => tokens.isStale key && key.required
  if tokens.possibleKeys.any isLost then none
  else
    some
      { tokens with
        possibleKeys :=
          tokens.possibleKeys.map fun key => key.filter fun key => !tokens.isStale key }

/-- Gives up the possible key of the innermost level, which may not be required. -/
def dropKey? (tokens : Tokens) : Option Tokens :=
  match tokens.possibleKeys with
  | some key :: rest =>
    if key.required then none else some { tokens with possibleKeys := none :: rest }
  | _ => some tokens

/-- Notes that the next token is a possible key. -/
def noteKey? (tokens : Tokens) : Option Tokens := do
  if tokens.keyAllowed then
    let cursor := tokens.cursor
    let key : PossibleKey :=
      { number := tokens.taken + tokens.queue.length, index := cursor.index, line := cursor.line,
        column := cursor.column, required := !tokens.inFlow && tokens.indent = cursor.column }
    let tokens ← tokens.dropKey?
    some { tokens with possibleKeys := some key :: tokens.possibleKeys.drop 1 }
  else some tokens

/-! ## Single tokens -/

/-- Goes on to the next token over byte order marks, blanks, comments and line breaks. A tab cannot
stand where a key can. -/
def skipFiller : (budget : Nat) → Tokens → Tokens
  | 0, tokens => tokens
  | budget + 1, tokens =>
    let isFiller (c : Char) : Bool :=
      c = ' ' || ((tokens.inFlow || !tokens.keyAllowed) && c = '\t')
    let cursor := (tokens.cursor.skipByteOrderMark.skipRun isFiller).skipComment
    match cursor.takeBreak? with
    | none => { tokens with cursor }
    | some (_, cursor) =>
      skipFiller budget { tokens with cursor, keyAllowed := tokens.keyAllowed || !tokens.inFlow }

/-- Ends all blocks in front of the end of the text, of a directive or of the mark of a document. -/
def closeAll? (tokens : Tokens) : Option Tokens := do
  let tokens ← (tokens.closeBlocks (-1)).dropKey?
  some { tokens with keyAllowed := false }

/-- Reads the end of the text, which ends its last line, so that no possible key is left. -/
def readStreamEnd? (tokens : Tokens) : Option Tokens := do
  let cursor := tokens.cursor
  let ended :=
    if cursor.column = 0 then cursor else { cursor with line := cursor.line + 1, column := 0 }
  some ((← { tokens with cursor := ended }.closeAll?).push .streamEnd)

def readDirective? (tokens : Tokens) : Option Tokens := do
  let tokens ← tokens.closeAll?
  let (directive, cursor) ← Yaml.readDirective? tokens.cursor
  some ({ tokens with cursor }.push (.directive directive))

def readDocumentMark? (tokens : Tokens) (token : Token) : Option Tokens := do
  some (((← tokens.closeAll?).advance 3).push token)

/-- Reads an opening bracket. -/
def readFlowStart? (tokens : Tokens) (token : Token) : Option Tokens := do
  let tokens ← tokens.noteKey?
  let opened := { tokens with possibleKeys := none :: tokens.possibleKeys, keyAllowed := true }
  some ((opened.advance 1).push token)

/-- Reads a closing bracket. -/
def readFlowEnd? (tokens : Tokens) (token : Token) : Option Tokens := do
  let tokens ← tokens.dropKey?
  let possibleKeys :=
    if tokens.inFlow then tokens.possibleKeys.drop 1 else tokens.possibleKeys
  some (({ tokens with possibleKeys, keyAllowed := false }.advance 1).push token)

/-- Reads a comma between brackets. -/
def readFlowEntry? (tokens : Tokens) : Option Tokens := do
  let tokens ← tokens.dropKey?
  some (({ tokens with keyAllowed := true }.advance 1).push .flowEntry)

/-- Opens a block at this place, where a key must be allowed; nothing is opened between brackets. -/
def openHere? (tokens : Tokens) (opening : Token) : Option Tokens :=
  if tokens.inFlow then some tokens
  else if tokens.keyAllowed then
    some (tokens.openBlock tokens.cursor.column fun tokens => tokens.push opening)
  else none

/-- Reads the dash in front of an item. -/
def readBlockEntry? (tokens : Tokens) : Option Tokens := do
  let tokens ← (← tokens.openHere? .blockListStart).dropKey?
  some (({ tokens with keyAllowed := true }.advance 1).push .blockEntry)

/-- Reads the mark in front of a key. -/
def readKey? (tokens : Tokens) : Option Tokens := do
  let tokens ← (← tokens.openHere? .blockTableStart).dropKey?
  some (({ tokens with keyAllowed := !tokens.inFlow }.advance 1).push .key)

/-- Reads the colon in front of a value. If there is a possible key it is one now. -/
def readValue? (tokens : Tokens) : Option Tokens := do
  let tokens ← match tokens.possibleKeys with
    | some key :: rest =>
      let marked := tokens.insertAt key.number .key
      let opened := marked.openBlock key.column fun tokens =>
        tokens.insertAt key.number .blockTableStart
      some { opened with possibleKeys := none :: rest, keyAllowed := false }
    | _ => do
      let tokens ← tokens.openHere? .blockTableStart
      some { tokens with keyAllowed := !tokens.inFlow }
  some ((tokens.advance 1).push .value)

/-- The characters that can follow the name of an anchor besides a gap. -/
def anchorEnds : List Char :=
  ['?', ':', ',', ']', '\x7d', '%', '@', '\x60']

/-- Reads the name of an anchor or of a reference to one. -/
def readName? (tokens : Tokens) (token : String → Token) : Option Tokens := do
  let tokens ← tokens.noteKey?
  let cursor := tokens.cursor.advance 1
  let name := cursor.run isNameChar
  let cursor := cursor.advance name.length
  if name.isEmpty || !(isGap cursor.head? || cursor.head?.any (· ∈ anchorEnds)) then none
  else some ({ tokens with cursor, keyAllowed := false }.push (token (String.ofList name)))

def readTag? (tokens : Tokens) : Option Tokens := do
  let tokens ← tokens.noteKey?
  let (tag, cursor) ← Yaml.readTag? tokens.inFlow tokens.cursor
  some ({ tokens with cursor, keyAllowed := false }.push (.tag tag))

/-- Reads a block at its mark. -/
def readBlock? (tokens : Tokens) (style : ScalarStyle) : Option Tokens := do
  let tokens ← tokens.dropKey?
  let (text, cursor) ←
    Yaml.readBlock? (style = .folded) tokens.indent (tokens.cursor.advance 1)
  some ({ tokens with cursor, keyAllowed := true }.push (.scalar style (String.ofList text)))

/-- Reads a scalar between quotes. -/
def readQuoted? (tokens : Tokens) (quotes : Quotes) : Option Tokens := do
  let tokens ← tokens.noteKey?
  let cursor := tokens.cursor.advance 1
  let (text, cursor) ← Yaml.readQuoted? quotes (cursor.rest.length + 1) cursor
  some ({ tokens with cursor, keyAllowed := false }.push (.scalar .quoted (String.ofList text)))

/-- Reads a scalar without quotes. A key can stand on the line behind it. -/
def readPlain? (tokens : Tokens) : Option Tokens := do
  let tokens ← tokens.noteKey?
  let scalar ← Yaml.readPlain? tokens.inFlow (tokens.indent + 1).toNat tokens.cursor
  some
    ({ tokens with cursor := scalar.cursor, keyAllowed := scalar.crossed }.push
      (.scalar .plain (String.ofList scalar.text)))

/-- The characters that a scalar without quotes cannot start with, unless what follows admits it. -/
def indicators : List Char :=
  ['-', '?', ':', ',', '[', ']', '\x7b', '\x7d', '#', '&', '*', '!', '|', '>', '\'', '"', '%', '@',
    '\x60']

/-- A scalar without quotes can start with the character `c`, behind which `next` stands. -/
def startsPlain (inFlow : Bool) (c : Char) (next : Option Char) : Bool :=
  !(isBlank c || isBreak c || c ∈ indicators) || (c = '-' && !next.any isBlank) ||
    (!inFlow && (c = '?' || c = ':') && !isGap next)

/-- Reads the token that starts with the character `c`, behind which `next` stands. -/
def readMarked? (tokens : Tokens) (c : Char) (next : Option Char) : Option Tokens :=
  let inFlow := tokens.inFlow
  if c = '[' then tokens.readFlowStart? .flowListStart
  else if c = '\x7b' then tokens.readFlowStart? .flowTableStart
  else if c = ']' then tokens.readFlowEnd? .flowListEnd
  else if c = '\x7d' then tokens.readFlowEnd? .flowTableEnd
  else if c = ',' then tokens.readFlowEntry?
  else if c = '-' && isGap next then tokens.readBlockEntry?
  else if c = '?' && (inFlow || isGap next) then tokens.readKey?
  else if c = ':' && (inFlow || isGap next) then tokens.readValue?
  else if c = '*' then tokens.readName? .reference
  else if c = '&' then tokens.readName? .anchor
  else if c = '!' then tokens.readTag?
  else if c = '|' && !inFlow then tokens.readBlock? .literal
  else if c = '>' && !inFlow then tokens.readBlock? .folded
  else if c = '\'' then tokens.readQuoted? .single
  else if c = '"' then tokens.readQuoted? .double
  else if startsPlain inFlow c next then tokens.readPlain?
  else none

/-- Reads at least one more token. -/
def readMore? (tokens : Tokens) : Option Tokens := do
  let tokens := tokens.skipFiller (tokens.cursor.rest.length + 1)
  let tokens ← tokens.dropStaleKeys?
  let tokens := tokens.closeBlocks tokens.cursor.column
  let cursor := tokens.cursor
  match cursor.head? with
  | none => tokens.readStreamEnd?
  | some c =>
    if cursor.column = 0 && c = '%' then tokens.readDirective?
    else if cursor.isAtMark Cursor.documentStart then tokens.readDocumentMark? .documentStart
    else if cursor.isAtMark Cursor.documentEnd then tokens.readDocumentMark? .documentEnd
    else tokens.readMarked? c (cursor.at? 1)

/-! ## The next token -/

/-- The next token is held back because it is a possible key. -/
def isHeldBack (tokens : Tokens) : Bool :=
  tokens.possibleKeys.any fun key => key.any (·.number = tokens.taken)

/-- Reads on until the next token is known. -/
def settle? : (budget : Nat) → Tokens → Option Tokens
  | 0, _ => none
  | budget + 1, tokens =>
    if tokens.queue.isEmpty then do settle? budget (← tokens.readMore?)
    else do
      let tokens ← tokens.dropStaleKeys?
      if tokens.isHeldBack then settle? budget (← tokens.readMore?) else some tokens

/-- The next token, which is not taken by this, or nothing where the text stops following the
grammar of tokens. -/
def peek? (tokens : Tokens) : Option (Token × Tokens) := do
  let tokens ← settle? (tokens.cursor.rest.length + 3) tokens
  some (← tokens.queue.head?, tokens)

/-- Takes the next token. -/
def drop (tokens : Tokens) : Tokens :=
  { tokens with queue := tokens.queue.drop 1, taken := tokens.taken + 1 }

end Tokens

end BuildConstants.Yaml
