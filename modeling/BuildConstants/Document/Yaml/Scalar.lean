import BuildConstants.Document.Yaml.Cursor
import BuildConstants.Text.Digits

/-!
# Scalars of YAML

Scalars without quotes, between quotes, and in blocks. Outside blocks a line break inside a scalar
counts as a space, and further line breaks that follow it directly are kept.
-/

namespace BuildConstants.Yaml

/-- The blanks and line breaks between two parts of a scalar. -/
structure Gap where
  /-- The blanks, as long as no line break has been met. -/
  blanks : List Char
  firstBreak : List Char
  otherBreaks : List Char
  /-- Whether the gap goes on to another line. -/
  crossed : Bool

namespace Gap

def empty : Gap :=
  { blanks := [], firstBreak := [], otherBreaks := [], crossed := false }

/-- What the gap stands for. -/
def text (gap : Gap) : List Char :=
  if !gap.crossed then gap.blanks
  else if gap.firstBreak.head? = some '\n' then
    if gap.otherBreaks.isEmpty then [' '] else gap.otherBreaks
  else gap.firstBreak ++ gap.otherBreaks

/-- Reads a gap to its end. Behind a line break a tab must not stand in front of the column
`indent`. -/
def read? (indent : Nat) : (budget : Nat) → Gap → Cursor → Option (Gap × Cursor)
  | 0, gap, cursor => some (gap, cursor)
  | budget + 1, gap, cursor =>
    match cursor.head? with
    | none => some (gap, cursor)
    | some c =>
      if isBlank c then
        if !gap.crossed then
          read? indent budget { gap with blanks := gap.blanks ++ [c] } (cursor.advance 1)
        else if c = '\t' && cursor.column < indent then none
        else read? indent budget gap (cursor.advance 1)
      else
        match cursor.takeBreak? with
        | none => some (gap, cursor)
        | some (text, cursor) =>
          if gap.crossed then
            read? indent budget { gap with otherBreaks := gap.otherBreaks ++ text } cursor
          else
            read? indent budget
              { blanks := [], firstBreak := text, otherBreaks := [], crossed := true } cursor

end Gap

/-! ## Scalars between quotes -/

/-- The character that a backslash and a character stand for. -/
def escaped? : Char → Option Char
  | '0' => some '\x00'
  | 'a' => some '\x07'
  | 'b' => some '\x08'
  | 't' | '\t' => some '\t'
  | 'n' => some '\n'
  | 'v' => some '\x0b'
  | 'f' => some '\x0c'
  | 'r' => some '\r'
  | 'e' => some '\x1b'
  | ' ' => some ' '
  | '"' => some '"'
  | '/' => some '/'
  | '\\' => some '\\'
  | 'N' => some '\u0085'
  | '_' => some '\u00a0'
  | 'L' => some '\u2028'
  | 'P' => some '\u2029'
  | _ => none

/-- How many digits the number of a character has behind the given letter. -/
def codeLength? : Char → Option Nat
  | 'x' => some 2
  | 'u' => some 4
  | 'U' => some 8
  | _ => none

/-- Reads an escape at its backslash. -/
def readEscape? (cursor : Cursor) : Option (Char × Cursor) := do
  let c ← cursor.at? 1
  match codeLength? c with
  | some length =>
    let digits := (cursor.rest.drop 2).take length
    let code ← Text.ofDigits? 16 digits
    if digits.length = length && code.isValidChar then
      some (Char.ofNat code, cursor.advance (length + 2))
    else none
  | none => (escaped? c).map (·, cursor.advance 2)

/-- How a scalar between quotes is quoted. -/
inductive Quotes where
  | single
  | double
deriving DecidableEq

def Quotes.mark : Quotes → Char
  | single => '\''
  | double => '"'

/-- Characters up to the next gap or quote, with the cursor behind them. -/
structure Chunk where
  text : List Char
  /-- The chunk ends with a line break that a backslash takes out of the scalar. -/
  joined : Bool
  cursor : Cursor

/-- Reads a chunk of a scalar between quotes. -/
def readQuotedChunk? (quotes : Quotes) : (budget : Nat) → Cursor → Option Chunk
  | 0, _ => none
  | budget + 1, cursor =>
    let continueWith (c : Char) (cursor : Cursor) : Option Chunk :=
      (readQuotedChunk? quotes budget cursor).map
        fun chunk => { chunk with text := c :: chunk.text }
    match cursor.head? with
    | none => some { text := [], joined := false, cursor }
    | some c =>
      if isBlank c || isBreak c then some { text := [], joined := false, cursor }
      else if quotes = .single && c = '\'' && cursor.at? 1 = some '\'' then
        continueWith '\'' (cursor.advance 2)
      else if c = quotes.mark then some { text := [], joined := false, cursor }
      else if quotes = .double && c = '\\' then
        if (cursor.at? 1).any isBreak then
          some { text := [], joined := true, cursor := (cursor.advance 1).skipBreak }
        else do
          let (c, cursor) ← readEscape? cursor
          continueWith c cursor
      else continueWith c (cursor.advance 1)

/-- Reads a scalar between quotes behind the opening one. No document starts or ends inside it. -/
def readQuoted? (quotes : Quotes) : (budget : Nat) → Cursor → Option (List Char × Cursor)
  | 0, _ => none
  | budget + 1, cursor => do
    if cursor.isAtDocumentMark || cursor.isAtEnd then none
    else
      let chunk ← readQuotedChunk? quotes (cursor.rest.length + 1) cursor
      if chunk.cursor.head? = some quotes.mark then some (chunk.text, chunk.cursor.advance 1)
      else
        let (gap, cursor) ← Gap.read? 0 (cursor.rest.length + 1)
          { Gap.empty with crossed := chunk.joined } chunk.cursor
        let (others, cursor) ← readQuoted? quotes budget cursor
        some (chunk.text ++ gap.text ++ others, cursor)

/-! ## Scalars without quotes -/

/-- The brackets and the comma of lists and tables between brackets. -/
def isFlowMark (c : Char) : Bool :=
  c ∈ [',', '[', ']', '\x7b', '\x7d']

/-- Reads a chunk of a scalar without quotes. A colon in front of a gap ends it, and between
brackets so do the brackets and the comma. Between brackets a colon must not stand in front of one
of these or of a question mark. -/
def readPlainChunk? (inFlow : Bool) : List Char → Option (List Char)
  | [] => some []
  | c :: rest =>
    let next := rest.head?
    if isBlank c || isBreak c then some []
    else if inFlow && c = ':' && next.any fun next => isFlowMark next || next = '?' then none
    else if (c = ':' && isGap next) || (inFlow && isFlowMark c) then some []
    else (readPlainChunk? inFlow rest).map (c :: ·)

/-- A scalar without quotes, with the cursor behind it and the gap in front of the cursor. -/
structure PlainScalar where
  text : List Char
  /-- Whether the scalar is followed by a line break. -/
  crossed : Bool
  cursor : Cursor

/-- Reads the rest of a scalar without quotes behind a gap. Its lines start at the column `indent`
or behind it, unless it stands between brackets. -/
def readPlainRest? (inFlow : Bool) (indent : Nat) :
    (budget : Nat) → Gap → Cursor → Option PlainScalar
  | 0, _, _ => none
  | budget + 1, gap, cursor =>
    if cursor.isAtDocumentMark || cursor.head? = some '#' then
      some { text := [], crossed := gap.crossed, cursor }
    else do
      let chunk ← readPlainChunk? inFlow cursor.rest
      let start := if chunk.isEmpty then [] else gap.text ++ chunk
      let last := if chunk.isEmpty then gap else .empty
      let cursor := cursor.advance chunk.length
      if cursor.head?.any fun c => isBlank c || isBreak c then
        let (gap, cursor) ← Gap.read? indent (cursor.rest.length + 1) last cursor
        if !inFlow && cursor.column < indent then
          some { text := start, crossed := gap.crossed, cursor }
        else
          let others ← readPlainRest? inFlow indent budget gap cursor
          some { others with text := start ++ others.text }
      else some { text := start, crossed := last.crossed, cursor }

/-- Reads a scalar without quotes. -/
def readPlain? (inFlow : Bool) (indent : Nat) (cursor : Cursor) : Option PlainScalar :=
  readPlainRest? inFlow indent (cursor.rest.length + 1) .empty cursor

/-! ## Scalars in blocks -/

/-- How the line breaks at the end of a block are treated. -/
inductive Chomping where
  | strip
  | clip
  | keep
deriving DecidableEq

/-- The line behind the mark of a block. -/
structure BlockHeader where
  chomping : Chomping
  /-- How much further than its surroundings the block is indented, where that is given. -/
  increment : Option Nat

namespace BlockHeader

def chomping? : Option Char → Option Chomping
  | some '+' => some .keep
  | some '-' => some .strip
  | _ => none

/-- Reads a digit other than zero, if there is a digit. -/
def readIncrement? (cursor : Cursor) : Option (Option Nat × Cursor) :=
  match cursor.head? with
  | some c =>
    if c.isDigit then if c = '0' then none else some (Text.digit? c, cursor.advance 1)
    else some (none, cursor)
  | none => some (none, cursor)

/-- Reads the header behind the mark of its block, in either order of its two parts. -/
def read? (cursor : Cursor) : Option (BlockHeader × Cursor) := do
  let (header, cursor) ← match chomping? cursor.head? with
    | some chomping => do
      let (increment, cursor) ← readIncrement? (cursor.advance 1)
      some (BlockHeader.mk chomping increment, cursor)
    | none => do
      let (increment, cursor) ← readIncrement? cursor
      match increment, chomping? cursor.head? with
      | some increment, some chomping => some (⟨chomping, some increment⟩, cursor.advance 1)
      | increment, _ => some (⟨.clip, increment⟩, cursor)
  some (header, ← cursor.finishLine?)

end BlockHeader

/-- The line breaks between two lines of a block, and how far the blank lines are indented. -/
structure BlockBreaks where
  text : List Char
  greatestColumn : Nat
  cursor : Cursor

/-- Reads blank lines and the indentation of the line behind them. The indentation goes up to the
column `indent`, or as far as there are spaces if that is not known, and has no tabs. -/
def readBlockBreaks? (indent : Option Nat) :
    (budget greatestColumn : Nat) → Cursor → Option BlockBreaks
  | 0, _, _ => none
  | budget + 1, greatestColumn, cursor =>
    let spaces := (cursor.run (· = ' ')).length
    let cursor := cursor.advance
      (indent.elim spaces fun indent => min spaces (indent - cursor.column))
    let greatestColumn := max greatestColumn cursor.column
    if cursor.head? = some '\t' && indent.all (cursor.column < ·) then none
    else
      match cursor.takeBreak? with
      | none => some { text := [], greatestColumn, cursor }
      | some (text, cursor) =>
        (readBlockBreaks? indent budget greatestColumn cursor).map fun breaks =>
          { breaks with text := text ++ breaks.text }

/-- What of a block has been read. -/
structure Block where
  text : List Char
  /-- The line break behind the last line. -/
  lastBreak : List Char
  /-- The line breaks behind that one. -/
  otherBreaks : List Char
  /-- Whether the last line starts with a blank. -/
  startsBlank : Bool
  cursor : Cursor

/-- Reads the lines of a block. In a folded block the line break between two lines that do not start
with a blank counts as a space. -/
def readBlockLines? (isFolded : Bool) (indent : Nat) : (budget : Nat) → Block → Option Block
  | 0, _ => none
  | budget + 1, block =>
    let cursor := block.cursor
    if cursor.column = indent && !cursor.isAtEnd then do
      let startsBlank := cursor.head?.any isBlank
      let joint :=
        if isFolded && block.lastBreak.head? = some '\n' && !block.startsBlank && !startsBlank then
          if block.otherBreaks.isEmpty then [' '] else []
        else block.lastBreak
      let line := cursor.run fun c => !isBreak c
      let cursor := cursor.advance line.length
      let (lastBreak, cursor) := cursor.takeBreak?.getD ([], cursor)
      let breaks ← readBlockBreaks? (some indent) (cursor.rest.length + 1) 0 cursor
      readBlockLines? isFolded indent budget
        { text := block.text ++ joint ++ block.otherBreaks ++ line, lastBreak,
          otherBreaks := breaks.text, startsBlank, cursor := breaks.cursor }
    else some block

/-- Reads a block behind its mark. Its surroundings are indented up to the column `outer`, which is
negative outside all lists and tables. Without a given indentation the block is indented as its
first line is, but further than its surroundings. -/
def readBlock? (isFolded : Bool) (outer : Int) (cursor : Cursor) : Option (List Char × Cursor) := do
  let (header, cursor) ← BlockHeader.read? cursor
  let given := header.increment.map fun increment => (max outer 0).toNat + increment
  let budget := cursor.rest.length + 1
  let breaks ← readBlockBreaks? given budget 0 cursor
  let indent := given.getD (max breaks.greatestColumn (max (outer + 1) 1).toNat)
  let block ← readBlockLines? isFolded indent budget
    { text := [], lastBreak := [], otherBreaks := breaks.text, startsBlank := false,
      cursor := breaks.cursor }
  let ending := match header.chomping with
    | .strip => []
    | .clip => block.lastBreak
    | .keep => block.lastBreak ++ block.otherBreaks
  some (block.text ++ ending, block.cursor)

end BuildConstants.Yaml
