/-!
# Places in a YAML text

A cursor is a place in a text with what is left of it. Indentation carries meaning in YAML, so a
cursor knows its line and its column.
-/

namespace BuildConstants.Yaml

/-- A space or a tab. -/
def isBlank (c : Char) : Bool :=
  c = ' ' || c = '\t'

/-- The characters that end a line. -/
def isBreak (c : Char) : Bool :=
  c = '\n' || c = '\r' || c = '\u0085' || c = '\u2028' || c = '\u2029'

/-- A blank, a line break or the end of the text. -/
def isGap (c : Option Char) : Bool :=
  c.all fun c => isBlank c || isBreak c

/-- A line break or the end of the text. -/
def isLineEnd (c : Option Char) : Bool :=
  c.all isBreak

/-- The characters of names. -/
def isNameChar (c : Char) : Bool :=
  c.isAlphanum || c = '_' || c = '-'

/-- The characters that a text can hold. -/
def isPrintable (c : Char) : Bool :=
  let code := c.toNat
  code = 0x09 || code = 0x0A || code = 0x0D || (0x20 ≤ code && code ≤ 0x7E) || code = 0x85 ||
    (0xA0 ≤ code && code ≤ 0xFFFD) || 0x10000 ≤ code

/-- A place in a text. -/
structure Cursor where
  /-- What is left of the text. -/
  rest : List Char
  /-- The number of characters in front of the place. -/
  index : Nat
  line : Nat
  /-- The number of characters in front of the place on its line. -/
  column : Nat

namespace Cursor

/-- The start of a text. -/
def start (cs : List Char) : Cursor :=
  { rest := cs, index := 0, line := 0, column := 0 }

/-- The character behind the place. -/
def head? (cursor : Cursor) : Option Char :=
  cursor.rest.head?

/-- The character that stands the given number of characters further on. -/
def at? (cursor : Cursor) (distance : Nat) : Option Char :=
  cursor.rest[distance]?

def isAtEnd (cursor : Cursor) : Bool :=
  cursor.rest.isEmpty

/-- Goes on by some characters of the line. -/
def advance (cursor : Cursor) (count : Nat) : Cursor :=
  { cursor with
    rest := cursor.rest.drop count
    index := cursor.index + count
    column := cursor.column + count }

/-- The characters at the front that are in a class. -/
def run (cursor : Cursor) (inClass : Char → Bool) : List Char :=
  cursor.rest.takeWhile inClass

/-- Goes on over the characters at the front that are in a class. -/
def skipRun (cursor : Cursor) (inClass : Char → Bool) : Cursor :=
  cursor.advance (cursor.run inClass).length

/-- Goes on to the next line, if the line ends here, and gives the line break as text. All line
breaks but the two separators of Unicode count as a line feed. -/
def takeBreak? (cursor : Cursor) : Option (List Char × Cursor) :=
  let next (text rest : List Char) (count : Nat) : Option (List Char × Cursor) :=
    some (text,
      { rest, index := cursor.index + count, line := cursor.line + 1, column := 0 })
  match cursor.rest with
  | '\r' :: '\n' :: rest => next ['\n'] rest 2
  | c :: rest =>
    if c = '\u2028' || c = '\u2029' then next [c] rest 1
    else if isBreak c then next ['\n'] rest 1
    else none
  | [] => none

/-- Goes on over a byte order mark at the start of the line. The mark takes up a column. -/
def skipByteOrderMark (cursor : Cursor) : Cursor :=
  if cursor.column = 0 && cursor.head? = some '\uFEFF' then cursor.advance 1 else cursor

/-- Goes on over a line break, if there is one. -/
def skipBreak (cursor : Cursor) : Cursor :=
  cursor.takeBreak?.elim cursor (·.2)

/-- Goes on to the end of the line over a comment, if one starts here. -/
def skipComment (cursor : Cursor) : Cursor :=
  if cursor.head? = some '#' then cursor.skipRun fun c => !isBreak c else cursor

/-- Goes on to the next line over blanks and a comment; nothing else may be left of the line. -/
def finishLine? (cursor : Cursor) : Option Cursor :=
  let cursor := (cursor.skipRun isBlank).skipComment
  if isLineEnd cursor.head? then some cursor.skipBreak else none

/-- The text goes on with the given mark, which stands alone at the start of a line. -/
def isAtMark (cursor : Cursor) (mark : List Char) : Bool :=
  cursor.column = 0 && mark.isPrefixOf cursor.rest && isGap (cursor.at? mark.length)

/-- The mark that starts a document. -/
def documentStart : List Char :=
  ['-', '-', '-']

/-- The mark that ends a document. -/
def documentEnd : List Char :=
  ['.', '.', '.']

/-- A document starts or ends here. -/
def isAtDocumentMark (cursor : Cursor) : Bool :=
  cursor.isAtMark documentStart || cursor.isAtMark documentEnd

end Cursor

end BuildConstants.Yaml
