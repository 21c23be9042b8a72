/-!
# Line breaks

Where a line of text can be broken: behind blanks, and between characters that do not belong
together. Every character has a class, and the classes on both sides of a place decide, the earliest
rule that applies first. The classes are those of the Unicode line breaking algorithm; a character
outside the tables is alphabetic.
-/

namespace BuildConstants.Text

/-- What a character is for the breaking of lines. -/
inductive BreakClass where
  | alphabetic
  | numeric
  | ideographic
  | space
  /-- A blank without width, behind which a line can always be broken. -/
  | gap
  /-- A mark that belongs to the character in front of it. -/
  | combining
  /-- A character that holds on to both neighbours. -/
  | glue
  /-- A character without width that holds on to both neighbours, across blanks as well. -/
  | joiner
  | lineEnd
  | opening
  | closing
  | closingBracket
  | quotation
  | exclamation
  /-- A comma, colon or point, which can stand inside a number. -/
  | separator
  | slash
  | hyphen
  /-- A character that stays with what is in front of it, and behind which a line can be broken. -/
  | breakAfter
  | breakBefore
  | dash
  /-- A character that no line starts with. -/
  | nonStarter
  | ellipsis
  /-- A sign in front of a number, such as that of a currency. -/
  | numberStart
  /-- A sign behind a number, such as that of a percentage. -/
  | numberEnd
deriving DecidableEq

namespace BreakClass

/-- The classes of ASCII characters that are neither letters nor digits nor alphabetic. -/
def ofSign : List (Char × BreakClass) :=
  [(' ', space), ('\t', breakAfter), ('\n', lineEnd), ('\x0b', lineEnd), ('\x0c', lineEnd),
    ('\r', lineEnd), ('!', exclamation), ('"', quotation), ('$', numberStart), ('%', numberEnd),
    ('\'', quotation), ('(', opening), (')', closingBracket), ('+', numberStart),
    (',', separator), ('-', hyphen), ('.', separator), ('/', slash), (':', separator),
    (';', separator), ('?', exclamation), ('[', opening), ('\\', numberStart),
    (']', closingBracket), ('\x7b', opening), ('|', breakAfter), ('\x7d', closing)]

/-- The classes of ranges of code points outside ASCII. -/
def ranges : List (Nat × Nat × BreakClass) :=
  [(0x80, 0x84, combining), (0x85, 0x85, lineEnd), (0x86, 0x9F, combining), (0xA0, 0xA0, glue),
    (0xA1, 0xA1, opening), (0xA2, 0xA2, numberEnd), (0xA3, 0xA5, numberStart),
    (0xAB, 0xAB, quotation), (0xAD, 0xAD, breakAfter), (0xB0, 0xB0, numberEnd),
    (0xB1, 0xB1, numberStart), (0xB4, 0xB4, breakBefore), (0xBB, 0xBB, quotation),
    (0xBF, 0xBF, opening), (0x300, 0x34E, combining), (0x34F, 0x34F, glue),
    (0x350, 0x35B, combining), (0x35C, 0x362, glue), (0x363, 0x36F, combining),
    (0x483, 0x489, combining), (0x1680, 0x1680, breakAfter), (0x2000, 0x2006, breakAfter),
    (0x2007, 0x2007, glue), (0x2008, 0x200A, breakAfter), (0x200B, 0x200B, gap),
    (0x200C, 0x200F, combining), (0x2010, 0x2010, breakAfter), (0x2011, 0x2011, glue),
    (0x2012, 0x2013, breakAfter), (0x2014, 0x2014, dash), (0x2018, 0x2019, quotation),
    (0x201A, 0x201A, opening), (0x201B, 0x201D, quotation), (0x201E, 0x201E, opening),
    (0x201F, 0x201F, quotation), (0x2024, 0x2026, ellipsis), (0x2027, 0x2027, breakAfter),
    (0x2028, 0x2029, lineEnd), (0x202A, 0x202E, combining), (0x202F, 0x202F, glue),
    (0x2030, 0x2037, numberEnd), (0x2039, 0x203A, quotation), (0x203C, 0x203D, nonStarter),
    (0x2044, 0x2044, separator), (0x205F, 0x205F, breakAfter), (0x2060, 0x2060, joiner),
    (0x2066, 0x206F, combining), (0x20A0, 0x20CF, numberStart), (0x20D0, 0x20F0, combining),
    (0x2212, 0x2213, numberStart), (0x2E80, 0x2FFB, ideographic), (0x3000, 0x3000, breakAfter),
    (0x3001, 0x3002, closing), (0x3003, 0x3004, ideographic), (0x3005, 0x3005, nonStarter),
    (0x3006, 0x3007, ideographic), (0x3041, 0x3098, ideographic), (0x3099, 0x309A, combining),
    (0x309B, 0x309E, nonStarter), (0x309F, 0x309F, ideographic), (0x30A0, 0x30A0, nonStarter),
    (0x30A1, 0x30FA, ideographic), (0x30FB, 0x30FE, nonStarter), (0x30FF, 0x30FF, ideographic),
    (0x3105, 0x4DBF, ideographic), (0x4E00, 0xA4CF, ideographic), (0xAC00, 0xD7A3, ideographic),
    (0xF900, 0xFAFF, ideographic), (0xFE00, 0xFE0F, combining), (0xFEFF, 0xFEFF, joiner),
    (0xFF01, 0xFF01, exclamation), (0xFF08, 0xFF08, opening), (0xFF09, 0xFF09, closing),
    (0xFF0C, 0xFF0C, closing), (0xFF0E, 0xFF0E, closing), (0xFF10, 0xFF19, ideographic),
    (0xFF1A, 0xFF1B, nonStarter), (0xFF1F, 0xFF1F, exclamation), (0xFF21, 0xFF3A, ideographic),
    (0xFF41, 0xFF5A, ideographic), (0x1F000, 0x1FAFF, ideographic),
    (0x20000, 0x3FFFD, ideographic)]

/-- The class of a character. -/
def ofChar (c : Char) : BreakClass :=
  if c.isDigit then numeric
  else if c.toNat < 0x80 then
    match ofSign.lookup c with
    | some found => found
    | none => if c.toNat < 0x20 || c.toNat = 0x7F then combining else alphabetic
  else
    match ranges.find? fun (low, high, _) => low ≤ c.toNat && c.toNat ≤ high with
    | some (_, _, found) => found
    | none => alphabetic

/-- The classes that no break stands in front of, not even behind blanks. -/
def staysBehind (right : BreakClass) : Bool :=
  right ∈ [lineEnd, space, gap, joiner, closing, closingBracket, exclamation, separator, slash]

/-- The classes that no break stands in front of unless there are blanks. -/
def staysClose (right : BreakClass) : Bool :=
  right ∈ [quotation, breakAfter, hyphen, nonStarter, ellipsis]

/-- The pairs of classes that belong together unless there are blanks between them. -/
def attached : List (BreakClass × BreakClass) :=
  [(alphabetic, alphabetic), (alphabetic, numeric), (numeric, alphabetic), (numeric, numeric),
    (numberStart, ideographic), (ideographic, numberEnd),
    (numberStart, alphabetic), (numberEnd, alphabetic), (alphabetic, numberStart),
    (alphabetic, numberEnd),
    (closing, numberEnd), (closingBracket, numberEnd), (closing, numberStart),
    (closingBracket, numberStart), (numeric, numberEnd), (numeric, numberStart),
    (numberEnd, opening), (numberEnd, numeric), (numberStart, opening), (numberStart, numeric),
    (hyphen, numeric), (separator, numeric), (slash, numeric), (separator, alphabetic),
    (alphabetic, opening), (numeric, opening), (closingBracket, alphabetic),
    (closingBracket, numeric)]

/-- Whether a line can be broken between two classes; `isSpaced` says that there are blanks between
them. -/
def admitsBreak (left : BreakClass) (isSpaced : Bool) (right : BreakClass) : Bool :=
  if left = gap then !(right = space || right = gap || right = lineEnd)
  else if right.staysBehind then false
  else if right = glue && !isSpaced && left ≠ breakAfter && left ≠ hyphen then false
  else if left = opening then false
  else if left = quotation && right = opening then false
  else if (left = closing || left = closingBracket) && right = nonStarter then false
  else if left = dash && right = dash then false
  else if isSpaced then true
  else if left ∈ [joiner, glue, quotation, breakBefore] then false
  else if right.staysClose then false
  else !attached.contains (left, right)

end BreakClass

/-- What stands in front of a place. -/
structure BreakContext where
  /-- The class of the last character that is no blank; there is none at the start of a line. -/
  left : Option BreakClass := none
  /-- Blanks stand behind that character. -/
  isSpaced : Bool := false
  last : Option Char := none

namespace BreakContext

/-- The characters that a line is not broken behind: hyphens, behind which only words are split, and
the mark that joins two signs into one. -/
def holdsNext (c : Char) : Bool :=
  c = '-' || c = '\u00ad' || c = '\u200d'

/-- The class of a character in its context: a mark that has nothing to belong to is alphabetic. -/
def classOf (context : BreakContext) (c : Char) : BreakClass :=
  let found := BreakClass.ofChar c
  let hasBase := !context.isSpaced && context.left.any fun left => left ≠ .lineEnd && left ≠ .gap
  if found = .combining && !hasBase then .alphabetic else found

/-- Whether a line can be broken in front of a character. -/
def admitsBreak (context : BreakContext) (c : Char) : Bool :=
  let right := context.classOf c
  if context.last.any holdsNext || right = .combining then false
  else
    match context.left with
    | none => context.isSpaced && !right.staysBehind
    | some .lineEnd => !(context.last = some '\r' && c = '\n')
    | some left => left.admitsBreak context.isSpaced right

/-- The context behind a character. -/
def push (context : BreakContext) (c : Char) : BreakContext :=
  match context.classOf c with
  | .space => { context with isSpaced := true, last := some c }
  | .combining => { context with last := some c }
  | found => { left := some found, isSpaced := false, last := some c }

end BreakContext

/-- The pieces of a line between the places where it can be broken; `piece` holds the characters of
the current one, the last character first. -/
def piecesFrom (context : BreakContext) (piece : List Char) : List Char → List (List Char)
  | [] => if piece.isEmpty then [] else [piece.reverse]
  | c :: rest =>
    if context.admitsBreak c then piece.reverse :: piecesFrom (context.push c) [c] rest
    else piecesFrom (context.push c) (c :: piece) rest

/-- The pieces of a line between the places where it can be broken. -/
def pieces (line : List Char) : List (List Char) :=
  piecesFrom {} [] line

end BuildConstants.Text
