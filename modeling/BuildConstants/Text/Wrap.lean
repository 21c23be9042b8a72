import BuildConstants.Text.LineBreak
import BuildConstants.Text.Split

/-!
# Wrapped text

Text is wrapped by putting as many words on each line as fit. A word that is longer than a line is
cut. The blanks at the end of a line are dropped.
-/

namespace BuildConstants.Text

/-! ## Widths -/

/-- The ranges of code points that take no column: control characters and marks. -/
def markRanges : List (Nat × Nat) :=
  [(0x0, 0x1F), (0x7F, 0x9F), (0xAD, 0xAD), (0x300, 0x36F), (0x483, 0x489), (0x200B, 0x200F),
    (0x2028, 0x202E), (0x2060, 0x206F), (0x20D0, 0x20F0), (0x3099, 0x309A), (0xFE00, 0xFE0F),
    (0xFEFF, 0xFEFF)]

/-- The ranges of code points that take two columns. -/
def wideRanges : List (Nat × Nat) :=
  [(0x1100, 0x115F), (0x2E80, 0x303E), (0x3041, 0xA4CF), (0xAC00, 0xD7A3), (0xF900, 0xFAFF),
    (0xFE30, 0xFE6B), (0xFF01, 0xFF60), (0xFFE0, 0xFFE6), (0x1F300, 0x1F64F), (0x1F900, 0x1FAFF),
    (0x20000, 0x3FFFD)]

def isWithin (ranges : List (Nat × Nat)) (c : Char) : Bool :=
  ranges.any fun (low, high) => low ≤ c.toNat && c.toNat ≤ high

/-- The number of columns that a character takes. -/
def columnsOf (c : Char) : Nat :=
  if isWithin markRanges c then 0 else if isWithin wideRanges c then 2 else 1

/-- The number of columns that a text takes. -/
def width (text : List Char) : Nat :=
  text.foldr (fun c columns => columnsOf c + columns) 0

/-! ## Words -/

/-- A text with the blanks behind it. -/
structure WrapWord where
  text : List Char
  blanks : List Char
deriving DecidableEq

namespace WrapWord

/-- Sets the blanks at the end of a piece of a line apart. -/
def ofPiece (piece : List Char) : WrapWord :=
  let text := (piece.reverse.dropWhile (· = ' ')).reverse
  { text, blanks := piece.drop text.length }

/-- The parts of a word behind whose hyphens it can be broken: those with a letter or a digit on
both sides. `part` holds the characters of the current part, the last one first. -/
def hyphenParts (part : List Char) : List Char → List (List Char)
  | [] => [part.reverse]
  | '-' :: next :: rest =>
    if part.head?.any isWordCharacter && isWordCharacter next then
      ('-' :: part).reverse :: hyphenParts [] (next :: rest)
    else hyphenParts ('-' :: part) (next :: rest)
  | c :: rest => hyphenParts (c :: part) rest
where
  /-- A letter or a digit; what lies outside ASCII counts as one unless it is a sign for
  breaking. -/
  isWordCharacter (c : Char) : Bool :=
    c.isAlphanum || (c.toNat ≥ 0x80 && BreakClass.ofChar c ∈ [.alphabetic, .ideographic])

/-- The parts of a word that is longer than a line; `part` holds the characters of the current part,
the last one first. -/
def cutParts (limit : Nat) (part : List Char) : List Char → List (List Char)
  | [] => if part.isEmpty then [] else [part.reverse]
  | c :: rest =>
    if 0 < width part && limit < width part + columnsOf c then
      part.reverse :: cutParts limit [c] rest
    else cutParts limit (c :: part) rest

/-- Words with the given texts, the last one with some blanks behind it. -/
def withBlanks (blanks : List Char) : List (List Char) → List WrapWord
  | [] => []
  | [text] => [{ text, blanks }]
  | text :: rest => { text, blanks := [] } :: withBlanks blanks rest

/-- The words that a word is split into behind its hyphens. -/
def splitHyphens (word : WrapWord) : List WrapWord :=
  withBlanks word.blanks (hyphenParts [] word.text)

/-- The words that a word is cut into so that each fits on a line. -/
def cut (limit : Nat) (word : WrapWord) : List WrapWord :=
  if limit < width word.text then withBlanks word.blanks (cutParts limit [] word.text) else [word]

/-- The words of a line. -/
def ofLine (limit : Nat) (line : List Char) : List WrapWord :=
  ((pieces line).map ofPiece).flatMap splitHyphens |>.flatMap (cut limit)

/-- Some words as a line, which ends where the last word does. -/
def lineOf : List WrapWord → List Char
  | [] => []
  | [word] => word.text
  | word :: rest => word.text ++ word.blanks ++ lineOf rest

/-- Puts words on lines; `line` holds the words on the current one, the last one first, which take
`used` columns with their blanks. -/
def fill (limit : Nat) (line : List WrapWord) (used : Nat) : List WrapWord → List (List Char)
  | [] => [lineOf line.reverse]
  | word :: rest =>
    let taken := width word.text + word.blanks.length
    if limit < used + width word.text && !line.isEmpty then
      lineOf line.reverse :: fill limit [word] taken rest
    else fill limit (word :: line) (used + taken) rest

end WrapWord

/-- The lines that a text is wrapped to, of which none takes more than `limit` columns. The line
breaks of the text are kept. -/
def wrap (limit : Nat) (text : String) : List String :=
  (parts '\n' text).flatMap fun line =>
    let words := WrapWord.ofLine limit line.toList
    (WrapWord.fill limit [] 0 words).map String.ofList

end BuildConstants.Text
