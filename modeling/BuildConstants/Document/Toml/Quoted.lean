import BuildConstants.Text.Digits

/-!
# Strings in TOML

Basic strings stand between double quotes and have escapes; literal strings stand between single
quotes and have none. Three quotes enclose a string of several lines.
-/

namespace BuildConstants.Toml

/-- The characters that stand for themselves inside a line: the tab and whatever is not a control
character. -/
def isLineChar (c : Char) : Bool :=
  c = '\t' || (0x20 ≤ c.toNat && c.toNat ≠ 0x7F)

/-- The character that a backslash and a letter stand for. -/
def escaped? : Char → Option Char
  | 'b' => some '\x08'
  | 't' => some '\t'
  | 'n' => some '\n'
  | 'f' => some '\x0c'
  | 'r' => some '\r'
  | 'e' => some '\x1b'
  | '"' => some '"'
  | '\\' => some '\\'
  | _ => none

/-- How many digits the number of a character has behind the given letter. -/
def codeLength? : Char → Option Nat
  | 'x' => some 2
  | 'u' => some 4
  | 'U' => some 8
  | _ => none

/-- The character with the given number, unless it is half a pair or out of range. -/
def character? (code : Nat) : Option Char :=
  if code.isValidChar then some (Char.ofNat code) else none

/-- Reads an escape behind its backslash. -/
def readEscape? : List Char → Option (Char × List Char)
  | [] => none
  | c :: rest =>
    match codeLength? c with
    | some length => do
      let digits := rest.take length
      if digits.length = length then
        let character ← character? (← Text.ofDigits? 16 digits)
        some (character, rest.drop length)
      else none
    | none => (escaped? c).map (·, rest)

/-- Reads a line break, which a carriage return may stand in front of. -/
def readBreak? : List Char → Option (List Char × List Char)
  | '\n' :: rest => some (['\n'], rest)
  | '\r' :: '\n' :: rest => some (['\r', '\n'], rest)
  | _ => none

/-- The line break that directly follows the opening quotes is not part of the string. -/
def skipFirstBreak (cs : List Char) : List Char :=
  (readBreak? cs).elim cs (·.2)

def isSpace (c : Char) : Bool :=
  c = ' ' || c = '\t'

/-- Drops blanks and line breaks. -/
def skipBlankLines : List Char → List Char
  | ' ' :: rest | '\t' :: rest | '\n' :: rest | '\r' :: '\n' :: rest => skipBlankLines rest
  | rest => rest

/-- A backslash at the end of a line drops the line break and all blanks behind it. -/
def skipJoin? (cs : List Char) : Option (List Char) :=
  (readBreak? (cs.dropWhile isSpace)).map fun (_, rest) => skipBlankLines rest

/-- Reads a basic string of one line behind its opening quote. The budget is the number of
characters that are left. -/
def readBasic? : (budget : Nat) → List Char → Option (List Char × List Char)
  | 0, _ | _, [] => none
  | _ + 1, '"' :: rest => some ([], rest)
  | budget + 1, '\\' :: rest => do
    let (c, rest) ← readEscape? rest
    let (content, rest) ← readBasic? budget rest
    some (c :: content, rest)
  | budget + 1, c :: rest => do
    if isLineChar c then
      let (content, rest) ← readBasic? budget rest
      some (c :: content, rest)
    else none

/-- Reads a literal string of one line behind its opening quote. -/
def readLiteral? : List Char → Option (List Char × List Char)
  | [] => none
  | '\'' :: rest => some ([], rest)
  | c :: rest => do
    if isLineChar c then
      let (content, rest) ← readLiteral? rest
      some (c :: content, rest)
    else none

/-- Quotes inside a string of several lines: up to two of them are content, and three or more end
it. Of those that end it up to two are content. -/
inductive QuoteRun where
  | inside (quotes rest : List Char)
  | closing (quotes rest : List Char)

/-- Takes the quotes from the front of a text. -/
def QuoteRun.take (quote : Char) (cs : List Char) : QuoteRun :=
  let count := (cs.takeWhile (· = quote)).length
  if count < 3 then .inside (cs.take count) (cs.drop count)
  else
    let extra := min (count - 3) 2
    .closing (cs.take extra) (cs.drop (extra + 3))

/-- Reads a basic string of several lines behind its opening quotes. -/
def readLongBasic? : (budget : Nat) → List Char → Option (List Char × List Char)
  | 0, _ | _, [] => none
  | budget + 1, '"' :: rest =>
    match QuoteRun.take '"' ('"' :: rest) with
    | .closing quotes rest => some (quotes, rest)
    | .inside quotes rest => do
      let (content, rest) ← readLongBasic? budget rest
      some (quotes ++ content, rest)
  | budget + 1, '\\' :: rest =>
    match rest with
    | [] => none
    | c :: _ => do
      if isSpace c || c = '\n' || c = '\r' then readLongBasic? budget (← skipJoin? rest)
      else
        let (c, rest) ← readEscape? rest
        let (content, rest) ← readLongBasic? budget rest
        some (c :: content, rest)
  | budget + 1, c :: rest => do
    let (first, rest) ← if isLineChar c then some ([c], rest) else readBreak? (c :: rest)
    let (content, rest) ← readLongBasic? budget rest
    some (first ++ content, rest)

/-- Reads a literal string of several lines behind its opening quotes. -/
def readLongLiteral? : (budget : Nat) → List Char → Option (List Char × List Char)
  | 0, _ | _, [] => none
  | budget + 1, '\'' :: rest =>
    match QuoteRun.take '\'' ('\'' :: rest) with
    | .closing quotes rest => some (quotes, rest)
    | .inside quotes rest => do
      let (content, rest) ← readLongLiteral? budget rest
      some (quotes ++ content, rest)
  | budget + 1, c :: rest => do
    let (first, rest) ← if isLineChar c then some ([c], rest) else readBreak? (c :: rest)
    let (content, rest) ← readLongLiteral? budget rest
    some (first ++ content, rest)

/-- Reads a string of one line, if the text starts with one. -/
def readString? (cs : List Char) : Option (String × List Char) := do
  let (content, rest) ← match cs with
    | '"' :: rest => readBasic? (rest.length + 1) rest
    | '\'' :: rest => readLiteral? rest
    | _ => none
  some (String.ofList content, rest)

/-- Reads a string of several lines, if the text starts with one. -/
def readLongString? (cs : List Char) : Option (String × List Char) := do
  let (content, rest) ← match cs with
    | '"' :: '"' :: '"' :: rest =>
      let body := skipFirstBreak rest
      readLongBasic? (body.length + 1) body
    | '\'' :: '\'' :: '\'' :: rest =>
      let body := skipFirstBreak rest
      readLongLiteral? (body.length + 1) body
    | _ => none
  some (String.ofList content, rest)

/-- A text that starts with three quotes of one kind. -/
def startsLongString : List Char → Bool
  | '"' :: '"' :: '"' :: _ | '\'' :: '\'' :: '\'' :: _ => true
  | _ => false

end BuildConstants.Toml
