import BuildConstants.Document.Toml.Quoted
import BuildConstants.Document.Toml.Scalar

/-!
# Statements of TOML

A text in TOML is a sequence of statements, each on lines of its own: a key with its value, the
header of a table, or the header of an element of a list of tables. What a statement means depends
on those before it.
-/

namespace BuildConstants.Toml

/-- A dotted key: the keys of the tables on the way, and the last key. -/
structure Key where
  tables : List String
  name : String

/-- A value as it is written. -/
inductive Value where
  | scalar (document : Document)
  | list (items : List Value)
  | table (entries : List (Key × Value))
deriving Inhabited

/-- A statement as it is written. -/
inductive Statement where
  | assignment (key : Key) (value : Value)
  | tableHeader (key : Key)
  | elementHeader (key : Key)

/-! ## Between the statements -/

def skipSpaces (cs : List Char) : List Char :=
  cs.dropWhile isSpace

/-- Drops blanks, line breaks and comments; `inComment` says that a comment has been started on this
line. A comment has no control characters. -/
def skipFiller? : (inComment : Bool) → List Char → Option (List Char)
  | _, [] => some []
  | _, '\n' :: rest | _, '\r' :: '\n' :: rest => skipFiller? false rest
  | true, c :: rest => if isLineChar c then skipFiller? true rest else none
  | false, '#' :: rest => skipFiller? true rest
  | false, c :: rest => if isSpace c then skipFiller? false rest else some (c :: rest)

/-- Behind a statement there may be blanks and a comment up to the end of its line. -/
def endLine? (cs : List Char) : Option (List Char) :=
  let rest := match skipSpaces cs with
    | '#' :: comment => comment.dropWhile isLineChar
    | rest => rest
  match rest with
  | [] => some []
  | rest => (readBreak? rest).map (·.2)

/-! ## Keys -/

/-- The characters of keys without quotes. -/
def isKeyChar (c : Char) : Bool :=
  c.isAlphanum || c = '_' || c = '-'

/-- Reads a key between two dots. -/
def readPlainKey? (cs : List Char) : Option (String × List Char) :=
  if startsLongString cs then none
  else
    match cs with
    | '"' :: _ | '\'' :: _ => readString? cs
    | cs =>
      match cs.span isKeyChar with
      | ([], _) => none
      | (name, rest) => some (String.ofList name, rest)

/-- Reads a key with its dots. -/
def readKey? : (budget : Nat) → List Char → Option (Key × List Char)
  | 0, _ => none
  | budget + 1, cs => do
    let (name, rest) ← readPlainKey? (skipSpaces cs)
    match skipSpaces rest with
    | '.' :: rest =>
      let (key, rest) ← readKey? budget rest
      some ({ key with tables := name :: key.tables }, rest)
    | rest => some (⟨[], name⟩, rest)

/-- Reads a key with its dots, and drops the blanks around it. -/
def readWholeKey? (cs : List Char) : Option (Key × List Char) :=
  readKey? (cs.length + 1) cs

/-! ## Values -/

/-- How deeply lists and tables can be nested in a value. -/
def nestingLimit : Nat :=
  80

mutual

/-- Reads a value. Lists and tables inside it are nested at most `depth` deep; the budget is spent
on the parts of the value, and one as large as the text never runs out. -/
def readValue? : (budget depth : Nat) → List Char → Option (Value × List Char)
  | 0, _, _ => none
  | budget + 1, depth, cs =>
    match cs, depth with
    | '[' :: _, 0 | '\x7b' :: _, 0 => none
    | '[' :: rest, depth + 1 => do
      let (items, rest) ← readItems? budget depth rest
      some (.list items, rest)
    | '\x7b' :: rest, depth + 1 => do
      let (entries, rest) ← readEntries? budget depth rest
      some (.table entries, rest)
    | cs, _ =>
      if startsLongString cs then
        (readLongString? cs).map fun (text, rest) => (.scalar (.text text), rest)
      else
        match cs with
        | '"' :: _ | '\'' :: _ =>
          (readString? cs).map fun (text, rest) => (.scalar (.text text), rest)
        | cs => (readScalar? cs).map fun (document, rest) => (.scalar document, rest)

/-- Reads the items of a list up to its end. A comma may follow the last one. -/
def readItems? : (budget depth : Nat) → List Char → Option (List Value × List Char)
  | 0, _, _ => none
  | budget + 1, depth, cs => do
    match ← skipFiller? false cs with
    | ']' :: rest => some ([], rest)
    | rest => do
      let (item, rest) ← readValue? budget depth rest
      match ← skipFiller? false rest with
      | ',' :: rest =>
        let (items, rest) ← readItems? budget depth rest
        some (item :: items, rest)
      | ']' :: rest => some ([item], rest)
      | _ => none

/-- Reads the entries of a table between braces up to its end. A comma may follow the last one. -/
def readEntries? : (budget depth : Nat) → List Char → Option (List (Key × Value) × List Char)
  | 0, _, _ => none
  | budget + 1, depth, cs => do
    match ← skipFiller? false cs with
    | '\x7d' :: rest => some ([], rest)
    | rest => do
      let (key, rest) ← readWholeKey? rest
      match rest with
      | '=' :: rest =>
        let (value, rest) ← readValue? budget depth (skipSpaces rest)
        match ← skipFiller? false rest with
        | ',' :: rest =>
          let (entries, rest) ← readEntries? budget depth rest
          some ((key, value) :: entries, rest)
        | '\x7d' :: rest => some ([(key, value)], rest)
        | _ => none
      | _ => none

end

/-! ## Statements -/

/-- Reads a statement. -/
def readStatement? (cs : List Char) : Option (Statement × List Char) :=
  match cs with
  | '[' :: '[' :: rest => do
    match ← readWholeKey? rest with
    | (key, ']' :: ']' :: rest) => some (.elementHeader key, rest)
    | _ => none
  | '[' :: rest => do
    match ← readWholeKey? rest with
    | (key, ']' :: rest) => some (.tableHeader key, rest)
    | _ => none
  | cs => do
    match ← readWholeKey? cs with
    | (key, '=' :: rest) =>
      let rest := skipSpaces rest
      let (value, rest) ← readValue? (2 * rest.length + 2) nestingLimit rest
      some (.assignment key value, rest)
    | _ => none

/-- Reads statements up to the end of the text. -/
def readStatements? : (budget : Nat) → List Char → Option (List Statement)
  | 0, _ => none
  | budget + 1, cs => do
    match ← skipFiller? false cs with
    | [] => some []
    | rest => do
      let (statement, rest) ← readStatement? rest
      let others ← readStatements? budget (← endLine? rest)
      some (statement :: others)

/-- The statements of a text, which can begin with a byte order mark. -/
def statements? (text : String) : Option (List Statement) :=
  let cs := match text.toList with
    | '\uFEFF' :: rest => rest
    | cs => cs
  readStatements? (cs.length + 1) cs

end BuildConstants.Toml
