import BuildConstants.Document.Yaml.Cursor
import BuildConstants.Text.Digits

/-!
# Tags and directives of YAML

A tag is written as a handle and a suffix. A directive can say what a handle stands for.
-/

namespace BuildConstants.Yaml

/-- A tag as it is written. Without a handle the suffix is the whole tag. -/
structure TagText where
  handle : String
  suffix : String

/-! ## Escaped octets -/

/-- The octet that a percent sign and two digits stand for. -/
def readOctet? (cursor : Cursor) : Option (UInt8 × Cursor) :=
  match cursor.rest with
  | '%' :: a :: b :: _ =>
    (Text.ofDigits? 16 [a, b]).map fun value => (value.toUInt8, cursor.advance 3)
  | _ => none

/-- The number of octets of a character that starts with the given one. -/
def octetCount? (octet : UInt8) : Option Nat :=
  if octet &&& 0x80 = 0 then some 1
  else if octet &&& 0xE0 = 0xC0 then some 2
  else if octet &&& 0xF0 = 0xE0 then some 3
  else if octet &&& 0xF8 = 0xF0 then some 4
  else none

/-- Reads some octets that go on a character. -/
def readTrailing? : Nat → Cursor → Option (List UInt8 × Cursor)
  | 0, cursor => some ([], cursor)
  | count + 1, cursor => do
    let (octet, cursor) ← readOctet? cursor
    if octet &&& 0xC0 = 0x80 then
      let (others, cursor) ← readTrailing? count cursor
      some (octet :: others, cursor)
    else none

/-- Reads a character that is written by its octets. -/
def readEscapedCharacter? (cursor : Cursor) : Option (Char × Cursor) := do
  let (octet, cursor) ← readOctet? cursor
  let (others, cursor) ← readTrailing? ((← octetCount? octet) - 1) cursor
  let text ← String.fromUTF8? ⟨(octet :: others).toArray⟩
  some (← text.toList.head?, cursor)

/-! ## Tags -/

/-- The characters of tags. Flow marks are among them only inside angle brackets. -/
def isTagChar (verbatim : Bool) (c : Char) : Bool :=
  isNameChar c || c ∈ ";/?:@&=+$.%!~*'()".toList || (verbatim && c ∈ ",[]".toList)

/-- Reads the characters of a tag. -/
def readTagChars? (verbatim : Bool) : (budget : Nat) → Cursor → Option (List Char × Cursor)
  | 0, _ => none
  | budget + 1, cursor =>
    match cursor.head? with
    | none => some ([], cursor)
    | some c =>
      if isTagChar verbatim c then do
        let (c, cursor) ←
          if c = '%' then readEscapedCharacter? cursor else some (c, cursor.advance 1)
        let (others, cursor) ← readTagChars? verbatim budget cursor
        some (c :: others, cursor)
      else some ([], cursor)

/-- Reads a part of a tag that is not empty, unless something stands in front of it. -/
def readTagPart? (verbatim hasFront : Bool) (cursor : Cursor) : Option (List Char × Cursor) := do
  let (chars, rest) ← readTagChars? verbatim (cursor.rest.length + 1) cursor
  if chars.isEmpty && !hasFront then none else some (chars, rest)

/-- Reads an exclamation mark and a name, with the mark that may follow it. -/
def readHandle? (cursor : Cursor) : Option (List Char × Cursor) :=
  if cursor.head? = some '!' then
    let name := (cursor.advance 1).run isNameChar
    let cursor := cursor.advance (name.length + 1)
    if cursor.head? = some '!' then some ('!' :: name ++ ['!'], cursor.advance 1)
    else some ('!' :: name, cursor)
  else none

/-- A handle that is a name between marks, or two marks. -/
def isNamedHandle (handle : List Char) : Bool :=
  2 ≤ handle.length && handle.getLast? = some '!'

/-- Reads a tag between angle brackets. -/
def readVerbatimTag? (cursor : Cursor) : Option (TagText × Cursor) := do
  let (suffix, cursor) ← readTagPart? true false (cursor.advance 2)
  if cursor.head? = some '>' then some (⟨"", String.ofList suffix⟩, cursor.advance 1) else none

/-- Reads a tag that may have a handle. A mark alone is a whole tag. -/
def readShortTag? (cursor : Cursor) : Option (TagText × Cursor) := do
  let (handle, cursor) ← readHandle? cursor
  if isNamedHandle handle then
    let (suffix, cursor) ← readTagPart? false false cursor
    some (⟨String.ofList handle, String.ofList suffix⟩, cursor)
  else
    let (others, cursor) ← readTagPart? false true cursor
    match handle.drop 1 ++ others with
    | [] => some (⟨"", "!"⟩, cursor)
    | suffix => some (⟨"!", String.ofList suffix⟩, cursor)

/-- Reads a tag. A gap follows it, or a comma between brackets. -/
def readTag? (inFlow : Bool) (cursor : Cursor) : Option (TagText × Cursor) := do
  let (tag, cursor) ←
    if cursor.at? 1 = some '<' then readVerbatimTag? cursor else readShortTag? cursor
  if (inFlow && cursor.head? = some ',') || isGap cursor.head? then some (tag, cursor) else none

/-! ## Directives -/

/-- What a line that starts with a percent sign says. -/
inductive Directive where
  | version (major minor : Nat)
  /-- The handle stands for the given start of a tag. -/
  | handle (name meaning : String)

/-- The number of digits that a part of a version can have. -/
def versionDigits : Nat :=
  9

/-- Reads a part of a version. -/
def readVersionPart? (cursor : Cursor) : Option (Nat × Cursor) :=
  let digits := cursor.run Char.isDigit
  if digits.isEmpty || digits.length > versionDigits then none
  else (Text.ofDigits? 10 digits).map (·, cursor.advance digits.length)

/-- Reads a version: two numbers with a point between them. -/
def readVersion? (cursor : Cursor) : Option (Directive × Cursor) := do
  let (major, cursor) ← readVersionPart? (cursor.skipRun isBlank)
  if cursor.head? = some '.' then
    let (minor, cursor) ← readVersionPart? (cursor.advance 1)
    some (.version major minor, cursor)
  else none

/-- Reads a handle and what it stands for. -/
def readHandleMeaning? (cursor : Cursor) : Option (Directive × Cursor) := do
  let (handle, cursor) ← readHandle? (cursor.skipRun isBlank)
  if (handle = ['!'] || isNamedHandle handle) && cursor.head?.any isBlank then
    let (meaning, cursor) ← readTagPart? true false (cursor.skipRun isBlank)
    if isGap cursor.head? then
      some (.handle (String.ofList handle) (String.ofList meaning), cursor)
    else none
  else none

/-- Reads a directive at its percent sign, with its line. -/
def readDirective? (cursor : Cursor) : Option (Directive × Cursor) := do
  let cursor := cursor.advance 1
  let name := cursor.run isNameChar
  let cursor := cursor.advance name.length
  if name.isEmpty || !isGap cursor.head? then none
  else
    let (directive, cursor) ←
      if name = "YAML".toList then readVersion? cursor
      else if name = "TAG".toList then readHandleMeaning? cursor
      else none
    some (directive, ← cursor.finishLine?)

end BuildConstants.Yaml
