import BuildConstants.Document.Basic
import BuildConstants.Text.Digits
import BuildConstants.Text.Split

/-!
# Writing JSON

The text of a document on one line without blanks. Only quotes, backslashes and control characters
are escaped.
-/

namespace BuildConstants.Json

/-- A character inside a string. -/
def writeCharacter (c : Char) : List Char :=
  match c with
  | '"' => ['\\', '"']
  | '\\' => ['\\', '\\']
  | '\x08' => ['\\', 'b']
  | '\x0c' => ['\\', 'f']
  | '\n' => ['\\', 'n']
  | '\r' => ['\\', 'r']
  | '\t' => ['\\', 't']
  | c =>
    if c.toNat < 0x20 then
      ['\\', 'u', '0', '0', Text.hexDigit (c.toNat / 16), Text.hexDigit (c.toNat % 16)]
    else [c]

/-- A string with its quotes. -/
def writeString (s : String) : String :=
  "\"" ++ String.ofList (s.toList.flatMap writeCharacter) ++ "\""

mutual

/-- The text of a document. What has no form in JSON is written as null. -/
def write : Document → String
  | .bool true => "true"
  | .bool false => "false"
  | .integer value => toString value
  | .text value | .plain value | .block value => writeString value
  | .tagged _ value => write value
  | .list items => "[" ++ Text.joinWith "," (writeItems items) ++ "]"
  | .table entries => "\x7b" ++ Text.joinWith "," (writeEntries entries) ++ "\x7d"
  | .null | .fraction | .moment | .flawed | .broken => "null"

def writeItems : List Document → List String
  | [] => []
  | item :: rest => write item :: writeItems rest

def writeEntries : List (Document × Document) → List String
  | [] => []
  | (key, value) :: rest => (write key ++ ":" ++ write value) :: writeEntries rest

end

end BuildConstants.Json
