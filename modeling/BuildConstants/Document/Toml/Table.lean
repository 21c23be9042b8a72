import BuildConstants.Document.Toml.Statement

/-!
# Tables of TOML

The tables that statements build up. A table can be defined once: by its header, by dotted keys, or
between braces. A table that has only been named on the way to another one is still open to its
header. The keys of a table are kept in increasing order.
-/

namespace BuildConstants.Toml

/-- How a table that can still grow came to be. -/
inductive TableOrigin where
  /-- By its header. The table of the whole text counts as one of these. -/
  | header
  /-- On the way to a table in some header. -/
  | implied
  /-- By a dotted key. -/
  | dotted
deriving DecidableEq

/-- The value of a key while statements are taken in. -/
inductive Node where
  /-- A value that nothing is added to. -/
  | closed (document : Document)
  | table (origin : TableOrigin) (entries : List (String × Node))
  /-- A list of tables, of which the last one can grow. -/
  | tables (earlier : List (List (String × Node))) (last : List (String × Node))

/-- The entries of a table. -/
abbrev Entries : Type :=
  List (String × Node)

namespace Entries

def get? (entries : Entries) (name : String) : Option Node :=
  (entries.find? (·.1 = name)).map (·.2)

/-- Sets the value of a key. -/
def set (name : String) (node : Node) : Entries → Entries
  | [] => [(name, node)]
  | (other, found) :: rest =>
    if name < other then (name, node) :: (other, found) :: rest
    else if name = other then (name, node) :: rest
    else (other, found) :: set name node rest

/-- Changes the table at the end of a path, starting at a table of the given origin. Tables that are
missing on the way are made. A dotted key does not lead through a table that has a header, and
nothing leads through a value that is closed. -/
def changeAt (dotted : Bool) (change : TableOrigin → Entries → Option Entries) :
    List String → TableOrigin → Entries → Option Entries
  | [], origin, entries => change origin entries
  | name :: path, _, entries =>
    match entries.get? name with
    | none => do
      let made := if dotted then .dotted else .implied
      let inner ← changeAt dotted change path made []
      some (entries.set name (.table made inner))
    | some (.table origin inner) => do
      if dotted && origin = .header then none
      else
        let inner ← changeAt dotted change path origin inner
        some (entries.set name (.table origin inner))
    | some (.tables earlier last) => do
      let last ← changeAt dotted change path .header last
      some (entries.set name (.tables earlier last))
    | some (.closed _) => none

/-- Gives a key its value, which it must not have yet. A dotted key adds only to tables that dotted
keys have made. -/
def assign (key : Key) (node : Node) (entries : Entries) : Option Entries :=
  changeAt true
    (fun origin entries =>
      if decide (origin = .dotted) = key.tables.isEmpty then none
      else if (entries.get? key.name).isSome then none
      else some (entries.set key.name node))
    key.tables .header entries

/-- Opens the table of a header. -/
def openTable (key : Key) (entries : Entries) : Option Entries :=
  changeAt false
    (fun _ entries =>
      match entries.get? key.name with
      | none => some (entries.set key.name (.table .header []))
      | some (.table .implied inner) => some (entries.set key.name (.table .header inner))
      | some _ => none)
    key.tables .header entries

/-- Opens a new element of a list of tables. -/
def openElement (key : Key) (entries : Entries) : Option Entries :=
  changeAt false
    (fun _ entries =>
      match entries.get? key.name with
      | none => some (entries.set key.name (.tables [] []))
      | some (.tables earlier last) =>
        some (entries.set key.name (.tables (earlier ++ [last]) []))
      | some _ => none)
    key.tables .header entries

end Entries

/-! ## Documents -/

mutual

/-- The document of a value of a key. -/
def Node.document : Node → Document
  | .closed document => document
  | .table _ entries => .table (entriesDocument entries)
  | .tables earlier last => .list (tableDocuments earlier ++ [.table (entriesDocument last)])

def entriesDocument : Entries → List (Document × Document)
  | [] => []
  | (name, node) :: rest => (.text name, node.document) :: entriesDocument rest

def tableDocuments : List Entries → List Document
  | [] => []
  | entries :: rest => .table (entriesDocument entries) :: tableDocuments rest

end

mutual

/-- The document of a value, unless the keys of a table in it contradict each other. -/
def Value.document? : Value → Option Document
  | .scalar document => some document
  | .list items => (itemDocuments? items).map .list
  | .table entries => (assignAll? entries []).map fun table => .table (entriesDocument table)

def itemDocuments? : List Value → Option (List Document)
  | [] => some []
  | item :: rest => do
    let document ← item.document?
    let others ← itemDocuments? rest
    some (document :: others)

/-- Assigns the entries of a table between braces, in order. -/
def assignAll? : List (Key × Value) → Entries → Option Entries
  | [], table => some table
  | (key, value) :: rest, table => do
    let document ← value.document?
    assignAll? rest (← table.assign key (.closed document))

end

/-- What the statements so far have built. -/
structure Builder where
  root : Entries
  /-- The path of the table that the latest header has opened. -/
  current : List String

namespace Builder

/-- Takes in a statement. -/
def take (builder : Builder) : Statement → Option Builder
  | .assignment key value => do
    let document ← value.document?
    let root ← Entries.changeAt false (fun _ entries => entries.assign key (.closed document))
      builder.current .header builder.root
    some { builder with root }
  | .tableHeader key => do
    some { root := ← builder.root.openTable key, current := key.tables ++ [key.name] }
  | .elementHeader key => do
    some { root := ← builder.root.openElement key, current := key.tables ++ [key.name] }

end Builder

/-- The document of a text. A text with any fault has none, wherever the fault is. -/
def read (text : String) : DocumentReading :=
  match (statements? text).bind fun statements => statements.foldlM Builder.take ⟨[], []⟩ with
  | some builder => { document := .table (entriesDocument builder.root), complete := true }
  | none => { document := .broken, complete := false }

end BuildConstants.Toml
