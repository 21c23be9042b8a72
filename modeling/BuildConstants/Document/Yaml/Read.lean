import BuildConstants.Document.Basic
import BuildConstants.Document.Yaml.Event

/-!
# Reading YAML

The document of a YAML text. References are replaced by what they refer to, up to a limit on how
often that is done and how deep it leads. Where the text stops following the grammar the document is
`broken`, and what comes before that place is kept.
-/

namespace BuildConstants.Yaml

/-- An event whose reference is resolved to a number. -/
inductive Step where
  | reference (number : Nat)
  | scalar (document : Document)
  | listStart (tag : Option String)
  | listEnd
  | tableStart (tag : Option String)
  | tableEnd

/-- The steps through a document, with the places that references lead to. -/
structure Trail where
  steps : Array Step
  /-- The place of each number, the latest one first. -/
  places : List (Nat × Nat)

/-! ## Anchors -/

/-- The anchors met so far. -/
structure Anchors where
  /-- The number of each name. -/
  numbers : List (String × Nat)
  places : List (Nat × Nat)

/-- Notes an anchor at a place. Its number is the number of names met before, so an anchor of a name
met before and the next new name share theirs. -/
def Anchors.note (anchors : Anchors) (anchor : Option String) (place : Nat) : Anchors :=
  match anchor with
  | none => anchors
  | some name =>
    let number := anchors.numbers.length
    { numbers := (name, number) :: anchors.numbers.filter (·.1 ≠ name),
      places := (number, place) :: anchors.places }

/-- The document with its tag, if it has one. -/
def withTag (tag : Option String) (document : Document) : Document :=
  tag.elim document fun tag => .tagged tag document

/-- The document of a scalar. -/
def scalarDocument (tag : Option String) (style : ScalarStyle) (text : String) : Document :=
  withTag tag
    (match style with
    | .plain => .plain text
    | .literal => .block text
    | .quoted | .folded => .text text)

/-- Resolves references in order. A reference to a name not met before ends the steps. -/
def resolve : (anchors : Anchors) → (place : Nat) → List Event → List Step × Anchors × Bool
  | anchors, _, [] => ([], anchors, true)
  | anchors, place, event :: rest =>
    let continueWith (step : Step) (anchor : Option String) : List Step × Anchors × Bool :=
      let (steps, anchors, sound) := resolve (anchors.note anchor place) (place + 1) rest
      (step :: steps, anchors, sound)
    match event with
    | .reference name =>
      match anchors.numbers.lookup name with
      | some number => continueWith (.reference number) none
      | none => ([], anchors, false)
    | .scalar properties style text =>
      continueWith (.scalar (scalarDocument properties.tag style text)) properties.anchor
    | .listStart properties => continueWith (.listStart properties.tag) properties.anchor
    | .listEnd => continueWith .listEnd none
    | .tableStart properties => continueWith (.tableStart properties.tag) properties.anchor
    | .tableEnd => continueWith .tableEnd none

/-! ## Documents -/

/-- How deeply lists and tables can be nested. -/
def nestingLimit : Nat :=
  128

/-- How often references are followed, for each step of a document. -/
def referencesPerStep : Nat :=
  100

/-- A part of a document, with the place behind it, if it is reached, and the number of references
that can still be followed. -/
structure Part (α : Type) where
  value : α
  next : Option Nat
  references : Nat

/-- A part that is broken off. -/
def Part.broken (references : Nat) : Part Document :=
  { value := .broken, next := none, references }

mutual

/-- Reads the value at a place. Lists and tables are nested at most `depth` deep. -/
def readValue (trail : Trail) : (budget depth references place : Nat) → Part Document
  | 0, _, references, _ => .broken references
  | budget + 1, depth, references, place =>
    match trail.steps[place]?, depth with
    | some (.scalar document), _ => { value := document, next := some (place + 1), references }
    | some (.reference number), depth =>
      match references, trail.places.lookup number with
      | references + 1, some target =>
        let part := readValue trail budget depth references target
        { part with next := some (place + 1) }
      | references, _ => .broken references
    | some (.listStart tag), depth + 1 =>
      let part := readItems trail budget depth references (place + 1)
      { part with value := withTag tag (.list part.value) }
    | some (.tableStart tag), depth + 1 =>
      let part := readEntries trail budget depth references (place + 1)
      { part with value := withTag tag (.table part.value) }
    | _, _ => .broken references

/-- Reads the items of a list. -/
def readItems (trail : Trail) : (budget depth references place : Nat) → Part (List Document)
  | 0, _, references, _ => { value := [.broken], next := none, references }
  | budget + 1, depth, references, place =>
    match trail.steps[place]? with
    | some .listEnd => { value := [], next := some (place + 1), references }
    | _ =>
      let item := readValue trail budget depth references place
      match item.next with
      | none => { value := [item.value], next := none, references := item.references }
      | some place =>
        let others := readItems trail budget depth item.references place
        { others with value := item.value :: others.value }

/-- Reads the entries of a table. -/
def readEntries (trail : Trail) :
    (budget depth references place : Nat) → Part (List (Document × Document))
  | 0, _, references, _ => { value := [(.broken, .broken)], next := none, references }
  | budget + 1, depth, references, place =>
    match trail.steps[place]? with
    | some .tableEnd => { value := [], next := some (place + 1), references }
    | _ =>
      let key := readValue trail budget depth references place
      match key.next with
      | none => { value := [(key.value, .broken)], next := none, references := key.references }
      | some place =>
        let value := readValue trail budget depth key.references place
        match value.next with
        | none =>
          { value := [(key.value, value.value)], next := none, references := value.references }
        | some place =>
          let others := readEntries trail budget depth value.references place
          { others with value := (key.value, value.value) :: others.value }

end

/-- The document of some events. -/
def documentOf (events : List Event) : Document × Bool :=
  let (steps, anchors, sound) := resolve ⟨[], []⟩ 0 events
  let trail : Trail := { steps := steps.toArray, places := anchors.places }
  let budget := (nestingLimit + 2) * (steps.length + 2) + nestingLimit
  ((readValue trail budget nestingLimit (referencesPerStep * steps.length) 0).value, sound)

/-- The document of a text. -/
def read (text : String) : DocumentReading :=
  let cs := text.toList
  match if cs.all isPrintable then Events.begin? cs else none with
  | none => { document := .broken, complete := false }
  | some none => { document := .plain "", complete := true }
  | some (some events) =>
    let budget := 32 * (cs.length + 2)
    let (found, last) := events.readAll budget
    let (document, sound) := documentOf found
    { document, complete := sound && last.any fun last => last.isLastDocument budget }

end BuildConstants.Yaml
