import BuildConstants.Document.Yaml.Token

/-!
# Events of YAML

The tokens of a document, grouped into events: scalars, references, and the starts and ends of lists
and tables. The grammar is followed from one phase to the next; phases that are still to be finished
are kept on a stack.
-/

namespace BuildConstants.Yaml

/-- What can stand in front of a value. -/
structure Properties where
  anchor : Option String
  tag : Option String

/-- No properties. -/
def Properties.none : Properties :=
  ⟨.none, .none⟩

/-- A step through a document in the order of its text. -/
inductive Event where
  | reference (name : String)
  | scalar (properties : Properties) (style : ScalarStyle) (text : String)
  | listStart (properties : Properties)
  | listEnd
  | tableStart (properties : Properties)
  | tableEnd

/-- An empty scalar, which stands where a value is left out. -/
def Event.empty : Event :=
  .scalar .none .plain ""

/-- The place of the grammar that comes next. -/
inductive Phase where
  | documentContent
  | documentEnd
  | blockListItem
  /-- The item of a list that is not indented further than the table around it. -/
  | flatListItem
  | blockTableKey
  | blockTableValue
  | flowListFirst
  | flowListItem
  /-- The key of a table with one entry and without braces, inside a list. -/
  | flowPairKey
  | flowPairValue
  | flowPairEnd
  | flowTableFirst
  | flowTableKey
  | flowTableValue
  /-- The value of a key without a colon, inside a table. -/
  | flowTableNoValue
deriving DecidableEq

/-- The reading of tokens into events. -/
structure Events where
  tokens : Tokens
  /-- The handles of tags, with what they stand for. -/
  handles : List (String × String)
  phase : Phase
  /-- The phases that follow once the lists and tables that are open are finished. -/
  outer : List Phase

namespace Events

/-- The handles that have a meaning without a directive. -/
def standardHandles : List (String × String) :=
  [("!", "!"), ("!!", "tag:yaml.org,2002:")]

def peek? (events : Events) : Option (Token × Events) := do
  let (token, tokens) ← events.tokens.peek?
  some (token, { events with tokens })

/-- Takes the next token. -/
def drop (events : Events) : Events :=
  { events with tokens := events.tokens.drop }

/-- Takes the next token and looks at the one behind it. -/
def dropAndPeek? (events : Events) : Option (Token × Events) :=
  events.drop.peek?

/-- Goes on with a phase. -/
def goTo (events : Events) (phase : Phase) : Events :=
  { events with phase }

/-- Goes on with a phase once the next value is finished. -/
def thenGoTo (events : Events) (phase : Phase) : Events :=
  { events with outer := phase :: events.outer }

/-- Goes on with the phase behind the value that is finished. -/
def finish (events : Events) : Events :=
  match events.outer with
  | [] => { events with phase := .documentEnd }
  | phase :: outer => { events with phase, outer }

/-! ## Values -/

/-- The whole tag that a written tag stands for. -/
def tagOf? (events : Events) (tag : TagText) : Option String :=
  if tag.handle = "" then some tag.suffix
  else (events.handles.lookup tag.handle).map (· ++ tag.suffix)

/-- Reads the anchor and the tag in front of a value, in either order, and looks at the token behind
them. -/
def readProperties? (events : Events) : Option (Properties × Token × Events) := do
  let (token, events) ← events.peek?
  match token with
  | .anchor name =>
    let (token, events) ← events.dropAndPeek?
    match token with
    | .tag tag =>
      let (token, events) ← events.dropAndPeek?
      some (⟨name, some (← events.tagOf? tag)⟩, token, events)
    | token => some (⟨name, none⟩, token, events)
  | .tag tag =>
    let (token, events) ← events.dropAndPeek?
    match token with
    | .anchor name =>
      let (token, events) ← events.dropAndPeek?
      some (⟨name, some (← events.tagOf? tag)⟩, token, events)
    | token => some (⟨none, some (← events.tagOf? tag)⟩, token, events)
  | token => some (⟨none, none⟩, token, events)

/-- The properties of a scalar: the mark alone is no tag for it. -/
def scalarProperties (properties : Properties) : Properties :=
  { properties with tag := properties.tag.filter (· ≠ "!") }

/-- Reads the start of a value. In a block it can be a list or table in a block, and where
`flatList` is set also a list that is not indented. -/
def readValue? (events : Events) (inBlock flatList : Bool) : Option (Event × Events) := do
  let (token, events) ← events.peek?
  match token with
  | .reference name => some (.reference name, events.finish.drop)
  | _ =>
    let (properties, token, events) ← events.readProperties?
    match token with
    | .scalar style text =>
      some (.scalar (scalarProperties properties) style text, events.finish.drop)
    | .flowListStart => some (.listStart properties, (events.goTo .flowListFirst).drop)
    | .flowTableStart => some (.tableStart properties, (events.goTo .flowTableFirst).drop)
    | token =>
      match inBlock, flatList, token with
      | _, true, .blockEntry => some (.listStart properties, events.goTo .flatListItem)
      | true, _, .blockListStart => some (.listStart properties, (events.goTo .blockListItem).drop)
      | true, _, .blockTableStart =>
        some (.tableStart properties, (events.goTo .blockTableKey).drop)
      | _, _, _ =>
        if properties.anchor.isSome || properties.tag.isSome then
          some (.scalar properties .plain "", events.finish)
        else none

/-- Leaves a value out. -/
def leaveOut (events : Events) (phase : Phase) : Option (Event × Events) :=
  some (.empty, events.goTo phase)

/-! ## Blocks -/

/-- The tokens that show that the value behind a key or a colon in a block is left out. -/
def endsBlockEntry : Token → Bool
  | .key | .value | .blockEnd => true
  | _ => false

def readBlockListItem? (events : Events) : Option (Event × Events) := do
  match ← events.peek? with
  | (.blockEntry, events) =>
    match ← events.dropAndPeek? with
    | (.blockEntry, events) | (.blockEnd, events) => events.leaveOut .blockListItem
    | (_, events) => (events.thenGoTo .blockListItem).readValue? true false
  | (.blockEnd, events) => some (.listEnd, events.finish.drop)
  | _ => none

def readFlatListItem? (events : Events) : Option (Event × Events) := do
  match ← events.peek? with
  | (.blockEntry, events) =>
    match ← events.dropAndPeek? with
    | (.blockEntry, events) => events.leaveOut .flatListItem
    | (token, events) =>
      if endsBlockEntry token then events.leaveOut .flatListItem
      else (events.thenGoTo .flatListItem).readValue? true false
  | (_, events) => some (.listEnd, events.finish)

def readBlockTableKey? (events : Events) : Option (Event × Events) := do
  match ← events.peek? with
  | (.key, events) =>
    let (token, events) ← events.dropAndPeek?
    if endsBlockEntry token then events.leaveOut .blockTableValue
    else (events.thenGoTo .blockTableValue).readValue? true true
  | (.blockEnd, events) => some (.tableEnd, events.finish.drop)
  | _ => none

def readBlockTableValue? (events : Events) : Option (Event × Events) := do
  match ← events.peek? with
  | (.value, events) =>
    let (token, events) ← events.dropAndPeek?
    if endsBlockEntry token then events.leaveOut .blockTableKey
    else (events.thenGoTo .blockTableKey).readValue? true true
  | (_, events) => events.leaveOut .blockTableKey

/-! ## Brackets -/

/-- Reads the comma in front of an item, unless the item is the first one or the closing token
stands here; looks at the token behind it. -/
def readComma? (events : Events) (first : Bool) (isClosing : Token → Bool) :
    Option (Token × Events) := do
  let (token, events) ← events.peek?
  if first || isClosing token then some (token, events)
  else
    match token with
    | .flowEntry => events.dropAndPeek?
    | _ => none

def isListEnd : Token → Bool
  | .flowListEnd => true
  | _ => false

def isTableEnd : Token → Bool
  | .flowTableEnd => true
  | _ => false

def readFlowListItem? (events : Events) (first : Bool) : Option (Event × Events) := do
  match ← events.readComma? first isListEnd with
  | (.flowListEnd, events) => some (.listEnd, events.finish.drop)
  | (.key, events) => some (.tableStart .none, (events.goTo .flowPairKey).drop)
  | (_, events) => (events.thenGoTo .flowListItem).readValue? false false

def readFlowPairKey? (events : Events) : Option (Event × Events) := do
  match ← events.peek? with
  | (.value, events) | (.flowEntry, events) | (.flowListEnd, events) =>
    events.drop.leaveOut .flowPairValue
  | (_, events) => (events.thenGoTo .flowPairValue).readValue? false false

def readFlowPairValue? (events : Events) : Option (Event × Events) := do
  match ← events.peek? with
  | (.value, events) =>
    match ← events.dropAndPeek? with
    | (.flowEntry, events) | (.flowListEnd, events) => events.leaveOut .flowPairEnd
    | (_, events) => (events.thenGoTo .flowPairEnd).readValue? false false
  | (_, events) => events.leaveOut .flowPairEnd

def readFlowPairEnd? (events : Events) : Option (Event × Events) := do
  let (_, events) ← events.peek?
  some (.tableEnd, events.goTo .flowListItem)

def readFlowTableKey? (events : Events) (first : Bool) : Option (Event × Events) := do
  match ← events.readComma? first isTableEnd with
  | (.flowTableEnd, events) => some (.tableEnd, events.finish.drop)
  | (.key, events) =>
    match ← events.dropAndPeek? with
    | (.value, events) | (.flowEntry, events) | (.flowTableEnd, events) =>
      events.leaveOut .flowTableValue
    | (_, events) => (events.thenGoTo .flowTableValue).readValue? false false
  | (_, events) => (events.thenGoTo .flowTableNoValue).readValue? false false

def readFlowTableValue? (events : Events) : Option (Event × Events) := do
  match ← events.peek? with
  | (.value, events) =>
    match ← events.dropAndPeek? with
    | (.flowEntry, events) | (.flowTableEnd, events) => events.leaveOut .flowTableKey
    | (_, events) => (events.thenGoTo .flowTableKey).readValue? false false
  | (_, events) => events.leaveOut .flowTableKey

/-! ## Documents -/

/-- Reads the value of a document behind its mark, which can be left out. -/
def readContent? (events : Events) : Option (Event × Events) := do
  match ← events.peek? with
  | (.directive _, events) | (.documentStart, events) | (.documentEnd, events)
  | (.streamEnd, events) => events.leaveOut .documentEnd
  | (_, events) => events.readValue? true false

/-- Reads the next event of a document that is not finished. -/
def next? (events : Events) : Option (Event × Events) :=
  match events.phase with
  | .documentContent => events.readContent?
  | .documentEnd => none
  | .blockListItem => events.readBlockListItem?
  | .flatListItem => events.readFlatListItem?
  | .blockTableKey => events.readBlockTableKey?
  | .blockTableValue => events.readBlockTableValue?
  | .flowListFirst => events.readFlowListItem? true
  | .flowListItem => events.readFlowListItem? false
  | .flowPairKey => events.readFlowPairKey?
  | .flowPairValue => events.readFlowPairValue?
  | .flowPairEnd => events.readFlowPairEnd?
  | .flowTableFirst => events.readFlowTableKey? true
  | .flowTableKey => events.readFlowTableKey? false
  | .flowTableValue => events.readFlowTableValue?
  | .flowTableNoValue => do
    let (_, events) ← events.peek?
    events.leaveOut .flowTableKey

/-- Adds what a directive says. A version is given once and is one of those known, and a handle is
given once. -/
def addDirective? (hasVersion : Bool) (handles : List (String × String)) :
    Directive → Option (Bool × List (String × String))
  | .version major minor =>
    if hasVersion || major ≠ 1 || (minor ≠ 1 && minor ≠ 2) then none else some (true, handles)
  | .handle name meaning =>
    if (handles.lookup name).isSome then none else some (hasVersion, handles ++ [(name, meaning)])

/-- Reads the directives in front of a document and looks at the token behind them. -/
def readDirectives? : (budget : Nat) → (hasVersion : Bool) → Events → Option (Token × Events)
  | 0, _, _ => none
  | budget + 1, hasVersion, events => do
    match ← events.peek? with
    | (.directive directive, events) =>
      let (hasVersion, handles) ← addDirective? hasVersion events.handles directive
      readDirectives? budget hasVersion { events.drop with handles }
    | (token, events) => some (token, events)

/-- Reads a text up to the first value of its first document. A text without a document has nothing
to read. -/
def begin? (cs : List Char) : Option (Option Events) := do
  let events : Events :=
    { tokens := .start cs, handles := [], phase := .documentContent, outer := [] }
  let (first, events) ← events.peek?
  match first with
  | .streamEnd => some none
  | .directive _ | .documentStart =>
    match ← readDirectives? (cs.length + 1) false events with
    | (.documentStart, events) =>
      some (some { events.drop with handles := events.handles ++ standardHandles })
    | _ => none
  | _ => some (some { events with handles := standardHandles })

/-- Reads events up to the end of the document; gives the reading behind it, if it is reached. -/
def readAll : (budget : Nat) → Events → List Event × Option Events
  | 0, _ => ([], none)
  | budget + 1, events =>
    if events.phase = .documentEnd then ([], some events)
    else
      match events.next? with
      | none => ([], none)
      | some (event, events) =>
        let (others, last) := readAll budget events
        (event :: others, last)

/-- The text ends behind the document and marks of its end. -/
def isLastDocument : (budget : Nat) → Events → Bool
  | 0, _ => false
  | budget + 1, events =>
    match events.peek? with
    | some (.documentEnd, events) => isLastDocument budget events.drop
    | some (.streamEnd, _) => true
    | _ => false

end Events

end BuildConstants.Yaml
