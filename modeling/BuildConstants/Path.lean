import BuildConstants.Text.Split

/-!
# Paths

A path is a text whose parts are separated by slashes. Two texts can name the same sequence of
components: repeated slashes, a slash at the end and a `.` that does not stand first carry no
meaning. The text is kept as written and shown as written; `components` is what paths are compared
by. Paths that are not UTF-8 are outside the model.
-/

namespace BuildConstants

/-- A path as it was written, which is taken to be UTF-8. -/
structure Path where
  text : String
deriving DecidableEq, Inhabited

namespace Path

/-- One step of a path. -/
inductive Component where
  /-- The slash that an absolute path starts with. -/
  | root
  /-- A `.` that a relative path starts with. -/
  | here
  | up
  | name (text : String)
deriving DecidableEq

/-- A text between slashes, with the component that it stands for, if it stands for one. -/
abbrev Segment : Type := String × Option Component

/-- The component of a segment that does not stand first. -/
def Component.ofInner? (segment : String) : Option Component :=
  if segment = "" || segment = "." then none
  else if segment = ".." then some .up
  else some (.name segment)

/-- The component of the first segment; `alone` says that no slash follows it. -/
def Component.ofFirst? (segment : String) (alone : Bool) : Option Component :=
  if segment = "" then if alone then none else some .root
  else if segment = "." then some .here
  else ofInner? segment

/-- The segments of a path, from left to right. -/
def segments (p : Path) : List Segment :=
  match Text.parts '/' p.text with
  | [] => []
  | first :: rest =>
    (first, Component.ofFirst? first rest.isEmpty) ::
      rest.map fun segment => (segment, Component.ofInner? segment)

/-- The components of a path, from left to right. -/
def components (p : Path) : List Component :=
  p.segments.filterMap (·.2)

def isAbsolute (p : Path) : Bool :=
  p.text.toList.head? = some '/'

/-- `p.join q` is `q` read from the directory `p`: `q` itself when it is absolute. -/
def join (p q : Path) : Path :=
  if q.isAbsolute then q
  else if p.text = "" || p.text.toList.getLast? = some '/' then ⟨p.text ++ q.text⟩
  else ⟨p.text ++ "/" ++ q.text⟩

/-- The last component, if it is a name. -/
def fileName? (p : Path) : Option String :=
  match p.components.getLast? with
  | some (.name text) => some text
  | _ => none

/-- The text after the last dot of the file name. A dot that the name starts with does not count. -/
def extension? (p : Path) : Option String := do
  let name ← p.fileName?
  let (after, before) ← Text.splitFirst '.' name.toList.reverse
  if before.isEmpty then none else some (String.ofList after.reverse)

/-- Drops the segments at the end that stand for no component. -/
def clearEnd (segments : List Segment) : List Segment :=
  (segments.reverse.dropWhile (·.2.isNone)).reverse

/-- The text of some segments. -/
def textOf (segments : List Segment) : String :=
  match segments with
  | [(_, some .root)] => "/"
  | segments => Text.joinWith "/" (segments.map (·.1))

/-- What is left of the segments after the given components, when they begin with these. -/
def strip : List Component → List Segment → Option (List Segment)
  | [], segments => some segments
  | _ :: _, [] => none
  | component :: others, (_, none) :: rest => strip (component :: others) rest
  | component :: others, (_, some found) :: rest =>
    if found = component then strip others rest else none

/-- The rest of `p` below `base`, cleared at both ends, when `p` begins with the components of
`base`. -/
def below? (p base : Path) : Option String :=
  (strip base.components p.segments).map fun rest =>
    textOf (clearEnd (rest.dropWhile (·.2.isNone)))

/-- How a path is shown to someone who works in `root`: the part below `root` where there is one,
and else the path as written. -/
def relativeTo (p root : Path) : String :=
  (p.below? root).getD p.text

/-- The path without its last component, unless that is the root. -/
def parent? (p : Path) : Option Path :=
  match (clearEnd p.segments).reverse with
  | [] | (_, some .root) :: _ => none
  | _ :: before => some ⟨textOf (clearEnd before.reverse)⟩

end Path

end BuildConstants
