/-!
# Line differences

How one text is changed into another line by line. The lines of both are compared by looking for the
middle of a shortest edit from both ends at once, and the parts on both sides of it are compared in
the same way. Added lines are then moved up and down between equal lines, so that edits which can be
joined are joined.
-/

namespace BuildConstants.Text

/-! ## Lines -/

/-- The lines of a text with their line breaks, which are a line feed, a carriage return or both;
`current` holds the line read so far, the last character first. -/
def linesFrom (current : List Char) : List Char → List String
  | [] => if current.isEmpty then [] else [String.ofList current.reverse]
  | '\r' :: '\n' :: rest =>
    String.ofList (current.reverse ++ ['\r', '\n']) :: linesFrom [] rest
  | c :: rest =>
    if c = '\n' || c = '\r' then String.ofList (current.reverse ++ [c]) :: linesFrom [] rest
    else linesFrom (c :: current) rest

/-- The lines of a text with their line breaks. -/
def lines (text : String) : List String :=
  linesFrom [] text.toList

/-- The text ends with a line break. -/
def endsLine (text : String) : Bool :=
  match text.toList.getLast? with
  | some c => c = '\n' || c = '\r'
  | none => false

/-! ## Edits -/

/-- A step from one list to another. -/
inductive Edit (α : Type) where
  | keep (items : List α)
  | remove (items : List α)
  | add (items : List α)

namespace Edit

variable {α : Type} [DecidableEq α]

/-- The number of items that two lists begin with in common. -/
def commonFront : List α → List α → Nat
  | a :: as, b :: bs => if a = b then commonFront as bs + 1 else 0
  | _, _ => 0

/-- The number of items that two lists end with in common. -/
def commonBack (as bs : List α) : Nat :=
  commonFront as.reverse bs.reverse

/-! ## The middle of a shortest edit -/

/-- How far a search has got on each diagonal. Diagonals are numbered from `-offset` on. -/
structure Frontier where
  offset : Nat
  reached : Array Nat

namespace Frontier

/-- No diagonal has been looked at. -/
def start (offset : Nat) : Frontier :=
  { offset, reached := Array.replicate (2 * offset + 1) 0 }

def get (frontier : Frontier) (diagonal : Int) : Nat :=
  frontier.reached.getD (diagonal + frontier.offset).toNat 0

def set (frontier : Frontier) (diagonal : Int) (reached : Nat) : Frontier :=
  { frontier with
    reached := frontier.reached.setIfInBounds (diagonal + frontier.offset).toNat reached }

/-- Where a search of `depth` edits enters a diagonal from its two neighbours. -/
def entry (frontier : Frontier) (depth diagonal : Int) : Nat :=
  let above := frontier.get (diagonal + 1)
  let below := frontier.get (diagonal - 1)
  if diagonal = -depth || (diagonal ≠ depth && below < above) then above else below + 1

end Frontier

/-- The diagonals that a search of `depth` edits reaches, the greatest one first. -/
def diagonals (depth : Nat) : List Int :=
  (List.range (depth + 1)).map fun (number : Nat) => (depth : Int) - 2 * number

/-- What a search yields: the point where the two searches have met, or how far it has got. -/
abbrev Search : Type :=
  Except (Nat × Nat) Frontier

/-- Goes on from the front along one diagonal. -/
def searchFront (old new : List α) (depth : Nat) (back : Frontier) (front : Frontier)
    (diagonal : Int) : Search :=
  let difference : Int := old.length - new.length
  let x := front.entry depth diagonal
  let y := (x : Int) - diagonal
  let reached :=
    if x < old.length && 0 ≤ y && y < new.length then
      x + commonFront (old.drop x) (new.drop y.toNat)
    else x
  let meets := difference % 2 ≠ 0 && (diagonal - difference).natAbs + 1 ≤ depth &&
    reached + back.get (difference - diagonal) ≥ old.length
  if meets then .error (x, y.toNat) else .ok (front.set diagonal reached)

/-- Goes on from the back along one diagonal. -/
def searchBack (old new : List α) (depth : Nat) (front : Frontier) (back : Frontier)
    (diagonal : Int) : Search :=
  let difference : Int := old.length - new.length
  let x := back.entry depth diagonal
  let y := (x : Int) - diagonal
  let advance :=
    if x < old.length && 0 ≤ y && y < new.length then
      commonBack (old.take (old.length - x)) (new.take (new.length - y.toNat))
    else 0
  let reached := x + advance
  let meets := difference % 2 = 0 && (diagonal - difference).natAbs ≤ depth &&
    reached + front.get (difference - diagonal) ≥ old.length
  if meets then .error (old.length - reached, new.length - (y.toNat + advance))
  else .ok (back.set diagonal reached)

/-- Searches from both ends, with one more edit on each side in each round; `rounds` are left. -/
def searchMiddle (old new : List α) :
    (rounds depth : Nat) → (front back : Frontier) → Option (Nat × Nat)
  | 0, _, _, _ => none
  | rounds + 1, depth, front, back =>
    match (diagonals depth).foldlM (searchFront old new depth back) front with
    | .error point => some point
    | .ok front =>
      match (diagonals depth).foldlM (searchBack old new depth front) back with
      | .error point => some point
      | .ok back => searchMiddle old new rounds (depth + 1) front back

/-- A point in the middle of a shortest edit. -/
def middle? (old new : List α) : Option (Nat × Nat) :=
  let rounds := (old.length + new.length + 1) / 2 + 1
  searchMiddle old new rounds 0 (.start (rounds + 1)) (.start (rounds + 1))

/-! ## A shortest edit -/

/-- An edit that keeps some items, unless there are none. -/
def keeping (items : List α) : List (Edit α) :=
  if items.isEmpty then [] else [.keep items]

/-- The edits from one list to another. The budget bounds how often the lists are divided. -/
def between : (budget : Nat) → (old new : List α) → List (Edit α)
  | 0, old, new => [.remove old, .add new]
  | budget + 1, old, new =>
    let front := commonFront old new
    let oldRest := old.drop front
    let newRest := new.drop front
    let back := commonBack oldRest newRest
    let oldMiddle := oldRest.take (oldRest.length - back)
    let newMiddle := newRest.take (newRest.length - back)
    let inner :=
      match oldMiddle, newMiddle with
      | [], [] => []
      | removed, [] => [.remove removed]
      | [], added => [.add added]
      | removed, added =>
        match middle? removed added with
        | some (x, y) =>
          between budget (removed.take x) (added.take y) ++
            between budget (removed.drop x) (added.drop y)
        | none => [.remove removed, .add added]
    keeping (old.take front) ++ inner ++ keeping (oldRest.drop (oldRest.length - back))

/-! ## Joining edits -/

/-- An edit with those before it, the closest one first, and those behind it. -/
structure Focus (α : Type) where
  before : List (Edit α)
  this : Edit α
  after : List (Edit α)

/-- Some kept items in front of other edits. -/
def keepInFront (items : List α) : List (Edit α) → List (Edit α)
  | .keep others :: rest => .keep (items ++ others) :: rest
  | rest => .keep items :: rest

/-- Some kept items behind other edits, of which the closest one is first. -/
def keepBehind (items : List α) : List (Edit α) → List (Edit α)
  | .keep others :: rest => .keep (others ++ items) :: rest
  | rest => .keep items :: rest

/-- Moves an edit up as far as possible: added items over equal ones that are kept, and past edits
of the other kind; edits of one kind are joined. -/
def moveUp : (budget : Nat) → Focus α → Focus α
  | 0, focus => focus
  | budget + 1, focus =>
    match focus.this, focus.before with
    | _, .keep [] :: rest => moveUp budget { focus with before := rest }
    | .add added, .keep kept :: rest =>
      let common := commonBack kept added
      if common = 0 then focus
      else
        let ending := added.drop (added.length - common)
        moveUp budget
          { before := keeping (kept.take (kept.length - common)) ++ rest
            this := .add (ending ++ added.take (added.length - common))
            after := keepInFront ending focus.after }
    | .add added, .remove removed :: rest =>
      moveUp budget { before := rest, this := .add added, after := .remove removed :: focus.after }
    | .remove removed, .add added :: rest =>
      moveUp budget { before := rest, this := .remove removed, after := .add added :: focus.after }
    | .add added, .add others :: rest =>
      moveUp budget { focus with before := rest, this := .add (others ++ added) }
    | .remove removed, .remove others :: rest =>
      moveUp budget { focus with before := rest, this := .remove (others ++ removed) }
    | _, _ => focus

/-- Moves an edit down as far as possible. -/
def moveDown : (budget : Nat) → Focus α → Focus α
  | 0, focus => focus
  | budget + 1, focus =>
    match focus.this, focus.after with
    | _, .keep [] :: rest => moveDown budget { focus with after := rest }
    | .add added, .keep kept :: rest =>
      let common := commonFront kept added
      if common = 0 then focus
      else
        let start := added.take common
        moveDown budget
          { before := keepBehind start focus.before
            this := .add (added.drop common ++ start)
            after := keeping (kept.drop common) ++ rest }
    | .add added, .remove removed :: rest =>
      moveDown budget
        { before := .remove removed :: focus.before, this := .add added, after := rest }
    | .remove removed, .add added :: rest =>
      moveDown budget
        { before := .add added :: focus.before, this := .remove removed, after := rest }
    | .add added, .add others :: rest =>
      moveDown budget { focus with this := .add (added ++ others), after := rest }
    | .remove removed, .remove others :: rest =>
      moveDown budget { focus with this := .remove (removed ++ others), after := rest }
    | _, _ => focus

/-- Moves the edits of one kind, from the first one to the last; `before` holds the edits that are
done. -/
def moveAll (isMoved : Edit α → Bool) :
    (budget : Nat) → (before after : List (Edit α)) → List (Edit α)
  | 0, before, after => before.reverse ++ after
  | _, before, [] => before.reverse
  | budget + 1, before, this :: after =>
    let focus : Focus α := { before, this, after }
    let moved := if isMoved this then moveDown budget (moveUp budget focus) else focus
    moveAll isMoved budget (moved.this :: moved.before) moved.after

def isRemove : Edit α → Bool
  | .remove _ => true
  | _ => false

def isAdd : Edit α → Bool
  | .add _ => true
  | _ => false

/-! ## Changes -/

/-- What happens to an item. -/
inductive Change (α : Type) where
  | kept (item : α)
  | removed (item : α)
  | added (item : α)

/-- Edits as changes of single items. Between kept items the removed ones come before the added
ones; `removed` and `added` hold those met since the last kept item. -/
def changes (removed added : List α) : List (Edit α) → List (Change α)
  | [] => removed.map .removed ++ added.map .added
  | .keep items :: rest =>
    removed.map .removed ++ added.map .added ++ items.map .kept ++ changes [] [] rest
  | .remove items :: rest => changes (removed ++ items) added rest
  | .add items :: rest => changes removed (added ++ items) rest

/-- The changes from one list to another. -/
def difference (old new : List α) : List (Change α) :=
  let size := old.length + new.length
  let edits := between (2 * size + 2) old new
  let budget := 4 * (size + edits.length) + 8
  changes [] [] (moveAll isAdd budget [] (moveAll isRemove budget [] edits))

end Edit

end BuildConstants.Text
