import BuildConstants.Text.Blank
import BuildConstants.Text.Split

/-!
# Build properties

Properties are configured by a raw text of `key=value` fragments separated by commas. `PropertyMap`
holds them in increasing order of their keys, which is the order of the keys' UTF-8 bytes.
-/

namespace BuildConstants

/-- One configured property. -/
structure Property where
  key : String
  value : String
deriving DecidableEq, Inhabited

namespace Property

/-- Reads one fragment: the key stands before the first equals sign and the value after it, both
without the blanks around them. A fragment without an equals sign or without a key is none. -/
def ofFragment? (fragment : List Char) : Option Property :=
  match Text.splitFirst '=' fragment with
  | none => none
  | some (before, after) =>
    let key := Text.trimChars before
    if key.isEmpty then none else some ⟨String.ofList key, String.ofList (Text.trimChars after)⟩

/-- The properties of a raw text, in the order in which they are written. -/
def ofRaw (raw : String) : List Property :=
  (raw.toList.splitOn ',').filterMap ofFragment?

/-- A property as a fragment of a raw text. -/
def fragment (p : Property) : String :=
  p.key ++ "=" ++ p.value

end Property

/-- Inserts a property into a list that is sorted by key; it replaces one of the same key. -/
def Property.insertInto (p : Property) : List Property → List Property
  | [] => [p]
  | q :: rest =>
    if p.key < q.key then p :: q :: rest
    else if p.key = q.key then p :: rest
    else q :: p.insertInto rest

/-- Properties are in increasing order when each key is less than all keys after it. -/
abbrev Property.Increasing (ps : List Property) : Prop :=
  ps.Pairwise fun p q => p.key < q.key

namespace Property

theorem mem_insertInto {p r : Property} {ps : List Property} (member : r ∈ p.insertInto ps) :
    r = p ∨ r ∈ ps := by
  induction ps with
  | nil => simpa [insertInto] using member
  | cons q rest ih =>
    rw [insertInto] at member
    split at member
    · simpa using member
    · split at member
      · rcases List.mem_cons.1 member with here | later
        · exact .inl here
        · exact .inr (List.mem_cons_of_mem _ later)
      · rcases List.mem_cons.1 member with here | later
        · exact .inr (here ▸ List.mem_cons_self)
        · exact (ih later).imp_right (List.mem_cons_of_mem _)

theorem increasing_insertInto (p : Property) {ps : List Property} (sorted : Increasing ps) :
    Increasing (p.insertInto ps) := by
  induction ps with
  | nil => simp [insertInto]
  | cons q rest ih =>
    have ⟨above, restSorted⟩ := List.pairwise_cons.1 sorted
    rw [insertInto]
    split
    · next less =>
      refine List.pairwise_cons.2 ⟨fun r member => ?_, sorted⟩
      rcases List.mem_cons.1 member with here | later
      · exact here ▸ less
      · exact String.lt_trans less (above r later)
    · next notLess =>
      split
      · next same => exact List.pairwise_cons.2 ⟨fun r member => same ▸ above r member, restSorted⟩
      · next different =>
        refine List.pairwise_cons.2 ⟨fun r member => ?_, ih restSorted⟩
        rcases mem_insertInto member with here | later
        · subst here
          have atMost : q.key ≤ r.key := String.not_lt.1 notLess
          refine Decidable.byContradiction fun notAbove => different ?_
          exact String.le_antisymm (String.not_lt.1 notAbove) atMost
        · exact above r later

end Property

/-- Properties with one value for each key, in increasing order of the keys. -/
structure PropertyMap where
  entries : List Property
  increasing : Property.Increasing entries
deriving DecidableEq

namespace PropertyMap

def empty : PropertyMap :=
  ⟨[], .nil⟩

instance : Inhabited PropertyMap :=
  ⟨empty⟩

/-- Sets the value of a key. -/
def insert (m : PropertyMap) (p : Property) : PropertyMap :=
  ⟨p.insertInto m.entries, Property.increasing_insertInto p m.increasing⟩

/-- Of several properties with one key the last one counts. -/
def ofList (ps : List Property) : PropertyMap :=
  ps.foldl insert empty

def size (m : PropertyMap) : Nat :=
  m.entries.length

def get? (m : PropertyMap) (key : String) : Option String :=
  (m.entries.find? fun p => p.key = key).map (·.value)

/-- The properties as a raw text. -/
def toRaw (m : PropertyMap) : String :=
  Text.joinWith "," (m.entries.map Property.fragment)

/-- A raw text that configures nothing: it is absent or blank. -/
def isVoid (raw : Option String) : Bool :=
  raw.all fun text => (Text.trimChars text.toList).isEmpty

/-- The properties that a raw text configures. -/
def resolve (raw : Option String) : PropertyMap :=
  match raw with
  | none => empty
  | some text => if isVoid raw then empty else ofList (Property.ofRaw text)

end PropertyMap

end BuildConstants
