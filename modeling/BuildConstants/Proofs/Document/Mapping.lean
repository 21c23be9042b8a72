import BuildConstants.Document.Decode
import BuildConstants.Proofs.Document.Value
import Mathlib.Data.List.Nodup

/-!
# What a mapping gives

Relations between the entries of a mapping and the values that they give under the names of their
keys, and between a list of mappings and the values that these stand for. A mapping gives no name
two values when its keys are distinct.
-/

namespace BuildConstants.Document

/-- The keys of a mapping with their values, in their order. -/
abbrev Entries : Type :=
  List (Document × Document)

/-- The name that a key stands for: a text, which is a scalar of any style in the format that has
styles. -/
def keyName? (format : DocumentFormat) (key : Document) : Option String :=
  match format, key with
  | .json, .text name | .toml, .text name => some name
  | .json, _ | .toml, _ => none
  | .yaml, .text name | .yaml, .plain name | .yaml, .block name => some name
  | .yaml, .tagged _ (.text name) | .yaml, .tagged _ (.plain name)
  | .yaml, .tagged _ (.block name) => some name
  | .yaml, _ => none

/-- No two keys of a mapping stand for one name. -/
def DistinctKeys (format : DocumentFormat) (entries : Entries) : Prop :=
  (entries.map fun entry => keyName? format entry.1).Nodup

/-- The entries of a mapping, with or without a tag. An empty value without quotes is one without
entries. -/
def mapping? : Document → Option Entries
  | .table entries | .tagged _ (.table entries) => some entries
  | .plain "" | .tagged _ (.plain "") => some []
  | _ => none

/-- The items of a list, with or without a tag. An empty value without quotes is one without
items. -/
def items? : Document → Option (List Document)
  | .list items | .tagged _ (.list items) => some items
  | .plain "" | .tagged _ (.plain "") => some []
  | _ => none

/-- Whether the document is a list that is written out. -/
def isList : Document → Bool
  | .list _ | .tagged _ (.list _) => true
  | _ => false

/-- The items of the lists that a mapping holds under a name. -/
def elements (format : DocumentFormat) (name : String) (doc : Document) : List Document :=
  (doc.mapping?.getD []).flatMap fun (key, value) =>
    if keyName? format key = some name then value.items?.getD [] else []

/-- No item of a list that the mapping holds under a name is written as a list itself. -/
def KeyedUnder (format : DocumentFormat) (entries : Entries) (name : String) : Prop :=
  ∀ entry ∈ entries, keyName? format entry.1 = some name →
    ∀ items, entry.2.items? = some items → ∀ item ∈ items, item.isList = false

/-! ## What a mapping gives -/

/-- The mapping gives a name a value. -/
def Gives {α : Type} (format : DocumentFormat) (entries : Entries) (name : String)
    (Is : Document → α → Prop) (value : α) : Prop :=
  ∃ entry ∈ entries, keyName? format entry.1 = some name ∧ Is entry.2 value

/-- The mapping gives a name a value, or else the value is the one for a name that is left out. -/
inductive GivesOr {α : Type} (format : DocumentFormat) (entries : Entries) (name : String)
    (Is : Document → α → Prop) (default : α) : α → Prop where
  | given {value} (gives : Gives format entries name Is value) :
      GivesOr format entries name Is default value
  | absent (leftOut : ∀ entry ∈ entries, keyName? format entry.1 ≠ some name) :
      GivesOr format entries name Is default default

/-- The document is a list of mappings, each of which stands for a value. -/
def IsListOf {α : Type} (Is : Entries → α → Prop) (doc : Document) (values : List α) : Prop :=
  ∃ items, doc.items? = some items ∧
    List.Forall₂ (fun item value => ∃ entries, item.mapping? = some entries ∧ Is entries value)
      items values

variable {α : Type} {format : DocumentFormat} {entries : Entries} {name : String}
  {Is : Document → α → Prop}

theorem keyName?_eq_some_iff {key : Document} :
    keyName? format key = some name ↔ RecordLayout.fieldName format key = .ok name := by
  cases format with
  | json => cases key <;> simp [keyName?, RecordLayout.fieldName]
  | toml => cases key <;> simp [keyName?, RecordLayout.fieldName]
  | yaml =>
      rw [RecordLayout.fieldName, asText]
      cases key with
      | tagged tag inner => cases inner <;> simp [keyName?, untagged]
      | _ => simp [keyName?, untagged]

theorem mapping?_eq (doc : Document) :
    doc.mapping? =
      match doc.untagged with
      | .table entries => some entries
      | .plain "" => some []
      | _ => none := by
  cases doc with
  | tagged tag inner =>
      rw [untagged]
      split <;> simp_all [mapping?]
  | _ =>
      rw [untagged]
      · split <;> simp_all [mapping?]
      · simp

theorem items?_eq (doc : Document) :
    doc.items? =
      match doc.untagged with
      | .list items => some items
      | .plain "" => some []
      | _ => none := by
  cases doc with
  | tagged tag inner =>
      rw [untagged]
      split <;> simp_all [items?]
  | _ =>
      rw [untagged]
      · split <;> simp_all [items?]
      · simp

theorem isList_eq (doc : Document) :
    doc.isList =
      match doc.untagged with
      | .list _ => true
      | _ => false := by
  cases doc with
  | tagged tag inner => cases inner <;> rfl
  | _ => rfl

theorem mem_elements {doc item : Document} {items : List Document} {entry : Document × Document}
    (mapping : doc.mapping? = some entries) (member : entry ∈ entries)
    (isKey : keyName? format entry.1 = some name) (listed : entry.2.items? = some items)
    (isItem : item ∈ items) : item ∈ doc.elements format name := by
  rw [elements, mapping, Option.getD_some]
  refine List.mem_flatMap.2 ⟨entry, member, ?_⟩
  dsimp only
  rw [if_pos isKey, listed]
  exact isItem

theorem keyedUnder_of_mapping {doc : Document} (mapping : doc.mapping? = some entries)
    (keyed : ∀ item ∈ doc.elements format name, item.isList = false) :
    KeyedUnder format entries name :=
  fun _ member isKey _ listed item isItem =>
    keyed item (mem_elements mapping member isKey listed isItem)

/-- A name that is not left out is given a value. -/
theorem GivesOr.gives {default value : α} (gives : GivesOr format entries name Is default value)
    (hasKey : ∃ entry ∈ entries, keyName? format entry.1 = some name) :
    Gives format entries name Is value := by
  cases gives with
  | given gives => exact gives
  | absent leftOut =>
      obtain ⟨entry, member, isKey⟩ := hasKey
      exact absurd isKey (leftOut entry member)

/-! ## Values in other terms -/

theorem GivesOr.map {β : Type} {Is' : Document → β → Prop} {default value : α} (change : α → β)
    (means : ∀ entry ∈ entries, keyName? format entry.1 = some name →
      ∀ value, Is entry.2 value → Is' entry.2 (change value))
    (gives : GivesOr format entries name Is default value) :
    GivesOr format entries name Is' (change default) (change value) := by
  cases gives with
  | given gives =>
      obtain ⟨entry, member, isKey, isValue⟩ := gives
      exact .given ⟨entry, member, isKey, means entry member isKey value isValue⟩
  | absent leftOut => exact .absent leftOut

theorem IsListOf.map {β : Type} {Is : Entries → α → Prop} {Is' : Entries → β → Prop}
    {doc : Document} {values : List α} (change : α → β)
    (means : ∀ items, doc.items? = some items → ∀ item ∈ items, ∀ entries,
      item.mapping? = some entries → ∀ value, Is entries value → Is' entries (change value))
    (isList : IsListOf Is doc values) : IsListOf Is' doc (values.map change) := by
  obtain ⟨items, listed, each⟩ := isList
  have known := (List.forall₂_and_left _ _).2 ⟨means items listed, each⟩
  refine ⟨items, listed, List.forall₂_map_right_iff.2 (known.imp fun item value known => ?_)⟩
  obtain ⟨means, entries, mapping, isValue⟩ := known
  exact ⟨entries, mapping, means entries mapping value isValue⟩

/-! ## Single values -/

/-- Keys that are distinct give a name one value at most, if it is given as one that stands for one
value at most. -/
theorem Gives.unique {first second : α}
    (once : DistinctKeys format entries)
    (single : ∀ entry ∈ entries, keyName? format entry.1 = some name →
      ∀ first second, Is entry.2 first → Is entry.2 second → first = second)
    (givesFirst : Gives format entries name Is first)
    (givesSecond : Gives format entries name Is second) : first = second := by
  obtain ⟨entry, member, isKey, isFirst⟩ := givesFirst
  obtain ⟨other, isOther, isOtherKey, isSecond⟩ := givesSecond
  have same : entry = other :=
    List.inj_on_of_nodup_map once member isOther (isKey.trans isOtherKey.symm)
  subst same
  exact single entry member isKey first second isFirst isSecond

theorem GivesOr.unique {default first second : α}
    (once : DistinctKeys format entries)
    (single : ∀ entry ∈ entries, keyName? format entry.1 = some name →
      ∀ first second, Is entry.2 first → Is entry.2 second → first = second)
    (givesFirst : GivesOr format entries name Is default first)
    (givesSecond : GivesOr format entries name Is default second) : first = second := by
  cases givesFirst with
  | given first =>
      obtain ⟨entry, member, isKey, isFirst⟩ := first
      have second := givesSecond.gives ⟨entry, member, isKey⟩
      exact Gives.unique once single ⟨entry, member, isKey, isFirst⟩ second
  | absent leftOut =>
      cases givesSecond with
      | given second =>
          obtain ⟨entry, member, isKey, -⟩ := second
          exact absurd isKey (leftOut entry member)
      | absent _ => rfl

/-- A name has one value at most when its values are those of a decoder. -/
theorem Decides.givesOr_unique {read : Decoder α} (decides : Decides read Is)
    {default first second : α} (once : DistinctKeys format entries)
    (givesFirst : GivesOr format entries name Is default first)
    (givesSecond : GivesOr format entries name Is default second) : first = second :=
  givesFirst.unique once (fun _ _ _ _ _ => decides.unique) givesSecond

theorem Decides.gives_unique {read : Decoder α} (decides : Decides read Is) {first second : α}
    (once : DistinctKeys format entries)
    (givesFirst : Gives format entries name Is first)
    (givesSecond : Gives format entries name Is second) : first = second :=
  givesFirst.unique once (fun _ _ _ _ _ => decides.unique) givesSecond

theorem IsListOf.unique {Is : Entries → α → Prop} {doc : Document} {first second : List α}
    (single : ∀ items, doc.items? = some items → ∀ item ∈ items, ∀ entries,
      item.mapping? = some entries → ∀ first second, Is entries first → Is entries second →
        first = second)
    (isFirst : IsListOf Is doc first) (isSecond : IsListOf Is doc second) : first = second := by
  obtain ⟨items, listed, firsts⟩ := isFirst
  obtain ⟨others, again, seconds⟩ := isSecond
  cases listed.symm.trans again
  have each := single items listed
  clear listed again single
  induction firsts generalizing second with
  | nil =>
      cases seconds
      rfl
  | cons here _ ih =>
      cases seconds with
      | cons there seconds =>
          obtain ⟨entries, mapping, isFirst⟩ := here
          obtain ⟨_, again, isSecond⟩ := there
          cases mapping.symm.trans again
          obtain ⟨single, each⟩ := List.forall_mem_cons.1 each
          exact congrArg₂ List.cons (single entries mapping _ _ isFirst isSecond) (ih seconds each)

/-! ## Reading lists -/

theorem asList_eq_ok_iff {read : Decoder α} {doc : Document} {values : List α} :
    asList read doc = .ok values ↔ ∃ items, doc.items? = some items ∧
      List.Forall₂ (fun item value => read item = .ok value) items values := by
  rw [asList, items?_eq]
  generalize doc.untagged = bare
  split
  next => simp [mapM_eq_ok]
  next => simp [eq_comm]
  next => simp

end BuildConstants.Document
