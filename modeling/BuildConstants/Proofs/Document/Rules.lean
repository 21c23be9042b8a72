import BuildConstants.Proofs.Document.Mapping
import BuildConstants.Proofs.Document.Record

/-!
# Mappings by rules

What the keys and the values of a mapping have to be like, without a look at the way in which it is
read. A strict record is read from the mappings that obey its rules and from no others
(`RecordLayout.IsStrict.readable_iff_obeys`), and each part of it is what the mapping gives under
one name, or else what the record starts with (`RecordLayout.IsStrict.givesOr_part`).
-/

namespace BuildConstants.Document

/-- A key that a mapping can have. -/
structure Rule where
  name : String
  isNeeded : Bool
  /-- What the value of the key has to be like. -/
  Fits : Document → Prop

/-- A rule for a key whose values stand for something of one kind. -/
def Rule.of {α : Type} (name : String) (isNeeded : Bool) (Is : Document → α → Prop) : Rule :=
  { name, isNeeded, Fits := fun doc => ∃ value, Is doc value }

/-- A mapping obeys rules when its keys are among theirs, each at most once and with a value that
fits, and none that is needed is left out. -/
structure Obeys (format : DocumentFormat) (rules : List Rule) (entries : Entries) : Prop where
  fits : ∀ entry ∈ entries, ∃ rule ∈ rules,
    keyName? format entry.1 = some rule.name ∧ rule.Fits entry.2
  once : DistinctKeys format entries
  whole : ∀ rule ∈ rules, rule.isNeeded →
    ∃ entry ∈ entries, keyName? format entry.1 = some rule.name

/-- The document is a list of mappings that obey rules. -/
def EachObeys (format : DocumentFormat) (rules : List Rule) (doc : Document) : Prop :=
  ∃ items, doc.items? = some items ∧
    ∀ item ∈ items, ∃ entries, item.mapping? = some entries ∧ Obeys format rules entries

variable {α : Type} {format : DocumentFormat} {entries : Entries} {name : String}
  {Is : Document → α → Prop}

/-- What stands under the name of a rule fits this rule, when no two rules share a name. -/
theorem Obeys.fits_of {rules : List Rule} {rule : Rule} {entry : Document × Document}
    (obeys : Obeys format rules entries) (distinct : (rules.map (·.name)).Nodup)
    (isRule : rule ∈ rules) (member : entry ∈ entries)
    (isKey : keyName? format entry.1 = some rule.name) : rule.Fits entry.2 := by
  obtain ⟨other, isOther, isOtherKey, fits⟩ := obeys.fits entry member
  have same : other = rule := List.inj_on_of_nodup_map distinct isOther isRule
    (Option.some.inj (isOtherKey.symm.trans isKey))
  exact same ▸ fits

/-- A mapping that obeys rules gives one list of values for mappings that obey rules themselves. -/
theorem Obeys.listOf_unique {rules inner : List Rule} {isNeeded : Bool} {Is : Entries → α → Prop}
    {default first second : List α} (obeys : Obeys format rules entries)
    (distinct : (rules.map (·.name)).Nodup)
    (isRule : ⟨name, isNeeded, EachObeys format inner⟩ ∈ rules)
    (single : ∀ entries, Obeys format inner entries →
      ∀ first second, Is entries first → Is entries second → first = second)
    (givesFirst : GivesOr format entries name (IsListOf Is) default first)
    (givesSecond : GivesOr format entries name (IsListOf Is) default second) : first = second := by
  refine givesFirst.unique obeys.once (fun entry member isKey first second => ?_) givesSecond
  refine IsListOf.unique fun items listed item isItem entries mapping => ?_
  obtain ⟨items, again, each⟩ := obeys.fits_of distinct isRule member isKey
  cases listed.symm.trans again
  obtain ⟨_, again, obeysItem⟩ := each item isItem
  cases mapping.symm.trans again
  exact single entries obeysItem

namespace RecordLayout

variable {σ : Type} {layout : RecordLayout σ} {state final : σ}
  {values : List (Field σ × Document)} {rules : List Rule}

/-- Fields of other names are errors, and no two fields share a name. A date or time, which counts
as a table, is not read as such a record. -/
structure IsStrict (layout : RecordLayout σ) : Prop where
  closed : layout.isOpen = false
  distinct : layout.names.Nodup
  noMoment : "$__toml_private_datetime" ∉ layout.names

theorem IsStrict.readTable_momentEntries (strict : layout.IsStrict) :
    layout.readTable format momentEntries ≠ .ok final := by
  intro completed
  obtain ⟨values, isMatch, -⟩ := matches_of_readTable strict.closed completed
  rw [momentEntries] at isMatch
  obtain ⟨given, isGiven, named, -⟩ :=
    exists_of_forall₂ isMatch.paired.flip List.mem_cons_self
  have isName : fieldName format (.text "$__toml_private_datetime") =
      .ok "$__toml_private_datetime" := by
    cases format <;> rfl
  rw [isName] at named
  exact strict.noMoment (List.mem_map.2 ⟨given.1, isMatch.known given isGiven,
    (Except.ok.inj named).symm⟩)

/-- A strict record that is not written as a list of its values is read from a mapping. -/
theorem IsStrict.read_eq_ok_iff (strict : layout.IsStrict) {doc : Document}
    (bare : doc.isList = false) :
    layout.read format doc = .ok final ↔
      ∃ entries, doc.mapping? = some entries ∧ layout.readTable format entries = .ok final := by
  rw [isList_eq] at bare
  rw [read, mapping?_eq]
  generalize doc.untagged = bareDoc at bare
  split
  next => simp
  next => simp
  next => simp [strict.readTable_momentEntries]
  next => cases bare
  next => simp

/-- A strict record that is not written as a list of its values is read from a text that stands for
a mapping and ends where this ends. -/
theorem IsStrict.decode_eq_ok_iff (strict : layout.IsStrict) {reading : DocumentReading}
    (bare : reading.document.isList = false) :
    reading.decode (layout.read format) = .ok final ↔
      reading.complete ∧ ∃ entries, reading.document.mapping? = some entries ∧
        layout.readTable format entries = .ok final := by
  rw [DocumentReading.decode]
  simp only [bind_eq_ok, strict.read_eq_ok_iff bare]
  cases reading.complete <;> simp

/-- The field is for the key of the rule, and it reads what fits the rule. -/
structure Follows (format : DocumentFormat) (entries : Entries) (field : Field σ) (rule : Rule) :
    Prop where
  name : field.name = rule.name
  isNeeded : field.omission = .nowhere ↔ rule.isNeeded
  fits : ∀ entry ∈ entries, keyName? format entry.1 = some rule.name →
    ∀ state, (∃ next, field.read entry.2 state = .ok next) ↔ rule.Fits entry.2

/-- A field follows a rule when its values can be read where they fit the rule. -/
theorem follows_of_readable (rule : Rule) {read : Decoder α} {omission : Omission}
    {set : α → σ → σ} (same : omission = .nowhere ↔ rule.isNeeded)
    (readable : ∀ entry ∈ entries, keyName? format entry.1 = some rule.name →
      ((∃ value, read entry.2 = .ok value) ↔ rule.Fits entry.2)) :
    Follows format entries (Field.of rule.name omission read set) rule where
  name := rfl
  isNeeded := same
  fits entry member isKey state := by
    rw [← readable entry member isKey]
    constructor
    · rintro ⟨next, completed⟩
      obtain ⟨value, found, -⟩ := map_eq_ok.1 completed
      exact ⟨value, found⟩
    · rintro ⟨value, found⟩
      exact ⟨set value state, map_eq_ok.2 ⟨value, found, rfl⟩⟩

/-- A field that reads values of one kind follows the rule for values of this kind. -/
theorem follows_of {read : Decoder α} {omission : Omission} {isNeeded : Bool} {set : α → σ → σ}
    (decides : Decides read Is) (same : omission = .nowhere ↔ isNeeded) :
    Follows format entries (Field.of name omission read set) (Rule.of name isNeeded Is) :=
  follows_of_readable (Rule.of name isNeeded Is) same fun entry _ _ =>
    exists_congr (decides entry.2)

/-- Every field of a record that is gathered has read its value. -/
theorem Gathers.read (gathers : Gathers state values final) :
    ∀ given ∈ values, ∃ before after, given.1.read given.2 before = .ok after := by
  induction gathers with
  | nil => simp
  | cons read _ ih => exact List.forall_mem_cons.2 ⟨⟨_, _, read⟩, ih⟩

theorem gathers_of_readable (state : σ)
    (readable : ∀ given ∈ values, ∀ before, ∃ after, given.1.read given.2 before = .ok after) :
    ∃ final, Gathers state values final := by
  induction values generalizing state with
  | nil => exact ⟨state, .nil⟩
  | cons given rest ih =>
      obtain ⟨next, read⟩ := readable given List.mem_cons_self state
      obtain ⟨final, others⟩ := ih next fun other member =>
        readable other (List.mem_cons_of_mem _ member)
      exact ⟨final, .cons read others⟩

/-- Keys that name distinct fields are distinct. -/
theorem distinctKeys_iff (paired : List.Forall₂ (Names format) entries values) :
    DistinctKeys format entries ↔ (values.map (·.1.name)).Nodup := by
  have same : (entries.map fun entry => keyName? format entry.1) =
      (values.map (·.1.name)).map some := by
    induction paired with
    | nil => rfl
    | cons here _ ih =>
        rw [List.map_cons, keyName?_eq_some_iff.2 here.1, ih]
        rfl
  simp only [DistinctKeys, same, List.Nodup, List.pairwise_map, ne_eq, Option.some.injEq]

/-- A mapping that a strict record is read from obeys its rules. -/
theorem IsStrict.obeys_of_readTable (strict : layout.IsStrict)
    (follows : List.Forall₂ (Follows format entries) layout.fields rules)
    (completed : layout.readTable format entries = .ok final) : Obeys format rules entries := by
  obtain ⟨values, isMatch, gathers⟩ := matches_of_readTable strict.closed completed
  refine ⟨fun entry member => ?_, (distinctKeys_iff isMatch.paired).2 isMatch.once,
    fun rule isRule needed => ?_⟩
  · obtain ⟨given, isGiven, named, same⟩ := exists_of_forall₂ isMatch.paired.flip member
    obtain ⟨rule, isRule, follows⟩ := exists_of_forall₂ follows.flip (isMatch.known given isGiven)
    have isKey : keyName? format entry.1 = some rule.name :=
      keyName?_eq_some_iff.2 (follows.name ▸ named)
    obtain ⟨before, after, read⟩ := gathers.read given isGiven
    rw [← same] at read
    exact ⟨rule, isRule, isKey, (follows.fits entry member isKey before).1 ⟨after, read⟩⟩
  · obtain ⟨field, isField, follows⟩ := exists_of_forall₂ follows isRule
    obtain ⟨given, isGiven, same⟩ :=
      List.mem_map.1 (isMatch.whole field isField (follows.isNeeded.2 needed))
    obtain ⟨entry, member, named, -⟩ := exists_of_forall₂ isMatch.paired isGiven
    refine ⟨entry, member, keyName?_eq_some_iff.2 ?_⟩
    rw [← follows.name, ← same]
    exact named

/-- The entries of a mapping that obeys rules match the record whose fields follow these, and the
fields can read their values in any state. -/
theorem matches_of_obeys (follows : List.Forall₂ (Follows format entries) layout.fields rules)
    (obeys : Obeys format rules entries) :
    ∃ values, layout.Matches format entries values ∧
      ∀ given ∈ values, ∀ before, ∃ after, given.1.read given.2 before = .ok after := by
  have each : ∀ entry ∈ entries, ∃ given : Field σ × Document, Names format entry given ∧
      given.1 ∈ layout.fields ∧
      ∀ before, ∃ after, given.1.read given.2 before = .ok after := by
    intro entry member
    obtain ⟨rule, isRule, isKey, fits⟩ := obeys.fits entry member
    obtain ⟨field, isField, follows⟩ := exists_of_forall₂ follows isRule
    refine ⟨(field, entry.2), ⟨?_, rfl⟩, isField, fun before =>
      (follows.fits entry member isKey before).2 fits⟩
    exact keyName?_eq_some_iff.1 (follows.name ▸ isKey)
  obtain ⟨values, paired⟩ := exists_forall₂.2 each
  have named : List.Forall₂ (Names format) entries values := paired.imp fun _ _ suits => suits.1
  have known : ∀ given ∈ values, given.1 ∈ layout.fields ∧
      ∀ before, ∃ after, given.1.read given.2 before = .ok after := fun given member =>
    (exists_of_forall₂ paired member).elim fun _ partner => partner.2.2
  refine ⟨values, ⟨named, fun given member => (known given member).1,
    (distinctKeys_iff named).1 obeys.once, fun field isField needed => ?_⟩,
    fun given member => (known given member).2⟩
  obtain ⟨rule, isRule, follows⟩ := exists_of_forall₂ follows.flip isField
  obtain ⟨entry, member, isKey⟩ := obeys.whole rule isRule (follows.isNeeded.1 needed)
  obtain ⟨given, isGiven, isNamed, -⟩ := exists_of_forall₂ named.flip member
  rw [keyName?_eq_some_iff, isNamed, Except.ok.injEq, ← follows.name] at isKey
  exact List.mem_map.2 ⟨given, isGiven, isKey⟩

/-- A strict record is read from the mappings that obey its rules, and from no others. -/
theorem IsStrict.readable_iff_obeys (strict : layout.IsStrict)
    (follows : List.Forall₂ (Follows format entries) layout.fields rules) :
    (∃ final, layout.readTable format entries = .ok final) ↔ Obeys format rules entries := by
  constructor
  · rintro ⟨final, completed⟩
    exact strict.obeys_of_readTable follows completed
  · intro obeys
    obtain ⟨values, isMatch, readable⟩ := matches_of_obeys follows obeys
    obtain ⟨final, gathers⟩ := gathers_of_readable layout.start readable
    exact ⟨final, readTable_of_matches strict.distinct isMatch gathers⟩

/-- A field of the name sets a part of the state, and a field of any other name keeps it. -/
def FieldSets (name : String) (read : Decoder α) (part : σ → α) (field : Field σ) : Prop :=
  ∀ doc before after, field.read doc before = .ok after →
    (field.name = name → read doc = .ok (part after)) ∧
      (field.name ≠ name → part after = part before)

/-- The part of a state that is set by the field of a name and kept by all others. -/
def Sets (layout : RecordLayout σ) (name : String) (read : Decoder α) (part : σ → α) : Prop :=
  ∀ field ∈ layout.fields, FieldSets name read part field

@[simp] theorem fieldSets_of_iff {β : Type} {read : Decoder α} {part : σ → α} {other : String}
    {omission : Omission} {readOther : Decoder β} {set : β → σ → σ} :
    FieldSets name read part (Field.of other omission readOther set) ↔
      ∀ doc before value, readOther doc = .ok value →
        (other = name → read doc = .ok (part (set value before))) ∧
          (other ≠ name → part (set value before) = part before) := by
  constructor
  · intro sets doc before value found
    exact sets doc before _ (map_eq_ok.2 ⟨value, found, rfl⟩)
  · rintro sets doc before after completed
    obtain ⟨value, found, rfl⟩ := map_eq_ok.1 completed
    exact sets doc before value found

theorem Gathers.part {read : Decoder α} {part : σ → α} (sets : layout.Sets name read part)
    (gathers : Gathers state values final) (known : ∀ given ∈ values, given.1 ∈ layout.fields)
    (once : (values.map (·.1.name)).Nodup) :
    (∃ given ∈ values, given.1.name = name ∧ read given.2 = .ok (part final)) ∨
      (∀ given ∈ values, given.1.name ≠ name) ∧ part final = part state := by
  induction gathers with
  | nil => exact .inr ⟨fun _ member => (List.not_mem_nil member).elim, rfl⟩
  | @cons state next final field value rest step _ ih =>
      obtain ⟨isField, known⟩ := List.forall_mem_cons.1 known
      obtain ⟨absent, once⟩ := List.nodup_cons.1 once
      have later := ih known once
      obtain ⟨sets, keeps⟩ := sets field isField value state next step
      by_cases same : field.name = name
      · subst same
        rcases later with ⟨given, member, again, -⟩ | ⟨-, kept⟩
        · exact absurd (List.mem_map.2 ⟨given, member, again⟩) absent
        · exact .inl ⟨_, List.mem_cons_self, rfl, kept ▸ sets rfl⟩
      · rcases later with ⟨given, member, named, read⟩ | ⟨others, kept⟩
        · exact .inl ⟨given, List.mem_cons_of_mem _ member, named, read⟩
        · exact .inr ⟨List.forall_mem_cons.2 ⟨same, others⟩, kept.trans (keeps same)⟩

/-- A part of a strict record is what the mapping gives under its name, or what the record starts
with. -/
theorem IsStrict.givesOr_part (strict : layout.IsStrict) {read : Decoder α} (name : String)
    (part : σ → α) (sets : layout.Sets name read part)
    (means : ∀ entry ∈ entries, keyName? format entry.1 = some name →
      ∀ value, read entry.2 = .ok value → Is entry.2 value)
    (completed : layout.readTable format entries = .ok final) :
    GivesOr format entries name Is (part layout.start) (part final) := by
  obtain ⟨values, isMatch, gathers⟩ := matches_of_readTable strict.closed completed
  rcases gathers.part sets isMatch.known isMatch.once with
    ⟨given, isGiven, rfl, read⟩ | ⟨others, kept⟩
  · obtain ⟨entry, member, named, same⟩ := exists_of_forall₂ isMatch.paired isGiven
    have isKey := keyName?_eq_some_iff.2 named
    rw [← same] at read
    exact .given ⟨entry, member, isKey, means entry member isKey _ read⟩
  · rw [kept]
    refine .absent fun entry member isKey => ?_
    obtain ⟨given, isGiven, named, -⟩ := exists_of_forall₂ isMatch.paired.flip member
    rw [keyName?_eq_some_iff, named] at isKey
    exact others given isGiven (Except.ok.inj isKey)

theorem IsStrict.givesOr (strict : layout.IsStrict) {read : Decoder α} (decides : Decides read Is)
    (name : String) (part : σ → α) (sets : layout.Sets name read part)
    (completed : layout.readTable format entries = .ok final) :
    GivesOr format entries name Is (part layout.start) (part final) :=
  strict.givesOr_part name part sets (fun _ _ _ _ found => (decides _ _).1 found) completed

/-- A part whose field cannot be left out is what the mapping gives under its name. -/
theorem IsStrict.gives (strict : layout.IsStrict) {read : Decoder α} (decides : Decides read Is)
    (name : String) (part : σ → α) (sets : layout.Sets name read part)
    (needed : ∃ field ∈ layout.fields, field.name = name ∧ field.omission = .nowhere)
    (completed : layout.readTable format entries = .ok final) :
    Gives format entries name Is (part final) := by
  obtain ⟨field, isField, rfl, isNeeded⟩ := needed
  obtain ⟨values, isMatch, -⟩ := matches_of_readTable strict.closed completed
  obtain ⟨given, isGiven, same⟩ := List.mem_map.1 (isMatch.whole field isField isNeeded)
  obtain ⟨entry, member, named, -⟩ := exists_of_forall₂ isMatch.paired isGiven
  exact (strict.givesOr decides _ part sets completed).gives
    ⟨entry, member, keyName?_eq_some_iff.2 (same ▸ named)⟩

/-! ## Lists of records -/

/-- A list of records is read item by item from their mappings. -/
theorem IsStrict.asList_eq_ok_iff (strict : layout.IsStrict) {doc : Document} {records : List σ}
    (bare : ∀ items, doc.items? = some items → ∀ item ∈ items, item.isList = false) :
    asList (layout.read format) doc = .ok records ↔
      IsListOf (fun entries record => layout.readTable format entries = .ok record) doc
        records := by
  rw [Document.asList_eq_ok_iff]
  refine exists_congr fun items => and_congr_right fun listed => ?_
  have each := bare items listed
  constructor
  · intro read
    exact ((List.forall₂_and_left _ _).2 ⟨each, read⟩).imp fun item record known =>
      (strict.read_eq_ok_iff known.1).1 known.2
  · intro known
    exact ((List.forall₂_and_left _ _).2 ⟨each, known⟩).imp fun item record known =>
      (strict.read_eq_ok_iff known.1).2 known.2

/-- A part that is a list of records is what the mapping gives under its name: a list of mappings
that these are read from. -/
theorem IsStrict.givesOr_records {τ : Type} {inner : RecordLayout τ} (strict : layout.IsStrict)
    (strictInner : inner.IsStrict) (name : String) (part : σ → List τ)
    (sets : layout.Sets name (asList (inner.read format)) part)
    (keyed : KeyedUnder format entries name)
    (completed : layout.readTable format entries = .ok final) :
    GivesOr format entries name
      (IsListOf fun entries record => inner.readTable format entries = .ok record)
      (part layout.start) (part final) :=
  strict.givesOr_part name part sets
    (fun entry member isKey _ found =>
      (strictInner.asList_eq_ok_iff (keyed entry member isKey)).1 found) completed

/-- A list of records can be read when each of its items is a mapping that obeys the rules. -/
theorem IsStrict.asList_readable_iff (strict : layout.IsStrict) {doc : Document}
    (bare : ∀ items, doc.items? = some items → ∀ item ∈ items, item.isList = false)
    (follows : ∀ items, doc.items? = some items → ∀ item ∈ items, ∀ entries,
      item.mapping? = some entries → List.Forall₂ (Follows format entries) layout.fields rules) :
    (∃ records, asList (layout.read format) doc = .ok records) ↔ EachObeys format rules doc := by
  constructor
  · rintro ⟨records, read⟩
    obtain ⟨items, listed, each⟩ := (strict.asList_eq_ok_iff bare).1 read
    refine ⟨items, listed, fun item isItem => ?_⟩
    obtain ⟨record, entries, mapping, completed⟩ := exists_forall₂.1 ⟨records, each⟩ item isItem
    exact ⟨entries, mapping, (strict.readable_iff_obeys
      (follows items listed item isItem entries mapping)).1 ⟨record, completed⟩⟩
  · rintro ⟨items, listed, each⟩
    have readable : ∀ item ∈ items, ∃ record, ∃ entries, item.mapping? = some entries ∧
        layout.readTable format entries = .ok record := by
      intro item isItem
      obtain ⟨entries, mapping, obeys⟩ := each item isItem
      obtain ⟨record, completed⟩ := (strict.readable_iff_obeys
        (follows items listed item isItem entries mapping)).2 obeys
      exact ⟨record, entries, mapping, completed⟩
    obtain ⟨records, read⟩ := exists_forall₂.2 readable
    exact ⟨records, (strict.asList_eq_ok_iff bare).2 ⟨items, listed, read⟩⟩

end RecordLayout

end BuildConstants.Document
