import BuildConstants.Proofs.Declaration.Identity
import BuildConstants.Proofs.Manifest.Record

/-!
# What manifests are read as

A manifest is read as a whole or not at all. It is read exactly when its mappings obey their rules,
and then it holds the declarations that these mappings stand for, in the order of the text.
-/

namespace BuildConstants

open Document
open Document.RecordLayout (Follows Sets follows_of follows_of_readable)

variable {format : DocumentFormat} {entries : Entries}

/-! ## Containers -/

namespace ManifestContainer

theorem isStrict (format : DocumentFormat) : (layout format).IsStrict :=
  ⟨rfl, by cases format <;> decide, by cases format <;> decide⟩

theorem follows (keyed : KeyedUnder format entries "member") :
    List.Forall₂ (Follows format entries) (layout format).fields (rules format) := by
  refine .cons (follows_of decides_asText (by decide)) ?_
  refine .cons (follows_of decides_asText (by decide)) ?_
  refine .cons (follows_of (ContainerKind.decides_ofDocument format) (by decide)) ?_
  refine .cons (follows_of Path.decides_ofDocument.asOption (by decide)) ?_
  refine .cons (follows_of_readable ⟨"member", false, _⟩ (by simp) fun entry member isKey => ?_)
    .nil
  exact (ManifestMember.isStrict format).asList_readable_iff (keyed entry member isKey)
    fun _ _ _ _ entries _ => ManifestMember.follows format entries

/-- The mapping that a container is read from stands for its declarations. -/
theorem declares_declarations {c : ManifestContainer} (keyed : KeyedUnder format entries "member")
    (completed : (layout format).readTable format entries = .ok c) (manifest : Path) :
    Declares format manifest entries (c.declarations manifest) := by
  have strict := isStrict format
  have isContainer : Container.IsGiven format entries c.container :=
    { namespaceName := strict.givesOr decides_asText "namespace" (·.container.namespaceName)
        (by simp [Sets, layout]) completed
      name := strict.gives decides_asText "name" (·.container.name)
        (by simp [Sets, layout]) (by simp [layout, Field.of]) completed
      kind := strict.givesOr (ContainerKind.decides_ofDocument format) "kind" (·.container.kind)
        (by simp [Sets, layout]) completed }
  have file := strict.givesOr Path.decides_ofDocument.asOption "file" (·.file)
    (by simp [Sets, layout]) completed
  have members := strict.givesOr_records (ManifestMember.isStrict format) "member" (·.members)
    (by simp [Sets, layout]) keyed completed
  refine ⟨c.container, c.file, isContainer, file, ?_⟩
  refine members.map (List.map (·.declaration c manifest)) fun _ _ _ _ isList => ?_
  exact isList.map _ fun _ _ _ _ _ _ _ completed =>
    ManifestMember.isGiven_declaration completed c manifest

end ManifestContainer

/-! ## Manifests -/

namespace Manifest

variable {doc : Document} {containers : List ManifestContainer} {reading : DocumentReading}
  {path : Path} {manifest : Manifest}

/-- The manifest, its containers and their members are not written as lists of the values of their
fields. -/
structure IsKeyed (format : DocumentFormat) (doc : Document) : Prop where
  root : doc.isList = false
  containers : ∀ container ∈ doc.elements format "container", container.isList = false
  members : ∀ container ∈ doc.elements format "container",
    ∀ member ∈ container.elements format "member", member.isList = false

instance : Decidable (IsKeyed format doc) :=
  decidable_of_iff (doc.isList = false ∧
      (∀ container ∈ doc.elements format "container", container.isList = false) ∧
      ∀ container ∈ doc.elements format "container",
        ∀ member ∈ container.elements format "member", member.isList = false)
    ⟨fun ⟨root, containers, members⟩ => ⟨root, containers, members⟩,
      fun ⟨root, containers, members⟩ => ⟨root, containers, members⟩⟩

/-- The text of a manifest stands for a mapping that obeys the rules, and ends where this ends. -/
structure Holds (format : DocumentFormat) (reading : DocumentReading) (entries : Entries) :
    Prop where
  complete : reading.complete
  mapping : reading.document.mapping? = some entries
  obeys : Obeys format (rules format) entries

theorem isStrict (format : DocumentFormat) : (layout format).IsStrict :=
  ⟨rfl, by cases format <;> decide, by cases format <;> decide⟩

/-- The members of each container of a manifest are not written as lists either. -/
theorem IsKeyed.keyedUnder (keyed : IsKeyed format doc) (mapping : doc.mapping? = some entries)
    {entry : Document × Document} (member : entry ∈ entries)
    (isKey : keyName? format entry.1 = some "container") {items : List Document}
    (listed : entry.2.items? = some items) {item : Document} (isItem : item ∈ items)
    {inner : Entries} (isMapping : item.mapping? = some inner) :
    KeyedUnder format inner "member" :=
  keyedUnder_of_mapping isMapping
    (keyed.members item (mem_elements mapping member isKey listed isItem))

theorem follows (keyed : IsKeyed format doc) (mapping : doc.mapping? = some entries) :
    List.Forall₂ (Follows format entries) (layout format).fields (rules format) := by
  have keyedItems := keyedUnder_of_mapping mapping keyed.containers
  refine .cons (follows_of_readable ⟨"container", false, _⟩ (by simp)
    fun entry member isKey => ?_) .nil
  exact (ManifestContainer.isStrict format).asList_readable_iff (keyedItems entry member isKey)
    fun _ listed _ isItem _ isMapping =>
      ManifestContainer.follows (keyed.keyedUnder mapping member isKey listed isItem isMapping)

/-- The mapping that the containers of a manifest are read from stands for their declarations. -/
theorem declares_declarations (keyed : IsKeyed format doc) (mapping : doc.mapping? = some entries)
    (completed : (layout format).readTable format entries = .ok containers) (path : Path) :
    Declares format path entries (containers.flatMap (·.declarations path)) := by
  have groups := (isStrict format).givesOr_records (ManifestContainer.isStrict format) "container"
    (fun containers => containers) (by simp [Sets, layout])
    (keyedUnder_of_mapping mapping keyed.containers) completed
  refine ⟨containers.map (·.declarations path), ?_, List.flatMap_def⟩
  refine groups.map (List.map (·.declarations path)) fun entry member isKey _ isList => ?_
  exact isList.map _ fun _ listed _ isItem _ isMapping _ completed =>
    ManifestContainer.declares_declarations
      (keyed.keyedUnder mapping member isKey listed isItem isMapping) completed path

/-- A manifest is read from the mapping that its text stands for. -/
theorem ofReading_eq_ok_iff (keyed : IsKeyed format reading.document) :
    ofReading reading format path = .ok manifest ↔
      ∃ containers entries, reading.complete ∧ reading.document.mapping? = some entries ∧
        (layout format).readTable format entries = .ok containers ∧
        ⟨path, containers.flatMap (·.declarations path)⟩ = manifest := by
  have decoded (containers : List ManifestContainer) :
      reading.decode ((layout format).read format) = .ok containers ↔ _ :=
    (isStrict format).decode_eq_ok_iff keyed.root
  rw [ofReading]
  constructor
  · intro read
    split at read
    next containers found =>
        obtain ⟨complete, entries, mapping, completed⟩ := (decoded _).1 found
        exact ⟨containers, entries, complete, mapping, completed, Except.ok.inj read⟩
    next => cases read
  · rintro ⟨containers, entries, complete, mapping, completed, same⟩
    rw [(decoded _).2 ⟨complete, entries, mapping, completed⟩]
    exact congrArg Except.ok same

/-- What is read from a manifest is what its mapping stands for, and the mapping obeys the rules. -/
theorem declares_of_ofReading (keyed : IsKeyed format reading.document)
    (read : ofReading reading format path = .ok manifest) :
    manifest.path = path ∧
      ∃ entries, Holds format reading entries ∧
        Declares format path entries manifest.declarations := by
  obtain ⟨containers, entries, complete, mapping, completed, rfl⟩ :=
    (ofReading_eq_ok_iff keyed).1 read
  have obeys := (isStrict format).obeys_of_readTable (follows keyed mapping) completed
  exact ⟨rfl, entries, ⟨complete, mapping, obeys⟩,
    declares_declarations keyed mapping completed path⟩

/-- A manifest whose mapping obeys the rules can be read. -/
theorem exists_ofReading_of_holds (keyed : IsKeyed format reading.document)
    (holds : Holds format reading entries) (path : Path) :
    ∃ manifest, ofReading reading format path = .ok manifest := by
  obtain ⟨containers, completed⟩ :=
    ((isStrict format).readable_iff_obeys (follows keyed holds.mapping)).2 holds.obeys
  exact ⟨_, (ofReading_eq_ok_iff keyed).2
    ⟨containers, entries, holds.complete, holds.mapping, completed, rfl⟩⟩

/-- A manifest that is not read is refused as one that cannot be decoded. -/
theorem ofReading_of_forall_ne_ok
    (unread : ∀ manifest, ofReading reading format path ≠ .ok manifest) :
    ∃ error, ofReading reading format path = .error (.manifestUnreadable path (.decode error)) := by
  rw [ofReading] at unread ⊢
  split
  next found => simp [found] at unread
  next error _ => exact ⟨error, rfl⟩

/-- What reading a manifest ends with: the declarations that the mapping of its document stands for
if this obeys the rules, and else the failure that the manifest at this path cannot be read. -/
structure IsExact (format : DocumentFormat) (reading : DocumentReading) (path : Path)
    (result : Except Failure Manifest) : Prop where
  readable : (∃ manifest, result = .ok manifest) ↔ ∃ entries, Holds format reading entries
  declared : ∀ manifest, result = .ok manifest ↔
    manifest.path = path ∧ ∃ entries, Holds format reading entries ∧
      Declares format path entries manifest.declarations
  refused : (¬ ∃ entries, Holds format reading entries) →
    ∃ error, result = .error (.manifestUnreadable path (.decode error))

/-- Manifests are read exactly, and as a whole or not at all: every document whose manifest,
containers and members are not written as lists, and with it every text that stands for such a
document. -/
theorem ofReading_exact (reading : DocumentReading) (format : DocumentFormat) (path : Path)
    (keyed : IsKeyed format reading.document) :
    IsExact format reading path (ofReading reading format path) ∧
      ∀ text, format.read text = reading →
        IsExact format reading path (ofText text format path) := by
  have readable : (∃ manifest, ofReading reading format path = .ok manifest) ↔
      ∃ entries, Holds format reading entries := by
    constructor
    · rintro ⟨manifest, completed⟩
      obtain ⟨-, entries, holds, -⟩ := declares_of_ofReading keyed completed
      exact ⟨entries, holds⟩
    · rintro ⟨entries, holds⟩
      exact exists_ofReading_of_holds keyed holds path
  have isExact : IsExact format reading path (ofReading reading format path) := by
    refine ⟨readable, fun manifest => ⟨declares_of_ofReading keyed, ?_⟩, fun unreadable => ?_⟩
    · rintro ⟨samePath, entries, holds, declares⟩
      obtain ⟨other, completed⟩ := readable.2 ⟨entries, holds⟩
      obtain ⟨sameOther, _, again, declaresOther⟩ := declares_of_ofReading keyed completed
      cases Option.some.inj (holds.mapping.symm.trans again.mapping)
      have sameDeclarations := declaresOther.unique holds.obeys declares
      obtain ⟨_, _⟩ := manifest
      obtain ⟨_, _⟩ := other
      cases samePath
      cases sameOther
      cases sameDeclarations
      exact completed
    · exact ofReading_of_forall_ne_ok fun manifest read =>
        unreadable (readable.1 ⟨manifest, read⟩)
  refine ⟨isExact, fun text same => ?_⟩
  rw [ofText, same]
  exact isExact

/-- A struct with a file, one of whose members has a file of its own. The first member is a method,
which has no use for a getter, and the second a property, which has none for parameters. -/
def twoMembers : String :=
  "[[container]]\nnamespace=\"N\"\nname=\"A\"\nkind=\"value\"\nfile=\"a\"\n" ++
    "[[container.member]]\nname=\"B\"\ntype=\"int\"\naccessibility=\"protected_internal\"\n" ++
    "shape=\"method\"\ngetter=false\nparameters=2\n" ++
    "[[container.member]]\nname=\"C\"\ntype=\"int\"\naccessibility=\"private protected\"\n" ++
    "static=false\ngetter=false\nparameters=2\nkey=\"k\"\nfile=\"c\"\nline=3\n"

def twoDeclarations : List Declaration :=
  [{ name := "B", valueType := "int", accessibility := .protOrInternal, isStatic := true,
     isCompletable := true, shape := .method 2, keyOverride := none,
     container := ⟨"N", "A", .value⟩, location := some ⟨⟨"a"⟩, none, none⟩ },
    { name := "C", valueType := "int", accessibility := .privAndProt, isStatic := false,
      isCompletable := true, shape := .property false, keyOverride := some "k",
      container := ⟨"N", "A", .value⟩, location := some ⟨⟨"c"⟩, some 3, none⟩ }]

theorem twoMembers_read :
    IsKeyed .toml (DocumentFormat.read .toml twoMembers).document ∧
      ofText twoMembers .toml ⟨"list.toml"⟩ = .ok ⟨⟨"list.toml"⟩, twoDeclarations⟩ ∧
      ∃ entries, Holds .toml (DocumentFormat.read .toml twoMembers) entries ∧
        Declares .toml ⟨"list.toml"⟩ entries twoDeclarations := by
  have computed : IsKeyed .toml (DocumentFormat.read .toml twoMembers).document ∧
      ofText twoMembers .toml ⟨"list.toml"⟩ = .ok ⟨⟨"list.toml"⟩, twoDeclarations⟩ := by
    decide +kernel
  obtain ⟨keyed, read⟩ := computed
  have isExact := (ofReading_exact _ .toml ⟨"list.toml"⟩ keyed).2 twoMembers rfl
  exact ⟨keyed, read, ((isExact.declared _).1 read).2⟩

end Manifest

end BuildConstants
