import BuildConstants.Manifest
import BuildConstants.Proofs.Document.Rules

/-!
# Members and containers of manifests

The rules that the mappings of a manifest have to obey, and the declarations that mappings that obey
them stand for. The relations are between mappings and declarations: the records that are read in
between are not among what they speak of.
-/

namespace BuildConstants

open Document
open Document.RecordLayout (Follows IsStrict Sets follows_of)

variable {format : DocumentFormat} {entries : Entries}

/-! ## Values of the fields -/

/-- A path is written as its text. -/
def Path.IsWritten (doc : Document) (path : Path) : Prop :=
  IsText doc path.text

theorem Path.decides_ofDocument : Decides ofDocument IsWritten := by
  intro doc path
  rw [ofDocument, map_eq_ok, IsWritten, ← decides_asText doc path.text]
  constructor
  · rintro ⟨word, read, rfl⟩
    exact read
  · exact fun read => ⟨path.text, read, rfl⟩

/-- The names of an accessibility: its keywords, and those of two words with a line between them as
well. -/
def Accessibility.names : Accessibility → List String
  | .pub => ["public"]
  | .internal => ["internal"]
  | .prot => ["protected"]
  | .priv => ["private"]
  | .protOrInternal => ["protected internal", "protected_internal"]
  | .privAndProt => ["private protected", "private_protected"]

theorem Accessibility.decides_ofDocument (format : DocumentFormat) :
    Decides (ofDocument format) (IsVariant names format) := by
  refine decides_asVariant (by unfold Spellings.Distinct; decide) (fun accessibility _ => ?_) format
  cases accessibility <;> simp [Spellings.Names, spellings, names]

/-- The name of a kind of containers. -/
def ContainerKind.names : ContainerKind → List String
  | .value => ["value"]
  | .reference => ["reference"]

theorem ContainerKind.decides_ofDocument (format : DocumentFormat) :
    Decides (ofDocument format) (IsVariant names format) := by
  refine decides_asVariant (by unfold Spellings.Distinct; decide) (fun kind _ => ?_) format
  cases kind <;> simp [Spellings.Names, spellings, names]

/-- The name of a form of members. -/
def MemberShape.Form.names : Form → List String
  | .property => ["property"]
  | .method => ["method"]

theorem MemberShape.Form.decides_asVariant (format : DocumentFormat) :
    Decides (asVariant format spellings) (IsVariant names format) := by
  refine Document.decides_asVariant (by unfold Spellings.Distinct; decide) (fun form _ => ?_) format
  cases form <;> simp [Spellings.Names, spellings, names]

/-! ## Rules -/

/-- The keys of a member, with what their values have to be like. -/
def ManifestMember.rules (format : DocumentFormat) : List Rule :=
  [.of "name" true IsText, .of "type" true IsText,
    .of "accessibility" false (IsVariant Accessibility.names format),
    .of "static" false IsTruth, .of "partial" false IsTruth,
    .of "shape" false (IsVariant MemberShape.Form.names format), .of "getter" false IsTruth,
    .of "parameters" false IsCount, .of "key" false (IsOptional IsText),
    .of "file" false (IsOptional Path.IsWritten), .of "line" false (IsOptional IsCount),
    .of "column" false (IsOptional IsCount)]

/-- The keys of a container. Each of its members obeys their rules. -/
def ManifestContainer.rules (format : DocumentFormat) : List Rule :=
  [.of "namespace" false IsText, .of "name" true IsText,
    .of "kind" false (IsVariant ContainerKind.names format),
    .of "file" false (IsOptional Path.IsWritten),
    ⟨"member", false, EachObeys format (ManifestMember.rules format)⟩]

/-- The only key of a manifest. Each of its containers obeys their rules. -/
def Manifest.rules (format : DocumentFormat) : List Rule :=
  [⟨"container", false, EachObeys format (ManifestContainer.rules format)⟩]

/-! ## What mappings stand for -/

/-- The mapping of a member stands for a shape: a getter counts for a property and parameters for a
method. -/
inductive MemberShape.IsGiven (format : DocumentFormat) (entries : Entries) :
    MemberShape → Prop where
  | property {hasGetter}
      (form : GivesOr format entries "shape" (IsVariant Form.names format) .property .property)
      (getter : GivesOr format entries "getter" IsTruth true hasGetter) :
      IsGiven format entries (.property hasGetter)
  | method {parameterCount}
      (form : GivesOr format entries "shape" (IsVariant Form.names format) .property .method)
      (parameters : GivesOr format entries "parameters" IsCount 0 parameterCount) :
      IsGiven format entries (.method parameterCount)

/-- The mapping of a member stands for a location: its file is `place` where it gives none. -/
structure SourceLocation.IsGiven (format : DocumentFormat) (entries : Entries) (place : Path)
    (location : SourceLocation) : Prop where
  file : ∃ file, GivesOr format entries "file" (IsOptional Path.IsWritten) none file ∧
    location.file = file.getD place
  line : GivesOr format entries "line" (IsOptional IsCount) none location.line
  column : GivesOr format entries "column" (IsOptional IsCount) none location.column

/-- The mapping of a member stands for a declaration; `place` is the file of the members of its
container that give none. -/
structure Declaration.IsGiven (format : DocumentFormat) (container : Container) (place : Path)
    (entries : Entries) (d : Declaration) : Prop where
  name : Gives format entries "name" IsText d.name
  valueType : Gives format entries "type" IsText d.valueType
  accessibility : GivesOr format entries "accessibility"
    (IsVariant Accessibility.names format) .pub d.accessibility
  isStatic : GivesOr format entries "static" IsTruth true d.isStatic
  isCompletable : GivesOr format entries "partial" IsTruth true d.isCompletable
  shape : d.shape.IsGiven format entries
  keyOverride : GivesOr format entries "key" (IsOptional IsText) none d.keyOverride
  container : d.container = container
  location : ∃ location, d.location = some location ∧ location.IsGiven format entries place

/-- The mapping of a container gives its names and its kind. -/
structure Container.IsGiven (format : DocumentFormat) (entries : Entries) (container : Container) :
    Prop where
  namespaceName : GivesOr format entries "namespace" IsText "" container.namespaceName
  name : Gives format entries "name" IsText container.name
  kind : GivesOr format entries "kind" (IsVariant ContainerKind.names format) .reference
    container.kind

/-- The mapping of a container stands for the declarations of its members in their order; `path` is
that of the manifest. -/
def ManifestContainer.Declares (format : DocumentFormat) (path : Path) (entries : Entries)
    (declarations : List Declaration) : Prop :=
  ∃ container file, Container.IsGiven format entries container ∧
    GivesOr format entries "file" (IsOptional Path.IsWritten) none file ∧
    GivesOr format entries "member"
      (IsListOf (Declaration.IsGiven format container (file.getD path))) [] declarations

/-- The mapping of a manifest stands for the declarations of its containers in their order. -/
def Manifest.Declares (format : DocumentFormat) (path : Path) (entries : Entries)
    (declarations : List Declaration) : Prop :=
  ∃ groups, GivesOr format entries "container"
      (IsListOf (ManifestContainer.Declares format path)) [] groups ∧
    declarations = groups.flatten

/-! ## Single values -/

section Unique

variable {container : Container} {place : Path}

theorem MemberShape.IsGiven.unique {first second : MemberShape} (once : DistinctKeys format entries)
    (isFirst : first.IsGiven format entries) (isSecond : second.IsGiven format entries) :
    first = second := by
  have forms {form other : Form}
      (given : GivesOr format entries "shape" (IsVariant Form.names format) .property form)
      (again : GivesOr format entries "shape" (IsVariant Form.names format) .property other) :
      form = other :=
    (Form.decides_asVariant format).givesOr_unique once given again
  cases isFirst with
  | property form getter =>
      cases isSecond with
      | property _ other => rw [decides_asBool.givesOr_unique once getter other]
      | method other => cases forms form other
  | method form parameters =>
      cases isSecond with
      | property other => cases forms form other
      | method _ other => rw [decides_asCount.givesOr_unique once parameters other]

theorem SourceLocation.IsGiven.unique {first second : SourceLocation}
    (once : DistinctKeys format entries) (isFirst : first.IsGiven format entries place)
    (isSecond : second.IsGiven format entries place) : first = second := by
  obtain ⟨file, givesFile, sameFile⟩ := isFirst.file
  obtain ⟨other, givesOther, sameOther⟩ := isSecond.file
  have files := Path.decides_ofDocument.asOption.givesOr_unique once givesFile givesOther
  have lines := decides_asCount.asOption.givesOr_unique once isFirst.line isSecond.line
  have columns := decides_asCount.asOption.givesOr_unique once isFirst.column isSecond.column
  obtain ⟨_, _, _⟩ := first
  obtain ⟨_, _, _⟩ := second
  dsimp only at sameFile sameOther lines columns
  rw [sameFile, sameOther, files, lines, columns]

theorem Declaration.IsGiven.unique {first second : Declaration} (once : DistinctKeys format entries)
    (isFirst : first.IsGiven format container place entries)
    (isSecond : second.IsGiven format container place entries) : first = second := by
  have names := decides_asText.gives_unique once isFirst.name isSecond.name
  have types := decides_asText.gives_unique once isFirst.valueType isSecond.valueType
  have accessibilities := (Accessibility.decides_ofDocument format).givesOr_unique once
    isFirst.accessibility isSecond.accessibility
  have statics := decides_asBool.givesOr_unique once isFirst.isStatic isSecond.isStatic
  have partials := decides_asBool.givesOr_unique once isFirst.isCompletable isSecond.isCompletable
  have shapes := isFirst.shape.unique once isSecond.shape
  have keys := decides_asText.asOption.givesOr_unique once isFirst.keyOverride isSecond.keyOverride
  have containers := isFirst.container.trans isSecond.container.symm
  obtain ⟨location, located, isLocation⟩ := isFirst.location
  obtain ⟨other, locatedOther, isOther⟩ := isSecond.location
  have locations : first.location = second.location := by
    rw [located, locatedOther, isLocation.unique once isOther]
  cases first
  cases second
  simp_all only

theorem Container.IsGiven.unique {first second : Container} (once : DistinctKeys format entries)
    (isFirst : first.IsGiven format entries) (isSecond : second.IsGiven format entries) :
    first = second := by
  have namespaces :=
    decides_asText.givesOr_unique once isFirst.namespaceName isSecond.namespaceName
  have names := decides_asText.gives_unique once isFirst.name isSecond.name
  have kinds := (ContainerKind.decides_ofDocument format).givesOr_unique once isFirst.kind
    isSecond.kind
  cases first
  cases second
  simp_all only

/-- The mapping of a container that obeys the rules stands for one list of declarations. -/
theorem ManifestContainer.Declares.unique {first second : List Declaration}
    (obeys : Obeys format (rules format) entries)
    (isFirst : Declares format place entries first)
    (isSecond : Declares format place entries second) : first = second := by
  obtain ⟨container, file, isContainer, givesFile, givesMembers⟩ := isFirst
  obtain ⟨_, _, isOther, givesOther, givesOthers⟩ := isSecond
  cases isContainer.unique obeys.once isOther
  cases Path.decides_ofDocument.asOption.givesOr_unique obeys.once givesFile givesOther
  have isRule : ⟨"member", false, EachObeys format (ManifestMember.rules format)⟩ ∈
      rules format := by
    simp [rules]
  refine obeys.listOf_unique (by simp [rules, Rule.of]) isRule (fun _ obeysMember _ _ => ?_)
    givesMembers givesOthers
  exact Declaration.IsGiven.unique obeysMember.once

/-- The mapping of a manifest that obeys the rules stands for one list of declarations. -/
theorem Manifest.Declares.unique {first second : List Declaration}
    (obeys : Obeys format (rules format) entries)
    (isFirst : Declares format place entries first)
    (isSecond : Declares format place entries second) : first = second := by
  obtain ⟨groups, givesGroups, rfl⟩ := isFirst
  obtain ⟨others, givesOthers, rfl⟩ := isSecond
  have isRule : ⟨"container", false, EachObeys format (ManifestContainer.rules format)⟩ ∈
      rules format := by
    simp [rules]
  refine congrArg List.flatten ?_
  refine obeys.listOf_unique (by simp [rules]) isRule (fun _ obeysContainer _ _ => ?_)
    givesGroups givesOthers
  exact ManifestContainer.Declares.unique obeysContainer

end Unique

/-! ## Members -/

namespace ManifestMember

theorem isStrict (format : DocumentFormat) : (layout format).IsStrict :=
  ⟨rfl, by cases format <;> decide, by cases format <;> decide⟩

theorem follows (format : DocumentFormat) (entries : Entries) :
    List.Forall₂ (Follows format entries) (layout format).fields (rules format) := by
  refine .cons (follows_of decides_asText (by decide)) ?_
  refine .cons (follows_of decides_asText (by decide)) ?_
  refine .cons (follows_of (Accessibility.decides_ofDocument format) (by decide)) ?_
  refine .cons (follows_of decides_asBool (by decide)) ?_
  refine .cons (follows_of decides_asBool (by decide)) ?_
  refine .cons (follows_of (MemberShape.Form.decides_asVariant format) (by decide)) ?_
  refine .cons (follows_of decides_asBool (by decide)) ?_
  refine .cons (follows_of decides_asCount (by decide)) ?_
  refine .cons (follows_of decides_asText.asOption (by decide)) ?_
  refine .cons (follows_of Path.decides_ofDocument.asOption (by decide)) ?_
  refine .cons (follows_of decides_asCount.asOption (by decide)) ?_
  exact .cons (follows_of decides_asCount.asOption (by decide)) .nil

/-- The mapping that a member is read from stands for its shape. -/
theorem isGiven_shape {m : ManifestMember}
    (completed : (layout format).readTable format entries = .ok m) :
    m.shape.IsGiven format entries := by
  have form := (isStrict format).givesOr (MemberShape.Form.decides_asVariant format) "shape"
    (·.form) (by simp [Sets, layout]) completed
  have getter := (isStrict format).givesOr decides_asBool "getter" (·.hasGetter)
    (by simp [Sets, layout]) completed
  have parameters := (isStrict format).givesOr decides_asCount "parameters" (·.parameterCount)
    (by simp [Sets, layout]) completed
  rw [shape]
  cases same : m.form with
  | property =>
      rw [same] at form
      exact .property form getter
  | method =>
      rw [same] at form
      exact .method form parameters

/-- The mapping that a member is read from stands for its declaration. -/
theorem isGiven_declaration {m : ManifestMember}
    (completed : (layout format).readTable format entries = .ok m) (owner : ManifestContainer)
    (manifest : Path) :
    (m.declaration owner manifest).IsGiven format owner.container (owner.file.getD manifest)
      entries := by
  have strict := isStrict format
  have file := strict.givesOr Path.decides_ofDocument.asOption "file" (·.file)
    (by simp [Sets, layout]) completed
  have fallback : (m.file.or owner.file).getD manifest =
      m.file.getD (owner.file.getD manifest) := by
    cases m.file <;> rfl
  exact
    { name := strict.gives decides_asText "name" (·.name)
        (by simp [Sets, layout]) (by simp [layout, Field.of]) completed
      valueType := strict.gives decides_asText "type" (·.valueType)
        (by simp [Sets, layout]) (by simp [layout, Field.of]) completed
      accessibility := strict.givesOr (Accessibility.decides_ofDocument format) "accessibility"
        (·.accessibility) (by simp [Sets, layout]) completed
      isStatic := strict.givesOr decides_asBool "static" (·.isStatic)
        (by simp [Sets, layout]) completed
      isCompletable := strict.givesOr decides_asBool "partial" (·.isCompletable)
        (by simp [Sets, layout]) completed
      shape := isGiven_shape completed
      keyOverride := strict.givesOr decides_asText.asOption "key" (·.key)
        (by simp [Sets, layout]) completed
      container := rfl
      location := ⟨_, rfl, ⟨m.file, file, fallback⟩,
        strict.givesOr decides_asCount.asOption "line" (·.line)
          (by simp [Sets, layout]) completed,
        strict.givesOr decides_asCount.asOption "column" (·.column)
          (by simp [Sets, layout]) completed⟩ }

end ManifestMember

end BuildConstants
