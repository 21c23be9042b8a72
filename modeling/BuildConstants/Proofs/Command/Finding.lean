import BuildConstants.Proofs.Command.Agreement
import BuildConstants.Proofs.FileTree.Touch
import BuildConstants.Proofs.Generation.Filename

/-!
# What a check finds

A check reports a unit as missing when its file cannot be read as a text and as stale when its file
holds another text. `check_classifies` says so of every run that checks, and that this is the truth
about a unit unless its file holds octets that are no text or must not be read: such a file is
there, and it is reported as missing.
-/

namespace BuildConstants

/-! ### Contents of files -/

namespace FileTree

variable {tree : FileTree} {path : Path} {contents : FileContents} {text : String}

/-- What the file that a path leads to holds, if the path leads to a file. -/
def contents? (tree : FileTree) (path : Path) : Option FileContents :=
  match tree.locate path with
  | .ok place => tree.fileAt? place
  | .error _ => none

theorem contents?_eq_some_iff :
    tree.contents? path = some contents ↔
      ∃ place, tree.locate path = .ok place ∧ tree.node? place = some (.file contents) := by
  rw [contents?]
  cases tree.locate path with
  | error error => simp
  | ok place => simp [fileAt?_eq_some_iff]

/-- The path leads to a file that cannot be read. -/
def Bars (tree : FileTree) (path : Path) : Prop :=
  ∃ place ∈ tree.unreadable, tree.locate path = .ok place ∧ (tree.fileAt? place).isSome

theorem toOption_readText_eq_some_iff :
    (tree.readText path).toOption = some text ↔
      tree.contents? path = some (.text text) ∧ ¬ tree.Bars path := by
  have isRead : (tree.readText path).toOption = some text ↔ tree.readText path = .ok text := by
    cases tree.readText path <;> simp [Except.toOption]
  rw [isRead, readText_eq_ok_iff, contents?_eq_some_iff]
  constructor
  · rintro ⟨place, located, isFile, allowed⟩
    refine ⟨⟨place, located, isFile⟩, ?_⟩
    rintro ⟨other, barred, locatedAlso, -⟩
    cases located.symm.trans locatedAlso
    exact allowed barred
  · rintro ⟨⟨place, located, isFile⟩, allowed⟩
    refine ⟨place, located, isFile, fun barred => allowed ⟨place, barred, located, ?_⟩⟩
    exact Option.isSome_of_eq_some (fileAt?_eq_some_iff.2 isFile)

/-- There is a file where a file cannot be read. -/
theorem Bars.isSome_contents? (barred : tree.Bars path) : (tree.contents? path).isSome := by
  obtain ⟨place, -, located, isFile⟩ := barred
  rwa [contents?, located]

/-- What cannot be read is missing, or it is no text, or it must not be read. -/
theorem toOption_readText_eq_none_iff :
    (tree.readText path).toOption = none ↔
      tree.contents? path = none ∨ (∃ octets, tree.contents? path = some (.octets octets)) ∨
        tree.Bars path := by
  rw [Option.eq_none_iff_forall_ne_some]
  simp only [ne_eq, toOption_readText_eq_some_iff]
  cases tree.contents? path with
  | none => simp
  | some contents => cases contents <;> simp

end FileTree

/-! ### Findings -/

/-- What is wrong with the file of a unit. -/
inductive Finding where
  | missing
  | stale
deriving DecidableEq

/-- What is reported about a unit. -/
def StaleUnit.finding (entry : StaleUnit) : Finding :=
  if entry.current.isNone then .missing else .stale

namespace CheckResult

variable {found : CheckResult} {unit : SourceUnit} {tree : FileTree}

/-- The units that are reported, in order, with what is wrong with their files. -/
def findings (found : CheckResult) : List (SourceUnit × Finding) :=
  found.stale.map fun entry => (entry.unit, entry.finding)

/-- The file of a unit as it is shown. -/
def shownFile (found : CheckResult) (unit : SourceUnit) : String :=
  found.project.shown (found.project.placeOf unit)

/-- The record of a finding. -/
def findingRecord (found : CheckResult) (finding : SourceUnit × Finding) : Document :=
  .record [("file", .text (found.shownFile finding.1)), ("missing", .bool (finding.2 = .missing))]

/-- The text is the line of a finding, with the difference behind it if that is asked for. -/
def TextOf (found : CheckResult) (showDiff isColored : Bool) (finding : SourceUnit × Finding)
    (text : String) : Prop :=
  match finding.2 with
  | .missing => text = fileLine isColored .red "missing" (found.shownFile finding.1)
  | .stale => ∃ difference,
    text = fileLine isColored .yellow "stale" (found.shownFile finding.1) ++ difference ∧
      (showDiff = false → difference = "")

/-- What is printed in a form of the report lists the findings, each one once and in order, among
the other problems. -/
def Prints (found : CheckResult) (showDiff isColored : Bool) (printed : TaskResult) :
    ReportFormat → Prop
  | .json => printed.output = TaskResult.recordLine (.record
      [("ok", .bool found.isGood), ("stale", .list (found.findings.map found.findingRecord)),
        ("orphaned", .list (found.orphaned.map .text)),
        ("diagnostics", .list (found.diagnostics.map (·.toDocument found.project.root)))])
  | .github => printed.output = textOfLines
      (found.diagnostics.map (·.notice found.project.root) ++
        found.findings.map (fun finding =>
          fileNotice "is out of date" (found.shownFile finding.1)) ++
        found.orphaned.map (fileNotice "has no matching declarations"))
  | .text => found.isGood ∧ found.findings = [] ∨
      ∃ texts, List.Forall₂ (found.TextOf showDiff isColored) found.findings texts ∧
        printed.errors =
          reportsText found.diagnostics found.project.root false isColored ++
            (textOfLines
                (["Check failed.", s!"  stale files: {found.findings.length}"] ++
                  (if found.orphaned.isEmpty then []
                    else [s!"  orphaned files: {found.orphaned.length}"]) ++ [""]) ++
              String.join (found.orphaned.map (fileLine isColored .red "orphaned")) ++
              String.join texts ++ textOfLines ["", "Run `bakeprop generate` to update them."])

theorem textOf_staleText (found : CheckResult) (showDiff isColored : Bool) (entry : StaleUnit) :
    found.TextOf showDiff isColored (entry.unit, entry.finding)
      (found.staleText showDiff isColored entry) := by
  obtain ⟨unit, current⟩ := entry
  cases current with
  | none => rfl
  | some text => exact ⟨_, rfl, fun noDiff => by rw [noDiff]; rfl⟩

/-- A check lists its findings in each form of the report. -/
theorem prints_present (found : CheckResult) (showDiff : Bool) (format : ReportFormat)
    (isColored : Bool) :
    found.Prints showDiff isColored (found.present showDiff format isColored) format := by
  cases format with
  | json =>
      have records : found.findings.map found.findingRecord = found.stale.map fun entry =>
          .record
            [("file", .text (found.fileOf entry)), ("missing", .bool entry.current.isNone)] := by
        rw [findings, List.map_map]
        refine List.map_congr_left fun entry _ => ?_
        obtain ⟨unit, current⟩ := entry
        cases current <;> rfl
      rw [Prints, records]
      rfl
  | github =>
      rw [Prints, findings, List.map_map]
      rfl
  | text =>
      rw [Prints]
      cases good : found.isGood with
      | true =>
          refine .inl ⟨rfl, ?_⟩
          rw [findings, (isGood_iff.1 good).1]
          rfl
      | false =>
          refine .inr ⟨found.stale.map (found.staleText showDiff isColored), ?_, ?_⟩
          · rw [findings, List.forall₂_map_left_iff, List.forall₂_map_right_iff]
            exact List.forall₂_same.2 fun entry _ => found.textOf_staleText showDiff isColored entry
          · rw [findings, List.length_map]
            simp only [present, good]
            rfl

/-- The findings tell the truth about a unit: it is reported as missing when there is no file, as
stale when the file holds anything but its text, and not at all when the file holds its text. -/
def IsTruthful (found : CheckResult) (tree : FileTree) (unit : SourceUnit) : Prop :=
  ((unit, .missing) ∈ found.findings ↔ tree.contents? (found.project.placeOf unit) = none) ∧
  ((unit, .stale) ∈ found.findings ↔
    ∃ contents, tree.contents? (found.project.placeOf unit) = some contents ∧
      contents ≠ .text unit.text) ∧
  (unit ∉ found.findings.map (·.1) ↔
    tree.contents? (found.project.placeOf unit) = some (.text unit.text))

end CheckResult

/-! ### What a check finds on a tree -/

namespace Project

variable {tree : FileTree} {project : Project} {output : GenerationOutput} {unit : SourceUnit}
  {finding : Finding}

/-- What is reported about a unit on a tree, if anything is. -/
def findingIn (tree : FileTree) (project : Project) (unit : SourceUnit) : Option Finding :=
  match (tree.readText (project.placeOf unit)).toOption with
  | some text => if text = unit.text then none else some .stale
  | none => some .missing

theorem findingIn_eq_missing_iff :
    findingIn tree project unit = some .missing ↔
      tree.contents? (project.placeOf unit) = none ∨
        (∃ octets, tree.contents? (project.placeOf unit) = some (.octets octets)) ∨
          tree.Bars (project.placeOf unit) := by
  rw [← FileTree.toOption_readText_eq_none_iff, findingIn]
  split
  next text found => split <;> simp [found]
  next found => simp [found]

theorem findingIn_eq_stale_iff :
    findingIn tree project unit = some .stale ↔
      ∃ text, tree.contents? (project.placeOf unit) = some (.text text) ∧
        ¬ tree.Bars (project.placeOf unit) ∧ text ≠ unit.text := by
  simp only [← and_assoc, ← FileTree.toOption_readText_eq_some_iff, findingIn]
  split
  next text found => split <;> simp_all
  next found => simp [found]

theorem findingIn_eq_none_iff :
    findingIn tree project unit = none ↔
      tree.contents? (project.placeOf unit) = some (.text unit.text) ∧
        ¬ tree.Bars (project.placeOf unit) := by
  rw [← FileTree.toOption_readText_eq_some_iff, findingIn]
  split
  next text found => split <;> simp_all
  next found => simp [found]

/-- The findings are looked for unit by unit. -/
theorem findings_checkResult (tree : FileTree) (project : Project) (output : GenerationOutput) :
    (checkResult tree project output).findings =
      output.units.filterMap fun unit => (findingIn tree project unit).map (unit, ·) := by
  rw [CheckResult.findings, checkResult, staleIn, List.map_filterMap]
  refine List.filterMap_congr fun unit _ => ?_
  rw [findingIn]
  cases (tree.readText (project.placeOf unit)).toOption with
  | none => rfl
  | some text =>
      by_cases same : text = unit.text
      · simp [same]
      · simp [same, StaleUnit.finding]

theorem mem_findings_iff :
    (unit, finding) ∈ (checkResult tree project output).findings ↔
      unit ∈ output.units ∧ findingIn tree project unit = some finding := by
  rw [findings_checkResult, List.mem_filterMap]
  constructor
  · rintro ⟨other, member, reported⟩
    obtain ⟨found, isFound, same⟩ := Option.map_eq_some_iff.1 reported
    cases same
    exact ⟨member, isFound⟩
  · rintro ⟨member, isFound⟩
    exact ⟨unit, member, by rw [isFound]; rfl⟩

/-- The units that are reported are those with a finding, in the order of the units. -/
theorem map_fst_findings (tree : FileTree) (project : Project) (output : GenerationOutput) :
    (checkResult tree project output).findings.map (·.1) =
      output.units.filter fun unit => (findingIn tree project unit).isSome := by
  rw [findings_checkResult, List.map_filterMap, ← List.filterMap_eq_filter]
  refine List.filterMap_congr fun unit _ => ?_
  cases reported : findingIn tree project unit <;> simp [Option.guard, reported]

theorem not_mem_findings_iff (member : unit ∈ output.units) :
    unit ∉ (checkResult tree project output).findings.map (·.1) ↔
      findingIn tree project unit = none := by
  rw [map_fst_findings, List.mem_filter]
  simp [member]

/-- A check tells the truth about a unit whose file does not hold octets that are no text and can be
read, and about no other. -/
theorem isTruthful_iff (member : unit ∈ output.units) :
    (checkResult tree project output).IsTruthful tree unit ↔
      (∀ octets, tree.contents? (project.placeOf unit) ≠ some (.octets octets)) ∧
        ¬ tree.Bars (project.placeOf unit) := by
  rw [CheckResult.IsTruthful, mem_findings_iff, mem_findings_iff, not_mem_findings_iff member,
    findingIn_eq_missing_iff, findingIn_eq_stale_iff, findingIn_eq_none_iff]
  have same : (checkResult tree project output).project = project := rfl
  rw [same]
  by_cases barred : tree.Bars (project.placeOf unit)
  · obtain ⟨contents, found⟩ := Option.isSome_iff_exists.1 barred.isSome_contents?
    simp [member, barred, found]
  · cases tree.contents? (project.placeOf unit) with
    | none => simp [member, barred]
    | some contents => cases contents <;> simp [member, barred]

end Project

section

variable {words : List String} {surroundings : Surroundings} {tree : FileTree}
  {invocation : Invocation} {project : Project} {output : GenerationOutput} {showDiff : Bool}
  {format : ReportFormat}

/-- A run that checks changes nothing and lists its findings, in the order of the units and each
unit once at most. A unit is missing when its file is not there, holds octets that are no text or
cannot be read, stale when the file holds another text, and not reported when the file holds the
text of the unit. This is the truth exactly about the units whose files do not hold octets that are
no text and can be read, if they are there. -/
theorem check_classifies (understood : Invocation.ofWords words = .ok invocation)
    (asked : invocation.task = some (.check showDiff format))
    (loads : Session.Gives (Project.load invocation surroundings) tree (.ok project, tree))
    (passed : generate project.options project.rawProperties project.manifest.declarations .never =
      .ok output) :
    ∃ log printed, ∃ found : CheckResult,
      runOn words surroundings tree =
        (outcomeOf log (invocation.isColored surroundings) (.ok printed), tree) ∧
      found.Prints showDiff (invocation.isColored surroundings) printed format ∧
      found.project = project ∧
      (found.findings.map (·.1)).Sublist output.units ∧ (found.findings.map (·.1)).Nodup ∧
      ∀ unit ∈ output.units,
        ((unit, .missing) ∈ found.findings ↔
          tree.contents? (project.placeOf unit) = none ∨
            (∃ octets, tree.contents? (project.placeOf unit) = some (.octets octets)) ∨
              tree.Bars (project.placeOf unit)) ∧
        ((unit, .stale) ∈ found.findings ↔
          ∃ text, tree.contents? (project.placeOf unit) = some (.text text) ∧
            ¬ tree.Bars (project.placeOf unit) ∧ text ≠ unit.text) ∧
        (unit ∉ found.findings.map (·.1) ↔
          tree.contents? (project.placeOf unit) = some (.text unit.text) ∧
            ¬ tree.Bars (project.placeOf unit)) ∧
        (found.IsTruthful tree unit ↔
          (∀ octets, tree.contents? (project.placeOf unit) ≠ some (.octets octets)) ∧
            ¬ tree.Bars (project.placeOf unit)) := by
  obtain ⟨log, ran⟩ := runOn_check understood (Project.gives_load_iff.1 loads) passed asked
  have inOrder : ((Project.checkResult tree project output).findings.map (·.1)).Sublist
      output.units := by
    rw [Project.map_fst_findings]
    exact List.filter_sublist
  have distinct := List.Nodup.of_map _ (GenerationOutput.filenames_of_generate passed).1
  refine ⟨log, _, Project.checkResult tree project output, ran,
    CheckResult.prints_present _ showDiff format _, rfl, inOrder, distinct.sublist inOrder,
    fun unit member => ⟨?_, ?_, ?_, Project.isTruthful_iff member⟩⟩
  · rw [Project.mem_findings_iff, Project.findingIn_eq_missing_iff, and_iff_right member]
  · rw [Project.mem_findings_iff, Project.findingIn_eq_stale_iff, and_iff_right member]
  · rw [Project.not_mem_findings_iff member, Project.findingIn_eq_none_iff]

end

/-! ### Files of a single unit -/

namespace Variants

/-- A project with a single unit, whose file holds the given contents. -/
def holding (contents : FileContents) : FileTree :=
  { entries := [(["w"], .directory),
      (["w", "decl.json"], .file (.text
        ("\x7b\"container\":[\x7b\"name\":\"Variants\"," ++
          "\"member\":[\x7b\"name\":\"Level\",\"type\":\"int\"\x7d]\x7d]\x7d"))),
      (["w", "Generated"], .directory), (["w", "Generated", "Variants.g.cs"], .file contents)]
    working := ["w"] }

def project : Project :=
  { root := ⟨"/w"⟩, configPlace := none, rawProperties := none, options := {}
    manifest :=
      { path := ⟨"/w/decl.json"⟩
        declarations :=
          [(Declaration.property ⟨"", "Variants", .reference⟩ "Level" "int").withLocation
            { file := ⟨"/w/decl.json"⟩, line := none, column := none }] }
    output := ⟨"/w/Generated"⟩ }

def checking (format : ReportFormat) : Invocation :=
  { path := none, properties := none, declarations := some ⟨"decl.json"⟩, output := none
    emitMarker := false, isVerbose := false, noColor := false, task := some (.check false format) }

/-- A file with another text is reported as stale. -/
theorem classified_stale :
    let words := ["check", "-d", "decl.json"]
    let tree := holding (.text "")
    ∃ output log printed, ∃ found : CheckResult, ∃ unit ∈ output.units,
      Invocation.ofWords words = .ok (checking .text) ∧
      Session.Gives (Project.load (checking .text) Disagreement.bare) tree (.ok project, tree) ∧
      generate project.options project.rawProperties project.manifest.declarations .never =
        .ok output ∧
      tree.contents? (project.placeOf unit) = some (.text "") ∧ "" ≠ unit.text ∧
      runOn words Disagreement.bare tree = (outcomeOf log false (.ok printed), tree) ∧
      (unit, .stale) ∈ found.findings ∧ found.IsTruthful tree unit := by
  intro words tree
  have understood : Invocation.ofWords words = .ok (checking .text) := by decide +kernel
  have loads : Session.Gives (Project.load (checking .text) Disagreement.bare) tree
      (.ok project, tree) := Project.gives_load_iff.2 (by decide +kernel)
  have passed := generate_never project.options project.rawProperties
    project.manifest.declarations
  obtain ⟨unit, member, holds, differs⟩ : ∃ unit ∈ project.options.markers ++
      SourceUnit.ofModels project.options (.resolve project.rawProperties)
        (Declaration.accepted project.manifest.declarations),
      tree.contents? (project.placeOf unit) = some (.text "") ∧ "" ≠ unit.text := by
    decide +kernel
  obtain ⟨log, printed, found, ran, -, -, -, -, classified⟩ :=
    check_classifies understood rfl loads passed
  obtain ⟨-, stale, -, truthful⟩ := classified unit member
  have allowed : ¬ tree.Bars (project.placeOf unit) := by
    rintro ⟨place, barred, -⟩
    cases barred
  exact ⟨_, log, printed, found, unit, member, understood, loads, passed, holds, differs, ran,
    stale.2 ⟨"", holds, allowed, differs⟩, truthful.2 ⟨by simp [holds], allowed⟩⟩

/-- A file with an octet that is no text is there, and it is reported as missing. -/
theorem octets_reported_missing :
    let tree := holding (.octets [0xff])
    tree.isFile ⟨"/w/Generated/Variants.g.cs"⟩ ∧
    Session.Gives (Project.load (checking .text) Disagreement.bare) tree (.ok project, tree) ∧
    (runOn ["check", "-d", "decl.json", "--format", "json"] Disagreement.bare tree).1.output =
      "\x7b\"ok\":false,\"stale\":[" ++
        "\x7b\"file\":\"Generated/Variants.g.cs\",\"missing\":true\x7d]," ++
        "\"orphaned\":[],\"diagnostics\":[]\x7d\n" ∧
    (runOn ["check", "-d", "decl.json"] Disagreement.bare tree).1.errors =
      "Check failed.\n  stale files: 1\n\n  missing Generated/Variants.g.cs\n\n" ++
        "Run `bakeprop generate` to update them.\n" := by
  intro tree
  exact ⟨by decide +kernel, Project.gives_load_iff.2 (by decide +kernel), by decide +kernel,
    by decide +kernel⟩

end Variants

end BuildConstants
