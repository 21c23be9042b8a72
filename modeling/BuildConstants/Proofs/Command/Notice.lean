import BuildConstants.Proofs.Command.Agreement
import BuildConstants.Proofs.Diagnostic.Message

/-!
# Notices and their lines

A hosted build reads the notices of a run line by line. A notice is one line exactly when the texts
that it takes from a declaration, which are its member or type and its file, have no line breaks:
nothing is done about those. `generate_notices` says so of every run that generates.
-/

namespace BuildConstants

/-! ### Lines of a text -/

section Lines

variable {lines : List String}

theorem textOfLines_cons (line : String) (rest : List String) :
    textOfLines (line :: rest) = line ++ String.singleton '\n' ++ textOfLines rest := by
  rw [textOfLines, List.map_cons, String.join_cons]
  rfl

/-- A text of lines has these lines, each one cut at its own line breaks, and nothing behind
them. -/
theorem parts_textOfLines (lines : List String) :
    Text.parts '\n' (textOfLines lines) = lines.flatMap (Text.parts '\n') ++ [""] := by
  induction lines with
  | nil => rfl
  | cons line rest ih =>
      rw [textOfLines_cons, Text.parts_append, ih, List.flatMap_cons, List.append_assoc]

/-- The lines of a text of lines are these lines when none of them has a line break. -/
theorem parts_textOfLines_eq_iff :
    Text.parts '\n' (textOfLines lines) = lines ++ [""] ↔ ∀ line ∈ lines, '\n' ∉ line.toList := by
  rw [parts_textOfLines, List.append_left_inj]
  constructor
  · intro same line member
    rw [← same] at member
    obtain ⟨other, -, isPart⟩ := List.mem_flatMap.1 member
    exact Text.notMem_part isPart
  · intro whole
    induction lines with
    | nil => rfl
    | cons line rest ih =>
        obtain ⟨wholeLine, wholeRest⟩ := List.forall_mem_cons.1 whole
        rw [List.flatMap_cons, Text.parts_of_notMem wholeLine, ih wholeRest]
        rfl

theorem mem_textOfLines_iff {mark : Char} (noFeed : mark ≠ '\n') :
    mark ∈ (textOfLines lines).toList ↔ ∃ line ∈ lines, mark ∈ line.toList := by
  induction lines with
  | nil => simp [textOfLines]
  | cons line rest ih =>
      rw [textOfLines_cons]
      simp [ih, noFeed]

end Lines

/-! ### What a notice is made of -/

namespace Diagnostic

variable {d : Diagnostic} {root : Path} {mark : Char} {shown : String}

/-- The properties of a notice. -/
def noticePlace (d : Diagnostic) (root : Path) : String :=
  Text.joinWith "," (match d.location with
    | some location => location.noticeProperties root
    | none => [])

/-- The texts that a notice takes from a declaration: the name of the member or its type, and the
file. -/
def broughtTexts (d : Diagnostic) (root : Path) : List String :=
  d.arguments ++ d.location.toList.map (·.file.relativeTo root)

/-- Every notice is a warning. -/
theorem notice_eq (d : Diagnostic) (root : Path) :
    d.notice root =
      "::warning " ++ d.noticePlace root ++ "::" ++ d.code ++ ": " ++ d.message := by
  have severity : d.severity.text = "warning" := by
    rw [Diagnostic.severity, descriptor]
    cases d.kind <;> rfl
  have front : "::warning " = "::" ++ "warning" ++ " " := by decide +kernel
  rw [front, ← severity]
  rfl

/-- A line break of one kind or the other. -/
def IsBreak (c : Char) : Prop :=
  c = '\n' ∨ c = '\r'

theorem IsBreak.notMem {text : String} (breaks : IsBreak mark)
    (noFeed : '\n' ∉ text.toList) (noReturn : '\r' ∉ text.toList) : mark ∉ text.toList := by
  rcases breaks with rfl | rfl
  · exact noFeed
  · exact noReturn

section

variable (breaks : IsBreak mark)

include breaks

theorem break_notMem_number (number : UInt64) : mark ∉ (toString number).toList := by
  have decimal : toString number = toString number.toNat := rfl
  rw [decimal, Nat.toString_eq_ofList_toDigits, String.toList_ofList]
  intro member
  have isDigit := Nat.isDigit_of_mem_toDigits (by decide) (by decide) member
  rcases breaks with rfl | rfl <;> revert isDigit <;> decide

/-- The only line breaks in the properties of a notice are those of the file. -/
theorem break_mem_noticePlace_iff :
    mark ∈ (d.noticePlace root).toList ↔
      ∃ text ∈ d.location.toList.map (·.file.relativeTo root), mark ∈ text.toList := by
  have comma : mark ∉ ",".toList := breaks.notMem (by decide) (by decide)
  have file : mark ∉ "file=".toList := breaks.notMem (by decide) (by decide)
  have line : mark ∉ "line=".toList := breaks.notMem (by decide) (by decide)
  have column : mark ∉ "col=".toList := breaks.notMem (by decide) (by decide)
  have number := break_notMem_number breaks
  have text : ∀ text : String, toString text = text := fun _ => rfl
  rw [noticePlace]
  rcases d.location with _ | ⟨path, _ | lineNumber, _ | columnNumber⟩
  · simp [Text.joinWith]
  all_goals
    simp only [SourceLocation.noticeProperties, Text.joinWith, Option.toList_none,
      Option.toList_some, List.map_nil, List.map_cons, List.cons_append, List.nil_append,
      List.append_nil, String.intercalate_singleton, String.intercalate_cons_cons,
      String.toList_append, List.mem_append, text, comma, file, line, column, number, false_or,
      or_false, List.mem_singleton, exists_eq_left]

theorem break_notMem_fixed (kind : DiagnosticKind) :
    mark ∉ kind.lead.toList ∧ mark ∉ kind.descriptor.code.toList := by
  refine ⟨breaks.notMem ?_ ?_, breaks.notMem ?_ ?_⟩ <;> cases kind <;> decide +kernel

/-- The only line breaks in a notice are those of the texts taken from a declaration. -/
theorem break_mem_notice_iff (given : d.arguments = [shown]) :
    mark ∈ (d.notice root).toList ↔ ∃ text ∈ d.broughtTexts root, mark ∈ text.toList := by
  obtain ⟨lead, code⟩ := break_notMem_fixed breaks d.kind
  have front : mark ∉ "::warning ".toList := breaks.notMem (by decide) (by decide)
  have colons : mark ∉ "::".toList := breaks.notMem (by decide) (by decide)
  have colon : mark ∉ ": ".toList := breaks.notMem (by decide) (by decide)
  have bracket : mark ∉ "]".toList := breaks.notMem (by decide) (by decide)
  have message : d.message = d.kind.bracketed shown := message_of_arguments given
  rw [notice_eq, message, DiagnosticKind.bracketed, broughtTexts, given]
  simp only [String.toList_append, List.mem_append, front, colons, colon, bracket, lead,
    Diagnostic.code, descriptor, code, break_mem_noticePlace_iff breaks, false_or, or_false]
  simp [or_comm]

end

end Diagnostic

/-! ### Notices of a run -/

section

variable {words : List String} {surroundings : Surroundings} {tree : FileTree}
  {invocation : Invocation} {project : Project} {output : GenerationOutput}
  {denyWarnings dryRun : Bool}

/-- Generating that ends well reports what it finds at the beginning. -/
theorem Project.eq_of_generated_eq_ok {result : GenerateResult} {after : FileTree}
    (ended : generated tree project output denyWarnings dryRun = (.ok result, after)) :
    result = generateResult tree project output denyWarnings dryRun := by
  cases dryRun with
  | true =>
      cases ended
      rfl
  | false =>
      obtain ⟨-, -, -, -, -, same⟩ := generated_eq_ok ended
      exact same

/-- A run that generates and does not fail prints the notices of its diagnostics. -/
theorem output_of_notices (understood : Invocation.ofWords words = .ok invocation)
    (asked : invocation.task = some (.generate denyWarnings dryRun .github))
    (loaded : Project.loadIn tree invocation surroundings = .ok project)
    (passed : generate project.options project.rawProperties project.manifest.declarations .never =
      .ok output)
    (ended : (runOn words surroundings tree).1.status ≠ .failed) :
    (runOn words surroundings tree).1.output =
      textOfLines (output.diagnostics.map (·.notice project.root)) := by
  obtain ⟨log, ran⟩ := runOn_generate understood loaded passed asked
  rw [ran] at ended ⊢
  obtain ⟨printed, succeeded⟩ := exists_ok_of_status ended
  rw [succeeded]
  rcases final : Project.generated tree project output denyWarnings dryRun with ⟨result, after⟩
  rw [final] at succeeded
  cases result with
  | error error => cases succeeded
  | ok found =>
      obtain rfl := Project.eq_of_generated_eq_ok final
      cases succeeded
      rfl

/-- A run that generates and does not fail prints the notices of its diagnostics in order, each one
a warning with a code and a message, and nothing else. Each notice is cut at its own line breaks, so
it is one line exactly when the texts that it takes from its declaration have none; carriage returns
come from these texts as well. -/
theorem generate_notices (understood : Invocation.ofWords words = .ok invocation)
    (asked : invocation.task = some (.generate denyWarnings dryRun .github))
    (loads : Session.Gives (Project.load invocation surroundings) tree (.ok project, tree))
    (passed : generate project.options project.rawProperties project.manifest.declarations .never =
      .ok output)
    (ended : (runOn words surroundings tree).1.status ≠ .failed) :
    let printed := (runOn words surroundings tree).1.output
    let notices := output.diagnostics.map (·.notice project.root)
    printed = textOfLines notices ∧
    Text.parts '\n' printed = notices.flatMap (Text.parts '\n') ++ [""] ∧
    (∀ d ∈ output.diagnostics, ∃ place, d.notice project.root =
      "::warning " ++ place ++ "::" ++ d.code ++ ": " ++ d.message) ∧
    (Text.parts '\n' printed = notices ++ [""] ↔
      ∀ d ∈ output.diagnostics, ∀ text ∈ d.broughtTexts project.root, '\n' ∉ text.toList) ∧
    ('\r' ∈ printed.toList ↔
      ∃ d ∈ output.diagnostics, ∃ text ∈ d.broughtTexts project.root, '\r' ∈ text.toList) := by
  intro printed notices
  have prints : printed = textOfLines notices :=
    output_of_notices understood asked (Project.gives_load_iff.1 loads) passed ended
  have single : ∀ d ∈ output.diagnostics, ∃ shown, d.arguments = [shown] := by
    intro d member
    rw [generate_never] at passed
    cases passed
    obtain ⟨declaration, -, rejected⟩ := Declaration.mem_rejections.1 member
    exact Declaration.exists_argument rejected
  have brought : ∀ mark, Diagnostic.IsBreak mark → ∀ d ∈ output.diagnostics,
      (mark ∈ (d.notice project.root).toList ↔
        ∃ text ∈ d.broughtTexts project.root, mark ∈ text.toList) := by
    intro mark breaks d member
    obtain ⟨shown, given⟩ := single d member
    exact Diagnostic.break_mem_notice_iff breaks given
  refine ⟨prints, prints ▸ parts_textOfLines notices, fun d _ => ⟨_, d.notice_eq project.root⟩,
    ?_, ?_⟩
  · rw [prints, parts_textOfLines_eq_iff, List.forall_mem_map]
    refine forall₂_congr fun d member => ?_
    rw [brought '\n' (.inl rfl) d member]
    push Not
    rfl
  · rw [prints, mem_textOfLines_iff (by decide)]
    simp only [notices, List.mem_map, exists_exists_and_eq_and]
    refine exists_congr fun d => and_congr_right fun member => ?_
    exact brought '\r' (.inr rfl) d member

end

namespace Annotated

/-- A project whose only declaration is a member of the given name that is not static; the name is
written in a document as it is. -/
def declaring (written : String) : FileTree :=
  { entries := [(["w"], .directory),
      (["w", "decl.json"], .file (.text
        ("\x7b\"container\":[\x7b\"name\":\"Variants\",\"member\":[\x7b\"name\":\"" ++ written ++
          "\",\"type\":\"int\",\"static\":false\x7d]\x7d]\x7d")))]
    working := ["w"] }

def words : List String :=
  ["generate", "-d", "decl.json", "--format", "github"]

def invocation : Invocation :=
  { path := none, properties := none, declarations := some ⟨"decl.json"⟩, output := none
    emitMarker := false, isVerbose := false, noColor := false
    task := some (.generate false false .github) }

def project (member : String) : Project :=
  { root := ⟨"/w"⟩, configPlace := none, rawProperties := none, options := {}
    manifest :=
      { path := ⟨"/w/decl.json"⟩
        declarations :=
          [{ (Declaration.property ⟨"", "Variants", .reference⟩ member "int").withLocation
              { file := ⟨"/w/decl.json"⟩, line := none, column := none } with isStatic := false }] }
    output := ⟨"/w/Generated"⟩ }

/-- A member without line breaks in its name has a notice of one line. -/
theorem noticed_on_one_line :
    let tree := declaring "Level"
    ∃ output,
      Invocation.ofWords words = .ok invocation ∧
      Session.Gives (Project.load invocation Disagreement.bare) tree (.ok (project "Level"), tree) ∧
      generate {} none (project "Level").manifest.declarations .never = .ok output ∧
      (runOn words Disagreement.bare tree).1.status ≠ .failed ∧
      Text.parts '\n' (runOn words Disagreement.bare tree).1.output =
        output.diagnostics.map (·.notice (project "Level").root) ++ [""] := by
  intro tree
  have understood : Invocation.ofWords words = .ok invocation := by decide +kernel
  have loads : Session.Gives (Project.load invocation Disagreement.bare) tree
      (.ok (project "Level"), tree) := Project.gives_load_iff.2 (by decide +kernel)
  have passed := generate_never {} none (project "Level").manifest.declarations
  have ended : (runOn words Disagreement.bare tree).1.status ≠ .failed := by decide +kernel
  obtain ⟨-, -, -, lines, -⟩ := generate_notices understood rfl loads passed ended
  exact ⟨_, understood, loads, passed, ended, lines.2 (by decide +kernel)⟩

/-- A line break in the name of a member ends the line, and what is behind it begins another one. -/
theorem notice_broken_by_name :
    let tree := declaring "A\\n::error::Injected"
    let member := "A\n::error::Injected"
    Session.Gives (Project.load invocation Disagreement.bare) tree (.ok (project member), tree) ∧
    (Declaration.rejections (project member).manifest.declarations).length = 1 ∧
    (runOn words Disagreement.bare tree).1.status = .success ∧
    Text.parts '\n' (runOn words Disagreement.bare tree).1.output =
      ["::warning file=decl.json::BTBP0001: Property must be static partial and has getter. " ++
        "property=[A", "::error::Injected]", ""] := by
  intro tree member
  exact ⟨Project.gives_load_iff.2 (by decide +kernel), by decide +kernel, by decide +kernel,
    by decide +kernel⟩

end Annotated

end BuildConstants
