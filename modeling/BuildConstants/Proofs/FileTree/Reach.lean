import BuildConstants.Proofs.FileTree.Place
import BuildConstants.Proofs.Path.Parts
import Mathlib.Data.List.TakeDrop
import Mathlib.Data.List.TakeWhile

/-!
# Where paths lead

`FileTree.Steps` says where the segments of a path lead, segment by segment. Directories that are
added leave standing where a path led before (`Steps.mono`); the other way round this holds only
without `..`, which can go back from a directory that was missing (`Steps.back`). A path is steady
when it has no `..` behind what is missing.
-/

namespace BuildConstants.FileTree

variable {tree later : FileTree} {place reached : Place} {segments first second : List String}
  {segment name : String} {path : Path}

/-- The segments lead from one place to another. -/
inductive Steps (tree : FileTree) : Place → List String → Place → Prop where
  | done (place : Place) : Steps tree place [] place
  | stay {place : Place} {segment : String} {rest : List String} {reached : Place}
      (isDirectory : tree.isDirectoryAt place) (blank : segment = "" ∨ segment = ".")
      (onward : Steps tree place rest reached) : Steps tree place (segment :: rest) reached
  | up {place : Place} {rest : List String} {reached : Place}
      (isDirectory : tree.isDirectoryAt place) (onward : Steps tree place.dropLast rest reached) :
      Steps tree place (".." :: rest) reached
  | enter {place : Place} {segment : String} {rest : List String} {reached : Place}
      (isDirectory : tree.isDirectoryAt place)
      (proper : segment ≠ "" ∧ segment ≠ "." ∧ segment ≠ "..")
      (short : segment.utf8ByteSize ≤ nameLimit)
      (there : (tree.node? (place ++ [segment])).isSome)
      (onward : Steps tree (place ++ [segment]) rest reached) :
      Steps tree place (segment :: rest) reached

/-- Following segments succeeds where they lead. -/
theorem follow_eq_ok_iff :
    tree.follow place segments = .ok reached ↔ tree.Steps place segments reached := by
  constructor
  · intro followed
    induction segments generalizing place with
    | nil =>
        cases followed
        exact .done _
    | cons segment rest ih =>
        rw [follow] at followed
        split at followed
        · cases followed
        next isDirectory =>
          rw [Bool.not_eq_true, Bool.not_eq_false'] at isDirectory
          split at followed
          next blank => exact .stay isDirectory (by simpa using blank) (ih followed)
          next proper =>
            split at followed
            next back =>
              subst back
              exact .up isDirectory (ih followed)
            next forward =>
              split at followed
              · cases followed
              next short =>
                split at followed
                · cases followed
                next there =>
                  rw [Bool.not_eq_true, Option.isNone_eq_false_iff] at there
                  refine .enter isDirectory ⟨?_, ?_, forward⟩ (by omega) there (ih followed)
                  · rintro rfl
                    simp at proper
                  · rintro rfl
                    simp at proper
  · intro steps
    induction steps with
    | done place => rfl
    | stay isDirectory blank _ ih => simp [follow, isDirectory, blank, ih]
    | up isDirectory _ ih => simp [follow, isDirectory, ih]
    | enter isDirectory proper short there _ ih =>
        obtain ⟨named, notHere, notUp⟩ := proper
        have occupied := Option.isNone_eq_false_iff.2 there
        simp [follow, isDirectory, named, notHere, notUp, Nat.not_lt.2 short, occupied, ih]

/-- Segments are followed one part after the other. -/
theorem follow_append :
    tree.follow place (first ++ second) =
      (tree.follow place first).bind fun middle => tree.follow middle second := by
  induction first generalizing place with
  | nil => rfl
  | cons segment rest ih =>
      rw [List.cons_append, follow, follow]
      split
      · rfl
      · split
        · exact ih
        · split
          · exact ih
          · split
            · rfl
            · split
              · rfl
              · exact ih

theorem steps_append :
    tree.Steps place (first ++ second) reached ↔
      ∃ middle, tree.Steps place first middle ∧ tree.Steps middle second reached := by
  simp only [← follow_eq_ok_iff, follow_append]
  cases tree.follow place first with
  | error error => simp [Except.bind]
  | ok middle => simp [Except.bind]

/-- Blank segments lead from a directory to itself. -/
theorem steps_blank (isDirectory : tree.isDirectoryAt place)
    (blank : ∀ segment ∈ segments, segment = "") : tree.Steps place segments place := by
  induction segments with
  | nil => exact .done place
  | cons segment rest ih =>
      refine .stay isDirectory (.inl (blank segment List.mem_cons_self)) ?_
      exact ih fun segment member => blank segment (List.mem_cons_of_mem _ member)

/-- A path goes on only from a directory. -/
theorem Steps.isDirectoryAt (steps : tree.Steps place segments reached) (further : segments ≠ []) :
    tree.isDirectoryAt place := by
  cases steps with
  | done => exact absurd rfl further
  | stay isDirectory | up isDirectory | enter isDirectory => exact isDirectory

/-- Without `..`, a path leads to a place below the one it starts from. -/
theorem Steps.extends (steps : tree.Steps place segments reached) (forward : ".." ∉ segments) :
    ∃ rest, reached = place ++ rest := by
  induction steps with
  | done place => exact ⟨[], (List.append_nil place).symm⟩
  | stay _ _ _ ih => exact ih fun back => forward (List.mem_cons_of_mem _ back)
  | up => exact absurd List.mem_cons_self forward
  | @enter place segment rest reached _ _ _ _ _ ih =>
      obtain ⟨more, rfl⟩ := ih fun back => forward (List.mem_cons_of_mem _ back)
      exact ⟨segment :: more, by simp⟩

/-- Where a path leads, it leads as long as no directory is lost and something is there. -/
theorem Steps.mono (kept : ∀ place, tree.isDirectoryAt place → later.isDirectoryAt place)
    (steps : tree.Steps place segments reached) (still : (later.node? reached).isSome) :
    later.Steps place segments reached := by
  induction steps with
  | done place => exact .done place
  | stay isDirectory blank _ ih => exact .stay (kept _ isDirectory) blank (ih still)
  | up isDirectory _ ih => exact .up (kept _ isDirectory) (ih still)
  | @enter place segment rest reached isDirectory proper short there onward ih =>
      refine .enter (kept _ isDirectory) proper short ?_ (ih still)
      by_cases last : rest = []
      · subst last
        cases onward
        exact still
      · exact isSome_of_isDirectoryAt (kept _ (onward.isDirectoryAt last))

/-- Without `..`, a path that leads to something in a tree led there before directories were added
to the tree. -/
theorem Steps.back (wellFormed : tree.WellFormed)
    (old : ∀ place, later.isDirectoryAt place → (tree.node? place).isSome →
      tree.isDirectoryAt place)
    (steps : later.Steps place segments reached) (forward : ".." ∉ segments)
    (there : (tree.node? reached).isSome) : tree.Steps place segments reached := by
  have onTheWay : ∀ {place rest}, later.isDirectoryAt place → reached = place ++ rest →
      tree.isDirectoryAt place := by
    intro place rest isDirectory whole
    rw [whole] at there
    by_cases arrived : rest = []
    · rw [arrived, List.append_nil] at there
      exact old place isDirectory there
    · exact wellFormed.above there arrived
  induction steps with
  | done place => exact .done place
  | stay isDirectory blank onward ih =>
      have more := fun back => forward (List.mem_cons_of_mem _ back)
      obtain ⟨rest, whole⟩ := onward.extends more
      exact .stay (onTheWay isDirectory whole) blank (ih more there onTheWay)
  | up => exact absurd List.mem_cons_self forward
  | @enter place segment rest reached isDirectory proper short present onward ih =>
      have more := fun back => forward (List.mem_cons_of_mem _ back)
      obtain ⟨further, whole⟩ := onward.extends more
      have passed : (tree.node? (place ++ [segment])).isSome := by
        by_cases arrived : further = []
        · rwa [whole, arrived, List.append_nil] at there
        · rw [whole] at there
          exact isSome_of_isDirectoryAt (wellFormed.above there arrived)
      have ahead : reached = place ++ segment :: further := by
        rw [whole, List.append_assoc, List.singleton_append]
      exact .enter (onTheWay isDirectory ahead) proper short passed (ih more there onTheWay)

/-! ### Paths -/

/-- The paths that a system can use. -/
theorem checkPath_eq_ok_iff :
    checkPath path = .ok () ↔
      '\x00' ∉ path.text.toList ∧ path.text ≠ "" ∧ path.text.utf8ByteSize < pathLimit := by
  unfold checkPath
  split
  next zero => simp [zero]
  next noZero =>
      split
      next empty => simp [empty]
      next named =>
          split
          next long => simp [Nat.not_lt.2 long]
          next short => simp [noZero, named, Nat.not_le.1 short]

/-- A name behind a path that a system can use gives such a path, unless that gets too long. -/
theorem checkPath_join_iff (usable : checkPath path = .ok ()) (named : IsName name) :
    checkPath (path.join ⟨name⟩) = .ok () ↔
      (path.join ⟨name⟩).text.utf8ByteSize < pathLimit := by
  obtain ⟨noZero, written, -⟩ := checkPath_eq_ok_iff.1 usable
  obtain ⟨-, -, -, -, noZeroInName, -⟩ := named
  rw [checkPath_eq_ok_iff]
  refine ⟨fun ⟨_, _, short⟩ => short, fun short => ⟨fun zero => ?_, ?_, short⟩⟩
  · rcases Path.mem_join zero with first | slash | last
    · exact noZero first
    · revert slash
      decide
    · exact noZeroInName last
  · exact Path.text_join_ne written

/-- A path leads to a place when a system can use it and its parts lead there. -/
theorem locate_eq_ok_iff :
    tree.locate path = .ok place ↔
      checkPath path = .ok () ∧ tree.Steps (tree.startOf path) path.parts place := by
  rw [locate, ← follow_eq_ok_iff, Path.parts]
  cases checkPath path <;> simp [bind, Except.bind]

/-- Slashes behind the path of a directory change nothing, as long as they are not too many. -/
theorem locate_slashes (located : tree.locate path = .ok place)
    (isDirectory : tree.isDirectoryAt place) {count : Nat}
    (short : path.text.utf8ByteSize + count < pathLimit) :
    tree.locate ⟨path.text ++ Text.slashes count⟩ = .ok place := by
  obtain ⟨usable, steps⟩ := locate_eq_ok_iff.1 located
  obtain ⟨noZero, written, -⟩ := checkPath_eq_ok_iff.1 usable
  refine locate_eq_ok_iff.2 ⟨checkPath_eq_ok_iff.2 ⟨fun zero => ?_, fun empty => ?_, ?_⟩, ?_⟩
  · rw [String.toList_append] at zero
    rcases List.mem_append.1 zero with within | behind
    · exact noZero within
    · exact absurd (Text.eq_of_mem_slashes behind) (by decide)
  · exact written (String.append_eq_empty_iff.1 empty).1
  · rw [String.utf8ByteSize_append, Text.utf8ByteSize_slashes]
    exact short
  · rw [startOf, Path.isAbsolute_append written, Path.parts, Text.parts_slashes, steps_append]
    exact ⟨place, steps, steps_blank isDirectory fun _ member => List.eq_of_mem_replicate member⟩

theorem isDirectory_iff :
    tree.isDirectory path ↔ ∃ place, tree.locate path = .ok place ∧ tree.isDirectoryAt place := by
  rw [isDirectory, nodeOf?, decide_eq_true_iff]
  cases tree.locate path with
  | error error => simp
  | ok place => simp [isDirectoryAt_iff]

section

variable (working : later.working = tree.working)
  (kept : ∀ place, tree.isDirectoryAt place → later.isDirectoryAt place)

include working kept

/-- A path leads where it led, as long as no directory is lost and something is there. -/
theorem locate_mono (located : tree.locate path = .ok place) (still : (later.node? place).isSome) :
    later.locate path = .ok place := by
  obtain ⟨usable, steps⟩ := locate_eq_ok_iff.1 located
  refine locate_eq_ok_iff.2 ⟨usable, ?_⟩
  rw [startOf, working]
  exact steps.mono kept still

/-- A directory is where its path leads later, as long as no directory is lost. -/
theorem isDirectory_back (there : tree.isDirectory path) (located : later.locate path = .ok place) :
    tree.locate path = .ok place ∧ tree.isDirectoryAt place := by
  obtain ⟨old, locatedOld, isDirectory⟩ := isDirectory_iff.1 there
  have locatedNow :=
    locate_mono working kept locatedOld (isSome_of_isDirectoryAt (kept old isDirectory))
  cases locatedNow.symm.trans located
  exact ⟨locatedOld, isDirectory⟩

end

theorem names_eq (located : tree.locate path = .ok place)
    (isDirectory : tree.isDirectoryAt place) : tree.names path = .ok (tree.namesAt place) := by
  rw [names, located]
  exact if_pos isDirectory

theorem isFile_iff :
    tree.isFile path ↔
      ∃ place contents, tree.locate path = .ok place ∧
        tree.node? place = some (.file contents) := by
  rw [isFile, nodeOf?]
  cases tree.locate path with
  | error error => simp
  | ok place =>
      simp only [Except.ok.injEq, exists_and_left, exists_eq_left']
      split
      next contents found => simp [found]
      next other =>
          simp only [Bool.false_eq_true, false_iff, not_exists]
          exact fun contents found => other contents found

theorem readText_eq_ok_iff {text : String} :
    tree.readText path = .ok text ↔
      ∃ place, tree.locate path = .ok place ∧ tree.node? place = some (.file (.text text)) ∧
        place ∉ tree.unreadable := by
  rw [readText]
  cases tree.locate path with
  | error error => simp [bind, Except.bind]
  | ok place =>
      simp only [bind, Except.bind, Except.ok.injEq, exists_eq_left']
      by_cases barred : place ∈ tree.unreadable
      · simp [barred]
      · rw [if_neg barred]
        split
        next found => simp [found, barred]
        next found => simp [found]
        next found => simp [found]
        next found => simp [found]

/-- A directory is reached without the slash at the end of its path as well. -/
theorem steps_parts_iff {start : Place} (isDirectory : tree.isDirectoryAt place) :
    tree.Steps start path.parts place ↔ tree.Steps start path.base place := by
  rcases path.parts_eq_base with same | slashed
  · rw [same]
  · rw [slashed, steps_append]
    constructor
    · rintro ⟨middle, steps, last⟩
      rw [← follow_eq_ok_iff] at last
      have arrived : middle = place := by
        by_cases going : tree.isDirectoryAt middle
        · simpa [follow, going] using last
        · simp [follow, going] at last
      exact arrived ▸ steps
    · intro steps
      exact ⟨place, steps, .stay isDirectory (.inl rfl) (.done place)⟩

/-- No `..` of the path stands behind what is missing: a part of the path leads to a directory, and
the rest has no `..`. -/
def Steady (tree : FileTree) (path : Path) : Prop :=
  ∃ existing rest place, path.parts = existing ++ rest ∧
    tree.follow (tree.startOf path) existing = .ok place ∧ tree.isDirectoryAt place ∧
    ".." ∉ rest

/-- The path of a directory is steady. -/
theorem steady_of_isDirectory (there : tree.isDirectory path) : tree.Steady path := by
  obtain ⟨place, located, isDirectory⟩ := isDirectory_iff.1 there
  have steps := (locate_eq_ok_iff.1 located).2
  exact ⟨path.parts, [], place, (List.append_nil _).symm, follow_eq_ok_iff.2 steps, isDirectory,
    List.not_mem_nil⟩

/-- A path without `..` that is read from a steady one is steady. -/
theorem Steady.join (steady : tree.Steady path) (written : path.text ≠ "") {inner : Path}
    (relative : inner.isAbsolute = false) (forward : ".." ∉ inner.parts) :
    tree.Steady (path.join inner) := by
  obtain ⟨existing, rest, place, whole, followed, isDirectory, ahead⟩ := steady
  have parts := Path.parts_join relative written
  have start : tree.startOf (path.join inner) = tree.startOf path := by
    rw [startOf, startOf, Path.isAbsolute_join relative written]
  rcases path.parts_eq_base with same | slashed
  · refine ⟨existing, rest ++ inner.parts, place, ?_, start ▸ followed, isDirectory, ?_⟩
    · rw [parts, ← same, whole, List.append_assoc]
    · exact fun back => (List.mem_append.1 back).elim ahead forward
  · rcases List.eq_nil_or_concat rest with rfl | ⟨front, last, rfl⟩
    · refine ⟨path.base, inner.parts, place, parts, ?_, isDirectory, forward⟩
      rw [List.append_nil] at whole
      rw [start, follow_eq_ok_iff, ← steps_parts_iff isDirectory, whole]
      exact follow_eq_ok_iff.1 followed
    · rw [slashed, List.concat_eq_append, ← List.append_assoc] at whole
      have base := (List.append_singleton_inj.1 whole).1
      refine ⟨existing, front ++ inner.parts, place, ?_, start ▸ followed, isDirectory, ?_⟩
      · rw [parts, base, List.append_assoc]
      · refine fun back => (List.mem_append.1 back).elim (fun early => ahead ?_) forward
        rw [List.concat_eq_append]
        exact List.mem_append_left _ early

/-- A steady path that leads to something in a tree led there before directories were added. -/
theorem Steady.locate (steady : tree.Steady path) (wellFormed : tree.WellFormed)
    (working : later.working = tree.working)
    (kept : ∀ place, tree.isDirectoryAt place → later.isDirectoryAt place)
    (old : ∀ place, later.isDirectoryAt place → (tree.node? place).isSome →
      tree.isDirectoryAt place)
    (located : later.locate path = .ok place) (there : (tree.node? place).isSome) :
    tree.locate path = .ok place := by
  obtain ⟨existing, rest, front, whole, followed, isDirectory, ahead⟩ := steady
  obtain ⟨usable, steps⟩ := locate_eq_ok_iff.1 located
  rw [startOf, working, whole, steps_append] at steps
  obtain ⟨middle, early, onward⟩ := steps
  have again := (follow_eq_ok_iff.1 followed).mono kept
    (isSome_of_isDirectoryAt (kept front isDirectory))
  rw [← follow_eq_ok_iff] at again early
  have arrived : middle = front := Except.ok.inj (early.symm.trans again)
  subst arrived
  refine locate_eq_ok_iff.2 ⟨usable, ?_⟩
  rw [whole, steps_append]
  exact ⟨middle, follow_eq_ok_iff.1 followed, onward.back wellFormed old ahead there⟩

/-- A path that leads to a file ends with the name of the file. -/
theorem Steps.last_name (wellFormed : tree.WellFormed) {contents : FileContents}
    (steps : tree.Steps place segments reached) (further : segments ≠ [])
    (isFile : tree.node? reached = some (.file contents)) :
    ∃ front last above, segments = front ++ [last] ∧ reached = above ++ [last] ∧
      last ≠ "" ∧ last ≠ "." ∧ last ≠ ".." := by
  have noDirectory : ¬ tree.isDirectoryAt reached := by
    rw [isDirectoryAt_iff, isFile]
    nofun
  obtain ⟨front, last, rfl⟩ := (List.eq_nil_or_concat segments).resolve_left further
  rw [List.concat_eq_append, steps_append] at steps
  obtain ⟨middle, -, final⟩ := steps
  have isDirectory := final.isDirectoryAt (List.cons_ne_nil _ _)
  refine ⟨front, last, middle, List.concat_eq_append, ?_⟩
  cases final with
  | stay _ _ onward =>
      cases onward
      exact absurd isDirectory noDirectory
  | up _ onward =>
      cases onward
      refine absurd ?_ noDirectory
      rcases List.eq_nil_or_concat middle with rfl | ⟨above, name, rfl⟩
      · exact isDirectory
      · rw [List.concat_eq_append] at isDirectory ⊢
        rw [List.dropLast_concat]
        exact (wellFormed.parent (isSome_of_isDirectoryAt isDirectory)).1
  | enter _ proper _ _ onward =>
      cases onward
      exact ⟨rfl, proper⟩

/-- From a directory, a name leads to what has the name. -/
theorem follow_name (isDirectory : tree.isDirectoryAt place) (named : IsName name) :
    tree.follow place [name] =
      if (tree.node? (place ++ [name])).isSome then .ok (place ++ [name])
      else .error .missing := by
  obtain ⟨notEmpty, notHere, notUp, -, -, short⟩ := named
  cases there : tree.node? (place ++ [name]) <;>
    simp [follow, isDirectory, notEmpty, notHere, notUp, Nat.not_lt.2 short, there]

theorem isAbsolute_of_notMem (whole : '/' ∉ name.toList) : Path.isAbsolute ⟨name⟩ = false := by
  rw [Path.isAbsolute, decide_eq_false_iff_not]
  exact fun absolute => whole (List.mem_of_mem_head? absolute)

theorem isAbsolute_of_isName (named : IsName name) : Path.isAbsolute ⟨name⟩ = false :=
  isAbsolute_of_notMem named.2.2.2.1

theorem parts_of_isName (named : IsName name) : Path.parts ⟨name⟩ = [name] :=
  Text.parts_of_notMem named.2.2.2.1

/-- The blank parts at the end of a path. -/
def slashesOf (path : Path) : List String :=
  path.parts.reverse.takeWhile (· = "")

/-- The parts of a path in front of the blank ones at its end, the last one first. -/
def turned (path : Path) : List String :=
  path.parts.reverse.dropWhile (· = "")

theorem parts_eq_turned (path : Path) :
    path.parts = (turned path).reverse ++ (slashesOf path).reverse := by
  rw [← List.reverse_append, turned, slashesOf, List.takeWhile_append_dropWhile,
    List.reverse_reverse]

theorem eq_blank_of_mem_slashesOf (member : segment ∈ slashesOf path) : segment = "" := by
  simpa using List.mem_takeWhile_imp member

/-- The last part of a path that has no blank ones at its end. -/
theorem ne_blank_of_turned {before : List String} (split : turned path = segment :: before) :
    segment ≠ "" := by
  unfold turned at split
  have stands := List.head_dropWhile_not (· = "") (l := path.parts.reverse)
    (by rw [split]; exact List.cons_ne_nil _ _)
  simpa [split] using stands

theorem target_eq (tree : FileTree) (path : Path) :
    tree.target path =
      (checkPath path).bind fun _ =>
        match turned path with
        | [] => .ok .directory
        | last :: before =>
          (tree.follow (tree.startOf path) before.reverse).bind fun place =>
            if !tree.isDirectoryAt place then .error .notDirectory
            else if last = "." || last = ".." then .ok .directory
            else if last.utf8ByteSize > nameLimit then .error .nameTooLong
            else .ok (.entry (place ++ [last]) (!(slashesOf path).isEmpty)) := by
  simp only [target, List.span_eq_takeWhile_dropWhile]
  rfl

section

variable (located : tree.locate path = .ok place) (isDirectory : tree.isDirectoryAt place)
  (named : IsName name)

include located isDirectory named

/-- The parts of a path lead to a directory, from which the name of a file goes on. -/
theorem steps_base_join :
    (path.join ⟨name⟩).parts = path.base ++ [name] ∧
      tree.Steps (tree.startOf (path.join ⟨name⟩)) path.base place := by
  obtain ⟨usable, steps⟩ := locate_eq_ok_iff.1 located
  have written := (checkPath_eq_ok_iff.1 usable).2.1
  have relative := isAbsolute_of_isName named
  rw [Path.parts_join relative written, parts_of_isName named]
  refine ⟨rfl, ?_⟩
  rw [startOf, Path.isAbsolute_join relative written]
  exact (steps_parts_iff isDirectory).1 steps

/-- A name behind the path of a directory leads to what has the name there. -/
theorem locate_join :
    tree.locate (path.join ⟨name⟩) =
      (checkPath (path.join ⟨name⟩)).bind fun _ =>
        if (tree.node? (place ++ [name])).isSome then .ok (place ++ [name])
        else .error .missing := by
  obtain ⟨parts, steps⟩ := steps_base_join located isDirectory named
  have followed : tree.follow (tree.startOf (path.join ⟨name⟩)) (path.join ⟨name⟩).parts =
      if (tree.node? (place ++ [name])).isSome then .ok (place ++ [name])
      else .error .missing := by
    rw [parts, follow_append, follow_eq_ok_iff.2 steps]
    exact follow_name isDirectory named
  rw [← followed]
  rfl

/-- A name behind the path of a directory asks for an entry of the directory. -/
theorem target_join :
    tree.target (path.join ⟨name⟩) =
      (checkPath (path.join ⟨name⟩)).bind fun _ => .ok (.entry (place ++ [name]) false) := by
  obtain ⟨parts, steps⟩ := steps_base_join located isDirectory named
  obtain ⟨notEmpty, notHere, notUp, -, -, short⟩ := named
  have unslashed : slashesOf (path.join ⟨name⟩) = [] := by
    simp [slashesOf, parts, notEmpty]
  have reversed : turned (path.join ⟨name⟩) = name :: path.base.reverse := by
    simp [turned, parts, notEmpty]
  rw [target_eq, reversed, unslashed]
  simp [Except.bind, follow_eq_ok_iff.2 steps, isDirectory, notHere, notUp, Nat.not_lt.2 short]

end

/-- Where a path asks for an entry: a name in a directory, and nothing but slashes behind it. -/
theorem target_eq_entry {slashed : Bool} (asked : tree.target path = .ok (.entry place slashed)) :
    ∃ before name slashes above, checkPath path = .ok () ∧
      path.parts = before ++ name :: slashes ∧ (∀ segment ∈ slashes, segment = "") ∧
      tree.Steps (tree.startOf path) before above ∧ tree.isDirectoryAt above ∧ IsName name ∧
      place = above ++ [name] := by
  rw [target_eq] at asked
  cases usable : checkPath path with
  | error error => simp [usable, Except.bind] at asked
  | ok _ =>
      simp only [usable, Except.bind] at asked
      split at asked
      · cases asked
      next last before split =>
        cases followed : tree.follow (tree.startOf path) before.reverse with
        | error error => simp [followed] at asked
        | ok above =>
            simp only [followed] at asked
            split at asked
            · cases asked
            next isDirectory =>
              split at asked
              · cases asked
              next proper =>
                split at asked
                · cases asked
                next short =>
                  cases asked
                  have whole := parts_eq_turned path
                  rw [split, List.reverse_cons, List.append_assoc,
                    List.singleton_append] at whole
                  have isPart : last ∈ path.parts := by
                    rw [whole]
                    exact List.mem_append_right _ List.mem_cons_self
                  have noZero := (checkPath_eq_ok_iff.1 usable).1
                  simp only [Bool.or_eq_true, decide_eq_true_eq, not_or] at proper
                  refine ⟨before.reverse, last, _, above, rfl, whole, fun segment member => ?_,
                    follow_eq_ok_iff.1 followed, by simpa using isDirectory, ?_, rfl⟩
                  · exact eq_blank_of_mem_slashesOf (List.mem_reverse.1 member)
                  · exact ⟨ne_blank_of_turned split, proper.1, proper.2, Text.notMem_part isPart,
                      fun within => noZero (Text.mem_of_mem_part isPart within), by omega⟩

end BuildConstants.FileTree
