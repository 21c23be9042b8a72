import BuildConstants.FileTree
import Mathlib.Data.List.Induction

/-!
# Well-formed file trees

In a file system, everything lies in a directory and has a name that paths can contain, and what
cannot be read is a file. `FileTree.WellFormed` says so of a tree, and putting or taking away a file
or directory in a place where this is possible keeps it. What a tree has at a place after such a
change is `node?_put` and `node?_erase`.
-/

namespace BuildConstants

/-- The name can be the name of a file or directory. -/
def IsName (name : String) : Prop :=
  name ≠ "" ∧ name ≠ "." ∧ name ≠ ".." ∧ '/' ∉ name.toList ∧ '\x00' ∉ name.toList ∧
    name.utf8ByteSize ≤ FileTree.nameLimit

instance : DecidablePred IsName :=
  fun _ => inferInstanceAs (Decidable (_ ∧ _ ∧ _ ∧ _ ∧ _ ∧ _))

namespace FileTree

variable {tree : FileTree} {place other : Place} {node : FileNode} {name : String}
  {contents : FileContents}

@[simp] theorem node?_nil (tree : FileTree) : tree.node? [] = some .directory := rfl

theorem isDirectoryAt_iff : tree.isDirectoryAt place ↔ tree.node? place = some .directory := by
  simp [isDirectoryAt]

theorem isSome_of_isDirectoryAt (isDirectory : tree.isDirectoryAt place) :
    (tree.node? place).isSome :=
  Option.isSome_of_eq_some (isDirectoryAt_iff.1 isDirectory)

/-- What is at a place that has a name is an entry. -/
theorem node?_snoc (tree : FileTree) (place : Place) (name : String) :
    tree.node? (place ++ [name]) = tree.entries.lookup (place ++ [name]) := by
  simp [node?]

theorem mem_entries_of_node? (found : tree.node? (place ++ [name]) = some node) :
    (place ++ [name], node) ∈ tree.entries := by
  rw [node?_snoc] at found
  obtain ⟨before, rest, split, -⟩ := List.lookup_eq_some_iff.1 found
  rw [split]
  exact List.mem_append_right _ List.mem_cons_self

/-- What the file at a place holds, if there is a file. -/
def fileAt? (tree : FileTree) (place : Place) : Option FileContents :=
  match tree.node? place with
  | some (.file contents) => some contents
  | _ => none

theorem fileAt?_eq_some_iff :
    tree.fileAt? place = some contents ↔ tree.node? place = some (.file contents) := by
  unfold fileAt?
  split
  next found => simp [found]
  next noFile => exact ⟨nofun, fun found => absurd found (noFile contents)⟩

theorem isSome_fileAt?_iff :
    (tree.fileAt? place).isSome ↔ ∃ contents, tree.node? place = some (.file contents) := by
  simp only [Option.isSome_iff_exists, fileAt?_eq_some_iff]

/-! ### Changes -/

theorem lookup_cons_of_ne (entries : List (Place × FileNode)) (differs : other ≠ place) :
    ((place, node) :: entries).lookup other = entries.lookup other := by
  rw [List.lookup_cons, beq_false_of_ne differs]

theorem lookup_filter_ne (entries : List (Place × FileNode)) (differs : other ≠ place) :
    (entries.filter (·.1 ≠ place)).lookup other = entries.lookup other := by
  induction entries with
  | nil => rfl
  | cons entry rest ih =>
      obtain ⟨key, node⟩ := entry
      by_cases dropped : key = place
      · subst dropped
        rw [List.filter_cons_of_neg (by simp), ih, lookup_cons_of_ne rest differs]
      · rw [List.filter_cons_of_pos (by simpa using dropped)]
        by_cases here : other = key
        · subst here
          simp
        · rw [lookup_cons_of_ne _ here, lookup_cons_of_ne _ here, ih]

theorem lookup_filter_self (entries : List (Place × FileNode)) (place : Place) :
    (entries.filter (·.1 ≠ place)).lookup place = none := by
  rw [List.lookup_eq_none_iff]
  intro entry member
  have kept := (List.mem_filter.1 member).2
  simpa using Ne.symm (of_decide_eq_true kept)

/-- Putting something at a place changes what is there, and nothing else. -/
theorem node?_put (tree : FileTree) (place : Place) (name : String) (node : FileNode)
    (other : Place) :
    (tree.put (place ++ [name]) node).node? other =
      if other = place ++ [name] then some node else tree.node? other := by
  by_cases same : other = place ++ [name]
  · rw [if_pos same, same, node?_snoc, put, List.lookup_append, lookup_filter_self]
    simp
  · rw [if_neg same, node?, node?, put, List.lookup_append, lookup_filter_ne _ same,
      lookup_cons_of_ne [] same, List.lookup_nil, Option.or_none]

/-- Taking away what is at a place leaves nothing there, and changes nothing else. -/
theorem node?_erase (tree : FileTree) (place : Place) (name : String) (other : Place) :
    (tree.erase (place ++ [name])).node? other =
      if other = place ++ [name] then none else tree.node? other := by
  by_cases same : other = place ++ [name]
  · rw [if_pos same, same, node?_snoc, erase, lookup_filter_self]
  · rw [if_neg same, node?, node?, erase, lookup_filter_ne _ same]

/-! ### Well-formedness -/

/-- Everything lies in a directory and has a name, and so has the working directory; what cannot be
read is a file. -/
structure WellFormed (tree : FileTree) : Prop where
  placed : ∀ entry ∈ tree.entries,
    (∀ name ∈ entry.1, IsName name) ∧ tree.isDirectoryAt entry.1.dropLast
  working : tree.isDirectoryAt tree.working
  unreadable : ∀ place ∈ tree.unreadable, (tree.fileAt? place).isSome

instance (tree : FileTree) : Decidable tree.WellFormed :=
  decidable_of_iff
    ((∀ entry ∈ tree.entries,
        (∀ name ∈ entry.1, IsName name) ∧ tree.isDirectoryAt entry.1.dropLast) ∧
      tree.isDirectoryAt tree.working ∧
      ∀ place ∈ tree.unreadable, (tree.fileAt? place).isSome)
    ⟨fun all => ⟨all.1, all.2.1, all.2.2⟩,
      fun wellFormed => ⟨wellFormed.placed, wellFormed.working, wellFormed.unreadable⟩⟩

/-- What there is lies in a directory and has a name. -/
theorem WellFormed.parent (wellFormed : tree.WellFormed)
    (there : (tree.node? (place ++ [name])).isSome) :
    tree.isDirectoryAt place ∧ IsName name := by
  obtain ⟨node, found⟩ := Option.isSome_iff_exists.1 there
  obtain ⟨named, below⟩ := wellFormed.placed _ (mem_entries_of_node? found)
  rw [List.dropLast_concat] at below
  exact ⟨below, named name (List.mem_append_right _ List.mem_cons_self)⟩

/-- All places on the way to something are directories. -/
theorem WellFormed.above (wellFormed : tree.WellFormed) {rest : Place}
    (there : (tree.node? (place ++ rest)).isSome) (further : rest ≠ []) :
    tree.isDirectoryAt place := by
  induction rest using List.reverseRecOn with
  | nil => exact absurd rfl further
  | append_singleton rest name ih =>
      rw [← List.append_assoc] at there
      have below := (wellFormed.parent there).1
      by_cases direct : rest = []
      · rwa [direct, List.append_nil] at below
      · exact ih (isSome_of_isDirectoryAt below) direct

/-- A named place can be filled in a directory, unless a directory is to make room for a file or a
file for a directory. -/
theorem WellFormed.put (wellFormed : tree.WellFormed) (below : tree.isDirectoryAt place)
    (named : IsName name)
    (fits : ∀ old, tree.node? (place ++ [name]) = some old →
      (old = .directory ↔ node = .directory)) :
    (tree.put (place ++ [name]) node).WellFormed := by
  have directories : ∀ other, tree.isDirectoryAt other →
      (tree.put (place ++ [name]) node).isDirectoryAt other := by
    intro other isDirectory
    rw [isDirectoryAt_iff] at isDirectory ⊢
    rw [node?_put]
    split
    next same => rw [(fits _ (same ▸ isDirectory)).1 rfl]
    next => exact isDirectory
  have files : ∀ other, (tree.fileAt? other).isSome →
      ((tree.put (place ++ [name]) node).fileAt? other).isSome := by
    intro other isFile
    rw [isSome_fileAt?_iff] at isFile ⊢
    obtain ⟨contents, found⟩ := isFile
    rw [node?_put]
    split
    next same =>
      cases node with
      | directory => exact absurd ((fits _ (same ▸ found)).2 rfl) (by simp)
      | file others => exact ⟨others, rfl⟩
    next => exact ⟨contents, found⟩
  refine ⟨fun entry member => ?_, directories _ wellFormed.working,
    fun other member => files other (wellFormed.unreadable other member)⟩
  rcases List.mem_append.1 member with old | new
  · obtain ⟨names, parent⟩ := wellFormed.placed entry (List.mem_filter.1 old).1
    exact ⟨names, directories _ parent⟩
  · rw [List.mem_singleton.1 new]
    refine ⟨fun part isPart => ?_, ?_⟩
    · rcases List.mem_append.1 isPart with above | last
      · by_cases root : place = []
        · rw [root] at above
          cases above
        · obtain ⟨front, final, rfl⟩ := List.eq_nil_or_concat place |>.resolve_left root
          rw [List.concat_eq_append] at above below
          have there := mem_entries_of_node? (isDirectoryAt_iff.1 below)
          exact (wellFormed.placed _ there).1 part above
      · rwa [List.mem_singleton.1 last]
    · rw [List.dropLast_concat]
      exact directories place below

/-- Anything but a directory can be taken away. -/
theorem WellFormed.erase (wellFormed : tree.WellFormed)
    (isFile : ¬ tree.isDirectoryAt (place ++ [name])) :
    (tree.erase (place ++ [name])).WellFormed := by
  have directories : ∀ other, tree.isDirectoryAt other →
      (tree.erase (place ++ [name])).isDirectoryAt other := by
    intro other isDirectory
    have differs : other ≠ place ++ [name] := by
      rintro rfl
      exact isFile isDirectory
    rw [isDirectoryAt_iff, node?_erase, if_neg differs]
    exact isDirectoryAt_iff.1 isDirectory
  refine ⟨fun entry member => ?_, directories _ wellFormed.working, fun other member => ?_⟩
  · obtain ⟨names, parent⟩ := wellFormed.placed entry (List.mem_filter.1 member).1
    exact ⟨names, directories _ parent⟩
  · obtain ⟨was, differs⟩ := List.mem_filter.1 member
    rw [fileAt?, node?_erase, if_neg (of_decide_eq_true differs), ← fileAt?]
    exact wellFormed.unreadable other was

/-- The names in a directory are those under which there is something. -/
theorem mem_namesAt : name ∈ tree.namesAt place ↔ (tree.node? (place ++ [name])).isSome := by
  rw [node?_snoc, namesAt, List.mem_filterMap]
  constructor
  · rintro ⟨⟨key, node⟩, member, listed⟩
    rcases List.eq_nil_or_concat key with rfl | ⟨front, last, rfl⟩
    · simp at listed
    · rw [List.concat_eq_append] at member
      simp only [List.concat_eq_append, List.reverse_append, List.reverse_singleton,
        List.singleton_append, List.reverse_reverse, Option.ite_none_right_eq_some,
        Option.some.injEq] at listed
      obtain ⟨rfl, rfl⟩ := listed
      rw [Option.isSome_iff_ne_none, Ne, List.lookup_eq_none_iff]
      intro absent
      simpa using absent _ member
  · intro there
    obtain ⟨node, found⟩ := Option.isSome_iff_exists.1 there
    obtain ⟨before, rest, split, -⟩ := List.lookup_eq_some_iff.1 found
    refine ⟨(place ++ [name], node), ?_, by simp⟩
    rw [split]
    exact List.mem_append_right _ List.mem_cons_self

end FileTree

end BuildConstants
