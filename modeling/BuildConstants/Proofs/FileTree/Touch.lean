import BuildConstants.Proofs.FileTree.Growth

/-!
# Files that are touched

Which files two states of a tree differ in. Between them, a file is created or given other contents,
which `FileTree.Fills` says, or it is taken away, which `FileTree.Drops` says. Directories that are
made touch no file.
-/

namespace BuildConstants.FileTree

variable {tree before middle after : FileTree} {place other : Place} {name : String}
  {node : FileNode}

/-- The file at the place is created, changed or taken away. -/
def Touches (before after : FileTree) (place : Place) : Prop :=
  after.fileAt? place ≠ before.fileAt? place

instance (before after : FileTree) : DecidablePred (before.Touches after) :=
  fun place => inferInstanceAs (Decidable (after.fileAt? place ≠ before.fileAt? place))

/-- The file at the place is created or given other contents. -/
def Fills (before after : FileTree) (place : Place) : Prop :=
  ∃ contents, after.fileAt? place = some contents ∧ before.fileAt? place ≠ some contents

/-- The file at the place is taken away. -/
def Drops (before after : FileTree) (place : Place) : Prop :=
  (∃ contents, before.fileAt? place = some contents) ∧ after.fileAt? place = none

theorem touches_iff :
    before.Touches after place ↔ before.Fills after place ∨ before.Drops after place := by
  rw [Touches, Fills, Drops]
  cases after.fileAt? place with
  | none => cases before.fileAt? place <;> simp
  | some contents => simp [eq_comm]

theorem not_touches_iff :
    ¬ before.Touches after place ↔ after.fileAt? place = before.fileAt? place :=
  not_not

theorem not_touches_refl : ¬ tree.Touches tree place :=
  fun touches => touches rfl

/-- What is touched in the end was touched first or thereafter. -/
theorem Touches.split (touches : before.Touches after place) (middle : FileTree) :
    before.Touches middle place ∨ middle.Touches after place := by
  by_contra neither
  obtain ⟨first, second⟩ := not_or.1 neither
  exact touches ((not_touches_iff.1 second).trans (not_touches_iff.1 first))

/-- The same entry is no touched file. -/
theorem fileAt?_congr (same : after.node? place = before.node? place) :
    after.fileAt? place = before.fileAt? place := by
  rw [fileAt?, same, fileAt?]

/-- Directories that are made touch no file. -/
theorem GrowsTo.not_touches (grows : before.GrowsTo after) : ¬ before.Touches after place := by
  refine not_touches_iff.2 (Option.ext fun contents => ?_)
  rw [fileAt?_eq_some_iff, fileAt?_eq_some_iff]
  exact grows.file_iff

/-- Putting something at a place touches nothing else. -/
theorem eq_of_touches_put (touches : tree.Touches (tree.put (place ++ [name]) node) other) :
    other = place ++ [name] := by
  by_contra apart
  refine touches (fileAt?_congr ?_)
  rw [node?_put, if_neg apart]

/-- A touched file is an entry before or after. -/
theorem Touches.mem_entries (touches : before.Touches after place) :
    place ∈ (before.entries ++ after.entries).map (·.1) := by
  have listed : ∀ {tree : FileTree} {contents : FileContents},
      tree.fileAt? place = some contents → place ∈ tree.entries.map (·.1) := by
    intro tree contents found
    rw [fileAt?_eq_some_iff] at found
    rcases List.eq_nil_or_concat place with rfl | ⟨above, name, rfl⟩
    · cases found
    · rw [List.concat_eq_append] at found ⊢
      exact List.mem_map_of_mem (mem_entries_of_node? found)
  rw [List.map_append, List.mem_append]
  rcases touches_iff.1 touches with ⟨contents, now, -⟩ | ⟨⟨contents, was⟩, -⟩
  · exact .inr (listed now)
  · exact .inl (listed was)

/-- No file is touched when none of the entries is. -/
theorem not_touches_of_entries (untouched : ∀ place ∈ (before.entries ++ after.entries).map (·.1),
    ¬ before.Touches after place) (place : Place) : ¬ before.Touches after place :=
  fun touches => untouched place touches.mem_entries touches

end BuildConstants.FileTree
