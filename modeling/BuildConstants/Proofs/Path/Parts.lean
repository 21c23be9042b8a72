import BuildConstants.Path

/-!
# The parts of joined paths

The parts of a path between its slashes are what a file system follows. Those of `p.join q` are the
parts of `p` and behind them the parts of `q`; only a blank last part of `p`, which stands behind a
slash at the end, is left out.
-/

namespace BuildConstants

namespace Text

variable {separator mark : Char} {s t part : String}

/-- Text on both sides of a separator is cut on both sides. -/
theorem parts_append (separator : Char) (s t : String) :
    parts separator (s ++ String.singleton separator ++ t) =
      parts separator s ++ parts separator t := by
  rw [parts, String.toList_append, String.toList_append, String.toList_singleton,
    List.append_assoc, List.singleton_append, List.splitOn_append_cons_self, List.map_append]
  rfl

/-- A text without separators is its own only part. -/
theorem parts_of_notMem (whole : separator ∉ s.toList) : parts separator s = [s] := by
  rw [parts, List.splitOn_eq_singleton whole, List.map_singleton, String.ofList_toList]

theorem parts_ne_nil (separator : Char) (s : String) : parts separator s ≠ [] := by
  rw [parts, Ne, List.map_eq_nil_iff]
  exact List.splitOn_ne_nil _ _

/-- Text without separators at the end stands at the end of the last part. -/
theorem exists_parts_append (separator : Char) (s : String) {t : String}
    (whole : separator ∉ t.toList) :
    ∃ front last, parts separator (s ++ t) = front ++ [last ++ t] := by
  by_cases inside : separator ∈ s.toList
  · -- The last separator cuts off what the text at the end belongs to.
    obtain ⟨behind, before, split, apart⟩ :=
      List.eq_append_cons_of_mem (List.mem_reverse.2 inside)
    let last := String.ofList behind.reverse
    have letters : s ++ t =
        String.ofList before.reverse ++ String.singleton separator ++ (last ++ t) := by
      apply String.toList_inj.1
      rw [String.toList_append, ← List.reverse_reverse s.toList, split]
      simp [last]
    have unbroken : separator ∉ (last ++ t).toList := by
      simp [last, whole, apart]
    refine ⟨parts separator (String.ofList before.reverse), last, ?_⟩
    rw [letters, parts_append, parts_of_notMem unbroken]
  · have unbroken : separator ∉ (s ++ t).toList := by
      simp [inside, whole]
    exact ⟨[], s, parts_of_notMem unbroken⟩

/-- What a part is made of stands in the text and is no separator. -/
theorem mem_of_mem_splitOn {piece text : List Char} (member : piece ∈ text.splitOn separator)
    (within : mark ∈ piece) : mark ∈ text ∧ mark ≠ separator := by
  induction text generalizing piece with
  | nil =>
      rw [List.splitOn_nil, List.mem_singleton] at member
      subst member
      cases within
  | cons c rest ih =>
      rw [List.splitOn_cons_eq_if_modifyHead] at member
      split at member
      next =>
          rcases List.mem_cons.1 member with rfl | later
          · cases within
          · exact (ih later within).imp_left (List.mem_cons_of_mem c)
      next inner =>
          cases pieces : rest.splitOn separator with
          | nil => exact absurd pieces (List.splitOn_ne_nil _ _)
          | cons first others =>
              rw [pieces, List.modifyHead_cons] at member
              have known : ∀ piece ∈ first :: others, mark ∈ piece →
                  mark ∈ c :: rest ∧ mark ≠ separator := by
                intro piece member within
                exact (ih (pieces ▸ member) within).imp_left (List.mem_cons_of_mem c)
              rcases List.mem_cons.1 member with rfl | later
              · rcases List.mem_cons.1 within with rfl | tail
                · exact ⟨List.mem_cons_self, by simpa using inner⟩
                · exact known first List.mem_cons_self tail
              · exact known piece (List.mem_cons_of_mem _ later) within

theorem notMem_part (member : part ∈ parts separator s) : separator ∉ part.toList := by
  intro within
  obtain ⟨piece, isPiece, rfl⟩ := List.mem_map.1 member
  rw [String.toList_ofList] at within
  exact (mem_of_mem_splitOn isPiece within).2 rfl

theorem mem_of_mem_part (member : part ∈ parts separator s) (within : mark ∈ part.toList) :
    mark ∈ s.toList := by
  obtain ⟨piece, isPiece, rfl⟩ := List.mem_map.1 member
  rw [String.toList_ofList] at within
  exact (mem_of_mem_splitOn isPiece within).1

/-! ### Slashes at the end -/

/-- A row of slashes. -/
def slashes (count : Nat) : String :=
  String.ofList (List.replicate count '/')

theorem slashes_succ (count : Nat) :
    slashes (count + 1) = slashes count ++ String.singleton '/' := by
  rw [slashes, List.replicate_succ', String.ofList_append]
  rfl

theorem eq_of_mem_slashes {count : Nat} (within : mark ∈ (slashes count).toList) : mark = '/' := by
  rw [slashes, String.toList_ofList] at within
  exact List.eq_of_mem_replicate within

theorem utf8ByteSize_slashes (count : Nat) : (slashes count).utf8ByteSize = count := by
  induction count with
  | zero => rfl
  | succ count ih =>
      rw [slashes_succ, String.utf8ByteSize_append, ih]
      rfl

/-- Slashes at the end of a text cut off blank parts. -/
theorem parts_slashes (s : String) (count : Nat) :
    parts '/' (s ++ slashes count) = parts '/' s ++ List.replicate count "" := by
  induction count with
  | zero => exact (congrArg (parts '/') String.append_empty).trans (List.append_nil _).symm
  | succ count ih =>
      rw [slashes_succ, ← String.append_assoc, ← String.append_empty (s := _ ++ _), parts_append,
        ih, List.append_assoc, List.replicate_succ']
      rfl

end Text

namespace Path

variable {p q : Path}

/-- The parts of a path between its slashes. -/
def parts (p : Path) : List String :=
  Text.parts '/' p.text

/-- The parts of a path without the blank one behind a slash at its end. -/
def base (p : Path) : List String :=
  if p.text.toList.getLast? = some '/' then p.parts.dropLast else p.parts

/-- A path that ends with a slash has a blank last part. -/
theorem parts_eq_base (p : Path) : p.parts = p.base ∨ p.parts = p.base ++ [""] := by
  unfold base
  split
  next slashed =>
      obtain ⟨front, whole⟩ := List.getLast?_eq_some_iff.1 slashed
      have text : p.text = String.ofList front ++ String.singleton '/' ++ "" := by
        rw [← String.toList_inj]
        simp [whole]
      have cut : p.parts = Text.parts '/' (String.ofList front) ++ [""] := by
        rw [parts, text, Text.parts_append]
        rfl
      right
      rw [cut, List.dropLast_concat]
  next => exact .inl rfl

/-- The parts of a path that is read from a directory. -/
theorem parts_join (relative : q.isAbsolute = false) (named : p.text ≠ "") :
    (p.join q).parts = p.base ++ q.parts := by
  unfold join base
  rw [relative, if_neg Bool.false_ne_true]
  by_cases slashed : p.text.toList.getLast? = some '/'
  · obtain ⟨front, whole⟩ := List.getLast?_eq_some_iff.1 slashed
    have text : p.text = String.ofList front ++ String.singleton '/' := by
      rw [← String.toList_inj]
      simp [whole]
    have cut : p.parts = Text.parts '/' (String.ofList front) ++ [""] := by
      rw [parts, text, ← String.append_empty (s := _ ++ _), Text.parts_append]
      rfl
    rw [if_pos (by simp [slashed]), if_pos slashed, cut, List.dropLast_concat, parts, text,
      Text.parts_append]
    rfl
  · rw [if_neg (by simp [slashed, named]), if_neg slashed]
    exact Text.parts_append '/' p.text q.text

/-- What stands behind a path does not change where it starts. -/
theorem isAbsolute_append (named : p.text ≠ "") (rest : String) :
    isAbsolute ⟨p.text ++ rest⟩ = p.isAbsolute := by
  rw [isAbsolute, isAbsolute, String.toList_append]
  cases text : p.text.toList with
  | nil => exact absurd (String.toList_eq_nil_iff.1 text) named
  | cons c more => rfl

/-- A path that is read from a directory starts where the directory's path does. -/
theorem isAbsolute_join (relative : q.isAbsolute = false) (named : p.text ≠ "") :
    (p.join q).isAbsolute = p.isAbsolute := by
  rw [join, relative, if_neg Bool.false_ne_true]
  split
  · exact isAbsolute_append named _
  · rw [String.append_assoc]
    exact isAbsolute_append named _

/-- A path that is read from a directory is not empty. -/
theorem text_join_ne (named : p.text ≠ "") : (p.join q).text ≠ "" := by
  unfold join
  split
  next absolute =>
      rintro empty
      simp [isAbsolute, empty] at absolute
  next =>
      split
      · simp [named]
      · simp [named]

/-- A joined path is at least as long as both of its parts. -/
theorem utf8ByteSize_join (relative : q.isAbsolute = false) :
    p.text.utf8ByteSize + q.text.utf8ByteSize ≤ (p.join q).text.utf8ByteSize := by
  rw [join, relative, if_neg Bool.false_ne_true]
  split
  · exact Nat.le_of_eq (String.utf8ByteSize_append ..).symm
  · rw [String.utf8ByteSize_append, String.utf8ByteSize_append]
    omega

/-- What a joined path is made of stands in one of the two or is the slash between them. -/
theorem mem_join {mark : Char} (within : mark ∈ (p.join q).text.toList) :
    mark ∈ p.text.toList ∨ mark = '/' ∨ mark ∈ q.text.toList := by
  unfold join at within
  split at within
  next => exact .inr (.inr within)
  next =>
      split at within
      · rw [String.toList_append] at within
        exact (List.mem_append.1 within).imp_right .inr
      · rw [String.toList_append, String.toList_append, List.append_assoc] at within
        rcases List.mem_append.1 within with first | behind
        · exact .inl first
        · exact .inr ((List.mem_append.1 behind).imp_left List.mem_singleton.1)

/-- What a joined path ends with. -/
theorem exists_text_join (p q : Path) : ∃ front, (p.join q).text = front ++ q.text := by
  unfold join
  split
  · exact ⟨"", String.empty_append.symm⟩
  · split
    · exact ⟨p.text, rfl⟩
    · exact ⟨p.text ++ "/", rfl⟩

/-- A component that is a name is a part of the path. -/
theorem mem_parts_of_mem_components {text : String} (member : .name text ∈ p.components) :
    text ∈ p.parts := by
  have inner : ∀ {segment : String}, Component.ofInner? segment = some (.name text) →
      segment = text := by
    intro segment named
    unfold Component.ofInner? at named
    split at named
    · cases named
    · split at named
      · cases named
      · cases named
        rfl
  have first : ∀ {segment : String} {alone : Bool},
      Component.ofFirst? segment alone = some (.name text) → segment = text := by
    intro segment alone named
    unfold Component.ofFirst? at named
    split at named
    · split at named <;> cases named
    · split at named
      · cases named
      · exact inner named
  obtain ⟨segment, isSegment, named⟩ := List.mem_filterMap.1 member
  rw [parts]
  rw [segments] at isSegment
  split at isSegment
  next => cases isSegment
  next start rest cut =>
      rw [cut]
      rcases List.mem_cons.1 isSegment with here | later
      · rw [here] at named
        exact first named ▸ List.mem_cons_self
      · obtain ⟨other, isOther, here⟩ := List.mem_map.1 later
        rw [← here] at named
        exact inner named ▸ List.mem_cons_of_mem _ isOther

end Path

end BuildConstants
