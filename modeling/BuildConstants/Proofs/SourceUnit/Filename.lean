import BuildConstants.SourceUnit.Filename
import Mathlib.Data.List.Nodup
import Mathlib.Data.List.Perm.Subperm

/-!
# Free file names

The allocator never hands out a name that is in use. Of the plain name and as many numbered names
as there are names in use, one must be free, and the search looks at all of them:
`Filenames.freeFor_eq` says which one it finds.
-/

namespace BuildConstants

variable {stem : String}

theorem toString_injective : Function.Injective (toString : Nat → String) := by
  intro first second same
  have digits := congrArg String.toList same
  rw [Nat.toString_eq_ofList_toDigits, Nat.toString_eq_ofList_toDigits] at digits
  simpa using congrArg (Nat.ofDigitChars 10 · 0) digits

theorem numberedFilename_eq (number : Nat) :
    numberedFilename stem number = stem ++ "." ++ toString number ++ generatedSuffix := rfl

theorem numberedFilename_injective : Function.Injective (numberedFilename stem) := by
  intro first second same
  have numbers : toString first = toString second := by
    simpa [numberedFilename_eq, String.append_left_inj, String.append_right_inj] using same
  exact toString_injective numbers

theorem plainFilename_ne_numbered (number : Nat) :
    plainFilename stem ≠ numberedFilename stem number := by
  intro same
  have lengths := congrArg String.length same
  have dot : ".".length = 1 := rfl
  rw [plainFilename, numberedFilename_eq] at lengths
  simp only [String.length_append, dot] at lengths
  omega

namespace Filenames

variable {used : List String} {tries number : Nat}

/-- The search finds the least free number, if one of those that it looks at is free. -/
theorem firstFree_eq
    (free : ∃ found, number ≤ found ∧ found < number + tries ∧ numberedFilename stem found ∉ used) :
    ∃ found, firstFree used stem tries number = numberedFilename stem found ∧
      number ≤ found ∧ found < number + tries ∧ numberedFilename stem found ∉ used ∧
      ∀ other, number ≤ other → other < found → numberedFilename stem other ∈ used := by
  induction tries generalizing number with
  | zero =>
      obtain ⟨found, low, high, _⟩ := free
      omega
  | succ tries ih =>
      rw [firstFree]
      split
      next taken =>
          obtain ⟨found, low, high, isFree⟩ := free
          have later : number + 1 ≤ found := by
            rcases Nat.eq_or_lt_of_le low with rfl | less
            · exact absurd taken isFree
            · exact less
          obtain ⟨least, found, above, below, isFree, before⟩ :=
            ih ⟨found, later, by omega, isFree⟩
          refine ⟨least, found, by omega, by omega, isFree, fun other low less => ?_⟩
          rcases Nat.eq_or_lt_of_le low with rfl | lower
          · exact taken
          · exact before other lower less
      next isFree =>
          exact ⟨number, rfl, Nat.le_refl _, by omega, isFree, fun other low less => by omega⟩

/-- The plain name is taken, so the other names in use leave one of as many numbers free. -/
theorem exists_free (taken : plainFilename stem ∈ used) :
    ∃ found, 2 ≤ found ∧ found < 2 + used.length ∧ numberedFilename stem found ∉ used := by
  by_contra none
  push Not at none
  let names := plainFilename stem :: (List.range' 2 used.length).map (numberedFilename stem)
  have distinct : names.Nodup := by
    refine List.nodup_cons.2 ⟨?_, (List.nodup_range' 1).map numberedFilename_injective⟩
    rw [List.mem_map]
    rintro ⟨number, -, same⟩
    exact plainFilename_ne_numbered number same.symm
  have within : names ⊆ used := by
    intro name member
    rcases List.mem_cons.1 member with rfl | numbered
    · exact taken
    · obtain ⟨number, range, rfl⟩ := List.mem_map.1 numbered
      rw [List.mem_range'_1] at range
      exact none number range.1 range.2
  have count := (List.subperm_of_subset distinct within).length_le
  simp only [names, List.length_cons, List.length_map, List.length_range'] at count
  omega

/-- The name handed out is the plain one if that is free, and else the least free number from two
on, which is at most one more than the number of names in use. -/
theorem freeFor_eq (names : Filenames) (stem : String) :
    names.freeFor stem ∉ names.used ∧
      (names.freeFor stem = plainFilename stem ∨
        plainFilename stem ∈ names.used ∧
          ∃ number, names.freeFor stem = numberedFilename stem number ∧ 2 ≤ number ∧
            number ≤ names.used.length + 1 ∧
            ∀ other, 2 ≤ other → other < number → numberedFilename stem other ∈ names.used) := by
  rw [freeFor]
  split
  next taken =>
      obtain ⟨number, found, low, high, isFree, before⟩ := firstFree_eq (exists_free taken)
      rw [found]
      exact ⟨isFree, .inr ⟨taken, number, rfl, low, by omega, before⟩⟩
  next isFree => exact ⟨isFree, .inl rfl⟩

end Filenames

end BuildConstants
