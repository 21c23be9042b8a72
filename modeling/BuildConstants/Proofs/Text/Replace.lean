import BuildConstants.Text.Split
import Mathlib.Data.List.Infix

/-!
# Replacing a pattern

A text without the pattern stays as it is. Where the pattern begins with one mark and ends with
another, text in front that lacks the first mark and text behind that lacks the last one take no
part in the replacement, which `replace_between` says. A replacement without a mark of the pattern
leaves fewer such marks than there were: `count_replaceFrom_lt`.
-/

namespace BuildConstants.Text

variable {pattern replacement text front behind : List Char} {mark c : Char} {skip : Nat}

theorem replaceFrom_of_unmatched (absent : ¬ pattern <+: c :: text) :
    replaceFrom pattern replacement 0 (c :: text) =
      c :: replaceFrom pattern replacement 0 text := by
  rw [replaceFrom, if_neg (mt List.isPrefixOf_iff_prefix.1 absent)]

theorem replaceFrom_of_absent (absent : ¬ pattern <:+: text) :
    replaceFrom pattern replacement 0 text = text := by
  induction text with
  | nil => rfl
  | cons c rest ih =>
      rw [List.infix_cons_iff, not_or] at absent
      rw [replaceFrom_of_unmatched absent.1, ih absent.2]

/-- The characters of an occurrence that are still to be dropped. -/
theorem replaceFrom_skip (short : skip ≤ text.length) :
    replaceFrom pattern replacement skip text =
      replaceFrom pattern replacement 0 (text.drop skip) := by
  induction skip generalizing text with
  | zero => rfl
  | succ skip ih =>
      cases text with
      | nil => cases short
      | cons c rest =>
          rw [replaceFrom, List.drop_succ_cons]
          exact ih (Nat.le_of_succ_le_succ short)

/-- The pattern itself is replaced, and what follows it is looked at afresh. -/
theorem replaceFrom_pattern_append (someText : pattern ≠ []) :
    replaceFrom pattern replacement 0 (pattern ++ text) =
      replacement ++ replaceFrom pattern replacement 0 text := by
  cases pattern with
  | nil => exact absurd rfl someText
  | cons c others =>
      have found : (c :: others).isPrefixOf (c :: others ++ text) :=
        List.isPrefixOf_iff_prefix.2 (List.prefix_append _ _)
      have within : others.length ≤ (others ++ text).length := by simp
      rw [List.cons_append] at found ⊢
      rw [replaceFrom, if_pos found, List.length_cons, Nat.add_sub_cancel,
        replaceFrom_skip within, List.drop_left]

theorem replaceFrom_append_left (opens : pattern.head? = some mark) (absent : mark ∉ front) :
    replaceFrom pattern replacement 0 (front ++ text) =
      front ++ replaceFrom pattern replacement 0 text := by
  induction front with
  | nil => rfl
  | cons c rest ih =>
      obtain ⟨differs, absent⟩ := List.ne_and_not_mem_of_not_mem_cons absent
      have noPrefix : ¬ pattern <+: c :: (rest ++ text) := by
        rintro ⟨others, whole⟩
        cases pattern with
        | nil => cases opens
        | cons first more =>
            cases opens
            exact differs (List.cons.inj whole).1
      rw [List.cons_append, replaceFrom_of_unmatched noPrefix, ih absent, List.cons_append]

/-- An occurrence does not reach into text that lacks the last mark of the pattern. -/
theorem prefix_append_iff (closes : pattern.getLast? = some mark) (absent : mark ∉ behind) :
    pattern <+: text ++ behind ↔ pattern <+: text := by
  refine ⟨fun found => ?_, List.prefix_append_of_prefix⟩
  rcases List.prefix_or_prefix_of_prefix found (List.prefix_append text behind) with within | across
  · exact within
  · obtain ⟨others, rfl⟩ := across
    rcases List.eq_nil_or_concat others with rfl | ⟨more, last, rfl⟩
    · rw [List.append_nil]
    · have reaches := (List.prefix_append_right_inj text).1 found
      rw [List.concat_eq_append, ← List.append_assoc, List.getLast?_concat] at closes
      cases closes
      refine absurd (reaches.mem ?_) absent
      rw [List.concat_eq_append]
      exact List.mem_append_right _ List.mem_cons_self

theorem replaceFrom_append_right (closes : pattern.getLast? = some mark) (absent : mark ∉ behind)
    (short : skip ≤ text.length) :
    replaceFrom pattern replacement skip (text ++ behind) =
      replaceFrom pattern replacement skip text ++ behind := by
  induction text generalizing skip with
  | nil =>
      obtain rfl := Nat.le_zero.1 short
      have noInfix : ¬ pattern <:+: behind := fun found =>
        absent (found.subset (List.mem_of_getLast? closes))
      exact replaceFrom_of_absent noInfix
  | cons c rest ih =>
      cases skip with
      | succ skip =>
          rw [List.cons_append, replaceFrom, replaceFrom]
          exact ih (Nat.le_of_succ_le_succ short)
      | zero =>
          have reaches : pattern <+: (c :: rest) ++ behind ↔ pattern <+: c :: rest :=
            prefix_append_iff closes absent
          rw [List.cons_append] at reaches ⊢
          by_cases found : pattern <+: c :: rest
          · have reach := found.length_le
            rw [List.length_cons] at reach
            rw [replaceFrom, replaceFrom, if_pos (List.isPrefixOf_iff_prefix.2 (reaches.2 found)),
              if_pos (List.isPrefixOf_iff_prefix.2 found), ih (by omega), List.append_assoc]
          · rw [replaceFrom_of_unmatched (mt reaches.1 found), replaceFrom_of_unmatched found,
              ih (Nat.zero_le _), List.cons_append]

/-- Text on both sides of a part takes no part in a replacement, as long as no occurrence can begin
in front of it and none can end behind it. -/
theorem replace_between {pattern replacement front text behind : String} {first last : Char}
    (opens : pattern.toList.head? = some first) (closes : pattern.toList.getLast? = some last)
    (absentFront : first ∉ front.toList) (absentBehind : last ∉ behind.toList) :
    replace pattern replacement (front ++ text ++ behind) =
      front ++ replace pattern replacement text ++ behind := by
  apply String.toList_inj.1
  simp only [replace, String.toList_append, String.toList_ofList]
  rw [List.append_assoc, replaceFrom_append_left opens absentFront,
    replaceFrom_append_right closes absentBehind (Nat.zero_le _), List.append_assoc]

/-! ### Marks that are left -/

/-- A replacement without the mark adds none. -/
theorem count_replaceFrom_le (unmarked : mark ∉ replacement) (skip : Nat) (text : List Char) :
    (replaceFrom pattern replacement skip text).count mark ≤ (text.drop skip).count mark := by
  induction text generalizing skip with
  | nil => simp [replaceFrom]
  | cons c rest ih =>
      cases skip with
      | succ skip =>
          rw [replaceFrom, List.drop_succ_cons]
          exact ih skip
      | zero =>
          rw [replaceFrom, List.drop_zero]
          split
          · have fewer := ((List.drop_sublist (pattern.length - 1) rest).cons c).count_le mark
            rw [List.count_append, List.count_eq_zero_of_not_mem unmarked, Nat.zero_add]
            exact (ih _).trans fewer
          · rw [List.count_cons, List.count_cons]
            exact Nat.add_le_add_right (ih 0) _

/-- A replacement without the mark takes away the marks of each occurrence. -/
theorem count_replaceFrom_lt (unmarked : mark ∉ replacement) (marked : mark ∈ pattern)
    (found : pattern <:+: text) :
    (replaceFrom pattern replacement 0 text).count mark < text.count mark := by
  induction text with
  | nil =>
      rw [List.infix_nil.1 found] at marked
      cases marked
  | cons c rest ih =>
      by_cases here : pattern <+: c :: rest
      · obtain ⟨others, whole⟩ := here
        have someText : pattern ≠ [] := List.ne_nil_of_mem marked
        have present := List.count_pos_iff.2 marked
        have fewer : (replaceFrom pattern replacement 0 others).count mark ≤ others.count mark :=
          count_replaceFrom_le unmarked 0 others
        rw [← whole, replaceFrom_pattern_append someText, List.count_append, List.count_append,
          List.count_eq_zero_of_not_mem unmarked]
        omega
      · have later := (List.infix_cons_iff.1 found).resolve_left here
        rw [replaceFrom_of_unmatched here, List.count_cons, List.count_cons]
        exact Nat.add_lt_add_right (ih later) _

end BuildConstants.Text
