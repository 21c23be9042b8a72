import BuildConstants.Text.Blank
import Mathlib.Data.List.DropRight
import Mathlib.Data.List.TakeWhile

/-!
# Trimmed text

What trimming leaves is the stretch of the text that has blanks around it and neither starts nor
ends with one: `trim_eq_iff`. So trimming again changes nothing, and blanks put around a text are
dropped with its own. Nothing is left exactly of the texts that are blank throughout.
-/

namespace BuildConstants.Text

variable {c : Char} {cs : List Char}

theorem trimRight_eq (cs : List Char) : trimRight cs = cs.rdropWhile isBlank := rfl

theorem mem_of_mem_trimChars (within : c ∈ trimChars cs) : c ∈ cs := by
  rw [trimChars, trimRight_eq] at within
  exact (List.dropWhile_sublist _).subset ((List.rdropWhile_prefix _ _).subset within)

/-- Trimming at the end does not bring a blank to the front. -/
theorem dropWhile_trimRight (front : cs.dropWhile isBlank = cs) :
    (trimRight cs).dropWhile isBlank = trimRight cs := by
  rw [trimRight_eq]
  obtain ⟨rest, whole⟩ := List.rdropWhile_prefix isBlank cs
  cases kept : cs.rdropWhile isBlank with
  | nil => rfl
  | cons first others =>
      rw [kept] at whole
      rw [← whole, List.cons_append, List.dropWhile_eq_self_iff] at front
      exact List.dropWhile_eq_self_iff.2 fun _ => front (Nat.succ_pos _)

/-- Trimmed text is not changed by trimming. -/
theorem trimChars_trimChars (cs : List Char) : trimChars (trimChars cs) = trimChars cs := by
  have front : (trimChars cs).dropWhile isBlank = trimChars cs :=
    dropWhile_trimRight (List.dropWhile_idempotent _ _)
  rw [trimChars, front, trimChars, trimRight_eq, trimRight_eq, List.rdropWhile_idempotent]

theorem trim_trim (s : String) : trim (trim s) = trim s := by
  rw [trim, trim, String.toList_ofList, trimChars_trimChars]

theorem mem_of_mem_trim {s : String} (within : c ∈ (trim s).toList) : c ∈ s.toList := by
  rw [trim, String.toList_ofList] at within
  exact mem_of_mem_trimChars within

/-- Trimming leaves nothing exactly of blanks. -/
theorem trimChars_eq_nil_iff : trimChars cs = [] ↔ ∀ c ∈ cs, isBlank c := by
  rw [trimChars, trimRight_eq, List.rdropWhile_eq_nil_iff]
  constructor
  · intro behind c within
    rw [← List.takeWhile_append_dropWhile (p := isBlank) (l := cs)] at within
    rcases List.mem_append.1 within with ahead | later
    · exact List.mem_takeWhile_imp ahead
    · exact behind c later
  · intro blank c within
    exact blank c ((List.dropWhile_sublist _).subset within)

/-- Blanks around a text are trimmed off with those of the text. -/
theorem trimChars_append {front back : List Char} (blankFront : ∀ c ∈ front, isBlank c)
    (blankBack : ∀ c ∈ back, isBlank c) : trimChars (front ++ cs ++ back) = trimChars cs := by
  have atEnd : ∀ cs : List Char, trimRight (cs ++ back) = trimRight cs := by
    intro cs
    rw [trimRight, trimRight, List.reverse_append,
      List.dropWhile_append_of_pos fun c member => blankBack c (List.mem_reverse.1 member)]
  rw [trimChars, trimChars, List.append_assoc, List.dropWhile_append_of_pos blankFront,
    List.dropWhile_append]
  split
  next blank =>
      have nothing : back.dropWhile isBlank = [] := List.dropWhile_eq_nil_iff.2 blankBack
      rw [nothing, List.isEmpty_iff.1 blank]
  next => exact atEnd _

/-- The text with blanks around it. -/
def Pads (s padded : String) : Prop :=
  ∃ front back : String, padded = front ++ s ++ back ∧
    (∀ c ∈ front.toList, isBlank c) ∧ ∀ c ∈ back.toList, isBlank c

variable {s padded : String}

theorem Pads.trim (pads : Pads s padded) : trim padded = trim s := by
  obtain ⟨front, back, rfl, blankFront, blankBack⟩ := pads
  rw [Text.trim, Text.trim, String.toList_append, String.toList_append,
    trimChars_append blankFront blankBack]

/-- Blanks around a text bring no other characters along. -/
theorem Pads.notMem (pads : Pads s padded) (absent : c ∉ s.toList) (isNoBlank : ¬ isBlank c) :
    c ∉ padded.toList := by
  obtain ⟨front, back, rfl, blankFront, blankBack⟩ := pads
  simp only [String.toList_append, List.mem_append, not_or]
  exact ⟨⟨mt (blankFront c) isNoBlank, absent⟩, mt (blankBack c) isNoBlank⟩

/-- The characters with the property `White_Space`. -/
def blanks : List Char :=
  ['\t', '\n', '\x0b', '\x0c', '\r', ' ', '\u0085', '\u00a0', '\u1680', '\u2000', '\u2001',
    '\u2002', '\u2003', '\u2004', '\u2005', '\u2006', '\u2007', '\u2008', '\u2009', '\u200a',
    '\u2028', '\u2029', '\u202f', '\u205f', '\u3000']

theorem isBlank_iff : isBlank c ↔ c ∈ blanks := by
  have listed : c ∈ blanks ↔ c.toNat ∈ blanks.map Char.toNat :=
    (List.mem_map_of_injective fun _ _ same => Char.toNat_inj.1 same).symm
  rw [listed]
  simp [isBlank, blankRanges, blanks]
  omega

/-- The first text is the second one with blanks around it, and the second one neither starts nor
ends with a blank. -/
structure IsTrimmed (s trimmed : String) : Prop where
  around : ∃ front back : String, s = front ++ trimmed ++ back ∧
    (∀ c ∈ front.toList, c ∈ blanks) ∧ ∀ c ∈ back.toList, c ∈ blanks
  head : ∀ c ∈ trimmed.toList.head?, c ∉ blanks
  last : ∀ c ∈ trimmed.toList.getLast?, c ∉ blanks

theorem isTrimmed_trim (s : String) : IsTrimmed s (trim s) := by
  have front : (trimChars s.toList).dropWhile isBlank = trimChars s.toList :=
    dropWhile_trimRight (List.dropWhile_idempotent _ _)
  have back : (trimChars s.toList).rdropWhile isBlank = trimChars s.toList :=
    List.rdropWhile_idempotent _ _
  refine ⟨⟨String.ofList (s.toList.takeWhile isBlank),
    String.ofList ((s.toList.dropWhile isBlank).rtakeWhile isBlank), ?_, ?_, ?_⟩, ?_, ?_⟩
  · rw [← String.toList_inj, String.toList_append, String.toList_append, trim, String.toList_ofList,
      String.toList_ofList, String.toList_ofList, trimChars, trimRight_eq, List.append_assoc,
      List.rdropWhile_append_rtakeWhile, List.takeWhile_append_dropWhile]
  · intro c member
    rw [String.toList_ofList] at member
    exact isBlank_iff.1 (List.mem_takeWhile_imp member)
  · intro c member
    rw [String.toList_ofList] at member
    exact isBlank_iff.1 (List.mem_rtakeWhile_imp member)
  · intro c first
    rw [trim, String.toList_ofList] at first
    obtain ⟨rest, whole⟩ := List.head?_eq_some_iff.1 first
    rw [whole, List.dropWhile_eq_self_iff] at front
    exact mt isBlank_iff.2 (front (Nat.succ_pos _))
  · intro c final
    rw [trim, String.toList_ofList] at final
    obtain ⟨before, whole⟩ := List.getLast?_eq_some_iff.1 final
    rw [whole, List.rdropWhile_eq_self_iff] at back
    exact mt isBlank_iff.2 (by simpa using back (by simp))

/-- A text has one trimmed form, which is what trimming leaves. -/
theorem trim_eq_iff {trimmed : String} : trim s = trimmed ↔ IsTrimmed s trimmed := by
  refine ⟨fun same => same ▸ isTrimmed_trim s, fun isTrimmed => ?_⟩
  obtain ⟨⟨front, back, whole, blankFront, blankBack⟩, head, last⟩ := isTrimmed
  have pads : Pads trimmed s :=
    ⟨front, back, whole, fun c member => isBlank_iff.2 (blankFront c member),
    fun c member => isBlank_iff.2 (blankBack c member)⟩
  have atFront : trimmed.toList.dropWhile isBlank = trimmed.toList := by
    cases letters : trimmed.toList with
    | nil => rfl
    | cons c rest =>
        rw [letters] at head
        exact List.dropWhile_cons_of_neg (mt isBlank_iff.1 (head c rfl))
  have atEnd : trimmed.toList.rdropWhile isBlank = trimmed.toList := by
    rw [List.rdropWhile_eq_self_iff]
    intro notEmpty
    exact mt isBlank_iff.1 (last _ (List.getLast?_eq_some_getLast notEmpty))
  rw [pads.trim, trim, trimChars, atFront, trimRight_eq, atEnd, String.ofList_toList]

end BuildConstants.Text
