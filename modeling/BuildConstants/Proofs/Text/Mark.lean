import BuildConstants.Text.Split

/-!
# Text up to a mark

A mark cuts a text at its first occurrence, so the text in front of it and the text behind it are
determined by the whole.
-/

namespace BuildConstants.Text

variable {mark : Char} {cs before after : List Char}

theorem splitFirst_append (absent : mark ∉ before) :
    splitFirst mark (before ++ mark :: after) = some (before, after) := by
  induction before with
  | nil => simp [splitFirst]
  | cons c rest ih =>
      obtain ⟨differs, absent⟩ := List.ne_and_not_mem_of_not_mem_cons absent
      rw [List.cons_append, splitFirst, if_neg (Ne.symm differs), ih absent]
      rfl

/-- The first mark is the one that none stands in front of. -/
theorem splitFirst_eq_some_iff :
    splitFirst mark cs = some (before, after) ↔ cs = before ++ mark :: after ∧ mark ∉ before := by
  refine ⟨fun cut => ?_, fun ⟨whole, absent⟩ => whole ▸ splitFirst_append absent⟩
  induction cs generalizing before with
  | nil => cases cut
  | cons c rest ih =>
      rw [splitFirst] at cut
      split at cut
      next marked =>
          cases cut
          exact ⟨congrArg (· :: _) marked, List.not_mem_nil⟩
      next unmarked =>
          obtain ⟨⟨front, behind⟩, found, same⟩ := Option.map_eq_some_iff.1 cut
          cases same
          obtain ⟨whole, absent⟩ := ih found
          refine ⟨congrArg (c :: ·) whole, fun within => ?_⟩
          rcases List.mem_cons.1 within with rfl | later
          · exact unmarked rfl
          · exact absent later

theorem splitFirst_eq_none (absent : mark ∉ cs) : splitFirst mark cs = none := by
  rw [Option.eq_none_iff_forall_ne_some]
  rintro ⟨before, after⟩ cut
  rw [(splitFirst_eq_some_iff.1 cut).1] at absent
  exact absent (List.mem_append_right _ List.mem_cons_self)

/-- Texts without marks that run up to a mark are the same when they begin the same text. -/
theorem append_mark_inj (isMark : Char → Prop) {first second : Char}
    {front other behind rest : List Char} (markFirst : isMark first) (markSecond : isMark second)
    (unmarked : ∀ c ∈ front, ¬ isMark c) (unmarkedOther : ∀ c ∈ other, ¬ isMark c)
    (same : front ++ first :: behind = other ++ second :: rest) :
    front = other ∧ first = second ∧ behind = rest := by
  induction front generalizing other with
  | nil =>
      cases other with
      | nil =>
          obtain ⟨rfl, rfl⟩ := List.cons.inj same
          exact ⟨rfl, rfl, rfl⟩
      | cons c others =>
          obtain ⟨rfl, -⟩ := List.cons.inj same
          exact absurd markFirst (unmarkedOther first List.mem_cons_self)
  | cons c others ih =>
      cases other with
      | nil =>
          obtain ⟨rfl, -⟩ := List.cons.inj same
          exact absurd markSecond (unmarked c List.mem_cons_self)
      | cons d more =>
          obtain ⟨rfl, tails⟩ := List.cons.inj same
          obtain ⟨rfl, found⟩ := ih (fun c member => unmarked c (List.mem_cons_of_mem _ member))
            (fun c member => unmarkedOther c (List.mem_cons_of_mem _ member)) tails
          exact ⟨rfl, found⟩

/-- The case of a single mark. -/
theorem append_cons_inj {front other behind rest : List Char} (absent : mark ∉ front)
    (absentOther : mark ∉ other) (same : front ++ mark :: behind = other ++ mark :: rest) :
    front = other ∧ behind = rest := by
  have isMark : ∀ {cs : List Char}, mark ∉ cs → ∀ c ∈ cs, ¬ c = mark :=
    fun absent c member found => absent (found ▸ member)
  obtain ⟨fronts, -, rests⟩ := append_mark_inj (· = mark) rfl rfl (isMark absent)
    (isMark absentOther) same
  exact ⟨fronts, rests⟩

end BuildConstants.Text
