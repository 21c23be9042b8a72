import BuildConstants.Proofs.SourceUnit.Filename
import Mathlib.Data.List.Induction
import Mathlib.Order.Bounds.Defs

/-!
# The search for a free name

Whatever names have been reserved and handed out before, a search that tries the plain name and then
one number after the other comes to an end, and `Filenames.allocate` hands out the name at which it
stops. `Filenames.allocate_after` says which name that is: the plain one or the one with the least
free number.
-/

namespace BuildConstants

/-! ## Calls -/

/-- What an allocator is asked for. -/
inductive FilenameCall where
  | reserve (filename : String)
  | allocate (namespaceName containerName : String)
deriving DecidableEq

/-- The names in use after a call. -/
def FilenameCall.apply : FilenameCall → Filenames → Filenames
  | .reserve filename, names => names.reserve filename
  | .allocate namespaceName containerName, names =>
    (names.allocate namespaceName containerName).2

namespace Filenames

/-- The names in use after some calls, the first one first. -/
def after (calls : List FilenameCall) : Filenames :=
  calls.foldl (fun names call => call.apply names) empty

@[simp] theorem after_nil : after [] = empty := rfl

@[simp] theorem after_snoc (calls : List FilenameCall) (call : FilenameCall) :
    after (calls ++ [call]) = call.apply (after calls) :=
  List.foldl_append

variable {names : Filenames} {call : FilenameCall} {stem filename : String}

/-- A call keeps the names in use distinct, so that they can be counted. -/
theorem nodup_apply (distinct : names.used.Nodup) : (call.apply names).used.Nodup := by
  cases call with
  | reserve filename =>
      rw [FilenameCall.apply, reserve]
      split
      next => exact distinct
      next absent => exact List.nodup_cons.2 ⟨absent, distinct⟩
  | allocate namespaceName containerName =>
      exact List.nodup_cons.2 ⟨(names.freeFor_eq _).1, distinct⟩

theorem nodup_after (calls : List FilenameCall) : (after calls).used.Nodup := by
  induction calls using List.reverseRecOn with
  | nil => exact List.nodup_nil
  | append_singleton calls call ih =>
      rw [after_snoc]
      exact nodup_apply ih

/-- The name was reserved by one of the calls, or one of them was handed it out. -/
def TakenBy (calls : List FilenameCall) (filename : String) : Prop :=
  .reserve filename ∈ calls ∨
    ∃ earlier namespaceName containerName,
      earlier ++ [.allocate namespaceName containerName] <+: calls ∧
        ((after earlier).allocate namespaceName containerName).1 = filename

/-- One more call takes the name that it reserves or is handed out. -/
theorem takenBy_snoc_iff {calls : List FilenameCall} :
    TakenBy (calls ++ [call]) filename ↔
      TakenBy calls filename ∨ call = .reserve filename ∨
        ∃ namespaceName containerName, call = .allocate namespaceName containerName ∧
          ((after calls).allocate namespaceName containerName).1 = filename := by
  simp only [TakenBy, List.mem_append, List.mem_singleton, List.prefix_concat_iff]
  constructor
  · rintro ((reserved | rfl) | ⟨earlier, namespaceName, containerName, last | before, given⟩)
    · exact .inl (.inl reserved)
    · exact .inr (.inl rfl)
    · obtain ⟨rfl, rfl⟩ := List.append_singleton_inj.1 last
      exact .inr (.inr ⟨namespaceName, containerName, rfl, given⟩)
    · exact .inl (.inr ⟨earlier, namespaceName, containerName, before, given⟩)
  · rintro ((reserved | ⟨earlier, namespaceName, containerName, before, given⟩) | rfl |
      ⟨namespaceName, containerName, rfl, given⟩)
    · exact .inl (.inl reserved)
    · exact .inr ⟨earlier, namespaceName, containerName, .inr before, given⟩
    · exact .inl (.inr rfl)
    · exact .inr ⟨calls, namespaceName, containerName, .inl rfl, given⟩

/-- The names in use are those that the calls have taken. -/
theorem mem_used_after_iff {calls : List FilenameCall} :
    filename ∈ (after calls).used ↔ TakenBy calls filename := by
  induction calls using List.reverseRecOn with
  | nil => simp [TakenBy, empty]
  | append_singleton calls call ih =>
      rw [after_snoc, takenBy_snoc_iff, ← ih]
      cases call with
      | reserve other =>
          rw [FilenameCall.apply, reserve]
          split
          next known =>
            simp only [FilenameCall.reserve.injEq, reduceCtorEq, false_and, exists_false, or_false]
            exact ⟨.inl, fun either => either.elim id fun same => same ▸ known⟩
          next => simp [or_comm, eq_comm]
      | allocate namespaceName containerName =>
          simp [FilenameCall.apply, allocate, or_comm, eq_comm]

end Filenames

/-! ## The search -/

/-- Where a search for a free name stands. -/
structure FilenameSearch where
  /-- The name that is tried. -/
  candidate : String
  /-- The number that is tried next. -/
  next : Nat
deriving DecidableEq

namespace FilenameSearch

/-- A search tries the plain name first, and two is the first number. -/
def start (stem : String) : FilenameSearch :=
  ⟨plainFilename stem, 2⟩

/-- The next number is tried. -/
def advance (stem : String) (search : FilenameSearch) : FilenameSearch :=
  ⟨numberedFilename stem search.next, search.next + 1⟩

/-- A search makes some turns, one for each name that it tries and finds in use. -/
inductive Runs (used : List String) (stem : String) :
    Nat → FilenameSearch → FilenameSearch → Prop where
  | rest {search} : Runs used stem 0 search search
  | turn {turns first last} (taken : first.candidate ∈ used)
      (others : Runs used stem turns (first.advance stem) last) :
      Runs used stem (turns + 1) first last

variable {used : List String} {stem : String} {turns otherTurns : Nat}
  {first last search : FilenameSearch}

/-- One more turn at the end of a search. -/
theorem Runs.snoc (runs : Runs used stem turns first last) (taken : last.candidate ∈ used) :
    Runs used stem (turns + 1) first (last.advance stem) := by
  induction runs with
  | rest => exact .turn taken .rest
  | turn here _ ih => exact .turn here (ih taken)

/-- Nothing but the names in use decides how a search goes on, so the one that has come to a free
name has made as many turns as any. -/
theorem Runs.le_of_free (runs : Runs used stem turns first last) (free : last.candidate ∉ used)
    (others : Runs used stem otherTurns first search) : otherTurns ≤ turns := by
  induction runs generalizing otherTurns with
  | rest =>
      cases others with
      | rest => exact Nat.le_refl _
      | turn taken _ => exact absurd taken free
  | turn _ _ ih =>
      cases others with
      | rest => exact Nat.zero_le _
      | turn _ rest => exact Nat.succ_le_succ (ih free rest)

/-- When the plain name and the first numbers are in use, the search comes to the number after
these. -/
theorem runs_start (taken : plainFilename stem ∈ used)
    (before : ∀ other, 2 ≤ other → other < turns + 2 → numberedFilename stem other ∈ used) :
    Runs used stem (turns + 1) (start stem) ⟨numberedFilename stem (turns + 2), turns + 3⟩ := by
  induction turns with
  | zero => exact .turn taken .rest
  | succ turns ih =>
      have shorter := ih fun other low less => before other low (Nat.lt_succ_of_lt less)
      exact shorter.snoc (before (turns + 2) (by omega) (by omega))

end FilenameSearch

namespace Filenames

/-- The name is the one at which the search for a free name ends. -/
structure IsFound (names : Filenames) (stem filename : String) : Prop where
  /-- The search stops at the name after at most one turn for each name in use, and no search goes
  on for longer. -/
  ends : ∃ turns ≤ names.used.length, ∃ last,
    FilenameSearch.Runs names.used stem turns (.start stem) last ∧ last.candidate = filename ∧
    ∀ otherTurns other, FilenameSearch.Runs names.used stem otherTurns (.start stem) other →
      otherTurns ≤ turns
  free : filename ∉ names.used
  /-- The plain name is found if it is free. -/
  plain : plainFilename stem ∉ names.used → filename = plainFilename stem
  /-- If the plain name is in use, the least number from two on is found whose name is free. -/
  numbered : plainFilename stem ∈ names.used →
    ∃ number ≤ names.used.length + 1, filename = numberedFilename stem number ∧
      IsLeast {other | 2 ≤ other ∧ numberedFilename stem other ∉ names.used} number

theorem isFound_freeFor (names : Filenames) (stem : String) :
    names.IsFound stem (names.freeFor stem) := by
  obtain ⟨free, found⟩ := names.freeFor_eq stem
  rcases found with plain | ⟨taken, number, numbered, low, high, before⟩
  · rw [plain] at free ⊢
    refine ⟨⟨0, Nat.zero_le _, _, .rest, rfl, fun _ _ others => ?_⟩, free, fun _ => rfl,
      fun taken => absurd taken free⟩
    exact FilenameSearch.Runs.rest.le_of_free free others
  · rw [numbered] at free ⊢
    obtain ⟨turns, rfl⟩ := Nat.exists_eq_add_of_le' low
    have runs := FilenameSearch.runs_start taken before
    refine ⟨⟨turns + 1, by omega, _, runs, rfl, fun _ _ others => runs.le_of_free free others⟩,
      free, fun absent => absurd taken absent, fun _ => ⟨turns + 2, high, rfl, ⟨low, free⟩, ?_⟩⟩
    rintro other ⟨atLeast, isFree⟩
    exact Nat.le_of_not_lt fun less => isFree (before other atLeast less)

/-- After any calls, an allocation hands out the name at which the search for a free one ends, and
takes that name and no other out of the supply. The names in use are those that have been reserved
or handed out; they are distinct, so their number is the length of their list. -/
theorem allocate_after (calls : List FilenameCall) (namespaceName containerName : String) :
    let names := after calls
    let (filename, later) := names.allocate namespaceName containerName
    names.used.Nodup ∧ (∀ other, other ∈ names.used ↔ TakenBy calls other) ∧
      names.IsFound (filenameStem namespaceName containerName) filename ∧
      ∀ other, other ∈ later.used ↔ other = filename ∨ other ∈ names.used :=
  ⟨nodup_after calls, fun _ => mem_used_after_iff, isFound_freeFor _ _, fun _ => List.mem_cons⟩

/-- A number that has been reserved and one that another container asks for are passed over. -/
example :
    let calls := [.allocate "A.B" "X", .reserve "A_B_X.2.g.cs", .allocate "A_B" "X.3"]
    ((after calls).allocate "A" "B_X").1 = "A_B_X.4.g.cs" := by
  decide +kernel

end Filenames

end BuildConstants
