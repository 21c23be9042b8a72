import BuildConstants.Generation.Cancellation

/-!
# Work under a signal

A pass checks its signal before each piece of work. `Signal.reached` is the work that is done before
a check finds the signal raised, and `Signal.stops` says whether one of the checks does. Both split
over work that is done in two parts, as `Signal.stops_add` and `Signal.reached_append` say.
-/

namespace BuildConstants.Signal

variable {α : Type} {signal : Signal} {number count : Nat} {piece : α} {work rest : List α}

/-- The pieces of work before which no check finds the signal raised. The check before the first
piece has the given number. -/
def reached (signal : Signal) (number : Nat) (work : List α) : List α :=
  match signal.raisedAfter with
  | none => work
  | some checks => work.take (checks - number)

/-- The signal is raised by the time of the last of `count` checks, the first of which has the given
number. -/
def stops (signal : Signal) (number count : Nat) : Bool :=
  count ≠ 0 && signal.isRaisedBy (number + count - 1)

@[simp] theorem stops_zero : signal.stops number 0 = false := rfl

@[simp] theorem stops_one : signal.stops number 1 = signal.isRaisedBy number := by
  simp [stops]

/-- Checks that come in two runs stop when one of the runs does. -/
theorem stops_add (first second : Nat) :
    signal.stops number (first + second) =
      (signal.stops number first || signal.stops (number + first) second) := by
  unfold stops isRaisedBy
  cases signal.raisedAfter with
  | none => simp
  | some checks =>
      rw [Bool.eq_iff_iff]
      simp only [ne_eq, Nat.add_eq_zero_iff, Option.any_some, decide_not, Bool.and_eq_true,
        Bool.not_eq_eq_eq_not, Bool.not_true, decide_eq_false_iff_not, decide_eq_true_eq,
        Bool.or_eq_true]
      omega

theorem stops_succ :
    signal.stops number (count + 1) =
      (signal.isRaisedBy number || signal.stops (number + 1) count) := by
  rw [Nat.add_comm, stops_add, stops_one]

@[simp] theorem reached_nil : signal.reached number ([] : List α) = [] := by
  unfold reached
  cases signal.raisedAfter <;> simp

theorem reached_cons :
    signal.reached number (piece :: rest) =
      if signal.isRaisedBy number then [] else piece :: signal.reached (number + 1) rest := by
  unfold reached isRaisedBy
  cases signal.raisedAfter with
  | none => simp
  | some checks =>
      by_cases raised : checks ≤ number
      · simp [raised, Nat.sub_eq_zero_of_le raised]
      · obtain ⟨more, remaining⟩ : ∃ more, checks - number = more + 1 :=
          ⟨checks - number - 1, by omega⟩
        have next : checks - (number + 1) = more := by omega
        simp [raised, remaining, next]

theorem reached_map {β : Type} (f : α → β) :
    signal.reached number (work.map f) = (signal.reached number work).map f := by
  unfold reached
  cases signal.raisedAfter <;> simp

/-- Work that is not stopped is done in full. -/
theorem reached_of_not_stops (undisturbed : signal.stops number work.length = false) :
    signal.reached number work = work := by
  induction work generalizing number with
  | nil => simp
  | cons piece rest ih =>
      rw [List.length_cons, stops_succ, Bool.or_eq_false_iff] at undisturbed
      simp [reached_cons, undisturbed.1, ih undisturbed.2]

/-- The second part of some work is begun only when the first is done in full. -/
theorem reached_append :
    signal.reached number (work ++ rest) =
      if signal.stops number work.length then signal.reached number work
      else work ++ signal.reached (number + work.length) rest := by
  induction work generalizing number with
  | nil => simp
  | cons piece more ih =>
      rw [List.cons_append, reached_cons, reached_cons, List.length_cons, stops_succ, ih]
      cases signal.isRaisedBy number with
      | true => simp
      | false =>
          have position : number + 1 + more.length = number + (more.length + 1) := by omega
          by_cases stopped : signal.stops (number + 1) more.length <;> simp [stopped, position]

@[simp] theorem never_stops : never.stops number count = false := by
  simp [stops, isRaisedBy, never]

end BuildConstants.Signal
