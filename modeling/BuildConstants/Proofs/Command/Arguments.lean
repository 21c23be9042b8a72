import BuildConstants.Command.Arguments
import BuildConstants.Proofs.Outcome

/-!
# What words can ask for

No switch for a path is given without a text. Every word that is scanned keeps this, because a value
is examined before it is recorded; so the paths of an invocation are not empty.
-/

namespace BuildConstants

namespace Switch

/-- The value of the switch is a path. -/
def IsPath (switch : Switch) : Prop :=
  switch = .path ∨ switch = .declarations ∨ switch = .output

end Switch

namespace Scan

variable {scan next : Scan} {task : Option TaskName} {switch : Switch} {word : String}

/-- No path that has been given is empty. -/
def Filled (scan : Scan) : Prop :=
  ∀ given ∈ scan.given, given.1.IsPath → given.2 ≠ some ""

theorem filled_empty : Filled {} :=
  fun _ member => nomatch member

theorem Filled.record (filled : scan.Filled) {given : Given}
    (named : given.1.IsPath → given.2 ≠ some "") : (scan.record given).Filled := by
  intro other member
  rcases List.mem_append.1 member with old | new
  · exact filled other old
  · rw [List.mem_singleton.1 new]
    exact named

theorem Filled.recordValue (filled : scan.Filled) {value : Option String}
    (recorded : recordValue task scan switch value = .ok next) : next.Filled := by
  cases value with
  | none => cases recorded
  | some value =>
      obtain ⟨_, -, recorded⟩ := bind_eq_ok.1 recorded
      obtain ⟨_, checked, recorded⟩ := bind_eq_ok.1 recorded
      cases recorded
      refine filled.record fun isPath empty => ?_
      rw [Option.some.inj empty] at checked
      rcases isPath with same | same | same <;> cases same <;> cases checked

theorem Filled.settle (filled : scan.Filled) (settled : scan.settle task = .ok next) :
    next.Filled := by
  rw [Scan.settle] at settled
  split at settled
  · cases settled
    exact filled
  · have detached : Filled { scan with pending := none } := filled
    exact detached.recordValue settled

theorem Filled.meetFlag (filled : scan.Filled) (met : scan.meetFlag task switch = .ok next) :
    next.Filled := by
  obtain ⟨settled, settles, met⟩ := bind_eq_ok.1 met
  have filledSettled := filled.settle settles
  split at met
  · cases met
  · cases met
  · obtain ⟨_, -, met⟩ := bind_eq_ok.1 met
    cases met
    exact filledSettled.record fun _ => nofun

theorem Filled.meetOption (filled : scan.Filled) {value : Option String}
    (met : scan.meetOption task switch value = .ok next) : next.Filled := by
  obtain ⟨settled, settles, met⟩ := bind_eq_ok.1 met
  have filledSettled := filled.settle settles
  split at met
  · exact filledSettled.recordValue met
  · cases met
    exact filledSettled

theorem Filled.readName (filled : scan.Filled) {name : List Char}
    (read : scan.readName task name = .ok next) : next.Filled := by
  rw [Scan.readName] at read
  split at read
  next name value _ =>
    split at read
    · cases read
    · split at read
      · exact filled.meetOption read
      · split at read
        · cases read
        · exact filled.meetFlag read

theorem Filled.readLetters (filled : scan.Filled) {letters : List Char}
    (read : scan.readLetters task letters = .ok next) : next.Filled := by
  induction letters generalizing scan with
  | nil =>
      cases read
      exact filled
  | cons letter rest ih =>
      rw [Scan.readLetters] at read
      split at read
      · cases read
      · split at read
        · exact filled.meetOption read
        · obtain ⟨met, meets, read⟩ := bind_eq_ok.1 read
          exact ih (filled.meetFlag meets) read

theorem Filled.readOther (filled : scan.Filled) (read : scan.readOther task word = .ok next) :
    next.Filled := by
  rw [Scan.readOther] at read
  split at read
  · cases read
    exact filled
  · cases read

/-- Whatever word is read, no path is given without a text. -/
theorem Filled.read (filled : scan.Filled) (read : scan.read task word = .ok next) :
    next.Filled := by
  rw [Scan.read] at read
  split at read
  · exact filled.readOther read
  · split at read
    · cases read
      exact filled
    · exact filled.readName read
    · exact filled.readLetters read
    · exact filled.readOther read

theorem Filled.readTask {name : TaskName} {words : List String}
    (read : readTask name words = .ok next) : next.Filled := by
  obtain ⟨last, reads, settles⟩ := bind_eq_ok.1 read
  have along : ∀ {words : List String} {scan last : Scan}, scan.Filled →
      words.foldlM (Scan.read (some name)) scan = .ok last → last.Filled := by
    intro words
    induction words with
    | nil =>
        intro scan last filled reads
        cases reads
        exact filled
    | cons word rest ih =>
        intro scan last filled reads
        rw [List.foldlM_cons] at reads
        obtain ⟨middle, step, reads⟩ := bind_eq_ok.1 reads
        exact ih (filled.read step) reads
  exact (along filled_empty reads).settle settles

/-- No path is given without a text, before the task or behind it. -/
theorem Filled.readProgram (filled : scan.Filled) {words : List String}
    {chosen : Option (TaskName × Scan)} (read : readProgram scan words = .ok (next, chosen)) :
    next.Filled ∧ ∀ name inner, chosen = some (name, inner) → inner.Filled := by
  induction words generalizing scan with
  | nil =>
      obtain ⟨settled, settles, read⟩ := bind_eq_ok.1 read
      cases read
      exact ⟨filled.settle settles, nofun⟩
  | cons word rest ih =>
      rw [Scan.readProgram] at read
      split at read
      · obtain ⟨met, reads, read⟩ := bind_eq_ok.1 read
        exact ih (filled.read reads) read
      · split at read
        · cases read
        · split at read
          · obtain ⟨inner, reads, read⟩ := bind_eq_ok.1 read
            obtain ⟨outer, settles, read⟩ := bind_eq_ok.1 read
            cases read
            refine ⟨filled.settle settles, fun name inner same => ?_⟩
            cases same
            exact .readTask reads
          · obtain ⟨met, reads, read⟩ := bind_eq_ok.1 read
            exact ih (filled.read reads) read

end Scan

namespace Invocation

theorem valueIn_ne {given : List Given} {switch : Switch}
    (filled : ∀ entry ∈ given, entry.1.IsPath → entry.2 ≠ some "") (isPath : switch.IsPath) :
    valueIn given switch ≠ some "" := by
  rw [valueIn]
  cases found : given.lookup switch with
  | none => nofun
  | some value =>
      obtain ⟨before, rest, split, -⟩ := List.lookup_eq_some_iff.1 found
      refine fun empty => filled (switch, value) ?_ isPath empty
      rw [split]
      exact List.mem_append_right _ List.mem_cons_self

/-- The paths that words ask for are not empty. -/
theorem paths_ne {words : List String} {invocation : Invocation}
    (understood : ofWords words = .ok invocation) :
    invocation.path ≠ some ⟨""⟩ ∧ invocation.declarations ≠ some ⟨""⟩ ∧
      invocation.output ≠ some ⟨""⟩ := by
  obtain ⟨⟨outer, chosen⟩, read, built⟩ := bind_eq_ok.1 understood
  obtain ⟨filledOuter, filledInner⟩ := Scan.filled_empty.readProgram read
  have filled : ∀ entry ∈ ((chosen.map (·.2.given)).getD []) ++ outer.given,
      entry.1.IsPath → entry.2 ≠ some "" := by
    intro entry member
    rcases List.mem_append.1 member with inner | before
    · cases chosen with
      | none => cases inner
      | some task => exact filledInner task.1 task.2 rfl entry inner
    · exact filledOuter entry before
  cases built
  have named : ∀ {value : Option String}, value ≠ some "" → value.map Path.mk ≠ some ⟨""⟩ := by
    intro value differs same
    obtain ⟨text, found, empty⟩ := Option.map_eq_some_iff.1 same
    cases empty
    exact differs found
  exact ⟨named (valueIn_ne filled (.inl rfl)), named (valueIn_ne filled (.inr (.inl rfl))),
    named (valueIn_ne filled (.inr (.inr rfl)))⟩

end Invocation

end BuildConstants
