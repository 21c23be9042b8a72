import BuildConstants.Proofs.Command.Session
import BuildConstants.Proofs.FileTree.Fault

/-!
# How sessions go when operations go wrong

On a tree on which operations go wrong, a session goes from one moment to another and ends there
with a result. `Session.goes_bind_iff` takes a session apart into its steps. `Session.Does` is what
a session does to the tree whatever goes wrong, and `Session.Looks` says that it changes nothing.
-/

namespace BuildConstants

/-- A moment of a session: what has been told until then, and the tree with what its operations meet
from then on. -/
structure Moment where
  told : List LogEvent
  disk : FaultyTree

namespace Session

variable {α β : Type} {session : Session (StateM FaultyTree) α}
  {next : α → Session (StateM FaultyTree) β} {start stop middle : Moment} {tree : FileTree}

/-! ### From one moment to another -/

/-- From the one moment on, the session ends with the result at the other. -/
def Goes (session : Session (StateM FaultyTree) α) (start : Moment)
    (result : Except CommandError α) (stop : Moment) : Prop :=
  (session.run.run start.told).run start.disk = ((result, stop.told), stop.disk)

/-- A session ends in one way. -/
theorem Goes.unique {first second : Except CommandError α} {other : Moment}
    (one : Goes session start first stop) (two : Goes session start second other) :
    first = second ∧ stop = other := by
  obtain ⟨told, disk⟩ := stop
  obtain ⟨toldOther, diskOther⟩ := other
  cases one.symm.trans two
  exact ⟨rfl, rfl⟩

theorem goes_pure (value : α) (start : Moment) : Goes (pure value) start (.ok value) start := rfl

theorem goes_tell (events : List LogEvent) (start : Moment) :
    Goes (tell events) start (.ok ()) ⟨start.told ++ events, start.disk⟩ := rfl

/-- A session with two parts ends in the first one, or the second one goes on where it ends. -/
theorem goes_bind_iff {result : Except CommandError β} :
    Goes (session >>= next) start result stop ↔
      (∃ error, result = .error error ∧ Goes session start (.error error) stop) ∨
        ∃ value middle, Goes session start (.ok value) middle ∧
          Goes (next value) middle result stop := by
  simp only [Goes, run_bind]
  rcases (session.run.run start.told).run start.disk with ⟨⟨ended, told⟩, disk⟩
  constructor
  · intro same
    cases ended with
    | error error =>
        dsimp only at same
        cases same
        exact .inl ⟨error, rfl, rfl⟩
    | ok value => exact .inr ⟨value, ⟨told, disk⟩, rfl, same⟩
  · rintro (⟨error, rfl, same⟩ | ⟨value, middle, first, second⟩)
    · cases same
      rfl
    · cases first
      exact second

theorem Goes.bind {value : α} {result : Except CommandError β}
    (first : Goes session start (.ok value) middle)
    (second : Goes (next value) middle result stop) :
    Goes (session >>= next) start result stop :=
  goes_bind_iff.2 (.inr ⟨value, middle, first, second⟩)

theorem Goes.of_attemptOutput {action : StateM FaultyTree (Except FileError α)}
    {result : Except CommandError α} (goes : Goes (attemptOutput action) start result stop) :
    result = (action.run start.disk).1.mapError .output ∧
      stop.disk = (action.run start.disk).2 := by
  obtain ⟨told, disk⟩ := stop
  cases goes
  exact ⟨rfl, rfl⟩

/-! ### What a session does to the tree -/

/-- Whatever goes wrong, the session ends on the tree with a result and a later tree that are as
stated. -/
def Does (session : Session (StateM FaultyTree) α) (tree : FileTree)
    (post : Except CommandError α → FileTree → Prop) : Prop :=
  ∀ told, FaultyTree.Does (session.run.run told) tree fun ended later => post ended.1 later

variable {post : Except CommandError α → FileTree → Prop}

theorem Goes.does {result : Except CommandError α} (goes : Goes session start result stop)
    (does : Does session start.disk.tree post) : post result stop.disk.tree := by
  have holds := does start.told start.disk.faults
  rw [goes] at holds
  exact holds

theorem does_attemptOutput {action : StateM FaultyTree (Except FileError α)}
    (does : FaultyTree.Does action tree fun result later =>
      post (result.mapError .output) later) : Does (attemptOutput action) tree post :=
  fun _ faults => does faults

/-! ### Sessions that only look -/

/-- Whatever goes wrong, the session leaves the tree as it is, and a value that it ends with is as
stated. -/
def Looks (session : Session (StateM FaultyTree) α) (tree : FileTree) (sees : α → Prop) : Prop :=
  Does session tree fun result later => later = tree ∧ ∀ value, result = .ok value → sees value

variable {sees : α → Prop}

theorem looks_pure {value : α} (holds : sees value) : Looks (pure value) tree sees := by
  refine fun _ _ => ⟨rfl, ?_⟩
  rintro _ ⟨⟩
  exact holds

theorem looks_tell (events : List LogEvent) (tree : FileTree) :
    Looks (tell events) tree fun _ => True :=
  fun _ _ => ⟨rfl, fun _ _ => trivial⟩

theorem looks_perform {action : StateM FaultyTree α} (looks : FaultyTree.Looks action tree sees) :
    Looks (perform action) tree sees := by
  intro told faults
  obtain ⟨same, holds⟩ := looks faults
  refine ⟨same, ?_⟩
  rintro _ ⟨⟩
  exact holds

/-- A session with two parts looks when both of them look. -/
theorem Looks.bind {sees : β → Prop} {one : α → Prop} (looks : Looks session tree one)
    (onward : ∀ value, one value → Looks (next value) tree sees) :
    Looks (session >>= next) tree sees := by
  intro told faults
  have first := looks told faults
  rw [run_bind]
  revert first
  rcases (session.run.run told).run ⟨tree, faults⟩ with ⟨⟨ended, log⟩, middle, rest⟩
  rintro ⟨rfl, holds⟩
  cases ended with
  | error error => exact ⟨rfl, nofun⟩
  | ok value => exact onward value (holds value rfl) log rest

theorem eq_ok_of_mapError {ε δ : Type} {result : Except ε α} {f : ε → δ} {value : α}
    (same : result.mapError f = .ok value) : result = .ok value := by
  cases result <;> cases same
  rfl

theorem looks_ofResult (result : Except Failure α) (tree : FileTree) :
    Looks (ofResult result) tree fun value => result = .ok value :=
  fun _ _ => ⟨rfl, fun _ => eq_ok_of_mapError⟩

theorem looks_attempt {action : StateM FaultyTree (Except Failure α)}
    (looks : FaultyTree.Looks action tree fun result => ∀ value, result = .ok value → sees value) :
    Looks (attempt action) tree sees :=
  fun _ faults => (looks faults).imp_right fun holds value same =>
    holds value (eq_ok_of_mapError same)

theorem looks_attemptOutput {action : StateM FaultyTree (Except FileError α)}
    (looks : FaultyTree.Looks action tree fun result => ∀ value, result = .ok value → sees value) :
    Looks (attemptOutput action) tree sees :=
  fun _ faults => (looks faults).imp_right fun holds value same =>
    holds value (eq_ok_of_mapError same)

end Session

end BuildConstants
