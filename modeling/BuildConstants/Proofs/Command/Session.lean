import BuildConstants.Command.Session
import BuildConstants.Proofs.FileTree.Operations

/-!
# How sessions end

On a file tree, a session ends with a result and leaves a tree behind, whatever was told before it.
`Session.Gives` says so, and the rules here follow a session step by step.
-/

namespace BuildConstants.Session

variable {α β : Type} {session : Session (StateM FileTree) α}
  {next : α → Session (StateM FileTree) β} {tree middle : FileTree}

/-- Whatever was told before, the session ends on the tree with the result and the tree given. -/
def Gives (session : Session (StateM FileTree) α) (tree : FileTree)
    (ending : Except CommandError α × FileTree) : Prop :=
  ∀ told, ∃ log, (session.run.run told).run tree = ((ending.1, log), ending.2)

/-- A session ends in one way. -/
theorem Gives.unique {first second : Except CommandError α × FileTree}
    (one : Gives session tree first) (other : Gives session tree second) : first = second := by
  obtain ⟨_, ran⟩ := one []
  obtain ⟨_, again⟩ := other []
  have same := ran.symm.trans again
  exact Prod.ext (congrArg (·.1.1) same) (congrArg (·.2) same)

theorem gives_pure (value : α) (tree : FileTree) :
    Gives (pure value) tree (.ok value, tree) :=
  fun told => ⟨told, rfl⟩

theorem gives_tell (events : List LogEvent) (tree : FileTree) :
    Gives (tell events) tree (.ok (), tree) :=
  fun told => ⟨told ++ events, rfl⟩

theorem gives_perform (action : StateM FileTree α) (tree : FileTree) :
    Gives (perform action) tree (.ok (action.run tree).1, (action.run tree).2) :=
  fun told => ⟨told, rfl⟩

theorem gives_ofResult (result : Except Failure α) (tree : FileTree) :
    Gives (ofResult result) tree (result.mapError .reported, tree) :=
  fun told => ⟨told, rfl⟩

/-- A session with two parts: the second goes on where the first ends. -/
theorem run_bind {σ : Type} (session : Session (StateM σ) α) (next : α → Session (StateM σ) β)
    (told : List LogEvent) (state : σ) :
    ((session >>= next).run.run told).run state =
      match (session.run.run told).run state with
      | ((.ok value, log), later) => ((next value).run.run log).run later
      | ((.error error, log), later) => ((.error error, log), later) := by
  rw [ExceptT.run_bind, StateT.run_bind, StateT.run_bind]
  rcases (session.run.run told).run state with ⟨⟨result, log⟩, later⟩
  cases result <;> rfl

theorem Gives.bind {value : α} {ending : Except CommandError β × FileTree}
    (first : Gives session tree (.ok value, middle)) (onward : Gives (next value) middle ending) :
    Gives (session >>= next) tree ending := by
  intro told
  obtain ⟨log, ran⟩ := first told
  obtain ⟨more, ranOn⟩ := onward log
  refine ⟨more, ?_⟩
  rw [run_bind, ran]
  exact ranOn

/-- A session that gives up does nothing of what comes next. -/
theorem Gives.bind_error {error : CommandError} (first : Gives session tree (.error error, middle))
    (next : α → Session (StateM FileTree) β) :
    Gives (session >>= next) tree (.error error, middle) := by
  intro told
  obtain ⟨log, ran⟩ := first told
  exact ⟨log, by rw [run_bind, ran]⟩

/-- A session whose result is made into another one. -/
theorem Gives.map {ending : Except CommandError α × FileTree} (first : Gives session tree ending)
    (f : α → β) : Gives (do pure (f (← session))) tree (ending.1.map f, ending.2) := by
  rcases ending with ⟨error | value, later⟩
  · exact first.bind_error _
  · exact first.bind (gives_pure (f value) later)

theorem gives_attempt (action : StateM FileTree (Except Failure α)) (tree : FileTree) :
    Gives (attempt action) tree
      ((action.run tree).1.mapError .reported, (action.run tree).2) :=
  (gives_perform action tree).bind (gives_ofResult _ _)

theorem gives_attemptOutput (action : StateM FileTree (Except FileError α)) (tree : FileTree) :
    Gives (attemptOutput action) tree
      ((action.run tree).1.mapError .output, (action.run tree).2) :=
  (gives_perform action tree).bind fun told => ⟨told, rfl⟩

section

variable {change : FileTree → Except FileError FileTree}

theorem gives_change_ok {later : FileTree} (changed : change tree = .ok later) :
    Gives (attemptOutput (FileTree.change change)) tree (.ok (), later) := by
  have attempted := gives_attemptOutput (FileTree.change change) tree
  rw [FileTree.run_change, changed] at attempted
  exact attempted

theorem gives_change_error {error : FileError} (refused : change tree = .error error) :
    Gives (attemptOutput (FileTree.change change)) tree (.error (.output error), tree) := by
  have attempted := gives_attemptOutput (FileTree.change change) tree
  rw [FileTree.run_change, refused] at attempted
  exact attempted

end

end BuildConstants.Session
