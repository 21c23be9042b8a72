import BuildConstants.Files
import BuildConstants.Log.Event

/-!
# Sessions

What a command does: it works on files, tells events, and can give up.
-/

namespace BuildConstants

/-- Why a command gives up. -/
inductive CommandError where
  /-- A failure that has a report. -/
  | reported (failure : Failure)
  /-- The output directory could not be used. -/
  | output (error : FileError)
deriving DecidableEq

/-- An action on files that tells events, also when it gives up. -/
abbrev Session (m : Type → Type) : Type → Type :=
  ExceptT CommandError (StateT (List LogEvent) m)

namespace Session

variable {m : Type → Type} [Monad m] {α : Type}

/-- Tells some events. -/
def tell (events : List LogEvent) : Session m Unit :=
  modify (· ++ events)

/-- Does something that cannot fail. -/
def perform (action : m α) : Session m α :=
  ExceptT.lift (StateT.lift action)

/-- Uses a result, whose failure is reported. -/
def ofResult (result : Except Failure α) : Session m α :=
  ExceptT.mk (pure (result.mapError .reported))

/-- Does something whose failure is reported. -/
def attempt (action : m (Except Failure α)) : Session m α := do
  ofResult (← perform action)

/-- Does something with the output directory. -/
def attemptOutput (action : m (Except FileError α)) : Session m α := do
  let result ← perform action
  ExceptT.mk (pure (result.mapError .output))

end Session

end BuildConstants
