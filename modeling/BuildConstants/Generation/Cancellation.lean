import BuildConstants.Failure

/-!
# Cancellation

A pass looks at a signal before each piece of work and stops once it is raised. A signal is raised
by tokens; copies of a token share its signal.
-/

namespace BuildConstants

/-- When a signal is raised, counted in the checks of a pass that come before it. -/
structure Signal where
  raisedAfter : Option Nat
deriving DecidableEq

namespace Signal

/-- The signal that is never raised. -/
def never : Signal :=
  ⟨none⟩

/-- The signal that is raised before the first check. -/
def atOnce : Signal :=
  ⟨some 0⟩

/-- The signal is raised by the time of the check with the given number, counted from zero. -/
def isRaisedBy (signal : Signal) (number : Nat) : Bool :=
  signal.raisedAfter.any (· ≤ number)

/-- The check with the given number: it fails once the signal is raised. -/
def check (signal : Signal) (number : Nat) : Except Failure Unit :=
  if signal.isRaisedBy number then .error .cancelled else .ok ()

end Signal

/-- Some tokens, each watching one of some signals. -/
structure Tokens where
  /-- Whether each signal is raised. -/
  raised : List Bool
  /-- The signal that each token watches. -/
  watched : List Nat
deriving DecidableEq

namespace Tokens

/-- One token with a signal of its own. -/
def single : Tokens :=
  ⟨[false], [0]⟩

/-- A further token with a signal of its own. -/
def fresh (tokens : Tokens) : Tokens :=
  ⟨tokens.raised ++ [false], tokens.watched ++ [tokens.raised.length]⟩

/-- A further token that watches the signal of the token at `index`. -/
def copy (tokens : Tokens) (index : Nat) : Tokens :=
  match tokens.watched[index]? with
  | none => tokens
  | some signal => { tokens with watched := tokens.watched ++ [signal] }

/-- Raises the signal of the token at `index`. -/
def cancel (tokens : Tokens) (index : Nat) : Tokens :=
  match tokens.watched[index]? with
  | none => tokens
  | some signal => { tokens with raised := tokens.raised.set signal true }

/-- Whether the signal of the token at `index` is raised. -/
def isCancelled (tokens : Tokens) (index : Nat) : Bool :=
  (tokens.watched[index]?.bind (tokens.raised[·]?)).getD false

/-- What a check of the token at `index` finds. -/
def check (tokens : Tokens) (index : Nat) : Except Failure Unit :=
  if tokens.isCancelled index then .error .cancelled else .ok ()

end Tokens

end BuildConstants
