import BuildConstants.Text.Split

/-!
# Decoding errors

What can be wrong with a document that is read as a value of some type.
-/

namespace BuildConstants

/-- The first problem met while a document is read. -/
inductive DecodeError where
  | unknownField (name : String) (expected : List String)
  | missingField (name : String)
  | duplicateField (name : String)
  | unknownVariant (name : String) (expected : List String)
  /-- A value of the wrong kind, out of range or of the wrong length. -/
  | misfit
  /-- The text does not follow its format, or uses it in a way that is not supported. -/
  | malformed
deriving DecidableEq

namespace DecodeError

def quoted (name : String) : String :=
  s!"`{name}`"

/-- The names that would have been accepted. -/
def expectation : List String → String
  | [] => "there are no fields"
  | [name] => s!"expected {quoted name}"
  | [first, second] => s!"expected {quoted first} or {quoted second}"
  | names => "expected one of " ++ Text.joinWith ", " (names.map quoted)

def message : DecodeError → String
  | unknownField name expected => s!"unknown field {quoted name}, {expectation expected}"
  | missingField name => s!"missing field {quoted name}"
  | duplicateField name => s!"duplicate field {quoted name}"
  | unknownVariant name expected => s!"unknown variant {quoted name}, {expectation expected}"
  | misfit => "a value does not fit its field"
  | malformed => "the text is malformed"

end DecodeError

end BuildConstants
