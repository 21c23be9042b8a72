import BuildConstants.Path

/-!
# Surroundings

What a run finds around it: the working directory, and the variables that it looks at.
-/

namespace BuildConstants

/-- What a run finds around it. -/
structure Surroundings where
  workingDirectory : Path
  /-- The raw property text, for runs that are given none. -/
  properties : Option String
  /-- The filter of the log. -/
  log : Option String
  /-- Output is not to be colored. -/
  noColor : Bool
deriving DecidableEq

namespace Surroundings

/-- The variable with the raw property text. -/
def propertiesVariable : String :=
  "BAKEPROP_PROPERTIES"

/-- The variable with the filter of the log. -/
def logVariable : String :=
  "BAKEPROP_LOG"

/-- The variable that keeps output free of color, whatever its value is. -/
def noColorVariable : String :=
  "NO_COLOR"

/-- The variables that a run looks at. -/
def watched : List String :=
  [propertiesVariable, logVariable, noColorVariable]

/-- The surroundings that variables with the given values make. -/
def ofValues (workingDirectory : Path) (values : List (String × String)) : Surroundings :=
  { workingDirectory
    properties := values.lookup propertiesVariable
    log := values.lookup logVariable
    noColor := (values.lookup noColorVariable).isSome }

end Surroundings

end BuildConstants
