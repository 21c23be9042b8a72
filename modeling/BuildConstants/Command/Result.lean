import BuildConstants.Command.Report
import BuildConstants.Document.Json.Write

/-!
# Results of tasks

What a task prints on the two streams, and whether it found all in order.
-/

namespace BuildConstants

/-- What a task prints and finds. -/
structure TaskResult where
  output : String := ""
  errors : String := ""
  isGood : Bool := true
deriving DecidableEq

namespace TaskResult

/-- The line of a record. -/
def recordLine (record : Document) : String :=
  Json.write record ++ "\n"

end TaskResult

end BuildConstants
