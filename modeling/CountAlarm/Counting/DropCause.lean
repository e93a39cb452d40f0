/-!
# Why an event is not counted
-/

namespace CountAlarm

/-- Why a metric does not count an event: it lacks a field of the projection, or it is older than
the start of the grid. -/
inductive DropCause where
  | missingField
  | beforeStart
deriving DecidableEq, Repr

def DropCause.name : DropCause → String
  | .missingField => "no_dimension"
  | .beforeStart => "before_start_time"

end CountAlarm
