import CountAlarm.Json.Printer
import CountAlarm.Event.Basic
/-!
# Fired alerts

What a sink is handed when the sum of a slice exceeds the threshold of an alert.
-/

namespace CountAlarm

/-- A fired alert: whose it is, the event time at which it fired, the sum seen then and the second
from which the slice may fire again. -/
structure Alert where
  alertId : UInt64
  metricId : UInt64
  slice : SliceKey
  time : UInt64
  sum : Int64
  threshold : Int64
  refractoryEnd : UInt32
deriving DecidableEq, Repr, Inhabited

namespace Alert

def instant (alert : Alert) : Instant :=
  .ofNanos alert.time

def toDocument (alert : Alert) : Document :=
  .object
    [("alert_id", .natural alert.alertId), ("metric_id", .natural alert.metricId),
      ("slice_key", alert.slice.toDocument), ("event_time_ns", .natural alert.time),
      ("sliding_sum", .ofInt64 alert.sum), ("threshold", .ofInt64 alert.threshold),
      ("refractory_end_sec", .ofUInt32 alert.refractoryEnd)]

def ofDocument? (d : Document) : Option Alert := do
  let members ← d.record?
    ["alert_id", "metric_id", "slice_key", "event_time_ns", "sliding_sum", "threshold",
      "refractory_end_sec"]
  let alertId ← members.required? ["alert_id"] Document.uint64?
  let metricId ← members.required? ["metric_id"] Document.uint64?
  let slice ← members.required? ["slice_key"] SliceKey.ofDocument?
  let time ← members.required? ["event_time_ns"] Document.uint64?
  let sum ← members.required? ["sliding_sum"] Document.int64?
  let threshold ← members.required? ["threshold"] Document.int64?
  let refractoryEnd ← members.required? ["refractory_end_sec"] Document.uint32?
  some { alertId, metricId, slice, time, sum, threshold, refractoryEnd }

/-- The message about an alert for people: slice and time are shown as text. Its members are in
alphabetical order. -/
def message (alert : Alert) : Document :=
  .object
    [("alert_id", .natural alert.alertId), ("event_time", .text alert.instant.text),
      ("event_time_ns", .natural alert.time), ("metric_id", .natural alert.metricId),
      ("refractory_end_sec", .ofUInt32 alert.refractoryEnd), ("slice", .text alert.slice.display),
      ("sliding_sum", .ofInt64 alert.sum), ("threshold", .ofInt64 alert.threshold)]

def messageText (alert : Alert) : String :=
  alert.message.compact

end Alert

end CountAlarm
