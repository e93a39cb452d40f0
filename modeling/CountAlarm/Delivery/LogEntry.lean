import CountAlarm.Alerting.Alert
import CountAlarm.Counting.DropCause
import CountAlarm.Setup.Rejection
/-!
# The log

What happens inside of a pipeline is logged as entries. An entry has a level, a message, and fields
that are numbers or texts.
-/

namespace CountAlarm

/-- Why a sink did not accept an alert. `foreign` is an error of a callback that is none of the
library's own. -/
inductive SinkFailure where
  | closed (sink : String)
  | poisoned (sink : String)
  | other (text : String)
  | foreign (text : String)
deriving DecidableEq, Repr

def SinkFailure.message : SinkFailure → String
  | .closed sink => "Notify: " ++ sink ++ " receiver is closed"
  | .poisoned sink => "Notify: " ++ sink ++ " buffer lock poisoned"
  | .other text => "Notify: " ++ text
  | .foreign text => text

inductive LogLevel where
  | trace
  | debug
  | info
  | warn
  | error
deriving DecidableEq, Repr

def LogLevel.name : LogLevel → String
  | .trace => "TRACE"
  | .debug => "DEBUG"
  | .info => "INFO"
  | .warn => "WARN"
  | .error => "ERROR"

inductive LogEntry where
  /-- A late event was counted into the head bucket of its slice. -/
  | lateEvent (alertId : UInt64) (slice : SliceKey) (time : UInt64) (bucket : Nat)
  | suppressed (alertId : UInt64) (slice : SliceKey) (sum : Nat) (refractoryEnd : UInt32)
  | sinkFailed (alertId : UInt64) (sink : String) (failure : SinkFailure)
  | fired (alert : Alert)
  | evicted (alertId : UInt64) (slices live : Nat)
  | written (alert : Alert)
  /-- One of several sinks did not accept an alert. -/
  | undelivered (sink : String) (alertId : UInt64) (failure : SinkFailure)
  | configRejected (rejection : Rejection)
  | metricRejected (metricId : UInt64) (rejection : Rejection)
  | metricInstalled (metricId matcherId : UInt64) (alerts : Nat)
  | metricRemoved (metricId : UInt64)
  | eventDropped (metricId : UInt64) (atom : UInt32) (time : UInt64) (cause : DropCause)
deriving DecidableEq, Repr

namespace LogEntry

def level : LogEntry → LogLevel
  | .lateEvent .. => .debug
  | .suppressed .. => .debug
  | .sinkFailed .. => .warn
  | .fired .. => .info
  | .evicted .. => .debug
  | .written .. => .warn
  | .undelivered .. => .warn
  | .configRejected .. => .warn
  | .metricRejected .. => .warn
  | .metricInstalled .. => .info
  | .metricRemoved .. => .info
  | .eventDropped .. => .trace

def message : LogEntry → String
  | .lateEvent .. => "Late event counted into slice head bucket"
  | .suppressed .. => "Alert suppressed (refractory period)"
  | .sinkFailed .. => "Alert sink failed; refractory period armed anyway"
  | .fired .. => "Anomaly alert fired"
  | .evicted .. => "Evicted stale slices"
  | .written .. => "Anomaly alert fired"
  | .undelivered .. => "Sink failed to accept alert"
  | .configRejected .. => "Detector config rejected"
  | .metricRejected .. => "Count metric rejected"
  | .metricInstalled .. => "Count metric installed"
  | .metricRemoved .. => "Count metric removed"
  | .eventDropped .. => "Event dropped"

def number (n : Nat) : Document :=
  .natural (UInt64.ofNat n)

def fields : LogEntry → Members
  | .lateEvent alertId slice time bucket =>
    [("alert_id", .natural alertId), ("slice", .text slice.display),
      ("event_time_ns", .natural time), ("bucket", number bucket)]
  | .suppressed alertId slice sum refractoryEnd =>
    [("alert_id", .natural alertId), ("slice", .text slice.display), ("sliding_sum", number sum),
      ("refractory_end_sec", .ofUInt32 refractoryEnd)]
  | .sinkFailed alertId sink failure =>
    [("alert_id", .natural alertId), ("sink", .text sink), ("error", .text failure.message)]
  | .fired alert =>
    [("alert_id", .natural alert.alertId), ("metric_id", .natural alert.metricId),
      ("slice", .text alert.slice.display), ("sliding_sum", .ofInt64 alert.sum),
      ("threshold", .ofInt64 alert.threshold),
      ("refractory_end_sec", .ofUInt32 alert.refractoryEnd)]
  | .evicted alertId slices live =>
    [("alert_id", .natural alertId), ("evicted", number slices), ("live", number live)]
  | .written alert =>
    [("alert_id", .natural alert.alertId), ("metric_id", .natural alert.metricId),
      ("slice", .text alert.slice.display), ("sum", .ofInt64 alert.sum),
      ("threshold", .ofInt64 alert.threshold), ("payload", .text alert.messageText)]
  | .undelivered sink alertId failure =>
    [("sink", .text sink), ("alert_id", .natural alertId), ("error", .text failure.message)]
  | .configRejected rejection => [("error", .text rejection.message)]
  | .metricRejected metricId rejection =>
    [("metric_id", .natural metricId), ("error", .text rejection.message)]
  | .metricInstalled metricId matcherId alerts =>
    [("metric_id", .natural metricId), ("what", .text (toString matcherId.toNat)),
      ("alerts", number alerts)]
  | .metricRemoved metricId => [("metric_id", .natural metricId)]
  | .eventDropped metricId atom time cause =>
    [("metric_id", .natural metricId), ("atom_id", .ofUInt32 atom), ("time_ns", .natural time),
      ("reason", .text cause.name)]

end LogEntry

end CountAlarm
