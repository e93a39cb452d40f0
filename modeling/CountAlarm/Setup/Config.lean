import CountAlarm.Alerting.Metric
import CountAlarm.Routing.Matcher
/-!
# Configurations

A configuration lists matchers and metrics with their alerts. It is read from documents, where
members that hold their usual value may be left out, and written as a document with all members.
-/

namespace CountAlarm

/-! ## Bucket sizes -/

/-- The bucket sizes that have names. -/
inductive TimeUnit where
  | oneMinute
  | fiveMinutes
  | tenMinutes
  | thirtyMinutes
  | oneHour
  | threeHours
  | sixHours
  | twelveHours
  | oneDay
deriving DecidableEq, Repr, Inhabited

namespace TimeUnit

def minutes : TimeUnit → Nat
  | .oneMinute => 1
  | .fiveMinutes => 5
  | .tenMinutes => 10
  | .thirtyMinutes => 30
  | .oneHour => 60
  | .threeHours => 180
  | .sixHours => 360
  | .twelveHours => 720
  | .oneDay => 1440

def nanos (u : TimeUnit) : UInt64 :=
  UInt64.ofNat (u.minutes * 60 * nanosPerSecond)

def name : TimeUnit → String
  | .oneMinute => "one_minute"
  | .fiveMinutes => "five_minutes"
  | .tenMinutes => "ten_minutes"
  | .thirtyMinutes => "thirty_minutes"
  | .oneHour => "one_hour"
  | .threeHours => "three_hours"
  | .sixHours => "six_hours"
  | .twelveHours => "twelve_hours"
  | .oneDay => "one_day"

def all : List TimeUnit :=
  [.oneMinute, .fiveMinutes, .tenMinutes, .thirtyMinutes, .oneHour, .threeHours, .sixHours,
    .twelveHours, .oneDay]

def ofName? (name : String) : Option TimeUnit :=
  all.find? fun u => u.name == name

def toDocument (u : TimeUnit) : Document :=
  .text u.name

def ofDocument? (d : Document) : Option TimeUnit := do
  let name ← d.caseName?
  ofName? name

end TimeUnit

/-- Reads a value that may also be left blank. -/
def Document.orBlank? {α : Type} (read : Document → Option α) : Document → Option (Option α)
  | .null => some none
  | d => (read d).map some

def Document.ofOption {α : Type} (write : α → Document) : Option α → Document
  | none => .null
  | some a => write a

/-! ## Alerts -/

structure AlertConfig where
  id : UInt64
  buckets : UInt32
  threshold : Int64
  refractorySeconds : UInt32
deriving DecidableEq, Repr, Inhabited

namespace AlertConfig

def rule (a : AlertConfig) (metricId : UInt64) : AlertRule :=
  { id := a.id
    metricId
    buckets := a.buckets
    threshold := a.threshold
    refractorySeconds := a.refractorySeconds }

def toDocument (a : AlertConfig) : Document :=
  .object
    [("id", .natural a.id), ("num_buckets", .ofUInt32 a.buckets),
      ("trigger_if_sum_gt", .ofInt64 a.threshold),
      ("refractory_period_sec", .ofUInt32 a.refractorySeconds)]

def ofDocument? (d : Document) : Option AlertConfig := do
  let members ← d.record? ["id", "num_buckets", "trigger_if_sum_gt", "refractory_period_sec"]
  let id ← members.required? ["id"] Document.uint64?
  let buckets ← members.required? ["num_buckets"] Document.uint32?
  let threshold ← members.required? ["trigger_if_sum_gt", "threshold"] Document.int64?
  let refractorySeconds ← members.optional? ["refractory_period_sec"] 0 Document.uint32?
  some { id, buckets, threshold, refractorySeconds }

end AlertConfig

/-! ## Metrics -/

/-- A configured metric. The width of its buckets is given by a unit or in nanoseconds. -/
structure MetricConfig where
  id : UInt64
  matcherId : UInt64
  paths : List Path
  unit : Option TimeUnit
  width : Option UInt64
  alerts : List AlertConfig
deriving DecidableEq, Repr, Inhabited

namespace MetricConfig

/-- The width of the buckets; one in nanoseconds goes before a unit. -/
def bucketWidth? (m : MetricConfig) : Option UInt64 :=
  m.width <|> m.unit.map TimeUnit.nanos

def toDocument (m : MetricConfig) : Document :=
  .object
    [("id", .natural m.id), ("what", .natural m.matcherId),
      ("dimensions", .list (m.paths.map Document.ofUInt32)),
      ("bucket", .ofOption TimeUnit.toDocument m.unit),
      ("bucket_size_ns", .ofOption Document.natural m.width),
      ("alerts", .list (m.alerts.map AlertConfig.toDocument))]

def ofDocument? (d : Document) : Option MetricConfig := do
  let members ← d.record? ["id", "what", "dimensions", "bucket", "bucket_size_ns", "alerts"]
  let id ← members.required? ["id"] Document.uint64?
  let matcherId ← members.required? ["what"] Document.uint64?
  let paths ← members.optional? ["dimensions"] [] (Document.listOf? Document.uint32?)
  let unit ← members.optional? ["bucket"] none (Document.orBlank? TimeUnit.ofDocument?)
  let width ← members.optional? ["bucket_size_ns"] none (Document.orBlank? Document.uint64?)
  let alerts ← members.optional? ["alerts"] [] (Document.listOf? AlertConfig.ofDocument?)
  some { id, matcherId, paths, unit, width, alerts }

end MetricConfig

/-! ## Configurations -/

structure Config where
  start : UInt64
  matchers : List AtomMatcher
  metrics : List MetricConfig
deriving DecidableEq, Repr, Inhabited

namespace Config

def toDocument (c : Config) : Document :=
  .object
    [("start_time_ns", .natural c.start),
      ("matchers", .list (c.matchers.map AtomMatcher.toDocument)),
      ("count_metrics", .list (c.metrics.map MetricConfig.toDocument))]

def ofDocument? (d : Document) : Option Config := do
  let members ← d.record? ["start_time_ns", "matchers", "count_metrics"]
  let start ← members.optional? ["start_time_ns"] 0 Document.uint64?
  let matchers ← members.optional? ["matchers"] [] (Document.listOf? AtomMatcher.ofDocument?)
  let metrics ← members.optional? ["count_metrics"] [] (Document.listOf? MetricConfig.ofDocument?)
  some { start, matchers, metrics }

end Config

end CountAlarm
