import CountAlarm.Setup.Config
import CountAlarm.Setup.Rejection
/-!
# Validation

A configuration is checked part by part in its order, and the first fault is reported. A metric that
is sound by itself can be built.
-/

namespace CountAlarm

def AlertConfig.validate (a : AlertConfig) : Except Rejection Unit :=
  if a.buckets.toNat < 1 then .error ⟨.alert, a.id, .noBuckets⟩
  else if maxBuckets < a.buckets.toNat then .error ⟨.alert, a.id, .tooManyBuckets⟩
  else if a.threshold.toInt < 0 then .error ⟨.alert, a.id, .negativeThreshold⟩
  else .ok ()

namespace MetricConfig

/-- Checks alerts by themselves and that their numbers differ from each other and from those
seen before. -/
def validateAlerts (seen : List UInt64) : List AlertConfig → Except Rejection Unit
  | [] => .ok ()
  | a :: rest => do
    a.validate
    if a.id ∈ seen then .error ⟨.alert, a.id, .duplicateAlert⟩
    else validateAlerts (a.id :: seen) rest

def validate (m : MetricConfig) : Except Rejection Unit :=
  match m.bucketWidth? with
  | none => .error ⟨.metric, m.id, .noBucketSize⟩
  | some width =>
    if width = 0 then .error ⟨.metric, m.id, .zeroBucketSize⟩
    else validateAlerts [] m.alerts

/-- The metric with a detector for each alert, if it is sound. -/
def build (m : MetricConfig) (start : UInt64) : Except Rejection Metric := do
  m.validate
  let grid := BucketGrid.of start (m.bucketWidth?.getD 0)
  let metric := Metric.start m.id m.matcherId ⟨m.paths⟩ grid
  .ok (m.alerts.foldl (fun metric a => metric.attach (a.rule m.id)) metric)

end MetricConfig

namespace Config

/-- Checks that the numbers of matchers differ, and returns them. -/
def validateMatchers (seen : List UInt64) : List AtomMatcher → Except Rejection (List UInt64)
  | [] => .ok seen
  | m :: rest =>
    if m.id ∈ seen then .error ⟨.matcher, m.id, .duplicateMatcher⟩
    else validateMatchers (m.id :: seen) rest

/-- Checks that the numbers of alerts differ from each other and from those seen before, and
returns all of them. -/
def distinctAlerts (seen : List UInt64) : List AlertConfig → Except Rejection (List UInt64)
  | [] => .ok seen
  | a :: rest =>
    if a.id ∈ seen then .error ⟨.alert, a.id, .duplicateAlert⟩
    else distinctAlerts (a.id :: seen) rest

/-- Checks metrics, given the numbers of all matchers and of the metrics and alerts before. -/
def validateMetrics (matchers metrics alerts : List UInt64) :
    List MetricConfig → Except Rejection Unit
  | [] => .ok ()
  | m :: rest => do
    if m.id ∈ metrics then .error ⟨.metric, m.id, .duplicateMetric⟩
    else if m.matcherId ∉ matchers then .error ⟨.metric, m.id, .unknownMatcher m.matcherId⟩
    else
      m.validate
      let alerts ← distinctAlerts alerts m.alerts
      validateMetrics matchers (m.id :: metrics) alerts rest

/-- Checks a configuration, and returns its first fault if it has one. -/
def validate (c : Config) : Except Rejection Unit := do
  let matchers ← validateMatchers [] c.matchers
  validateMetrics matchers [] [] c.metrics

end Config

end CountAlarm
