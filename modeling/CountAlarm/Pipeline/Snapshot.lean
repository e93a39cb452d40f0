import CountAlarm.Pipeline.Basic
/-!
# Snapshots

A snapshot shows the state of a detector, a metric or a whole pipeline at one time. The slices of a
detector are those that have a window or a deadline, in the order of their keys.
-/

namespace CountAlarm

/-- A window with the sum as of the newest bucket of its detector. -/
structure WindowSnapshot where
  head : Nat
  counts : List Nat
  sum : Nat
deriving DecidableEq, Repr

/-- A slice of a detector. It has no window if that was given up and its deadline kept. -/
structure SliceSnapshot where
  key : SliceKey
  window : Option WindowSnapshot
  refractoryEnd : UInt32
deriving DecidableEq, Repr

structure DetectorSnapshot where
  alertId : UInt64
  metricId : UInt64
  buckets : UInt32
  threshold : Int64
  newest : Option Nat
  slices : List SliceSnapshot
  tally : Tally
deriving DecidableEq, Repr

structure MetricSnapshot where
  id : UInt64
  matcherId : UInt64
  detectors : List DetectorSnapshot
deriving DecidableEq, Repr

structure PipelineSnapshot where
  start : UInt64
  metrics : List MetricSnapshot
  totals : Totals
deriving DecidableEq, Repr

/-! ## Taking snapshots -/

namespace Detector

def sliceKeys (d : Detector) : List SliceKey :=
  let marked : SliceTable Unit :=
    (d.counts.windows.keys ++ d.deadlines.keys).foldl (fun t key => t.insert key ()) .empty
  marked.keys

def sliceSnapshot (d : Detector) (key : SliceKey) : SliceSnapshot :=
  { key
    window := (d.counts.windows.get? key).map fun w =>
      { head := w.head, counts := w.oldestFirst, sum := d.sum key }
    refractoryEnd := d.refractoryEnd key }

def snapshot (d : Detector) : DetectorSnapshot :=
  { alertId := d.rule.id
    metricId := d.rule.metricId
    buckets := d.rule.buckets
    threshold := d.rule.threshold
    newest := d.counts.newest
    slices := d.sliceKeys.map d.sliceSnapshot
    tally := d.tally }

end Detector

def Metric.snapshot (m : Metric) : MetricSnapshot :=
  { id := m.id, matcherId := m.matcherId, detectors := m.detectors.map Detector.snapshot }

def Pipeline.snapshot {World : Type} (p : Pipeline World) : PipelineSnapshot :=
  { start := p.start, metrics := p.metrics.map Metric.snapshot, totals := p.allTotals }

def PipelineSnapshot.detector? (s : PipelineSnapshot) (alertId : UInt64) :
    Option DetectorSnapshot :=
  (s.metrics.flatMap MetricSnapshot.detectors).find? fun d => d.alertId == alertId

/-! ## Documents -/

def countDocument (n : Nat) : Document :=
  .natural (UInt64.ofNat n)

def WindowSnapshot.toDocument (s : WindowSnapshot) : Document :=
  .object
    [("head_bucket_index", countDocument s.head), ("counts", .list (s.counts.map countDocument)),
      ("sliding_sum", countDocument s.sum)]

def SliceSnapshot.toDocument (s : SliceSnapshot) : Document :=
  .object
    [("key", s.key.toDocument), ("ring", .ofOption WindowSnapshot.toDocument s.window),
      ("refractory_end_sec", .ofUInt32 s.refractoryEnd)]

def DetectorSnapshot.toDocument (s : DetectorSnapshot) : Document :=
  .object
    [("alert_id", .natural s.alertId), ("metric_id", .natural s.metricId),
      ("num_buckets", .ofUInt32 s.buckets), ("threshold", .ofInt64 s.threshold),
      ("current_bucket", .ofOption countDocument s.newest),
      ("slices", .list (s.slices.map SliceSnapshot.toDocument)), ("stats", .object s.tally.members)]

def MetricSnapshot.toDocument (s : MetricSnapshot) : Document :=
  .object
    [("metric_id", .natural s.id), ("what", .natural s.matcherId),
      ("trackers", .list (s.detectors.map DetectorSnapshot.toDocument))]

def PipelineSnapshot.toDocument (s : PipelineSnapshot) : Document :=
  .object
    [("start_time_ns", .natural s.start),
      ("metrics", .list (s.metrics.map MetricSnapshot.toDocument)),
      ("stats", .object s.totals.members)]

/-- A snapshot for a reader: a document with a line for each member. -/
def PipelineSnapshot.text (s : PipelineSnapshot) : String :=
  s.toDocument.pretty

end CountAlarm
