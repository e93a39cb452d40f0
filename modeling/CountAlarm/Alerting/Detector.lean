import CountAlarm.Alerting.Tally
import CountAlarm.Counting.SliceCounts
import CountAlarm.Delivery.Sink
/-!
# Detectors

A detector counts the events of one alert and fires when the sum of a slice exceeds the threshold,
unless the slice is in its refractory period: from the second at which it fired until its deadline
it stays quiet. Deadlines are kept as full seconds and only shown within 32 bits. A slice that was
given up keeps its deadline as long as an event within reach could still fall before it.
-/

namespace CountAlarm

/-- What an alert watches: the sum of `buckets` buckets, the current one included, against a
threshold that it must exceed. `refractorySeconds` is how long a slice stays quiet once it fired. -/
structure AlertRule where
  id : UInt64
  metricId : UInt64
  buckets : UInt32
  threshold : Int64
  refractorySeconds : UInt32
deriving DecidableEq, Repr, Inhabited

def AlertRule.toDocument (r : AlertRule) : Document :=
  .object
    [("id", .natural r.id), ("metric_id", .natural r.metricId),
      ("num_buckets", .ofUInt32 r.buckets), ("threshold", .ofInt64 r.threshold),
      ("refractory_period_sec", .ofUInt32 r.refractorySeconds)]

/-- What a detector makes of one event of a slice. -/
inductive Detection where
  | below (sum : Nat)
  | suppressed (sum : Nat) (refractoryEnd : UInt32)
  | fired (alert : Alert)
deriving DecidableEq, Repr

def Detection.fired? : Detection → Option Alert
  | .fired alert => some alert
  | _ => none

/-! ## Deadlines -/

/-- The second from which a slice may fire again that fires now. The second of the firing is always
quiet, and the period counts from the next one. -/
def deadline (now : Nat) (refractorySeconds : UInt32) : Nat :=
  min wordLimit (now + refractorySeconds.toNat + 1)

/-- A second within 32 bits. -/
def shownSecond (second : Nat) : UInt32 :=
  UInt32.ofNat (min 4294967295 second)

/-! ## Detectors -/

structure Detector where
  rule : AlertRule
  counts : SliceCounts
  deadlines : SliceTable Nat
  tally : Tally

/-- A detector after an event, what it made of it, and what it did to the world of its sink. -/
structure Observed (World : Type) where
  detector : Detector
  detection : Detection
  world : World
  log : List LogEntry

namespace Detector

def start (rule : AlertRule) (grid : BucketGrid) : Detector :=
  { rule, counts := .start grid rule.buckets.toNat, deadlines := .empty, tally := {} }

/-- The deadline of a slice, or zero if there is none. -/
def deadlineOf (d : Detector) (key : SliceKey) : Nat :=
  (d.deadlines.get? key).getD 0

/-- The deadline of a slice within 32 bits. -/
def refractoryEnd (d : Detector) (key : SliceKey) : UInt32 :=
  shownSecond (d.deadlineOf key)

def sum (d : Detector) (key : SliceKey) : Nat :=
  d.counts.sum key

def alertAt (d : Detector) (key : SliceKey) (sum : Nat) (time : UInt64) : Alert :=
  { alertId := d.rule.id
    metricId := d.rule.metricId
    slice := key
    time
    sum := Int64.ofNat sum
    threshold := d.rule.threshold
    refractoryEnd := shownSecond (deadline (time.toNat / nanosPerSecond) d.rule.refractorySeconds) }

/-- Fires: hands the alert to the sink and sets the deadline, whether or not the sink accepts. -/
def fire {World : Type} (d : Detector) (key : SliceKey) (sum : Nat) (time : UInt64)
    (sink : Sink World) (world : World) : Observed World :=
  let alert := d.alertAt key sum time
  let delivery := sink.deliver alert world
  let complaint := delivery.failure.toList.map fun failure =>
    LogEntry.sinkFailed d.rule.id sink.name failure
  let tally := if delivery.failure.isSome then d.tally.noteSinkFailure else d.tally
  { detector :=
      { d with
        deadlines := d.deadlines.insert key
          (deadline (time.toNat / nanosPerSecond) d.rule.refractorySeconds)
        tally := tally.noteFired }
    detection := .fired alert
    world := delivery.world
    log := delivery.log ++ complaint ++ [.fired alert] }

def detect {World : Type} (d : Detector) (key : SliceKey) (sum : Nat) (time : UInt64)
    (sink : Sink World) (world : World) : Observed World :=
  if (sum : Int) ≤ d.rule.threshold.toInt then
    { detector := d, detection := .below sum, world, log := [] }
  else if time.toNat / nanosPerSecond < d.deadlineOf key then
    { detector := { d with tally := d.tally.noteSuppressed }
      detection := .suppressed sum (d.refractoryEnd key)
      world
      log := [.suppressed d.rule.id key sum (d.refractoryEnd key)] }
  else d.fire key sum time sink world

/-- Gives up the slices before the horizon, and the deadlines that no event from the horizon on can
fall before. -/
def evict (d : Detector) : Detector × List LogEntry :=
  match d.counts.horizon with
  | none => (d, [])
  | some horizon =>
    let (evicted, counts) := d.counts.evict
    let horizonSecond := d.counts.grid.startOf horizon / nanosPerSecond
    let deadlines := d.deadlines.filter fun key second =>
      counts.windows.contains key || decide (horizonSecond < second)
    if evicted.isEmpty then ({ d with counts, deadlines }, [])
    else
      ({ d with counts, deadlines, tally := d.tally.noteEvicted evicted.length },
        [.evicted d.rule.id evicted.length counts.windows.size])

def noteLate (d : Detector) (key : SliceKey) (time : UInt64) (tick : Tick) :
    Detector × List LogEntry :=
  if tick.late then
    ({ d with tally := d.tally.noteLate }, [.lateEvent d.rule.id key time tick.bucket])
  else (d, [])

/-- Counts an amount for a slice at a time and detects. If the event is in a new bucket, slices are
given up afterwards. -/
def observe {World : Type} (d : Detector) (key : SliceKey) (amount : Int) (time : UInt64)
    (sink : Sink World) (world : World) : Except DropCause (Observed World) :=
  match d.counts.count key amount time with
  | .error cause => .error cause
  | .ok (tick, counts) =>
    let (counted, lateLog) := { d with counts }.noteLate key time tick
    let detected := counted.detect key tick.sum time sink world
    let (detector, evictionLog) :=
      if tick.advanced then detected.detector.evict else (detected.detector, [])
    .ok { detected with detector, log := lateLog ++ detected.log ++ evictionLog }

/-- Forgets all counts and deadlines; the tally stays. -/
def reset (d : Detector) : Detector :=
  { d with counts := d.counts.clear, deadlines := .empty }

end Detector

end CountAlarm
