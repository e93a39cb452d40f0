import CountAlarm.Alerting.Detector
import CountAlarm.Routing.Projection
/-!
# Metrics

A metric counts the events that its matcher accepts. It projects each event to a slice and lets all
of its detectors observe it; each of them keeps counts of its own.
-/

namespace CountAlarm

/-- Detectors that share a projection and a grid. `matcherId` names the matcher whose events they
count. -/
structure Metric where
  id : UInt64
  matcherId : UInt64
  projection : Projection
  grid : BucketGrid
  detectors : List Detector

structure ObservedAll (World : Type) where
  detectors : List Detector
  outcome : Except DropCause (List Detection)
  world : World
  log : List LogEntry

structure Handled (World : Type) where
  metric : Metric
  outcome : Except DropCause (List Detection)
  world : World
  log : List LogEntry

namespace Metric

def start (id matcherId : UInt64) (projection : Projection) (grid : BucketGrid) : Metric :=
  { id, matcherId, projection, grid, detectors := [] }

def attach (m : Metric) (rule : AlertRule) : Metric :=
  { m with detectors := m.detectors ++ [.start rule m.grid] }

/-- Lets detectors observe one event in their order, as far as none of them refuses it. -/
def observeAll {World : Type} (sink : Sink World) (key : SliceKey) (time : UInt64) :
    List Detector → World → ObservedAll World
  | [], world => { detectors := [], outcome := .ok [], world, log := [] }
  | d :: ds, world =>
    match d.observe key 1 time sink world with
    | .error cause => { detectors := d :: ds, outcome := .error cause, world, log := [] }
    | .ok observed =>
      let rest := observeAll sink key time ds observed.world
      { detectors := observed.detector :: rest.detectors
        outcome := rest.outcome.map (observed.detection :: ·)
        world := rest.world
        log := observed.log ++ rest.log }

/-- Counts one event. It is dropped if it is older than the grid or lacks a field. -/
def handle {World : Type} (m : Metric) (event : Event) (sink : Sink World) (world : World) :
    Handled World :=
  if (m.grid.bucketOf? event.time).isNone then
    { metric := m, outcome := .error .beforeStart, world, log := [] }
  else
    match m.projection.key? event with
    | none => { metric := m, outcome := .error .missingField, world, log := [] }
    | some key =>
      let observed := observeAll sink key event.time m.detectors world
      { metric := { m with detectors := observed.detectors }
        outcome := observed.outcome
        world := observed.world
        log := observed.log }

def detector? (m : Metric) (alertId : UInt64) : Option Detector :=
  m.detectors.find? fun d => d.rule.id == alertId

def reset (m : Metric) : Metric :=
  { m with detectors := m.detectors.map Detector.reset }

end Metric

end CountAlarm
