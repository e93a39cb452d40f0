import CountAlarm.Setup.Validation
/-!
# Pipelines

A pipeline routes every event to the metrics whose matcher accepts it, and delivers the alerts that
they fire to one sink. Metrics are installed only if their matcher is there and their numbers are
new.
-/

namespace CountAlarm

/-- Matchers and metrics in the order in which they were installed, and where alerts go. -/
structure Pipeline (World : Type) where
  start : UInt64
  matchers : List Matcher
  metrics : List Metric
  sink : Sink World
  totals : Totals

structure Changed (World : Type) where
  pipeline : Pipeline World
  outcome : Except Rejection Unit
  log : List LogEntry

/-- Metrics after an event, the alerts that they fired, and why some of them dropped it. -/
structure HandledAll (World : Type) where
  metrics : List Metric
  fired : List Alert
  drops : List DropCause
  world : World
  log : List LogEntry

structure Routed (World : Type) where
  pipeline : Pipeline World
  fired : List Alert
  world : World
  log : List LogEntry

namespace Pipeline

variable {World : Type}

def empty (start : UInt64) (sink : Sink World) : Pipeline World :=
  { start, matchers := [], metrics := [], sink, totals := {} }

/-! ## Looking up -/

def matcher? (p : Pipeline World) (id : UInt64) : Option Matcher :=
  p.matchers.find? fun m => m.id == id

/-- The first detector of an alert. -/
def detector? (p : Pipeline World) (alertId : UInt64) : Option Detector :=
  p.metrics.findSome? fun m => m.detector? alertId

/-- The deadline of a slice for an alert, or zero if there is no such alert. -/
def refractoryEnd (p : Pipeline World) (alertId : UInt64) (key : SliceKey) : UInt32 :=
  ((p.detector? alertId).map fun d => d.refractoryEnd key).getD 0

/-- The sum of a slice for an alert, or zero if there is no such alert. -/
def sum (p : Pipeline World) (alertId : UInt64) (key : SliceKey) : Nat :=
  ((p.detector? alertId).map fun d => d.sum key).getD 0

def allTotals (p : Pipeline World) : Totals :=
  (p.metrics.flatMap Metric.detectors).foldl (fun t d => t.absorb d.tally) p.totals

/-! ## Changes -/

def setSink (p : Pipeline World) (sink : Sink World) : Pipeline World :=
  { p with sink }

/-- Adds a matcher in place of any other with its number. -/
def addMatcher (p : Pipeline World) (matcher : Matcher) : Pipeline World :=
  { p with matchers := (p.matchers.filter fun m => m.id != matcher.id) ++ [matcher] }

/-- Checks that the number of an alert is new for each of some detectors. -/
def checkAlerts (p : Pipeline World) : List Detector → Except Rejection Unit
  | [] => .ok ()
  | d :: ds =>
    if (p.detector? d.rule.id).isSome then .error ⟨.alert, d.rule.id, .duplicateAlert⟩
    else checkAlerts p ds

def checkMetric (p : Pipeline World) (metric : Metric) : Except Rejection Unit :=
  if (p.matcher? metric.matcherId).isNone then
    .error ⟨.metric, metric.id, .unknownMatcher metric.matcherId⟩
  else if p.metrics.any fun m => m.id == metric.id then
    .error ⟨.metric, metric.id, .duplicateMetric⟩
  else p.checkAlerts metric.detectors

def installMetric (p : Pipeline World) (metric : Metric) : Changed World :=
  match p.checkMetric metric with
  | .error rejection =>
    { pipeline := p
      outcome := .error rejection
      log := [.metricRejected metric.id rejection] }
  | .ok () =>
    { pipeline := { p with metrics := p.metrics ++ [metric] }
      outcome := .ok ()
      log := [.metricInstalled metric.id metric.matcherId metric.detectors.length] }

def addMetric (p : Pipeline World) (config : MetricConfig) : Changed World :=
  match config.build p.start with
  | .error rejection =>
    { pipeline := p
      outcome := .error rejection
      log := [.metricRejected config.id rejection] }
  | .ok metric => p.installMetric metric

/-- Adds configured metrics as far as none is refused. -/
def addMetrics (p : Pipeline World) : List MetricConfig → Changed World
  | [] => { pipeline := p, outcome := .ok (), log := [] }
  | config :: rest =>
    let first := p.addMetric config
    match first.outcome with
    | .error _ => first
    | .ok () =>
      let others := addMetrics first.pipeline rest
      { others with log := first.log ++ others.log }

/-- Removes a metric with all its state, and tells whether it was there. -/
def removeMetric (p : Pipeline World) (id : UInt64) : Bool × Pipeline World × List LogEntry :=
  let kept := p.metrics.filter fun m => m.id != id
  let removed := decide (kept.length < p.metrics.length)
  (removed, { p with metrics := kept }, if removed then [.metricRemoved id] else [])

/-- Puts the matchers and metrics of a configuration in place of all others. A configuration that is
not sound changes nothing. -/
def replaceConfig (p : Pipeline World) (config : Config) : Changed World :=
  match config.validate with
  | .error rejection =>
    { pipeline := p, outcome := .error rejection, log := [.configRejected rejection] }
  | .ok () =>
    addMetrics
      { p with
        start := config.start
        matchers := config.matchers.map AtomMatcher.toMatcher
        metrics := [] }
      config.metrics

def ofConfig (config : Config) (sink : Sink World) : Changed World :=
  (empty config.start sink).replaceConfig config

/-! ## Events -/

/-- Lets the metrics of accepting matchers handle an event in their order. -/
def handleAll (sink : Sink World) (event : Event) (accepting : List UInt64) :
    List Metric → World → HandledAll World
  | [], world => { metrics := [], fired := [], drops := [], world, log := [] }
  | m :: ms, world =>
    if m.matcherId ∈ accepting then
      let handled := m.handle event sink world
      let rest := handleAll sink event accepting ms handled.world
      match handled.outcome with
      | .ok detections =>
        { rest with
          metrics := handled.metric :: rest.metrics
          fired := detections.filterMap Detection.fired? ++ rest.fired
          log := handled.log ++ rest.log }
      | .error cause =>
        { rest with
          metrics := handled.metric :: rest.metrics
          drops := cause :: rest.drops
          log := handled.log ++ .eventDropped m.id event.atom event.time cause :: rest.log }
    else
      let rest := handleAll sink event accepting ms world
      { rest with metrics := m :: rest.metrics }

def accepting (p : Pipeline World) (event : Event) : List UInt64 :=
  (p.matchers.filter fun m => m.accepts event).map Matcher.id

def onEvent (p : Pipeline World) (event : Event) (world : World) : Routed World :=
  let accepting := p.accepting event
  let handled := handleAll p.sink event accepting p.metrics world
  let received := p.totals.noteReceived
  let counted := handled.drops.foldl Totals.noteDrop received
  let totals :=
    if p.metrics.any fun m => accepting.contains m.matcherId then counted.noteMatched else counted
  { pipeline := { p with metrics := handled.metrics, totals }
    fired := handled.fired
    world := handled.world
    log := handled.log }

end Pipeline

end CountAlarm
