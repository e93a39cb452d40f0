import CountAlarm.Proofs.Alerting.Isolation
import CountAlarm.Proofs.Pipeline.Totals
/-!
# Two pipelines with different sinks

A sink is called in the middle of a detection, and what it answers is counted. Still, two pipelines
that differ only in their sink never come to differ in anything but their counts of sink failures,
whatever the sinks do: they return the same alerts, hand the same alerts to their sinks and stay in
the same state. `play_withSink` says so for all streams. What is handed over is told by
`Sink.recording`, which the pipeline does not notice.
-/

namespace CountAlarm

/-! ## What detectors hand over -/

namespace Detector

variable {World : Type} (d : Detector) (key : SliceKey) (amount : Int) (time : UInt64)
  (sink : Sink World) (world : World)

theorem detection_of_essence {World₁ World₂ : Type} {x : Except DropCause (Observed World₁)}
    {y : Except DropCause (Observed World₂)}
    (h : x.map Observed.essence = y.map Observed.essence) :
    x.map Observed.detection = y.map Observed.detection := by
  cases x with
  | error cause =>
      cases y with
      | error other => exact congrArg Except.error (Except.error.inj h)
      | ok o => cases h
  | ok o =>
      cases y with
      | error cause => cases h
      | ok other => exact congrArg Except.ok (Prod.mk.inj (Except.ok.inj h)).2

theorem detection_sansFailures :
    (d.sansFailures.observe key amount time Sink.log ()).map Observed.detection =
      (d.observe key amount time Sink.log ()).map Observed.detection :=
  detection_of_essence (d.essence_observe key time Sink.log () amount).symm

theorem detection_observe :
    (d.observe key amount time sink world).map Observed.detection =
      (d.observe key amount time Sink.log ()).map Observed.detection := by
  rw [← detection_sansFailures]
  exact detection_of_essence (d.essence_observe key time sink world amount)

end Detector

namespace Metric

/-- The alerts that detectors hand to any sink at an event, the latest first. -/
def handedBy (key : SliceKey) (time : UInt64) : List Detector → List Alert
  | [] => []
  | d :: ds =>
    match (d.observe key 1 time Sink.log ()).map Observed.detection with
    | .error _ => []
    | .ok detection => handedBy key time ds ++ detection.fired?.toList

/-- The alerts that a metric hands to any sink at an event, the latest first. -/
def handed (m : Metric) (event : Event) : List Alert :=
  if (m.grid.bucketOf? event.time).isNone then []
  else
    match m.projection.key? event with
    | none => []
    | some key => handedBy key event.time m.detectors

theorem handedBy_sansFailures (key : SliceKey) (time : UInt64) (detectors : List Detector) :
    handedBy key time (detectors.map Detector.sansFailures) = handedBy key time detectors := by
  induction detectors with
  | nil => rfl
  | cons d rest ih => rw [List.map_cons, handedBy, handedBy, d.detection_sansFailures, ih]

theorem handed_sansFailures (m : Metric) (event : Event) :
    m.sansFailures.handed event = m.handed event := by
  unfold handed
  simp only [sansFailures, handedBy_sansFailures]

section Recording

variable {World : Type} (sink : Sink World) (world : World) (sent : List Alert)

theorem observeAll_recording (key : SliceKey) (time : UInt64) (detectors : List Detector) :
    observeAll sink.recording key time detectors (world, sent) =
      { detectors := (observeAll sink key time detectors world).detectors
        outcome := (observeAll sink key time detectors world).outcome
        world := ((observeAll sink key time detectors world).world,
          handedBy key time detectors ++ sent)
        log := (observeAll sink key time detectors world).log } := by
  induction detectors generalizing world sent with
  | nil => rfl
  | cons d rest ih =>
      rw [handedBy, ← d.detection_observe key 1 time sink world]
      unfold observeAll
      rw [Detector.observe_recording]
      cases d.observe key 1 time sink world with
      | error cause => rfl
      | ok o =>
          simp only [Except.map, ih, List.append_assoc]

theorem handle_recording (m : Metric) (event : Event) :
    m.handle event sink.recording (world, sent) =
      { metric := (m.handle event sink world).metric
        outcome := (m.handle event sink world).outcome
        world := ((m.handle event sink world).world, m.handed event ++ sent)
        log := (m.handle event sink world).log } := by
  unfold handle handed
  split
  · rfl
  · cases m.projection.key? event with
    | none => rfl
    | some key => simp only [observeAll_recording]

end Recording

end Metric

/-! ## What pipelines hand over -/

namespace Pipeline

variable {World Other : Type}

/-- The same pipeline with another sink. -/
def withSink (p : Pipeline World) (sink : Sink Other) : Pipeline Other :=
  { start := p.start, matchers := p.matchers, metrics := p.metrics, sink, totals := p.totals }

/-- The same pipeline, with the alerts that its sink is handed kept beside the world of the sink. -/
def recording (p : Pipeline World) : Pipeline (World × List Alert) :=
  p.withSink p.sink.recording

/-- The alerts that metrics with an accepting matcher hand to any sink, the latest first. -/
def handedAll (event : Event) (accepting : List UInt64) (metrics : List Metric) : List Alert :=
  metrics.reverse.flatMap fun m => if m.matcherId ∈ accepting then m.handed event else []

def handed (p : Pipeline World) (event : Event) : List Alert :=
  handedAll event (p.accepting event) p.metrics

/-- The alerts handed over in a stream, the latest first. -/
def handedIn (p : Pipeline World) (world : World) : List Event → List Alert
  | [] => []
  | e :: past => (p.play world past).pipeline.handed e ++ p.handedIn world past

theorem handedAll_cons (event : Event) (accepting : List UInt64) (m : Metric)
    (rest : List Metric) :
    handedAll event accepting (m :: rest) = handedAll event accepting rest ++
      if m.matcherId ∈ accepting then m.handed event else [] := by
  unfold handedAll
  rw [List.reverse_cons, List.flatMap_append, List.flatMap_singleton]

theorem handleAll_recording (sink : Sink World) (event : Event) (accepting : List UInt64)
    (metrics : List Metric) (world : World) (sent : List Alert) :
    handleAll sink.recording event accepting metrics (world, sent) =
      { metrics := (handleAll sink event accepting metrics world).metrics
        fired := (handleAll sink event accepting metrics world).fired
        drops := (handleAll sink event accepting metrics world).drops
        world := ((handleAll sink event accepting metrics world).world,
          handedAll event accepting metrics ++ sent)
        log := (handleAll sink event accepting metrics world).log } := by
  induction metrics generalizing world sent with
  | nil => rfl
  | cons m rest ih =>
      rw [handedAll_cons]
      by_cases haccepted : m.matcherId ∈ accepting
      · simp only [handleAll, if_pos haccepted, Metric.handle_recording, ih, List.append_assoc]
        cases (m.handle event sink world).outcome <;> rfl
      · simp only [handleAll, if_neg haccepted, ih, List.append_nil]

/-- A pipeline does not notice that its alerts are recorded. -/
theorem onEvent_recording (p : Pipeline World) (event : Event) (world : World)
    (sent : List Alert) :
    p.recording.onEvent event (world, sent) =
      { pipeline := (p.onEvent event world).pipeline.recording
        fired := (p.onEvent event world).fired
        world := ((p.onEvent event world).world, p.handed event ++ sent)
        log := (p.onEvent event world).log } := by
  have hall := handleAll_recording p.sink event (p.accepting event) p.metrics world sent
  unfold onEvent
  simp only [show p.recording.accepting event = p.accepting event from rfl,
    show p.recording.sink = p.sink.recording from rfl,
    show p.recording.metrics = p.metrics from rfl,
    show p.recording.totals = p.totals from rfl, hall]
  rfl

theorem play_recording (p : Pipeline World) (world : World) (events : List Event) :
    p.recording.play (world, []) events =
      { pipeline := (p.play world events).pipeline.recording
        world := ((p.play world events).world, p.handedIn world events)
        fired := (p.play world events).fired } := by
  induction events with
  | nil => rfl
  | cons e past ih =>
      simp only [play, ih, onEvent_recording]
      rfl

/-! ## Pipelines in the same state -/

/-- Two pipelines are in the same state but for sink failures. -/
structure Agrees (p : Pipeline World) (q : Pipeline Other) : Prop extends Alike p q where
  start : p.start = q.start
  totals : p.totals = q.totals

variable {p : Pipeline World} {q : Pipeline Other}

theorem agrees_withSink (p : Pipeline World) (sink : Sink Other) : p.Agrees (p.withSink sink) :=
  ⟨⟨rfl, rfl⟩, rfl, rfl⟩

theorem Alike.handed (h : p.Alike q) (event : Event) : p.handed event = q.handed event := by
  have hmap := h.map_metrics
    (f := fun m => if m.matcherId ∈ q.accepting event then m.handed event else []) fun m => by
      rw [m.handed_sansFailures event]
      rfl
  unfold Pipeline.handed handedAll
  rw [h.accepting event, List.flatMap_def, List.flatMap_def, List.map_reverse, List.map_reverse,
    hmap]

theorem Alike.drops (h : p.Alike q) (event : Event) (world : World) (other : Other) :
    (handleAll p.sink event (p.accepting event) p.metrics world).drops =
      (handleAll q.sink event (q.accepting event) q.metrics other).drops := by
  have hmap := h.map_metrics
    (f := fun m => if m.matcherId ∈ q.accepting event then dropIn? (m.verdicts event) else none)
    fun m => by
      rw [m.verdicts_sansFailures event]
      rfl
  have hid : ∀ (metrics : List Metric) (f : Metric → Option DropCause),
      metrics.filterMap f = (metrics.map f).filterMap id := by
    intro metrics f
    rw [List.filterMap_map]
    rfl
  rw [drops_handleAll, drops_handleAll, h.accepting event, hid, hid, hmap]

theorem Alike.any_accepting (h : p.Alike q) (event : Event) :
    (p.metrics.any fun m => (p.accepting event).contains m.matcherId) =
      q.metrics.any fun m => (q.accepting event).contains m.matcherId := by
  have hmap := h.map_metrics (f := fun m => (q.accepting event).contains m.matcherId) fun _ => rfl
  have hany := congrArg (List.any · id) hmap
  simp only [List.any_map] at hany
  rw [h.accepting event]
  exact hany

theorem Agrees.onEvent (h : p.Agrees q) (event : Event) (world : World) (other : Other) :
    (p.onEvent event world).pipeline.Agrees (q.onEvent event other).pipeline := by
  refine ⟨(h.toAlike.onEvent event world other).2, h.start, ?_⟩
  unfold Pipeline.onEvent
  simp only
  rw [h.drops event world other, h.any_accepting event, h.totals]

theorem Agrees.play (h : p.Agrees q) (world : World) (other : Other) (events : List Event) :
    (p.play world events).pipeline.Agrees (q.play other events).pipeline := by
  induction events with
  | nil => exact h
  | cons e past ih => exact ih.onEvent e (p.play world past).world (q.play other past).world

theorem Agrees.handedIn (h : p.Agrees q) (world : World) (other : Other) (events : List Event) :
    p.handedIn world events = q.handedIn other events := by
  induction events with
  | nil => rfl
  | cons e past ih =>
      rw [Pipeline.handedIn, Pipeline.handedIn, ih, (h.play world other past).handed e]

end Pipeline

/-! ## Totals but for sink failures -/

def Tally.sansFailures (t : Tally) : Tally :=
  { t with sinkFailures := 0 }

def Totals.sansFailures (t : Totals) : Totals :=
  { t with detectors := t.detectors.sansFailures }

theorem Tally.sansFailures_foldl_add (u : Tally) (detectors : List Detector) :
    (detectors.foldl (fun u d => u.add d.tally) u).sansFailures =
      (detectors.map Detector.sansFailures).foldl (fun u d => u.add d.tally) u.sansFailures := by
  induction detectors generalizing u with
  | nil => rfl
  | cons d rest ih => exact ih (u.add d.tally)

namespace Pipeline

variable {World Other : Type}

theorem map_sansFailures_detectors (p : Pipeline World) :
    p.detectors.map Detector.sansFailures =
      (p.metrics.map Metric.sansFailures).flatMap Metric.detectors := by
  unfold detectors
  rw [List.map_flatMap, List.flatMap_map]
  rfl

theorem Agrees.allTotals {p : Pipeline World} {q : Pipeline Other} (h : p.Agrees q) :
    p.allTotals.sansFailures = q.allTotals.sansFailures := by
  rw [allTotals_eq, allTotals_eq]
  unfold Totals.sansFailures
  simp only [Tally.sansFailures_foldl_add, map_sansFailures_detectors, h.metrics, h.totals]

/-! ## Two runs -/

theorem ofConfig_withSink (c : Config) (first : Sink World) (second : Sink Other) :
    (ofConfig c second).outcome = (ofConfig c first).outcome ∧
      (ofConfig c second).pipeline = (ofConfig c first).pipeline.withSink second := by
  cases hvalid : c.validate with
  | error rejection =>
      obtain ⟨hfirst, hfirst'⟩ := replaceConfig_of_error hvalid (empty c.start first)
      obtain ⟨hsecond, hsecond'⟩ := replaceConfig_of_error hvalid (empty c.start second)
      unfold ofConfig
      rw [hfirst, hsecond, hfirst', hsecond']
      exact ⟨rfl, rfl⟩
  | ok =>
      obtain ⟨hfirst, hfirst'⟩ := ofConfig_ok hvalid first
      obtain ⟨hsecond, hsecond'⟩ := ofConfig_ok hvalid second
      rw [hfirst, hsecond, hfirst', hsecond']
      exact ⟨rfl, rfl⟩

/-- Two pipelines that differ only in their sink, such as two of one configuration, return the same
alerts for every event of a stream, hand the same alerts to their sinks and are in the same state
afterwards; only their counts of sink failures may differ. -/
theorem play_withSink (p : Pipeline World) (sink : Sink Other) (world : World) (other : Other)
    (events : List Event) :
    (∀ c : Config, (ofConfig c sink).outcome = (ofConfig c p.sink).outcome ∧
      (ofConfig c sink).pipeline = (ofConfig c p.sink).pipeline.withSink sink) ∧
    let first := p.play world events
    let second := (p.withSink sink).play other events
    first.fired = second.fired ∧
      (∃ handed : List Alert,
        p.recording.play (world, []) events =
          { pipeline := first.pipeline.recording, world := (first.world, handed)
            fired := first.fired } ∧
        (p.withSink sink).recording.play (other, []) events =
          { pipeline := second.pipeline.recording, world := (second.world, handed)
            fired := second.fired }) ∧
      first.pipeline.Agrees second.pipeline ∧
      first.pipeline.allTotals.sansFailures = second.pipeline.allTotals.sansFailures := by
  have hsame := p.agrees_withSink sink
  have hplayed := hsame.play world other events
  refine ⟨fun c => ofConfig_withSink c p.sink sink, (hsame.toAlike.play world other events).1,
    ⟨p.handedIn world events, p.play_recording world events, ?_⟩, hplayed, hplayed.allTotals⟩
  rw [hsame.handedIn world other events]
  exact (p.withSink sink).play_recording other events

/-- One part of the first sink accepts and the other one refuses every second alert; the second sink
accepts all. The matcher does not accept the text of the latest event. -/
theorem play_withSink_fanout :
    let c : Config :=
      { start := 0
        matchers := [⟨7, 3, [⟨4, .equalsText "n1"⟩]⟩]
        metrics := [⟨1, 7, [], none, some 10, [⟨9, 1, 0, 1⟩, ⟨10, 2, 1, 0⟩]⟩] }
    let refusing : Sink Mailroom := Sink.callback 0 fun calls =>
      if calls.length % 2 = 0 then some (.other "refused") else none
    let sink := Sink.fanout [refusing, Sink.memory 0]
    let room : Mailroom := { memories := [[]], calls := [[]] }
    let p := (ofConfig c sink).pipeline
    let event : UInt64 → UInt8 → Event := fun time digit => ⟨time, 3, [⟨4, .bytes [110, digit]⟩]⟩
    let events : List Event :=
      [event 3000000009 50, event 3000000007 49, event 3000000002 49, event 5 49]
    let first := p.play room events
    let second := (p.withSink (Sink.log : Sink Unit)).play () events
    (second.fired.map fun run => run.2.map Alert.alertId) = [[], [10], [9], [9]] ∧
      first.fired = second.fired ∧
      (∃ handed : List Alert, handed.map Alert.alertId = [10, 9, 9] ∧
        (p.recording.play (room, []) events).world.2 = handed ∧
        ((p.withSink (Sink.log : Sink Unit)).recording.play ((), []) events).world.2 = handed) ∧
      first.pipeline.allTotals.detectors.sinkFailures = 1 ∧
      second.pipeline.allTotals.detectors.sinkFailures = 0 ∧
      first.pipeline.allTotals.sansFailures = second.pipeline.allTotals.sansFailures := by
  intro c refusing sink room p event events first second
  obtain ⟨-, hfired, ⟨handed, hfirst, hsecond⟩, -, htotals⟩ :=
    play_withSink p (Sink.log : Sink Unit) room () events
  have hhanded : (((p.withSink (Sink.log : Sink Unit)).recording.play ((), []) events).world.2.map
      Alert.alertId) = [10, 9, 9] := by decide +kernel
  rw [hsecond] at hhanded
  refine ⟨by decide +kernel, hfired, ⟨handed, hhanded, ?_, ?_⟩, by decide +kernel,
    by decide +kernel, htotals⟩
  · rw [hfirst]
  · rw [hsecond]

end Pipeline

end CountAlarm
