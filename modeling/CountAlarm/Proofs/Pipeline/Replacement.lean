import CountAlarm.Proofs.Pipeline.Refinement
/-!
# Replacing the configuration

A configuration takes the place of another one completely or not at all. The old metrics are gone
before the new ones are added, and adding a metric checks it once more; but none of these checks can
fail after validation. Only the sink and the totals outlast a replacement, and what later events
fire and count does not depend on them.
-/

namespace CountAlarm.Pipeline

variable {World Other : Type}

/-! ## What events do not depend on -/

/-- Two pipelines differ at most in their start and their totals. -/
structure Twins (p q : Pipeline World) : Prop where
  matchers : p.matchers = q.matchers
  metrics : p.metrics = q.metrics
  sink : p.sink = q.sink

theorem Twins.onEvent {p q : Pipeline World} (h : p.Twins q) (event : Event) (world : World) :
    (p.onEvent event world).world = (q.onEvent event world).world ∧
      (p.onEvent event world).pipeline.Twins (q.onEvent event world).pipeline := by
  have haccepting : p.accepting event = q.accepting event := by
    unfold accepting
    rw [h.matchers]
  have hall : handleAll p.sink event (p.accepting event) p.metrics world =
      handleAll q.sink event (q.accepting event) q.metrics world := by
    rw [haccepting, h.metrics, h.sink]
  exact ⟨congrArg HandledAll.world hall, h.matchers, congrArg HandledAll.metrics hall, h.sink⟩

theorem Twins.play {p q : Pipeline World} (h : p.Twins q) (world : World) (events : List Event) :
    (p.play world events).world = (q.play world events).world ∧
      (p.play world events).pipeline.Twins (q.play world events).pipeline := by
  induction events with
  | nil => exact ⟨rfl, h⟩
  | cons e past ih =>
      obtain ⟨hworld, htwins⟩ := ih
      rw [Pipeline.play, Pipeline.play, hworld]
      exact htwins.onEvent e _

/-! ## Replacement -/

/-- A pipeline has the start, the matchers and the metrics of a fresh one, and every stream makes
both fire and count the same, whatever their sinks do. -/
structure Renewed (p : Pipeline World) (fresh : Pipeline Other) : Prop where
  start : p.start = fresh.start
  matchers : p.matchers = fresh.matchers
  metrics : p.metrics = fresh.metrics
  fired : ∀ world other events,
    (p.play world events).fired = (fresh.play other events).fired
  counted : ∀ world other events,
    (p.play world events).pipeline.metrics.map Metric.sansFailures =
      (fresh.play other events).pipeline.metrics.map Metric.sansFailures

theorem renewed_of_eq {p : Pipeline World} {fresh : Pipeline Other} (hstart : p.start = fresh.start)
    (hmatchers : p.matchers = fresh.matchers) (hmetrics : p.metrics = fresh.metrics) :
    p.Renewed fresh := by
  have halike : p.Alike fresh := ⟨hmatchers, congrArg (List.map Metric.sansFailures) hmetrics⟩
  refine ⟨hstart, hmatchers, hmetrics, fun world other events => ?_, fun world other events => ?_⟩
  · exact (halike.play world other events).1
  · exact (halike.play world other events).2.metrics

/-- No metric of a sound configuration is refused, however far its metrics have been added. -/
theorem addMetric_cleared {c : Config} (hvalid : c.validate = .ok ()) (p : Pipeline World)
    {old rest : List MetricConfig} {m : MetricConfig} (hsplit : c.metrics = old ++ m :: rest) :
    ((p.cleared c).addMetrics old).outcome = .ok () ∧
      (((p.cleared c).addMetrics old).pipeline.addMetric m).outcome = .ok () := by
  have hsound := Config.sound_of_validate hvalid
  have hbefore : c.metrics = [] ++ old ++ m :: rest := hsplit
  obtain ⟨houtcome, hpipeline⟩ :=
    addMetrics_of_sound hsound hbefore (carries_cleared p c)
  refine ⟨houtcome, ?_⟩
  rw [hpipeline]
  exact (addMetric_of_sound hsound hsplit ⟨rfl, rfl, rfl⟩).1

theorem outcome_replaceConfig (p : Pipeline World) (c : Config) :
    (p.replaceConfig c).outcome = c.validate := by
  cases hvalid : c.validate with
  | error rejection => exact (replaceConfig_of_error hvalid p).1
  | ok => exact (replaceConfig_of_validate hvalid p).1

/-- A replacement succeeds just when validation does. If it fails, it changes nothing. If it
succeeds, no metric was refused on the way, the pipeline goes on like a fresh one, and only the sink
and the totals are still those of before. -/
theorem replaceConfig_all_or_nothing (p : Pipeline World) (c : Config) :
    ((p.replaceConfig c).outcome = .ok () ↔ c.validate = .ok ()) ∧
    (∀ rejection, (p.replaceConfig c).outcome = .error rejection →
      c.validate = .error rejection ∧ (p.replaceConfig c).pipeline = p) ∧
    ((p.replaceConfig c).outcome = .ok () →
      let replaced := (p.replaceConfig c).pipeline
      (∀ old m rest, c.metrics = old ++ m :: rest →
        ((p.cleared c).addMetrics old).outcome = .ok () ∧
          (((p.cleared c).addMetrics old).pipeline.addMetric m).outcome = .ok ()) ∧
      replaced.sink = p.sink ∧ replaced.totals = p.totals ∧
      (∀ (Other : Type) (sink : Sink Other),
        (ofConfig c sink).outcome = .ok () ∧ replaced.Renewed (ofConfig c sink).pipeline) ∧
      ∀ world events,
        let played := replaced.play world events
        let fresh := (ofConfig c p.sink).pipeline.play world events
        played.pipeline.metrics = fresh.pipeline.metrics ∧ played.world = fresh.world) := by
  rw [outcome_replaceConfig]
  refine ⟨Iff.rfl, fun rejection hinvalid => ?_, fun hvalid => ?_⟩
  · exact ⟨hinvalid, (replaceConfig_of_error hinvalid p).2⟩
  · have hreplaced := (replaceConfig_of_validate hvalid p).2
    have hkept : (p.replaceConfig c).pipeline.sink = p.sink ∧
        (p.replaceConfig c).pipeline.totals = p.totals := by
      rw [hreplaced]
      exact ⟨rfl, rfl⟩
    intro replaced
    refine ⟨fun old m rest hsplit => addMetric_cleared hvalid p hsplit, hkept.1, hkept.2, ?_, ?_⟩
    · intro Other sink
      obtain ⟨houtcome, hfresh⟩ := ofConfig_ok hvalid sink
      refine ⟨houtcome, ?_⟩
      simp only [replaced, hreplaced, hfresh]
      exact renewed_of_eq rfl rfl rfl
    · intro world events played fresh
      have htwins : replaced.Twins (ofConfig c p.sink).pipeline := by
        simp only [replaced, hreplaced, (ofConfig_ok hvalid p.sink).2]
        exact ⟨rfl, rfl, rfl⟩
      obtain ⟨hworld, hmetrics⟩ := htwins.play world events
      exact ⟨hmetrics.metrics, hworld⟩

/-- A pipeline that keeps its only slice quiet forgets so when it gets its own configuration once
more, but not when the new one has a metric twice. -/
theorem replaceConfig_all_or_nothing_quiet :
    let metric : MetricConfig := ⟨1, 7, [], none, some 10, [⟨9, 1, 0, 100⟩]⟩
    let c : Config := { start := 0, matchers := [⟨7, 3, [⟨6, .above 0⟩]⟩], metrics := [metric] }
    let twice : Config := { c with metrics := [metric, metric] }
    let event : Event := ⟨5, 3, [⟨6, .int 1⟩]⟩
    let p := ((ofConfig c Sink.log).pipeline.play () [event]).pipeline
    ((p.replaceConfig twice).outcome = .error ⟨.metric, 1, .duplicateMetric⟩ ∧
      (p.replaceConfig c).outcome = .ok ()) ∧
    p.refractoryEnd 9 .whole = 101 ∧
    (p.replaceConfig twice).pipeline.refractoryEnd 9 .whole = 101 ∧
    ((p.replaceConfig c).pipeline.play () [event]).fired =
      ((ofConfig c (Sink.memory 0)).pipeline.play {} [event]).fired := by
  intro metric c twice event p
  have hvalid : c.validate = .ok () := by rfl
  have hinvalid : twice.validate = .error ⟨.metric, 1, .duplicateMetric⟩ := by rfl
  have hrefused : (p.replaceConfig twice).outcome = .error ⟨.metric, 1, .duplicateMetric⟩ :=
    (outcome_replaceConfig p twice).trans hinvalid
  have hdone : (p.replaceConfig c).outcome = .ok () :=
    (replaceConfig_all_or_nothing p c).1.mpr hvalid
  have hquiet : p.refractoryEnd 9 .whole = 101 := by decide
  refine ⟨⟨hrefused, hdone⟩, hquiet, ?_, ?_⟩
  · rw [((replaceConfig_all_or_nothing p twice).2.1 _ hrefused).2]
    exact hquiet
  · obtain ⟨-, -, -, hrenewed, -⟩ := (replaceConfig_all_or_nothing p c).2.2 hdone
    exact (hrenewed Mailroom (Sink.memory 0)).2.fired () {} [event]

end CountAlarm.Pipeline
