import CountAlarm.Pipeline.Basic
import CountAlarm.Proofs.Setup.Soundness
/-!
# Pipelines of sound configurations

A configuration that passes validation is installed completely: what the pipeline checks once more
when it adds a metric has been checked for the whole configuration.
-/

namespace CountAlarm

/-! ## Building metrics -/

namespace MetricConfig

/-- The metric of a configured one, before any event. -/
def installed (c : Config) (m : MetricConfig) : Metric :=
  let grid := BucketGrid.of c.start (m.bucketWidth?.getD 0)
  { id := m.id
    matcherId := m.matcherId
    projection := ⟨m.paths⟩
    grid
    detectors := m.alerts.map fun a => .start (a.rule m.id) grid }

theorem foldl_attach (id : UInt64) (alerts : List AlertConfig) (metric : Metric) :
    alerts.foldl (fun metric a => metric.attach (a.rule id)) metric =
      { metric with
        detectors :=
          metric.detectors ++ alerts.map fun a => Detector.start (a.rule id) metric.grid } := by
  induction alerts generalizing metric with
  | nil => simp
  | cons a rest ih =>
      rw [List.foldl_cons, ih]
      simp [Metric.attach]

theorem build_of_validate {m : MetricConfig} (h : m.validate = .ok ()) (c : Config) :
    m.build c.start = .ok (m.installed c) := by
  unfold build
  rw [h]
  simp only [bind, Except.bind]
  rw [foldl_attach]
  rfl

theorem build_eq_ok_iff {m : MetricConfig} {c : Config} {metric : Metric} :
    m.build c.start = .ok metric ↔ m.validate = .ok () ∧ metric = m.installed c := by
  cases hvalid : m.validate with
  | error rejection =>
      have hbuild : m.build c.start = .error rejection := by
        unfold build
        rw [hvalid]
        rfl
      simp [hbuild]
  | ok => simp [build_of_validate hvalid c, eq_comm]

end MetricConfig

/-! ## Installing metrics -/

namespace Pipeline

variable {World : Type} {p : Pipeline World}

theorem detector?_eq_none_iff {id : UInt64} :
    p.detector? id = none ↔ ∀ m ∈ p.metrics, ∀ d ∈ m.detectors, d.rule.id ≠ id := by
  unfold detector? Metric.detector?
  simp only [List.findSome?_eq_none_iff, List.find?_eq_none, beq_iff_eq, ne_eq]

theorem checkAlerts_eq_ok_iff {detectors : List Detector} :
    p.checkAlerts detectors = .ok () ↔ ∀ d ∈ detectors, p.detector? d.rule.id = none := by
  induction detectors with
  | nil => exact ⟨fun _ d hd => (List.not_mem_nil hd).elim, fun _ => rfl⟩
  | cons d rest ih =>
      rw [checkAlerts, List.forall_mem_cons, ← ih]
      cases hd : p.detector? d.rule.id with
      | none => simp
      | some e => simp

/-- The matcher of a metric is there, and no metric or alert has its numbers yet. -/
structure Admits (p : Pipeline World) (metric : Metric) : Prop where
  matcher : ∃ matcher ∈ p.matchers, matcher.id = metric.matcherId
  metricId : ∀ m ∈ p.metrics, m.id ≠ metric.id
  alertIds : ∀ d ∈ metric.detectors, ∀ m ∈ p.metrics, ∀ e ∈ m.detectors, e.rule.id ≠ d.rule.id

theorem checkMetric_eq_ok_iff {metric : Metric} :
    p.checkMetric metric = .ok () ↔ p.Admits metric := by
  have hknown : (p.matcher? metric.matcherId).isNone = false ↔
      ∃ matcher ∈ p.matchers, matcher.id = metric.matcherId := by
    unfold matcher?
    simp only [Option.isNone_eq_false_iff, List.find?_isSome, beq_iff_eq]
  have hnew : (p.metrics.any fun m => m.id == metric.id) = false ↔
      ∀ m ∈ p.metrics, m.id ≠ metric.id := by
    simp only [List.any_eq_false, beq_iff_eq, ne_eq]
  have halerts : p.checkAlerts metric.detectors = .ok () ↔
      ∀ d ∈ metric.detectors, ∀ m ∈ p.metrics, ∀ e ∈ m.detectors, e.rule.id ≠ d.rule.id := by
    simp only [checkAlerts_eq_ok_iff, detector?_eq_none_iff]
  unfold checkMetric
  constructor
  · intro h
    split at h
    · cases h
    · next hmatcher =>
      split at h
      · cases h
      · next hid =>
        exact ⟨hknown.mp (Bool.eq_false_iff.mpr hmatcher), hnew.mp (Bool.eq_false_iff.mpr hid),
          halerts.mp h⟩
  · intro h
    rw [hknown.mpr h.matcher, hnew.mpr h.metricId]
    exact halerts.mpr h.alertIds

theorem installMetric_of_admits {metric : Metric} (h : p.Admits metric) :
    (p.installMetric metric).outcome = .ok () ∧
      (p.installMetric metric).pipeline = { p with metrics := p.metrics ++ [metric] } := by
  unfold installMetric
  rw [checkMetric_eq_ok_iff.mpr h]
  exact ⟨rfl, rfl⟩

/-- A metric is rejected and changes nothing, or it was admitted and is installed. -/
theorem installMetric_cases (p : Pipeline World) (metric : Metric) :
    (∃ r, (p.installMetric metric).outcome = .error r ∧ (p.installMetric metric).pipeline = p) ∨
      p.Admits metric ∧ (p.installMetric metric).outcome = .ok () ∧
        (p.installMetric metric).pipeline = { p with metrics := p.metrics ++ [metric] } := by
  by_cases h : p.Admits metric
  · exact Or.inr ⟨h, installMetric_of_admits h⟩
  · left
    unfold installMetric
    cases hcheck : p.checkMetric metric with
    | error rejection => exact ⟨rejection, rfl, rfl⟩
    | ok => exact absurd (checkMetric_eq_ok_iff.mp hcheck) h

/-- A configured metric that is added was built from a sound configuration. -/
theorem addMetric_cases (p : Pipeline World) (config : MetricConfig) :
    (∃ r, (p.addMetric config).outcome = .error r ∧ (p.addMetric config).pipeline = p) ∨
      ∃ metric, config.build p.start = .ok metric ∧ p.Admits metric ∧
        (p.addMetric config).outcome = .ok () ∧
        (p.addMetric config).pipeline = { p with metrics := p.metrics ++ [metric] } := by
  unfold addMetric
  cases hbuild : config.build p.start with
  | error rejection => exact Or.inl ⟨rejection, rfl, rfl⟩
  | ok metric => exact (p.installMetric_cases metric).imp_right fun h => ⟨metric, rfl, h⟩

/-- A pipeline has the start and matchers of a configuration, and some metrics installed for it. -/
structure Carries (p : Pipeline World) (c : Config) (old : List MetricConfig) : Prop where
  start : p.start = c.start
  matchers : p.matchers = c.matchers.map AtomMatcher.toMatcher
  metrics : p.metrics = old.map (MetricConfig.installed c)

theorem Carries.concat {c : Config} {old : List MetricConfig} (h : p.Carries c old)
    (m : MetricConfig) :
    ({ p with metrics := p.metrics ++ [m.installed c] } : Pipeline World).Carries c
      (old ++ [m]) where
  start := h.start
  matchers := h.matchers
  metrics := by
    rw [List.map_append, ← h.metrics]
    rfl

/-- A configured metric is admitted after the metrics before it in a sound configuration. -/
theorem addMetric_of_sound {c : Config} (hsound : c.Sound) {old rest : List MetricConfig}
    {m : MetricConfig} (hsplit : c.metrics = old ++ m :: rest) (h : p.Carries c old) :
    (p.addMetric m).outcome = .ok () ∧
      (p.addMetric m).pipeline = { p with metrics := p.metrics ++ [m.installed c] } := by
  have hm : m ∈ c.metrics := by
    rw [hsplit]
    exact List.mem_append_right _ List.mem_cons_self
  have hadmits : p.Admits (m.installed c) := by
    refine ⟨?_, ?_, ?_⟩
    · obtain ⟨matcher, hmem, hid⟩ := List.mem_map.mp (hsound.matcher m hm)
      rw [h.matchers]
      exact ⟨matcher.toMatcher, List.mem_map_of_mem hmem, hid⟩
    · have hids := hsound.metricIds
      rw [hsplit, List.map_append, List.nodup_append] at hids
      rw [h.metrics, List.forall_mem_map]
      intro n hn
      exact hids.2.2 n.id (List.mem_map_of_mem hn) m.id List.mem_cons_self
    · have hids := hsound.alertIds
      rw [hsplit, List.flatMap_append, List.nodup_append] at hids
      rw [h.metrics]
      intro d hd metric hmetric e he
      obtain ⟨n, hn, rfl⟩ := List.mem_map.mp hmetric
      obtain ⟨a, ha, rfl⟩ := List.mem_map.mp hd
      obtain ⟨b, hb, rfl⟩ := List.mem_map.mp he
      exact hids.2.2 b.id (List.mem_flatMap.mpr ⟨n, hn, List.mem_map_of_mem hb⟩) a.id
        (List.mem_flatMap.mpr ⟨m, List.mem_cons_self, List.mem_map_of_mem ha⟩)
  have hbuild : m.build p.start = .ok (m.installed c) := by
    rw [h.start]
    exact MetricConfig.build_of_validate (hsound.metric m hm) c
  unfold addMetric
  rw [hbuild]
  exact installMetric_of_admits hadmits

theorem addMetrics_of_sound {c : Config} (hsound : c.Sound) {old next rest : List MetricConfig}
    (hsplit : c.metrics = old ++ next ++ rest) (h : p.Carries c old) :
    (p.addMetrics next).outcome = .ok () ∧
      (p.addMetrics next).pipeline =
        { p with metrics := (old ++ next).map (MetricConfig.installed c) } := by
  induction next generalizing old p with
  | nil =>
      rw [List.append_nil, ← h.metrics]
      exact ⟨rfl, rfl⟩
  | cons m next ih =>
      have hfirst : c.metrics = old ++ m :: (next ++ rest) := by
        rw [hsplit, List.append_assoc]
        rfl
      obtain ⟨houtcome, hpipeline⟩ := addMetric_of_sound hsound hfirst h
      have hothers : c.metrics = (old ++ [m]) ++ next ++ rest := by
        rw [hfirst, List.append_assoc, List.append_assoc]
        rfl
      have hrest := ih hothers (h.concat m)
      rw [List.append_assoc] at hrest
      rw [addMetrics, houtcome]
      simp only
      rw [hpipeline]
      exact hrest

/-- A pipeline with the start and the matchers of a configuration and no metrics. -/
def cleared (p : Pipeline World) (c : Config) : Pipeline World :=
  { p with
    start := c.start
    matchers := c.matchers.map AtomMatcher.toMatcher
    metrics := [] }

theorem carries_cleared (p : Pipeline World) (c : Config) : (p.cleared c).Carries c [] :=
  ⟨rfl, rfl, rfl⟩

theorem replaceConfig_of_validate {c : Config} (hvalid : c.validate = .ok ())
    (p : Pipeline World) :
    (p.replaceConfig c).outcome = .ok () ∧
      (p.replaceConfig c).pipeline =
        { p.cleared c with metrics := c.metrics.map (MetricConfig.installed c) } := by
  have hsplit : c.metrics = [] ++ c.metrics ++ [] := (List.append_nil c.metrics).symm
  have hadd := addMetrics_of_sound (Config.sound_of_validate hvalid) hsplit (carries_cleared p c)
  unfold replaceConfig
  rw [hvalid]
  exact hadd

theorem replaceConfig_of_error {c : Config} {rejection : Rejection}
    (hinvalid : c.validate = .error rejection) (p : Pipeline World) :
    (p.replaceConfig c).outcome = .error rejection ∧ (p.replaceConfig c).pipeline = p := by
  unfold replaceConfig
  rw [hinvalid]
  exact ⟨rfl, rfl⟩

/-- The pipeline of a configuration that passes validation, before any event. -/
theorem ofConfig_ok {c : Config} (hvalid : c.validate = .ok ()) (sink : Sink World) :
    (ofConfig c sink).outcome = .ok () ∧
      (ofConfig c sink).pipeline =
        { start := c.start
          matchers := c.matchers.map AtomMatcher.toMatcher
          metrics := c.metrics.map (MetricConfig.installed c)
          sink
          totals := {} } :=
  replaceConfig_of_validate hvalid (empty c.start sink)

end Pipeline

end CountAlarm
