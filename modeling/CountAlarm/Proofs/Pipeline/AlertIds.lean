import CountAlarm.Proofs.Pipeline.Commands
import Mathlib.Data.List.Nodup
/-!
# Numbers of alerts

A pipeline compares the alerts of a new metric with those it has, and the alerts of a configured
metric are compared with each other when the metric is built. The alerts of a metric that is handed
over are not compared with each other. So the numbers of all alerts differ in every reachable
pipeline just when they differ within every metric that is handed over.
-/

namespace CountAlarm

def Metric.alertIds (m : Metric) : List UInt64 :=
  m.detectors.map fun d => d.rule.id

theorem MetricConfig.nodup_alertIds_installed {m : MetricConfig} (h : m.validate = .ok ())
    (c : Config) : (m.installed c).alertIds.Nodup := by
  have hids : (m.installed c).alertIds = m.alerts.map AlertConfig.id := by
    simp only [Metric.alertIds, installed, List.map_map]
    rfl
  rw [hids]
  exact nodup_of_validate h

theorem MetricConfig.nodup_alertIds_of_build {m : MetricConfig} {start : UInt64} {metric : Metric}
    (h : m.build start = .ok metric) : metric.alertIds.Nodup := by
  let c : Config := { start, matchers := [], metrics := [] }
  obtain ⟨hvalid, rfl⟩ := build_eq_ok_iff.mp (show m.build c.start = .ok metric from h)
  exact nodup_alertIds_installed hvalid c

namespace Pipeline

variable {World : Type}

def alertIds (p : Pipeline World) : List UInt64 :=
  p.metrics.flatMap Metric.alertIds

/-! ## Looking up detectors -/

theorem detector?_eq_find? (p : Pipeline World) (id : UInt64) :
    p.detector? id = (p.metrics.flatMap Metric.detectors).find? fun d => d.rule.id == id := by
  unfold detector? Metric.detector?
  rw [List.find?_flatMap]

/-- If the numbers of alerts differ, every detector is found by its own. -/
theorem detector?_of_nodup {p : Pipeline World} (h : p.alertIds.Nodup) {m : Metric}
    (hm : m ∈ p.metrics) {d : Detector} (hd : d ∈ m.detectors) :
    p.detector? d.rule.id = some d := by
  have hmem : d ∈ p.metrics.flatMap Metric.detectors := List.mem_flatMap.mpr ⟨m, hm, hd⟩
  have hids : ((p.metrics.flatMap Metric.detectors).map fun d => d.rule.id).Nodup := by
    rw [List.map_flatMap]
    exact h
  rw [detector?_eq_find?]
  cases hfind : (p.metrics.flatMap Metric.detectors).find? fun e => e.rule.id == d.rule.id with
  | none =>
      have hnot := List.find?_eq_none.mp hfind d hmem
      exact absurd (beq_self_eq_true _) hnot
  | some e =>
      have hsame : e.rule.id = d.rule.id := by simpa using List.find?_some hfind
      rw [List.inj_on_of_nodup_map hids (List.mem_of_find?_eq_some hfind) hmem hsame]

/-! ## Commands -/

theorem nodup_alertIds_append {p : Pipeline World} {metric : Metric} (hp : p.alertIds.Nodup)
    (hadmits : p.Admits metric) (hmetric : metric.alertIds.Nodup) :
    ({ p with metrics := p.metrics ++ [metric] } : Pipeline World).alertIds.Nodup := by
  unfold alertIds at hp ⊢
  rw [List.flatMap_append, List.flatMap_singleton, List.nodup_append]
  refine ⟨hp, hmetric, fun id hid other hother => ?_⟩
  obtain ⟨m, hm, hid⟩ := List.mem_flatMap.mp hid
  obtain ⟨e, he, rfl⟩ := List.mem_map.mp hid
  obtain ⟨d, hd, rfl⟩ := List.mem_map.mp hother
  exact hadmits.alertIds d hd m hm e he

theorem nodup_alertIds_replaced {c : Config} (h : c.validate = .ok ()) (p : Pipeline World) :
    ({ p.cleared c with metrics := c.metrics.map (MetricConfig.installed c) } :
      Pipeline World).alertIds.Nodup := by
  have hids : ((c.metrics.map (MetricConfig.installed c)).flatMap Metric.alertIds) =
      c.metrics.flatMap fun m => m.alerts.map AlertConfig.id := by
    rw [List.flatMap_map]
    apply List.flatMap_congr
    intro m _
    simp only [Metric.alertIds, MetricConfig.installed, List.map_map]
    rfl
  unfold alertIds
  rw [hids]
  exact (Config.sound_of_validate h).alertIds

theorem alertIds_onEvent (p : Pipeline World) (event : Event) (world : World) :
    (p.onEvent event world).pipeline.alertIds = p.alertIds := by
  have hkeeps : ∀ (m : Metric) (world : World),
      (m.handle event p.sink world).metric.alertIds = m.alertIds := by
    intro m world
    have hids := congrArg (List.map AlertRule.id) (m.map_rule_handle event p.sink world)
    rw [List.map_map, List.map_map] at hids
    exact hids
  have hmap := map_handleAll hkeeps (p.accepting event) p.metrics world
  have hflat := congrArg List.flatten hmap
  rw [← List.flatMap_def, ← List.flatMap_def] at hflat
  exact hflat

theorem nodup_alertIds_invariant :
    Invariant (fun m => m.alertIds.Nodup) fun p : Pipeline World => p.alertIds.Nodup where
  empty _ _ := List.nodup_nil
  addMatcher _ _ h := h
  install p metric h hadmits hmetric := by
    rcases hmetric with hhanded | ⟨config, hbuild⟩
    · exact nodup_alertIds_append h hadmits hhanded
    · exact nodup_alertIds_append h hadmits (MetricConfig.nodup_alertIds_of_build hbuild)
  remove p id h := by
    have hsub : (p.metrics.filter fun m => m.id != id).Sublist p.metrics := List.filter_sublist
    exact h.sublist (hsub.flatMap _)
  replace p c hvalid := nodup_alertIds_replaced hvalid p
  setSink _ _ h := h
  onEvent p event world h := by
    rw [alertIds_onEvent]
    exact h

/-! ## Which metrics may be handed over -/

/-- A pipeline without metrics admits any metric once it has a matcher for it. -/
theorem reachable_installed {Handed : Metric → Prop} {metric : Metric} (h : Handed metric)
    (sink : Sink World) (world : World) :
    ∃ p : Pipeline World, p.Reachable Handed ∧ p.metrics = [metric] := by
  let matcher : Matcher := { id := metric.matcherId, accepts := fun _ => true }
  let p := ((Pipeline.empty 0 sink).obey world (.addMatcher matcher)).pipeline
  have hp : p.Reachable Handed := .obey world _ (.empty 0 sink) trivial
  have hadmits : p.Admits metric :=
    ⟨⟨matcher, List.mem_singleton.mpr rfl, rfl⟩, fun m hm => (List.not_mem_nil hm).elim,
      fun d _ m hm => (List.not_mem_nil hm).elim⟩
  refine ⟨_, .obey world (.installMetric metric) hp h, ?_⟩
  rw [obey, (installMetric_of_admits hadmits).2]
  rfl

/-- The numbers of all alerts differ in all reachable pipelines, so that every detector is found by
its number, just when they differ in every metric that is handed over. -/
theorem forall_nodup_alertIds_iff [Inhabited World] (Handed : Metric → Prop) :
    (∀ p : Pipeline World, p.Reachable Handed →
      p.alertIds.Nodup ∧
      ∀ m ∈ p.metrics, ∀ d ∈ m.detectors,
        p.detector? d.rule.id = some d ∧
        ∀ key, p.refractoryEnd d.rule.id key = d.refractoryEnd key ∧
          p.sum d.rule.id key = d.sum key) ↔
      ∀ m, Handed m → m.alertIds.Nodup := by
  constructor
  · intro h m hm
    obtain ⟨p, hp, hmetrics⟩ := reachable_installed hm (Sink.log : Sink World) default
    have hids := (h p hp).1
    rw [alertIds, hmetrics, List.flatMap_singleton] at hids
    exact hids
  · intro h p hp
    have hids : p.alertIds.Nodup := (hp.mono h).invariant nodup_alertIds_invariant
    refine ⟨hids, fun m hm d hd => ?_⟩
    have hfound := detector?_of_nodup hids hm hd
    refine ⟨hfound, fun key => ⟨?_, ?_⟩⟩
    · rw [refractoryEnd, hfound]
      rfl
    · rw [sum, hfound]
      rfl

/-- A metric with two alerts of one number is accepted, and the second of its detectors is never
found. -/
theorem alertIds_of_twin_alerts :
    let first : AlertRule := ⟨9, 1, 1, 0, 0⟩
    let second : AlertRule := ⟨9, 1, 2, 5, 0⟩
    let metric := ((Metric.start 1 7 ⟨[]⟩ (.of 0 10)).attach first).attach second
    let p := ((empty 0 (Sink.log : Sink Unit)).obeyAll ()
      [.installMetric metric, .addMatcher ⟨7, fun _ => true⟩]).pipeline
    p.Reachable Metric.Built ∧ ¬p.alertIds.Nodup ∧
      p.alertIds = [9, 9] ∧ (p.detector? 9).map Detector.rule = some first := by
  intro first second metric p
  have hbuilt : metric.Built := .attach second (.attach first (.start 1 7 ⟨[]⟩ (.of 0 10)))
  have hids : p.alertIds = [9, 9] := by rfl
  refine ⟨?_, ?_, hids, by rfl⟩
  · exact .obey () (.installMetric metric)
      (.obey () (.addMatcher ⟨7, fun _ => true⟩) (.empty 0 Sink.log) trivial) hbuilt
  · rw [hids]
    decide

end Pipeline

end CountAlarm
