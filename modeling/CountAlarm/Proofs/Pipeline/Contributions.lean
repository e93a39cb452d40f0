import CountAlarm.Proofs.Alerting.SinkIndependence
import CountAlarm.Proofs.Pipeline.Commands
/-!
# What each metric contributes

Metrics share an event and a sink and nothing else. So the alerts that an event fires are those that
each metric with an accepting matcher would fire by itself, in the order of the metrics, and
likewise for drops. Two pipelines with the same matchers and metrics therefore stay `Alike`,
whatever their sinks do.
-/

namespace CountAlarm

namespace Pipeline

section HandleAll

variable {World : Type} (sink : Sink World) (event : Event) (accepting : List UInt64)
  (metrics : List Metric) (world : World)

theorem fired_handleAll :
    (handleAll sink event accepting metrics world).fired = metrics.flatMap fun m =>
      if m.matcherId ∈ accepting then alertsIn (m.verdicts event) else [] := by
  induction metrics generalizing world with
  | nil => rfl
  | cons m rest ih =>
      rw [List.flatMap_cons]
      by_cases haccepted : m.matcherId ∈ accepting
      · rw [(handleAll_cons_of_mem haccepted world).2.1, if_pos haccepted, m.outcome_handle, ih]
      · rw [handleAll_cons_of_not_mem haccepted world, if_neg haccepted, List.nil_append]
        exact ih world

theorem drops_handleAll :
    (handleAll sink event accepting metrics world).drops = metrics.filterMap fun m =>
      if m.matcherId ∈ accepting then dropIn? (m.verdicts event) else none := by
  induction metrics generalizing world with
  | nil => rfl
  | cons m rest ih =>
      by_cases haccepted : m.matcherId ∈ accepting
      · rw [(handleAll_cons_of_mem haccepted world).2.2.1, m.outcome_handle, ih]
        cases hdrop : dropIn? (m.verdicts event) with
        | none => rw [List.filterMap_cons_none (by rw [if_pos haccepted, hdrop])]; rfl
        | some cause => rw [List.filterMap_cons_some (by rw [if_pos haccepted, hdrop])]; rfl
      · rw [handleAll_cons_of_not_mem haccepted world,
          List.filterMap_cons_none (by rw [if_neg haccepted])]
        exact ih world

theorem sansFailures_handleAll :
    (handleAll sink event accepting metrics world).metrics.map Metric.sansFailures =
      metrics.map fun m =>
        if m.matcherId ∈ accepting then m.after event else m.sansFailures := by
  induction metrics generalizing world with
  | nil => rfl
  | cons m rest ih =>
      rw [List.map_cons]
      by_cases haccepted : m.matcherId ∈ accepting
      · rw [(handleAll_cons_of_mem haccepted world).1, List.map_cons, if_pos haccepted,
          m.sansFailures_handle, ih]
      · rw [handleAll_cons_of_not_mem haccepted world, List.map_cons, if_neg haccepted, ih]

end HandleAll

/-! ## Events -/

variable {World Other : Type}

/-- The alerts that a metric fires at an event, if its matcher accepts it. -/
def contribution (p : Pipeline World) (event : Event) (m : Metric) : List Alert :=
  if m.matcherId ∈ p.accepting event then alertsIn (m.verdicts event) else []

theorem fired_onEvent (p : Pipeline World) (event : Event) (world : World) :
    (p.onEvent event world).fired = p.metrics.flatMap (p.contribution event) :=
  fired_handleAll p.sink event (p.accepting event) p.metrics world

theorem sansFailures_onEvent (p : Pipeline World) (event : Event) (world : World) :
    (p.onEvent event world).pipeline.metrics.map Metric.sansFailures =
      p.metrics.map fun m =>
        if m.matcherId ∈ p.accepting event then m.after event else m.sansFailures :=
  sansFailures_handleAll p.sink event (p.accepting event) p.metrics world

/-- Two pipelines have the same matchers, and the same metrics but for sink failures. -/
structure Alike (p : Pipeline World) (q : Pipeline Other) : Prop where
  matchers : p.matchers = q.matchers
  metrics : p.metrics.map Metric.sansFailures = q.metrics.map Metric.sansFailures

theorem Alike.accepting {p : Pipeline World} {q : Pipeline Other} (h : p.Alike q)
    (event : Event) : p.accepting event = q.accepting event := by
  unfold Pipeline.accepting
  rw [h.matchers]

/-- What does not hang on sink failures is the same for the metrics of both. -/
theorem Alike.map_metrics {p : Pipeline World} {q : Pipeline Other} (h : p.Alike q) {α : Type}
    {f : Metric → α} (hf : ∀ m, f m.sansFailures = f m) : p.metrics.map f = q.metrics.map f := by
  have hsans : ∀ metrics : List Metric,
      metrics.map f = (metrics.map Metric.sansFailures).map f := by
    intro metrics
    rw [List.map_map]
    exact List.map_congr_left fun m _ => (hf m).symm
  rw [hsans, h.metrics, ← hsans]

theorem Alike.onEvent {p : Pipeline World} {q : Pipeline Other} (h : p.Alike q) (event : Event)
    (world : World) (other : Other) :
    (p.onEvent event world).fired = (q.onEvent event other).fired ∧
      (p.onEvent event world).pipeline.Alike (q.onEvent event other).pipeline := by
  have haccepting := h.accepting event
  refine ⟨?_, h.matchers, ?_⟩
  · have hcontribution : p.contribution event = q.contribution event := by
      funext m
      unfold contribution
      rw [haccepting]
    have hmap : p.metrics.map (q.contribution event) = q.metrics.map (q.contribution event) := by
      apply h.map_metrics
      intro m
      unfold contribution
      rw [m.verdicts_sansFailures event]
      rfl
    rw [fired_onEvent, fired_onEvent, hcontribution, List.flatMap_def, List.flatMap_def, hmap]
  · rw [sansFailures_onEvent, sansFailures_onEvent, haccepting]
    apply h.map_metrics
    intro m
    rw [m.after_sansFailures event, m.sansFailures_sansFailures]
    rfl

end Pipeline

end CountAlarm
