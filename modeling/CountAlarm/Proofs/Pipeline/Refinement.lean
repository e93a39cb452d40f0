import CountAlarm.Proofs.Pipeline.Contributions
import CountAlarm.Proofs.Pipeline.Run
/-!
# Pipelines fire what their configuration asks for

The detectors of a metric reflect what the metric counts of a stream, whatever its order:
`Reflects.onEvent`. On streams in order of time every event is within reach, so that each event
fires what its slices would fire alone, and the pipeline of a configuration that passes validation
fires the alerts of `Config.run`.
-/

namespace CountAlarm

open History

/-! ## Related lists -/

theorem map_eq_of_forall₂ {α β γ : Type} {R : α → β → Prop} {first : List α} {second : List β}
    (h : List.Forall₂ R first second) {f : α → γ} {g : β → γ} (heq : ∀ a b, R a b → f a = g b) :
    first.map f = second.map g := by
  induction h with
  | nil => rfl
  | cons hab _ ih => rw [List.map_cons, List.map_cons, heq _ _ hab, ih]

theorem forall_mem_of_forall₂ {α β : Type} {R : α → β → Prop} {first : List α} {second : List β}
    (h : List.Forall₂ R first second) {P : β → Prop} (himp : ∀ a b, R a b → P b) :
    ∀ b ∈ second, P b := by
  induction h with
  | nil => exact fun b hb => (List.not_mem_nil hb).elim
  | cons hab _ ih => exact List.forall_mem_cons.mpr ⟨himp _ _ hab, ih⟩

/-! ## Metrics -/

/-- A matcher with the number that a metric names accepts an event. -/
def MetricConfig.Routed (c : Config) (m : MetricConfig) (e : Event) : Prop :=
  ∃ matcher ∈ c.matchers, matcher.id = m.matcherId ∧ matcher.matchesEvent e = true

instance (c : Config) (m : MetricConfig) (e : Event) : Decidable (m.Routed c e) :=
  inferInstanceAs (Decidable (∃ matcher ∈ c.matchers, _ ∧ _))

/-- A metric is in a state that a stream leads to. -/
structure Metric.Reflects (metric : Metric) (c : Config) (m : MetricConfig)
    (events : List Event) : Prop where
  matcherId_eq : metric.matcherId = m.matcherId
  projection_eq : metric.projection = m.projection
  grid_eq : metric.grid = m.gridOf c
  detectors : List.Forall₂
    (fun a d => Detector.Reflects d (a.rule m.id) (m.gridOf c) (m.sightings c events))
    m.alerts metric.detectors

namespace Metric

variable {c : Config} {m : MetricConfig} {metric : Metric} {events : List Event} {e : Event}

theorem reflects_installed (c : Config) (m : MetricConfig) :
    (m.installed c).Reflects c m [] where
  matcherId_eq := rfl
  projection_eq := rfl
  grid_eq := rfl
  detectors := by
    unfold MetricConfig.installed
    rw [List.forall₂_map_right_iff, List.forall₂_same]
    intro a _
    exact Detector.reflects_start _ _

/-- An event that is not counted changes nothing. -/
theorem Reflects.skip (h : metric.Reflects c m events) (hnot : ¬m.Counts c e) :
    metric.Reflects c m (e :: events) where
  matcherId_eq := h.matcherId_eq
  projection_eq := h.projection_eq
  grid_eq := h.grid_eq
  detectors := by
    rw [MetricConfig.sightings_cons_of_not hnot]
    exact h.detectors

theorem observeAll_of_reflects {World : Type} (sink : Sink World) {g : BucketGrid}
    {history : List Sighting} {s : Sighting} (hone : s.amount = 1) (hstart : g.start ≤ s.time)
    {id : UInt64} {alerts : List AlertConfig} {detectors : List Detector}
    (h : List.Forall₂ (fun a d => Detector.Reflects d (a.rule id) g history) alerts detectors)
    (world : World) :
    (∃ detections, (observeAll sink s.key s.time detectors world).outcome = .ok detections ∧
        List.Forall₂ (fun a detection => (a.rule id).Judges g history s detection) alerts
          detections) ∧
      List.Forall₂ (fun a d => Detector.Reflects d (a.rule id) g (s :: history)) alerts
        (observeAll sink s.key s.time detectors world).detectors := by
  induction h generalizing world with
  | nil => exact ⟨⟨[], rfl, List.Forall₂.nil⟩, List.Forall₂.nil⟩
  | @cons a d alerts detectors hd hrest ih =>
      obtain ⟨o, hobserve, ho⟩ :=
        Detector.observe_of_start_le sink world (hd.grid_eq.symm ▸ hstart)
      obtain ⟨⟨detections, houtcome, hjudges⟩, hdetectors⟩ := ih o.world
      rw [hone] at hobserve
      unfold observeAll
      rw [hobserve]
      simp only
      rw [houtcome]
      exact ⟨⟨_, rfl, List.Forall₂.cons (hd.judges ho hstart) hjudges⟩,
        List.Forall₂.cons (hd.step ho hstart) hdetectors⟩

/-- A counted event is judged by all detectors. -/
theorem handle_of_counts {World : Type} (sink : Sink World) (world : World)
    (h : metric.Reflects c m events) (hcounts : m.Counts c e) :
    (∃ detections, (metric.handle e sink world).outcome = .ok detections ∧
        List.Forall₂
          (fun a detection => (a.rule m.id).Judges (m.gridOf c) (m.sightings c events)
            ⟨m.projection.keyOf e, 1, e.time⟩ detection)
          m.alerts detections) ∧
      (metric.handle e sink world).metric.Reflects c m (e :: events) := by
  have hstart : (m.gridOf c).start ≤ e.time := by
    rw [MetricConfig.start_gridOf]
    exact hcounts.2.1
  have hbucket : (metric.grid.bucketOf? e.time).isNone = false := by
    rw [h.grid_eq, BucketGrid.bucketOf?_of_start_le hstart]
    rfl
  have hkey : metric.projection.key? e = some (m.projection.keyOf e) := by
    rw [h.projection_eq, Projection.key?_eq, if_pos hcounts.2.2]
  obtain ⟨hjudged, hdetectors⟩ := observeAll_of_reflects sink
    (s := ⟨m.projection.keyOf e, 1, e.time⟩) rfl hstart h.detectors world
  unfold handle
  rw [hbucket, hkey]
  simp only [Bool.false_eq_true, if_false]
  refine ⟨hjudged, h.matcherId_eq, h.projection_eq, h.grid_eq, ?_⟩
  rw [MetricConfig.sightings_cons_of_counts hcounts]
  exact hdetectors

theorem handle_of_not {World : Type} (sink : Sink World) (world : World)
    (h : metric.Reflects c m events) (hnot : ¬(c.start ≤ e.time ∧ m.projection.Covers e)) :
    (metric.handle e sink world).outcome =
        .error (if c.start ≤ e.time then .missingField else .beforeStart) ∧
      (metric.handle e sink world).metric = metric := by
  have hstart := MetricConfig.start_gridOf c m
  unfold handle
  rw [h.grid_eq, h.projection_eq]
  by_cases hafter : c.start ≤ e.time
  · rw [BucketGrid.bucketOf?_of_start_le (hstart ▸ hafter), Projection.key?_eq,
      if_neg fun hcovers => hnot ⟨hafter, hcovers⟩, if_pos hafter]
    exact ⟨rfl, rfl⟩
  · rw [BucketGrid.bucketOf?_of_lt_start (hstart ▸ hafter), if_neg hafter]
    exact ⟨rfl, rfl⟩

theorem Reflects.handle {World : Type} (h : metric.Reflects c m events) (hrouted : m.Routed c e)
    (sink : Sink World) (world : World) :
    (metric.handle e sink world).metric.Reflects c m (e :: events) := by
  by_cases hrest : c.start ≤ e.time ∧ m.projection.Covers e
  · exact (handle_of_counts sink world h ⟨hrouted, hrest⟩).2
  · rw [(handle_of_not sink world h hrest).2]
    exact h.skip fun hcounts => hrest hcounts.2

/-- In order of time, a counted event fires what its slices would fire alone. -/
theorem filterMap_fired?_of_judges (hcounts : m.Counts c e)
    (hsorted : (e :: events).Pairwise fun late early => early.time ≤ late.time)
    {alerts : List AlertConfig} {detections : List Detection}
    (h : List.Forall₂
      (fun a detection => (a.rule m.id).Judges (m.gridOf c) (m.sightings c events)
        ⟨m.projection.keyOf e, 1, e.time⟩ detection)
      alerts detections) :
    detections.filterMap Detection.fired? =
      alerts.filterMap fun a => m.soloAlert? c a events e := by
  have hordered : Ordered (m.sightings c (e :: events)) := MetricConfig.ordered_sightings hsorted
  rw [MetricConfig.sightings_cons_of_counts hcounts] at hordered
  induction h with
  | nil => rfl
  | cons hfirst _ ih =>
      rw [List.filterMap_cons, List.filterMap_cons, ih,
        hfirst.solo (withinReach_of_ordered _ _ hordered),
        MetricConfig.soloAlert?_of_counts hcounts]

theorem alertsIn_verdicts (h : metric.Reflects c m events) (hrouted : m.Routed c e)
    (hsorted : (e :: events).Pairwise fun late early => early.time ≤ late.time) :
    alertsIn (metric.verdicts e) = m.alerts.filterMap fun a => m.soloAlert? c a events e := by
  unfold verdicts
  by_cases hrest : c.start ≤ e.time ∧ m.projection.Covers e
  · have hcounts : m.Counts c e := ⟨hrouted, hrest⟩
    obtain ⟨⟨detections, houtcome, hjudges⟩, -⟩ := handle_of_counts Sink.log () h hcounts
    rw [houtcome]
    exact filterMap_fired?_of_judges hcounts hsorted hjudges
  · have hnot : ¬m.Counts c e := fun hcounts => hrest hcounts.2
    rw [(handle_of_not Sink.log () h hrest).1, alertsIn, eq_comm, List.filterMap_eq_nil_iff]
    exact fun a _ => MetricConfig.soloAlert?_of_not hnot a events

end Metric

/-! ## Pipelines -/

/-- A pipeline after a part of a stream, and the alerts that the events fired. -/
structure Played (World : Type) where
  pipeline : Pipeline World
  world : World
  fired : FiredRun

namespace Pipeline

variable {World : Type}

/-- Feeds a stream through a pipeline. -/
def play (p : Pipeline World) (world : World) : List Event → Played World
  | [] => { pipeline := p, world, fired := [] }
  | e :: past =>
    let played := p.play world past
    let routed := played.pipeline.onEvent e played.world
    { pipeline := routed.pipeline
      world := routed.world
      fired := (e, routed.fired) :: played.fired }

theorem play_reverse (p : Pipeline World) (world : World) (stream : List Event) :
    p.play world stream.reverse =
      stream.foldl
        (fun played e =>
          let routed := played.pipeline.onEvent e played.world
          { pipeline := routed.pipeline
            world := routed.world
            fired := (e, routed.fired) :: played.fired })
        { pipeline := p, world, fired := [] } := by
  rw [← List.foldr_reverse]
  induction stream.reverse with
  | nil => rfl
  | cons e past ih => rw [play, ih, List.foldr_cons]

theorem Alike.play {Other : Type} {p : Pipeline World} {q : Pipeline Other}
    (h : p.Alike q) (world : World) (other : Other) (events : List Event) :
    (p.play world events).fired = (q.play other events).fired ∧
      (p.play world events).pipeline.Alike (q.play other events).pipeline := by
  induction events with
  | nil => exact ⟨rfl, h⟩
  | cons e past ih =>
      obtain ⟨hfired, halike⟩ := ih
      obtain ⟨hnow, halike'⟩ :=
        halike.onEvent e (p.play world past).world (q.play other past).world
      simp only [Pipeline.play]
      rw [hnow, hfired]
      exact ⟨rfl, halike'⟩

/-- A pipeline is in a state that a stream leads to. -/
structure Reflects (p : Pipeline World) (c : Config) (events : List Event) : Prop where
  matchers_eq : p.matchers = c.matchers.map AtomMatcher.toMatcher
  metrics : List.Forall₂ (fun m metric => Metric.Reflects metric c m events) c.metrics p.metrics

theorem mem_accepting_iff {p : Pipeline World} {c : Config}
    (h : p.matchers = c.matchers.map AtomMatcher.toMatcher) (e : Event) (id : UInt64) :
    id ∈ p.accepting e ↔
      ∃ matcher ∈ c.matchers, matcher.id = id ∧ matcher.matchesEvent e = true := by
  unfold accepting
  rw [h, List.mem_map]
  constructor
  · rintro ⟨accepted, hmem, rfl⟩
    obtain ⟨hmem, haccepts⟩ := List.mem_filter.mp hmem
    obtain ⟨matcher, hmatcher, rfl⟩ := List.mem_map.mp hmem
    exact ⟨matcher, hmatcher, rfl, haccepts⟩
  · rintro ⟨matcher, hmatcher, rfl, haccepts⟩
    exact ⟨matcher.toMatcher, List.mem_filter.mpr ⟨List.mem_map_of_mem hmatcher, haccepts⟩, rfl⟩

theorem Reflects.mem_accepting_iff {p : Pipeline World} {c : Config} {events : List Event}
    (h : p.Reflects c events) {m : MetricConfig} {metric : Metric}
    (hm : metric.Reflects c m events) (e : Event) :
    metric.matcherId ∈ p.accepting e ↔ m.Routed c e := by
  rw [hm.matcherId_eq, Pipeline.mem_accepting_iff h.matchers_eq]
  rfl

theorem handleAll_of_reflects (sink : Sink World) {c : Config} {events : List Event} {e : Event}
    {accepting : List UInt64} {configs : List MetricConfig} {metrics : List Metric}
    (haccepting : ∀ (m : MetricConfig) (metric : Metric), metric.Reflects c m events →
      (metric.matcherId ∈ accepting ↔ m.Routed c e))
    (h : List.Forall₂ (fun m metric => Metric.Reflects metric c m events) configs metrics)
    (world : World) :
    List.Forall₂ (fun m metric => Metric.Reflects metric c m (e :: events)) configs
      (handleAll sink e accepting metrics world).metrics := by
  induction h generalizing world with
  | nil => exact List.Forall₂.nil
  | @cons m metric configs metrics hm hrest ih =>
      by_cases haccepted : metric.matcherId ∈ accepting
      · rw [(handleAll_cons_of_mem haccepted world).1]
        have hrouted := (haccepting m metric hm).mp haccepted
        exact List.Forall₂.cons (hm.handle hrouted sink world) (ih _)
      · rw [handleAll_cons_of_not_mem haccepted world]
        have hnot : ¬m.Counts c e := fun hcounts =>
          haccepted ((haccepting m metric hm).mpr hcounts.1)
        exact List.Forall₂.cons (hm.skip hnot) (ih world)

theorem Reflects.onEvent {p : Pipeline World} {c : Config} {events : List Event}
    (h : p.Reflects c events) (e : Event) (world : World) :
    (p.onEvent e world).pipeline.Reflects c (e :: events) where
  matchers_eq := h.matchers_eq
  metrics := handleAll_of_reflects p.sink (fun _ _ hm => h.mem_accepting_iff hm e) h.metrics world

/-- In order of time, a metric adds to the alerts of an event what its slices would fire alone. -/
theorem Reflects.contribution_eq {p : Pipeline World} {c : Config} {events : List Event}
    {e : Event} (h : p.Reflects c events)
    (hsorted : (e :: events).Pairwise fun late early => early.time ≤ late.time)
    {m : MetricConfig} {metric : Metric} (hm : metric.Reflects c m events) :
    p.contribution e metric = m.alerts.filterMap fun a => m.soloAlert? c a events e := by
  unfold contribution
  by_cases hrouted : m.Routed c e
  · rw [if_pos ((h.mem_accepting_iff hm e).mpr hrouted)]
    exact Metric.alertsIn_verdicts hm hrouted hsorted
  · rw [if_neg fun hmem => hrouted ((h.mem_accepting_iff hm e).mp hmem), eq_comm,
      List.filterMap_eq_nil_iff]
    exact fun a _ => MetricConfig.soloAlert?_of_not (fun hcounts => hrouted hcounts.1) a events

theorem Reflects.fired_onEvent {p : Pipeline World} {c : Config} {events : List Event} {e : Event}
    (h : p.Reflects c events)
    (hsorted : (e :: events).Pairwise fun late early => early.time ≤ late.time) (world : World) :
    (p.onEvent e world).fired = c.soloAlertsAt events e := by
  have hmap := map_eq_of_forall₂ h.metrics fun _ _ hm => (h.contribution_eq hsorted hm).symm
  rw [Pipeline.fired_onEvent, List.flatMap_def, ← hmap]
  rfl

theorem Reflects.play {p : Pipeline World} {c : Config} (h : p.Reflects c []) (world : World)
    (events : List Event) : (p.play world events).pipeline.Reflects c events := by
  induction events with
  | nil => exact h
  | cons e past ih => exact ih.onEvent e _

theorem fired_play {p : Pipeline World} {c : Config} (hsound : c.Sound) (h : p.Reflects c [])
    (world : World) {events : List Event}
    (hsorted : events.Pairwise fun late early => early.time ≤ late.time)
    (hlength : events.length ≤ countLimit) : (p.play world events).fired = c.run events := by
  induction events with
  | nil => rfl
  | cons e past ih =>
      have hpast := ih (List.pairwise_cons.mp hsorted).2 (Nat.le_of_succ_le hlength)
      have hnow := (h.play world past).fired_onEvent hsorted (p.play world past).world
      rw [Pipeline.play, Config.run_cons_eq hsound hsorted hlength, ← hpast, ← hnow]

theorem reflects_ofConfig {c : Config} (hvalid : c.validate = .ok ()) (sink : Sink World) :
    (ofConfig c sink).pipeline.Reflects c [] := by
  rw [(ofConfig_ok hvalid sink).2]
  refine ⟨rfl, ?_⟩
  rw [List.forall₂_map_right_iff, List.forall₂_same]
  intro m _
  exact Metric.reflects_installed c m

/-- A pipeline fires just the alerts that its configuration asks for. -/
theorem play_ofConfig (c : Config) (sink : Sink World) (world : World) (events : List Event)
    (hvalid : c.validate = .ok ())
    (hsorted : events.Pairwise fun late early => early.time ≤ late.time)
    (hlength : events.length < 2 ^ 63) :
    (ofConfig c sink).outcome = .ok () ∧
      ((ofConfig c sink).pipeline.play world events).fired = c.run events := by
  have hshort : events.length ≤ countLimit := by
    unfold countLimit
    omega
  exact ⟨(ofConfig_ok hvalid sink).1, fired_play (Config.sound_of_validate hvalid)
    (reflects_ofConfig hvalid sink) world hsorted hshort⟩

/-- The second event is too low for the matcher, the third one fires, the fourth one comes in the
second of the alert and the fifth one long after. -/
theorem play_ofConfig_five_events :
    let c : Config :=
      { start := 0
        matchers := [⟨7, 3, [⟨4, .fits "n*"⟩, ⟨6, .above 3⟩]⟩]
        metrics := [⟨1, 7, [5], none, some 10, [⟨9, 2, 1, 0⟩]⟩] }
    let event : UInt64 → Int32 → Event := fun time level =>
      ⟨time, 3, [⟨4, .bytes [110, 49]⟩, ⟨5, .int 8⟩, ⟨6, .int level⟩]⟩
    let events := [event 2000000000 4, event 12 4, event 5 4, event 3 2, event 1 4]
    let alert : Alert := ⟨9, 1, .ofList [⟨5, .int 8⟩], 5, 2, 1, 1⟩
    (c.validate = .ok () ∧ (events.Pairwise fun late early => early.time ≤ late.time) ∧
      events.length < 2 ^ 63) ∧
    ((ofConfig c Sink.log).pipeline.play () events).fired =
      [(event 2000000000 4, []), (event 12 4, []), (event 5 4, [alert]), (event 3 2, []),
        (event 1 4, [])] := by
  intro c event events alert
  have hvalid : c.validate = .ok () := by rfl
  have hsorted : events.Pairwise fun late early => early.time ≤ late.time := by decide
  have hlength : events.length < 2 ^ 63 := by decide
  refine ⟨⟨hvalid, hsorted, hlength⟩, ?_⟩
  rw [(play_ofConfig c Sink.log () events hvalid hsorted hlength).2]
  decide +kernel

end Pipeline

end CountAlarm
