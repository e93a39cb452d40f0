import CountAlarm.Proofs.Alerting.Step
import CountAlarm.Proofs.Pipeline.Installation
/-!
# Commands

All that a pipeline can be asked to do, as data: to handle an event, or to change its matchers, its
metrics or its sink. Like a stream, commands are listed with the latest first. `Reachable` are the
pipelines that commands lead to. What is true of all of them is an `Invariant`: every change of the
parts of a pipeline keeps it. `Wired` is one.
-/

namespace CountAlarm

/-- What a pipeline can be asked to do. -/
inductive Command (World : Type) where
  | addMatcher (matcher : Matcher)
  | addMetric (config : MetricConfig)
  /-- Adds a metric that was not built from a configuration. -/
  | installMetric (metric : Metric)
  | removeMetric (id : UInt64)
  | replaceConfig (config : Config)
  | setSink (sink : Sink World)
  | handle (event : Event)

/-- A metric and its alerts as they are put together by hand: no numbers are compared. -/
inductive Metric.Built : Metric → Prop where
  | start (id matcherId : UInt64) (projection : Projection) (grid : BucketGrid) :
      Built (.start id matcherId projection grid)
  | attach {m : Metric} (rule : AlertRule) : Built m → Built (m.attach rule)

/-- A command hands over no metric but those of some kind. -/
def Command.Hands {World : Type} (Handed : Metric → Prop) : Command World → Prop
  | .installMetric metric => Handed metric
  | _ => True

/-- The events among some commands. -/
def Command.event? {World : Type} : Command World → Option Event
  | .handle event => some event
  | _ => none

namespace Pipeline

variable {World : Type}

/-- Does what a command asks for. Only events fire alerts. -/
def obey (p : Pipeline World) (world : World) : Command World → Routed World
  | .addMatcher matcher => { pipeline := p.addMatcher matcher, fired := [], world, log := [] }
  | .addMetric config =>
    let changed := p.addMetric config
    { pipeline := changed.pipeline, fired := [], world, log := changed.log }
  | .installMetric metric =>
    let changed := p.installMetric metric
    { pipeline := changed.pipeline, fired := [], world, log := changed.log }
  | .removeMetric id =>
    let removed := p.removeMetric id
    { pipeline := removed.2.1, fired := [], world, log := removed.2.2 }
  | .replaceConfig config =>
    let changed := p.replaceConfig config
    { pipeline := changed.pipeline, fired := [], world, log := changed.log }
  | .setSink sink => { pipeline := p.setSink sink, fired := [], world, log := [] }
  | .handle event => p.onEvent event world

/-- Does what some commands ask for, and returns what the latest one came to. -/
def obeyAll (p : Pipeline World) (world : World) : List (Command World) → Routed World
  | [] => { pipeline := p, fired := [], world, log := [] }
  | command :: past =>
    let before := p.obeyAll world past
    before.pipeline.obey before.world command

/-- A pipeline that commands lead to, of which no one hands over a metric but those of some kind.
The world of the sink may change in any way between two commands. -/
inductive Reachable (Handed : Metric → Prop) : Pipeline World → Prop where
  | empty (start : UInt64) (sink : Sink World) : Reachable Handed (empty start sink)
  | ofConfig (config : Config) (sink : Sink World) (h : (ofConfig config sink).outcome = .ok ()) :
      Reachable Handed (ofConfig config sink).pipeline
  | obey {p : Pipeline World} (world : World) (command : Command World)
      (hp : Reachable Handed p) (h : command.Hands Handed) :
      Reachable Handed (p.obey world command).pipeline

theorem Reachable.mono {p : Pipeline World} {Handed Allowed : Metric → Prop}
    (h : p.Reachable Handed) (hle : ∀ m, Handed m → Allowed m) : p.Reachable Allowed := by
  induction h with
  | empty start sink => exact .empty start sink
  | ofConfig config sink h => exact .ofConfig config sink h
  | obey world command _ h ih =>
      refine .obey world command ih ?_
      cases command with
      | installMetric metric => exact hle metric h
      | _ => trivial

/-! ## What a command does -/

theorem replaceConfig_cases (p : Pipeline World) (config : Config) :
    (p.replaceConfig config).pipeline = p ∨
      config.validate = .ok () ∧ (p.replaceConfig config).pipeline =
        { p.cleared config with
          metrics := config.metrics.map (MetricConfig.installed config) } := by
  cases hvalid : config.validate with
  | error rejection => exact Or.inl (replaceConfig_of_error hvalid p).2
  | ok => exact Or.inr ⟨rfl, (replaceConfig_of_validate hvalid p).2⟩

/-! ## Invariants -/

/-- What no change of the parts of a pipeline breaks, as long as the metrics that are handed over
are of some kind. -/
structure Invariant (Handed : Metric → Prop) (P : Pipeline World → Prop) : Prop where
  empty : ∀ start sink, P (.empty start sink)
  addMatcher : ∀ p matcher, P p → P (p.addMatcher matcher)
  install : ∀ p metric, P p → p.Admits metric →
    (Handed metric ∨ ∃ config : MetricConfig, config.build p.start = .ok metric) →
    P { p with metrics := p.metrics ++ [metric] }
  remove : ∀ p id, P p → P { p with metrics := p.metrics.filter fun m => m.id != id }
  replace : ∀ (p : Pipeline World) (c : Config), c.validate = .ok () →
    P { p.cleared c with metrics := c.metrics.map (MetricConfig.installed c) }
  setSink : ∀ p sink, P p → P (p.setSink sink)
  onEvent : ∀ p event world, P p → P (p.onEvent event world).pipeline

section Invariant

variable {Handed : Metric → Prop} {P : Pipeline World → Prop} {p : Pipeline World}

theorem Invariant.replaceConfig (inv : Invariant Handed P) (hp : P p) (config : Config) :
    P (p.replaceConfig config).pipeline := by
  rcases p.replaceConfig_cases config with hsame | ⟨hvalid, hnew⟩
  · rw [hsame]
    exact hp
  · rw [hnew]
    exact inv.replace p config hvalid

theorem Invariant.obey (inv : Invariant Handed P) (hp : P p) (world : World)
    {command : Command World} (h : command.Hands Handed) :
    P (p.obey world command).pipeline := by
  cases command with
  | addMatcher matcher => exact inv.addMatcher p matcher hp
  | removeMetric id => exact inv.remove p id hp
  | replaceConfig config => exact inv.replaceConfig hp config
  | setSink sink => exact inv.setSink p sink hp
  | handle event => exact inv.onEvent p event world hp
  | installMetric metric =>
      rcases p.installMetric_cases metric with ⟨_, -, hsame⟩ | ⟨hadmits, -, hnew⟩
      · rw [Pipeline.obey, hsame]
        exact hp
      · rw [Pipeline.obey, hnew]
        exact inv.install p metric hp hadmits (Or.inl h)
  | addMetric config =>
      rcases p.addMetric_cases config with ⟨_, -, hsame⟩ | ⟨metric, hbuild, hadmits, -, hnew⟩
      · rw [Pipeline.obey, hsame]
        exact hp
      · rw [Pipeline.obey, hnew]
        exact inv.install p metric hp hadmits (Or.inr ⟨config, hbuild⟩)

theorem Reachable.invariant (h : p.Reachable Handed) (inv : Invariant Handed P) : P p := by
  induction h with
  | empty start sink => exact inv.empty start sink
  | ofConfig config sink _ => exact inv.replaceConfig (inv.empty config.start sink) config
  | obey world command _ h ih => exact inv.obey ih world h

end Invariant

end Pipeline

/-! ## What events leave as it is -/

namespace Metric

variable {World : Type}

theorem map_rule_observeAll (sink : Sink World) (key : SliceKey) (time : UInt64)
    (detectors : List Detector) (world : World) :
    (observeAll sink key time detectors world).detectors.map Detector.rule =
      detectors.map Detector.rule := by
  induction detectors generalizing world with
  | nil => rfl
  | cons d rest ih =>
      unfold observeAll
      split
      · rfl
      · next o hobserve =>
        have hrest := ih o.world
        have hrule := (Detector.observes_of_observe (s := ⟨key, 1, time⟩) hobserve).2.rule
        rw [List.map_cons, List.map_cons, hrule, hrest]

variable (m : Metric) (event : Event) (sink : Sink World) (world : World)

theorem id_handle : (m.handle event sink world).metric.id = m.id := by
  unfold handle
  split
  · rfl
  · split <;> rfl

theorem matcherId_handle : (m.handle event sink world).metric.matcherId = m.matcherId := by
  unfold handle
  split
  · rfl
  · split <;> rfl

theorem map_rule_handle :
    (m.handle event sink world).metric.detectors.map Detector.rule =
      m.detectors.map Detector.rule := by
  unfold handle
  split
  · rfl
  · split
    · rfl
    · exact map_rule_observeAll _ _ _ _ _

end Metric

/-! ## One metric after the other -/

/-- The alerts that detectors fired at an event. -/
def alertsIn : Except DropCause (List Detection) → List Alert
  | .ok detections => detections.filterMap Detection.fired?
  | .error _ => []

/-- Why an event was dropped, if it was. -/
def dropIn? : Except DropCause (List Detection) → Option DropCause
  | .ok _ => none
  | .error cause => some cause

/-- What a metric leaves in the log when it has handled an event. -/
def Handled.entries {World : Type} (handled : Handled World) (event : Event) : List LogEntry :=
  match handled.outcome with
  | .ok _ => handled.log
  | .error cause => handled.log ++ [.eventDropped handled.metric.id event.atom event.time cause]

namespace Pipeline

section HandleAll

variable {World : Type} {sink : Sink World} {event : Event} {accepting : List UInt64}
  {m : Metric} {rest : List Metric}

/-- A metric whose matcher accepts an event handles it, and then the others do. -/
theorem handleAll_cons_eq (h : m.matcherId ∈ accepting) (world : World) :
    let handled := m.handle event sink world
    let others := handleAll sink event accepting rest handled.world
    handleAll sink event accepting (m :: rest) world =
      { metrics := handled.metric :: others.metrics
        fired := alertsIn handled.outcome ++ others.fired
        drops := (dropIn? handled.outcome).toList ++ others.drops
        world := others.world
        log := handled.entries event ++ others.log } := by
  intro handled others
  have hid : handled.metric.id = m.id := m.id_handle event sink world
  unfold Handled.entries
  rw [hid]
  simp only [handleAll, if_pos h, handled]
  cases (m.handle event sink world).outcome with
  | ok detections => rfl
  | error cause =>
      simp only [List.append_assoc]
      rfl

theorem handleAll_cons_of_mem (h : m.matcherId ∈ accepting) (world : World) :
    let handled := m.handle event sink world
    let others := handleAll sink event accepting rest handled.world
    let all := handleAll sink event accepting (m :: rest) world
    all.metrics = handled.metric :: others.metrics ∧
      all.fired = alertsIn handled.outcome ++ others.fired ∧
      all.drops = (dropIn? handled.outcome).toList ++ others.drops ∧
      all.world = others.world := by
  intro handled others all
  simp only [all, handleAll_cons_eq h world]
  exact ⟨rfl, rfl, rfl, rfl⟩

theorem handleAll_cons_of_not_mem (h : m.matcherId ∉ accepting) (world : World) :
    let others := handleAll sink event accepting rest world
    handleAll sink event accepting (m :: rest) world =
      { others with metrics := m :: others.metrics } := by
  intro others
  simp only [handleAll, if_neg h]
  rfl

/-- What every metric keeps when it handles an event, all metrics of a pipeline keep. -/
theorem map_handleAll {α : Type} {f : Metric → α}
    (h : ∀ (m : Metric) (world : World), f (m.handle event sink world).metric = f m)
    (accepting : List UInt64) (metrics : List Metric) (world : World) :
    (handleAll sink event accepting metrics world).metrics.map f = metrics.map f := by
  induction metrics generalizing world with
  | nil => rfl
  | cons m rest ih =>
      by_cases haccepted : m.matcherId ∈ accepting
      · rw [(handleAll_cons_of_mem haccepted world).1, List.map_cons, List.map_cons, h, ih]
      · rw [handleAll_cons_of_not_mem haccepted world, List.map_cons, List.map_cons, ih]

end HandleAll

end Pipeline

/-! ## Wiring -/

theorem nodup_map_concat {α β : Type} {f : α → β} {l : List α} {a : α} (h : (l.map f).Nodup)
    (hnew : ∀ b ∈ l, f b ≠ f a) : ((l ++ [a]).map f).Nodup := by
  rw [List.map_append, List.map_singleton, List.nodup_append]
  refine ⟨h, List.nodup_singleton _, fun old hold new hnew' => ?_⟩
  obtain ⟨b, hb, rfl⟩ := List.mem_map.mp hold
  rw [List.mem_singleton.mp hnew']
  exact hnew b hb

namespace Pipeline

variable {World : Type}

/-- The numbers of matchers differ, those of metrics differ, and the matchers of all metrics are
there. -/
structure Wired (p : Pipeline World) : Prop where
  matcherIds : (p.matchers.map Matcher.id).Nodup
  metricIds : (p.metrics.map Metric.id).Nodup
  known : ∀ id ∈ p.metrics.map Metric.matcherId, id ∈ p.matchers.map Matcher.id

theorem Wired.addMatcher {p : Pipeline World} (h : p.Wired) (matcher : Matcher) :
    (p.addMatcher matcher).Wired where
  matcherIds := by
    have hkept : ((p.matchers.filter fun m => m.id != matcher.id).map Matcher.id).Nodup :=
      h.matcherIds.sublist (List.filter_sublist.map _)
    exact nodup_map_concat hkept fun m hm => bne_iff_ne.mp (List.mem_filter.mp hm).2
  metricIds := h.metricIds
  known := by
    intro id hid
    obtain ⟨m, hm, rfl⟩ := List.mem_map.mp (h.known id hid)
    unfold Pipeline.addMatcher
    rw [List.map_append, List.mem_append]
    by_cases hsame : m.id = matcher.id
    · exact Or.inr (hsame ▸ List.mem_singleton.mpr rfl)
    · exact Or.inl (List.mem_map_of_mem (List.mem_filter.mpr ⟨hm, bne_iff_ne.mpr hsame⟩))

theorem Wired.install {p : Pipeline World} (h : p.Wired) {metric : Metric}
    (hadmits : p.Admits metric) :
    ({ p with metrics := p.metrics ++ [metric] } : Pipeline World).Wired where
  matcherIds := h.matcherIds
  metricIds := nodup_map_concat h.metricIds hadmits.metricId
  known := by
    rw [List.map_append, List.forall_mem_append]
    refine ⟨h.known, fun id hid => ?_⟩
    obtain ⟨matcher, hmatcher, hid'⟩ := hadmits.matcher
    rw [List.mem_singleton.mp hid, ← hid']
    exact List.mem_map_of_mem hmatcher

theorem wired_replaced {c : Config} (hvalid : c.validate = .ok ()) (p : Pipeline World) :
    ({ p.cleared c with metrics := c.metrics.map (MetricConfig.installed c) } :
      Pipeline World).Wired where
  matcherIds := by
    rw [cleared, List.map_map]
    exact Config.matcherIds_of_validate hvalid
  metricIds := by
    rw [List.map_map]
    exact (Config.sound_of_validate hvalid).metricIds
  known := by
    rw [cleared, List.map_map, List.map_map, List.forall_mem_map]
    exact (Config.sound_of_validate hvalid).matcher

theorem Wired.onEvent {p : Pipeline World} (h : p.Wired) (event : Event) (world : World) :
    (p.onEvent event world).pipeline.Wired where
  matcherIds := h.matcherIds
  metricIds := by
    have hids := map_handleAll (f := Metric.id) (fun m world => m.id_handle event p.sink world)
      (p.accepting event) p.metrics world
    exact hids ▸ h.metricIds
  known := by
    have hids := map_handleAll (f := Metric.matcherId)
      (fun m world => m.matcherId_handle event p.sink world) (p.accepting event) p.metrics world
    exact hids ▸ h.known

theorem wired_invariant : Invariant (fun _ => True) fun p : Pipeline World => p.Wired where
  empty _ _ := ⟨List.nodup_nil, List.nodup_nil, fun _ h => (List.not_mem_nil h).elim⟩
  addMatcher _ matcher h := h.addMatcher matcher
  install _ _ h hadmits _ := h.install hadmits
  remove _ _ h :=
    ⟨h.matcherIds, h.metricIds.sublist (List.filter_sublist.map _), fun id hid =>
      h.known id ((List.filter_sublist.map _).subset hid)⟩
  replace p _ hvalid := wired_replaced hvalid p
  setSink _ _ h := ⟨h.matcherIds, h.metricIds, h.known⟩
  onEvent _ event world h := h.onEvent event world

end Pipeline

end CountAlarm
