import CountAlarm.Proofs.Alerting.Accounts
import CountAlarm.Proofs.Pipeline.Refinement
/-!
# Pipelines account for what they fire

The detections of the metrics that an event is routed to account for the counters of all detectors
and for the world of the sink, event by event: `accounts_play`. So the sink is handed just the
alerts that are returned, in their order.
-/

namespace CountAlarm

theorem alertsIn_eq (outcome : Except DropCause (List Detection)) :
    alertsIn outcome = alertsOf (detectionsIn outcome) := by
  cases outcome <;> rfl

theorem Metric.Reflects.uniform {metric : Metric} {c : Config} {m : MetricConfig}
    {events : List Event} (h : metric.Reflects c m events) : metric.Uniform :=
  forall_mem_of_forall₂ h.detectors fun _ _ hd => hd.grid_eq.trans h.grid_eq.symm

namespace Pipeline

variable {World : Type}

theorem Reflects.uniform {p : Pipeline World} {c : Config} {events : List Event}
    (h : p.Reflects c events) : ∀ metric ∈ p.metrics, metric.Uniform :=
  forall_mem_of_forall₂ h.metrics fun _ _ hm => hm.uniform

def detectors (p : Pipeline World) : List Detector :=
  p.metrics.flatMap Metric.detectors

/-- What a metric's detectors make of an event, if its matcher's number is an accepting one. -/
def detectionsOf (event : Event) (accepting : List UInt64) (m : Metric) : List Detection :=
  if m.matcherId ∈ accepting then detectionsIn (m.verdicts event) else []

def detections (p : Pipeline World) (event : Event) : List Detection :=
  p.metrics.flatMap (detectionsOf event (p.accepting event))

theorem fired_eq_alertsOf (p : Pipeline World) (event : Event) (world : World) :
    (p.onEvent event world).fired = alertsOf (p.detections event) := by
  have heach : ∀ m : Metric, p.contribution event m =
      alertsOf (detectionsOf event (p.accepting event) m) := by
    intro m
    unfold contribution detectionsOf
    split
    · exact alertsIn_eq _
    · rfl
  rw [fired_onEvent, detections, alertsOf, List.filterMap_flatMap]
  exact List.flatMap_congr fun m _ => heach m

theorem accounts_handleAll (sink : Sink World) (event : Event) (accepting : List UInt64)
    {metrics : List Metric} (h : ∀ m ∈ metrics, m.Uniform) (world : World) :
    let handled := handleAll sink event accepting metrics world
    Accounts sink (metrics.flatMap (detectionsOf event accepting))
      (metrics.flatMap Metric.detectors) (handled.metrics.flatMap Metric.detectors) world
      handled.world := by
  induction metrics generalizing world with
  | nil => exact Accounts.nil [] world
  | cons m rest ih =>
      obtain ⟨hm, hrest⟩ := List.forall_mem_cons.mp h
      simp only
      rw [List.flatMap_cons, List.flatMap_cons]
      by_cases haccepted : m.matcherId ∈ accepting
      · have hfirst := Metric.accounts_handle sink hm event world
        obtain ⟨hmetrics, -, -, hworld⟩ := handleAll_cons_of_mem haccepted world
        rw [hmetrics, hworld, List.flatMap_cons, detectionsOf, if_pos haccepted,
          ← m.outcome_handle event sink world]
        exact hfirst.append (ih hrest _)
      · rw [handleAll_cons_of_not_mem haccepted world, List.flatMap_cons, detectionsOf,
          if_neg haccepted]
        exact (Accounts.nil m.detectors world).append (ih hrest world)

theorem accounts_onEvent {p : Pipeline World} (h : ∀ m ∈ p.metrics, m.Uniform) (event : Event)
    (world : World) :
    Accounts p.sink (p.detections event) p.detectors (p.onEvent event world).pipeline.detectors
      world (p.onEvent event world).world :=
  accounts_handleAll p.sink event (p.accepting event) h world

/-! ## Streams -/

/-- The detections on all events of a stream, in the order of time. -/
def allDetections (p : Pipeline World) (world : World) : List Event → List Detection
  | [] => []
  | e :: past => p.allDetections world past ++ (p.play world past).pipeline.detections e

theorem sink_play (p : Pipeline World) (world : World) (events : List Event) :
    (p.play world events).pipeline.sink = p.sink := by
  induction events with
  | nil => rfl
  | cons e past ih => exact ih

/-- The alerts that a stream fired, in the order of time. -/
def alertsOfRun (run : FiredRun) : List Alert :=
  run.reverse.flatMap Prod.snd

theorem alertsOfRun_play (p : Pipeline World) (world : World) (events : List Event) :
    alertsOfRun (p.play world events).fired = alertsOf (p.allDetections world events) := by
  induction events with
  | nil => rfl
  | cons e past ih =>
      unfold alertsOfRun at ih ⊢
      rw [play, List.reverse_cons, List.flatMap_append, ih, List.flatMap_singleton,
        fired_eq_alertsOf, ← alertsOf_append]
      rfl

theorem accounts_play {p : Pipeline World} {c : Config} (h : p.Reflects c []) (world : World)
    (events : List Event) :
    let played := p.play world events
    Accounts p.sink (p.allDetections world events) p.detectors played.pipeline.detectors world
      played.world := by
  induction events with
  | nil => exact Accounts.nil p.detectors world
  | cons e past ih =>
      have hnow := accounts_onEvent (h.play world past).uniform e (p.play world past).world
      rw [sink_play] at hnow
      exact ih.trans hnow

end Pipeline

end CountAlarm
