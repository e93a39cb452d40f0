import CountAlarm.Setup.Config
import CountAlarm.Proofs.Alerting.Reflection
import CountAlarm.Proofs.Counting.Ordered
import CountAlarm.Proofs.Routing.Slices
/-!
# What a configuration asks for

`Config.run` says in terms of raw events which alerts a stream should fire. It knows no windows,
tables or deadlines: it counts the events of a slice in the last buckets and looks for earlier
alerts. A stream is given with the latest event first, and so are the alerts that its events fire.
-/

namespace CountAlarm

/-- The alerts that the events of a stream fired. -/
abbrev FiredRun := List (Event × List Alert)

namespace MetricConfig

variable (c : Config) (m : MetricConfig)

def projection : Projection :=
  ⟨m.paths⟩

/-- The matcher of a metric accepts an event, which is not too old and lacks no path. -/
def Counts (e : Event) : Prop :=
  (∃ matcher ∈ c.matchers, matcher.id = m.matcherId ∧ matcher.matchesEvent e = true) ∧
    c.start ≤ e.time ∧ m.projection.Covers e

instance (e : Event) : Decidable (m.Counts c e) :=
  inferInstanceAs (Decidable (_ ∧ _ ∧ _))

def bucketOf (e : Event) : Nat :=
  (e.time.toNat - c.start.toNat) / (m.bucketWidth?.getD 0).toNat

/-- How many events of the slice of an event are in the last buckets up to its own. -/
def countIn (buckets : Nat) (e : Event) (events : List Event) : Nat :=
  events.countP fun other =>
    m.Counts c other ∧ m.projection.Agree other e ∧
      m.bucketOf c e < m.bucketOf c other + buckets ∧ m.bucketOf c other ≤ m.bucketOf c e

/-- No earlier alert of the same number and slice keeps an event quiet. -/
def Unhindered (a : AlertConfig) (run : FiredRun) (e : Event) : Prop :=
  ∀ p ∈ run, ∀ alert ∈ p.2, alert.alertId = a.id → alert.slice = m.projection.keyOf e →
    ¬e.second < p.1.second + a.refractorySeconds.toNat + 1

instance (a : AlertConfig) (run : FiredRun) (e : Event) : Decidable (m.Unhindered a run e) :=
  inferInstanceAs (Decidable (∀ p ∈ run, ∀ alert ∈ p.2, _ → _ → _))

/-- The alert that an event should fire after a stream that fired some alerts. -/
def alert? (a : AlertConfig) (run : FiredRun) (past : List Event) (e : Event) : Option Alert :=
  let count := m.countIn c a.buckets.toNat e (e :: past)
  if m.Counts c e ∧ a.threshold.toInt < count ∧ m.Unhindered a run e then
    some
      { alertId := a.id
        metricId := m.id
        slice := m.projection.keyOf e
        time := e.time
        sum := Int64.ofNat count
        threshold := a.threshold
        refractoryEnd := UInt32.ofNat (min 4294967295 (e.second + a.refractorySeconds.toNat + 1)) }
  else none

end MetricConfig

namespace Config

/-- The alerts that an event should fire, metric by metric and alert by alert. -/
def alertsAt (c : Config) (run : FiredRun) (past : List Event) (e : Event) : List Alert :=
  c.metrics.flatMap fun m => m.alerts.filterMap fun a => m.alert? c a run past e

/-- The alerts that a stream should fire. -/
def run (c : Config) : List Event → FiredRun
  | [] => []
  | e :: past => (e, c.alertsAt (c.run past) past e) :: c.run past

end Config

end CountAlarm
