import CountAlarm.Proofs.Alerting.Replay
/-!
# Detectors between resets

A detector is asked to observe events and now and then to forget everything. Like a stream, requests
are listed with the latest first. A reset leads back to the start, so a detector reflects the events
that it has accepted since the last one: `reflects_serveAll`. Each of its deadlines is that of one
of these events.
-/

namespace CountAlarm

open History

/-- What a detector can be asked to do. -/
inductive Request where
  | observe (s : Sighting)
  | reset
deriving DecidableEq, Repr

/-- The events among some requests that come after the last reset. -/
def sinceReset : List Request → List Sighting
  | [] => []
  | .observe s :: past => s :: sinceReset past
  | .reset :: _ => []

def Replay.serve {World : Type} (r : Replay World) (sink : Sink World) : Request → Replay World
  | .observe s => r.feed sink s
  | .reset => { r with detector := r.detector.reset }

namespace Detector

variable {World : Type}

/-- Does what some requests ask for, and keeps what came of each event. -/
def serveAll (d : Detector) (sink : Sink World) (world : World) : List Request → Replay World
  | [] => { detector := d, world, outcomes := [] }
  | request :: past => (d.serveAll sink world past).serve sink request

theorem Reflects.reset {d : Detector} {rule : AlertRule} {g : BucketGrid}
    {history : List Sighting} (h : d.Reflects rule g history) : d.reset.Reflects rule g [] where
  rule_eq := h.rule_eq
  grid_eq := h.grid_eq
  span_eq := h.span_eq
  newest_eq := rfl
  window _ := rfl
  deadline _ _ := Nat.zero_le _

/-! ## Deadlines -/

/-- Every deadline is that of an event of its slice. -/
def DeadlinesFrom (d : Detector) (rule : AlertRule) (history : List Sighting) : Prop :=
  ∀ key second, d.deadlines.get? key = some second →
    ∃ e ∈ history, e.key = key ∧ second = e.second + rule.refractorySeconds.toNat + 1

theorem DeadlinesFrom.step {d : Detector} {rule : AlertRule} {history : List Sighting}
    {s : Sighting} {o : Observed World} (h : d.DeadlinesFrom rule history) (hrule : d.rule = rule)
    (ho : d.Observes s o) : o.detector.DeadlinesFrom rule (s :: history) := by
  intro key second hsecond
  rw [ho.deadline key, Option.filter_eq_some_iff] at hsecond
  obtain ⟨hsecond, -⟩ := hsecond
  split at hsecond
  · next hfired =>
    refine ⟨s, List.mem_cons_self, hfired.1.symm, ?_⟩
    rw [← hrule]
    exact (Option.some.inj hsecond).symm
  · obtain ⟨e, he, hkey, heq⟩ := h key second hsecond
    exact ⟨e, List.mem_cons_of_mem s he, hkey, heq⟩

/-! ## Runs -/

section Runs

variable (rule : AlertRule) (g : BucketGrid) (sink : Sink World) (world : World)
  (requests : List Request)

/-- What holds at the start and after a reset, and is kept by accepted events, holds after all
requests, of the events accepted since the last reset. -/
theorem invariant_serveAll {P : Detector → List Sighting → Prop} (hstart : P (start rule g) [])
    (hreset : ∀ d history, P d history → P d.reset [])
    (hobserve : ∀ (d : Detector) (history : List Sighting) (s : Sighting) (o : Observed World),
      g.start ≤ s.time → d.Reflects rule g history → d.Observes s o → P d history →
        P o.detector (s :: history)) :
    let d := ((start rule g).serveAll sink world requests).detector
    d.Reflects rule g (accepted g (sinceReset requests)) ∧
      P d (accepted g (sinceReset requests)) := by
  induction requests with
  | nil => exact ⟨reflects_start rule g, hstart⟩
  | cons request past ih =>
      obtain ⟨hreflects, hP⟩ := ih
      rw [serveAll]
      cases request with
      | reset => exact ⟨hreflects.reset, hreset _ _ hP⟩
      | observe s =>
          rw [Replay.serve, sinceReset]
          by_cases hs : g.start ≤ s.time
          · obtain ⟨o, -, ho, hfeed⟩ := Replay.feed_of_start_le sink hreflects hs
            rw [hfeed, accepted_cons_of_start_le hs]
            exact ⟨hreflects.step ho hs, hobserve _ _ s o hs hreflects ho hP⟩
          · rw [Replay.feed_of_lt_start sink hreflects hs, accepted_cons_of_lt_start hs]
            exact ⟨hreflects, hP⟩

theorem reflects_serveAll :
    ((start rule g).serveAll sink world requests).detector.Reflects rule g
      (accepted g (sinceReset requests)) :=
  (invariant_serveAll rule g sink world requests (P := fun _ _ => True) trivial
    (fun _ _ _ => trivial) (fun _ _ _ _ _ _ _ _ => trivial)).1

theorem deadlinesFrom_serveAll :
    ((start rule g).serveAll sink world requests).detector.DeadlinesFrom rule
      (accepted g (sinceReset requests)) := by
  have hempty : ∀ d : Detector, d.deadlines = .empty → d.DeadlinesFrom rule [] := by
    intro d hd key second hsecond
    rw [hd] at hsecond
    cases hsecond
  refine (invariant_serveAll rule g sink world requests
    (P := fun d history => d.DeadlinesFrom rule history) ?_ ?_ ?_).2
  · exact hempty _ rfl
  · exact fun d _ _ => hempty d.reset rfl
  · exact fun _ _ _ _ _ hreflects ho hdeadlines => hdeadlines.step hreflects.rule_eq ho

end Runs

end Detector

end CountAlarm
