import CountAlarm.Proofs.Alerting.Accounts
import CountAlarm.Proofs.Alerting.SinkIndependence
import CountAlarm.Proofs.Routing.Slices
import Mathlib.Data.List.Forall2
/-!
# All detectors of a metric or none

A metric lets its detectors observe an event one after the other. Would one of them refuse it, those
before it had counted the event and those after it had not. This cannot happen: whatever was
attached and handled before, the detectors share the grid of the metric, so an event that is not too
old for the metric is not too old for any of them. `handle_grown` says what becomes of an event in
each case.
-/

namespace CountAlarm

variable {World : Type}

/-! ## Detectors in turn -/

/-- Detectors observe an event of a slice one after the other, each in the world that the one before
it has left. -/
inductive InTurn (sink : Sink World) (key : SliceKey) (time : UInt64) :
    List Detector → World → List (Observed World) → World → Prop where
  | nil (world : World) : InTurn sink key time [] world [] world
  | cons {d : Detector} {rest : List Detector} {world world' : World} {o : Observed World}
      {others : List (Observed World)} (hd : d.observe key 1 time sink world = .ok o)
      (hrest : InTurn sink key time rest o.world others world') :
      InTurn sink key time (d :: rest) world (o :: others) world'

/-- A detector makes of an event what was observed, with any sink and in any world. -/
def Detector.Makes (d : Detector) (key : SliceKey) (time : UInt64) (o : Observed World) : Prop :=
  ∀ (Other : Type) (sink : Sink Other) (world : Other),
    (d.observe key 1 time sink world).map Observed.essence = .ok o.essence

namespace InTurn

variable {sink : Sink World} {key : SliceKey} {time : UInt64} {detectors : List Detector}
  {world world' : World} {observed : List (Observed World)}

/-- What each detector makes of the event in its turn, it also makes of it by itself. -/
theorem makes (h : InTurn sink key time detectors world observed world') :
    List.Forall₂ (fun d o => d.Makes key time o) detectors observed := by
  induction h with
  | nil => exact .nil
  | @cons d _ world _ o _ hd _ ih =>
      refine .cons (fun Other other elsewhere => ?_) ih
      calc (d.observe key 1 time other elsewhere).map Observed.essence
        _ = (d.sansFailures.observe key 1 time Sink.log ()).map Observed.essence :=
            d.essence_observe key time other elsewhere 1
        _ = (d.observe key 1 time sink world).map Observed.essence :=
            (d.essence_observe key time sink world 1).symm
        _ = .ok o.essence := congrArg (Except.map Observed.essence) hd

/-- What no accepted event changes in a detector is the same before and after. -/
theorem map_eq {α : Type} {f : Detector → α}
    (h : InTurn sink key time detectors world observed world')
    (hf : ∀ (d : Detector) (s : Sighting) (o : Observed World), d.Observes s o →
      f o.detector = f d) :
    (observed.map Observed.detector).map f = detectors.map f := by
  induction h with
  | nil => rfl
  | cons hd _ ih =>
      have hkept := hf _ ⟨key, 1, time⟩ _ (Detector.observes_of_observe hd).2
      rw [List.map_cons, List.map_cons, List.map_cons, ih, hkept]

end InTurn

/-! ## Metrics -/

namespace Metric

/-- No detector refuses an event that is not older than its grid. -/
theorem inTurn_observeAll (sink : Sink World) (key : SliceKey) (time : UInt64)
    {detectors : List Detector} (h : ∀ d ∈ detectors, d.counts.grid.start ≤ time) (world : World) :
    let all := observeAll sink key time detectors world
    ∃ observed, InTurn sink key time detectors world observed all.world ∧
      all.outcome = .ok (observed.map Observed.detection) ∧
      all.detectors = observed.map Observed.detector := by
  induction detectors generalizing world with
  | nil => exact ⟨[], .nil world, rfl, rfl⟩
  | cons d rest ih =>
      obtain ⟨hd, hrest⟩ := List.forall_mem_cons.mp h
      obtain ⟨o, hobserve, -⟩ :=
        Detector.observe_of_start_le (s := ⟨key, 1, time⟩) sink world hd
      obtain ⟨others, hturn, houtcome, hdetectors⟩ := ih hrest o.world
      intro all
      have hall : all =
          { detectors := o.detector :: others.map Observed.detector
            outcome := .ok (o.detection :: others.map Observed.detection)
            world := (observeAll sink key time rest o.world).world
            log := o.log ++ (observeAll sink key time rest o.world).log } := by
        simp only [all, observeAll, hobserve, houtcome, hdetectors]
        rfl
      rw [hall]
      exact ⟨o :: others, .cons hobserve hturn, rfl, rfl⟩

/-- A metric in the making: it was started, alerts with some rules were attached to it in their
order, and in between it has handled events with any sinks. -/
inductive Grown (id matcherId : UInt64) (projection : Projection) (grid : BucketGrid) :
    List AlertRule → Metric → Prop where
  | start : Grown id matcherId projection grid [] (start id matcherId projection grid)
  | attach {rules : List AlertRule} {m : Metric} (h : Grown id matcherId projection grid rules m)
      (rule : AlertRule) : Grown id matcherId projection grid (rules ++ [rule]) (m.attach rule)
  | handle {rules : List AlertRule} {m : Metric} (h : Grown id matcherId projection grid rules m)
      {World : Type} (event : Event) (sink : Sink World) (world : World) :
      Grown id matcherId projection grid rules (m.handle event sink world).metric

/-- What of a metric does not change while it handles events. -/
structure Shaped (projection : Projection) (grid : BucketGrid) (rules : List AlertRule)
    (m : Metric) : Prop where
  projection_eq : m.projection = projection
  grid_eq : m.grid = grid
  rules_eq : m.detectors.map Detector.rule = rules
  uniform : m.Uniform

section Handle

variable {projection : Projection} {grid : BucketGrid} {rules : List AlertRule} {m : Metric}

theorem Shaped.attach (h : m.Shaped projection grid rules) (rule : AlertRule) :
    (m.attach rule).Shaped projection grid (rules ++ [rule]) where
  projection_eq := h.projection_eq
  grid_eq := h.grid_eq
  rules_eq := by
    rw [← h.rules_eq]
    exact List.map_append
  uniform d hd := by
    rcases List.mem_append.mp hd with hd | hd
    · exact h.uniform d hd
    · rw [List.mem_singleton.mp hd]
      rfl

variable (event : Event) (sink : Sink World) (world : World)

/-- A metric does nothing with an event that is too old. -/
theorem handle_of_lt_start (hold : ¬m.grid.start ≤ event.time) :
    m.handle event sink world =
      { metric := m, outcome := .error .beforeStart, world, log := [] } := by
  unfold handle
  rw [BucketGrid.bucketOf?_of_lt_start hold]
  rfl

/-- A metric does nothing with an event that lacks a field. -/
theorem handle_of_not_covers (hstart : m.grid.start ≤ event.time)
    (hlacks : ¬m.projection.Covers event) :
    m.handle event sink world =
      { metric := m, outcome := .error .missingField, world, log := [] } := by
  unfold handle
  rw [BucketGrid.bucketOf?_of_start_le hstart, m.projection.key?_eq, if_neg hlacks]
  rfl

/-- All detectors of a metric observe an event that is not dropped. -/
theorem handle_of_covers (huniform : m.Uniform) (hstart : m.grid.start ≤ event.time)
    (hcovers : m.projection.Covers event) :
    let handled := m.handle event sink world
    ∃ observed,
      InTurn sink (m.projection.keyOf event) event.time m.detectors world observed handled.world ∧
      handled.outcome = .ok (observed.map Observed.detection) ∧
      handled.metric = { m with detectors := observed.map Observed.detector } := by
  have hdetectors : ∀ d ∈ m.detectors, d.counts.grid.start ≤ event.time :=
    fun d hd => (huniform d hd).symm ▸ hstart
  obtain ⟨observed, hturn, houtcome, hafter⟩ :=
    inTurn_observeAll sink (m.projection.keyOf event) event.time hdetectors world
  intro handled
  have hhandled : handled =
      { metric := { m with detectors := observed.map Observed.detector }
        outcome := .ok (observed.map Observed.detection)
        world := (observeAll sink (m.projection.keyOf event) event.time m.detectors world).world
        log := (observeAll sink (m.projection.keyOf event) event.time m.detectors world).log } := by
    simp only [handled, handle, BucketGrid.bucketOf?_of_start_le hstart, m.projection.key?_eq,
      if_pos hcovers, houtcome, hafter]
    rfl
  rw [hhandled]
  exact ⟨observed, hturn, rfl, rfl⟩

theorem Shaped.handle (h : m.Shaped projection grid rules) :
    (m.handle event sink world).metric.Shaped projection grid rules := by
  by_cases hstart : m.grid.start ≤ event.time
  · by_cases hcovers : m.projection.Covers event
    · obtain ⟨observed, hturn, -, hmetric⟩ :=
        handle_of_covers event sink world h.uniform hstart hcovers
      rw [hmetric]
      refine ⟨h.projection_eq, h.grid_eq, ?_, ?_⟩
      · exact (hturn.map_eq fun _ _ _ ho => ho.rule).trans h.rules_eq
      · have hgrids := hturn.map_eq (f := fun d => d.counts.grid) fun _ _ _ ho => ho.grid
        intro d hd
        have hmem := List.mem_map_of_mem (f := fun d => d.counts.grid) hd
        rw [hgrids] at hmem
        obtain ⟨before, hbefore, hsame⟩ := List.mem_map.mp hmem
        exact hsame.symm.trans (h.uniform before hbefore)
    · rw [handle_of_not_covers event sink world hstart hcovers]
      exact h
  · rw [handle_of_lt_start event sink world hstart]
    exact h

end Handle

variable {id matcherId : UInt64} {projection : Projection} {grid : BucketGrid}
  {rules : List AlertRule} {m : Metric}

theorem Grown.shaped (h : Grown id matcherId projection grid rules m) :
    m.Shaped projection grid rules := by
  induction h with
  | start => exact ⟨rfl, rfl, rfl, fun d hd => (List.not_mem_nil hd).elim⟩
  | attach _ rule ih => exact ih.attach rule
  | handle _ event sink world ih => exact ih.handle event sink world

/-- An event that is too old or lacks a field is dropped for that cause, and no detector changes,
nor does the world of the sink; as the sink may be one that keeps a book of its calls, it is not
called. Any other event is observed by all detectors, one for each attached alert, in their order,
and each makes of it what it makes of it by itself. -/
theorem handle_grown (h : Grown id matcherId projection grid rules m) (event : Event)
    (sink : Sink World) (world : World) :
    let handled := m.handle event sink world
    let covered := ∀ path ∈ projection.paths, event.get? path ≠ none
    (handled.outcome = .error .beforeStart ↔ event.time < grid.start) ∧
      (handled.outcome = .error .missingField ↔ grid.start ≤ event.time ∧ ¬covered) ∧
      (∀ cause, handled.outcome = .error cause →
        handled.metric = m ∧ handled.world = world ∧ handled.log = []) ∧
      m.detectors.map Detector.rule = rules ∧
      (grid.start ≤ event.time → covered → ∃ key observed,
        projection.key? event = some key ∧
        InTurn sink key event.time m.detectors world observed handled.world ∧
        handled.outcome = .ok (observed.map Observed.detection) ∧
        handled.metric = { m with detectors := observed.map Observed.detector } ∧
        List.Forall₂ (fun d o => d.Makes key event.time o) m.detectors observed) := by
  obtain ⟨hprojection, hgrid, hrules, huniform⟩ := h.shaped
  have hcovered : (∀ path ∈ projection.paths, event.get? path ≠ none) ↔
      m.projection.Covers event := by
    rw [hprojection]
    exact forall₂_congr fun _ _ => Option.isSome_iff_ne_none.symm
  intro handled covered
  by_cases hstart : grid.start ≤ event.time
  · have hnotold : ¬event.time < grid.start := UInt64.not_lt.mpr hstart
    by_cases hcovers : covered
    · obtain ⟨observed, hturn, houtcome, hmetric⟩ :=
        handle_of_covers event sink world huniform (hgrid ▸ hstart) (hcovered.mp hcovers)
      have hkey : projection.key? event = some (m.projection.keyOf event) := by
        rw [← hprojection, m.projection.key?_eq, if_pos (hcovered.mp hcovers)]
      have hok : ∀ cause, handled.outcome ≠ .error cause := by
        intro cause herror
        cases houtcome.symm.trans herror
      refine ⟨iff_of_false (hok _) hnotold, iff_of_false (hok _) fun hand => hand.2 hcovers,
        fun cause herror => (hok cause herror).elim, hrules, fun _ _ => ?_⟩
      exact ⟨_, observed, hkey, hturn, houtcome, hmetric, hturn.makes⟩
    · have hdropped : handled = _ := handle_of_not_covers event sink world (hgrid ▸ hstart)
        fun h => hcovers (hcovered.mpr h)
      rw [hdropped]
      refine ⟨iff_of_false (fun herror => by cases herror) hnotold,
        iff_of_true rfl ⟨hstart, hcovers⟩, fun _ _ => ⟨rfl, rfl, rfl⟩, hrules,
        fun _ hall => (hcovers hall).elim⟩
  · have hdropped : handled = _ := handle_of_lt_start event sink world (hgrid ▸ hstart)
    rw [hdropped]
    refine ⟨iff_of_true rfl (UInt64.not_le.mp hstart),
      iff_of_false (fun herror => by cases herror) fun hand => hstart hand.1,
      fun _ _ => ⟨rfl, rfl, rfl⟩, hrules, fun hnow => (hstart hnow).elim⟩

/-- A metric gets a second alert after its first event. The third event is counted by both; the
first alert fires into the closed queue and the second stays below its threshold. -/
theorem handle_grown_two_alerts :
    let first : AlertRule := ⟨9, 1, 1, 0, 0⟩
    let second : AlertRule := ⟨10, 1, 3, 5, 60⟩
    let grid := BucketGrid.of 10 5
    let event (time : UInt64) : Event := ⟨time, 3, [⟨4, .int 7⟩]⟩
    let room : Mailroom := { queues := [⟨[], false⟩] }
    let started := (Metric.start 1 2 ⟨[4]⟩ grid).attach first
    let m := ((started.handle (event 12) (Sink.queue 0) room).metric).attach second
    let handled := m.handle (event 2000000013) (Sink.queue 0) room
    Grown 1 2 ⟨[4]⟩ grid [first, second] m ∧
      ∃ observed, handled.outcome = .ok (observed.map Observed.detection) ∧
        handled.metric.detectors = observed.map Observed.detector ∧
        List.Forall₂ (fun d o => d.Makes (.ofList [⟨4, .int 7⟩]) 2000000013 o) m.detectors
          (observed : List (Observed Mailroom)) ∧
        alertsOf (observed.map Observed.detection) =
          [⟨9, 1, .ofList [⟨4, .int 7⟩], 2000000013, 1, 0, 3⟩] := by
  intro first second grid event room started m handled
  have hgrown : Grown 1 2 ⟨[4]⟩ grid [first, second] m :=
    .attach (.handle (.attach .start first) (event 12) (Sink.queue 0) room) second
  obtain ⟨-, -, -, -, hall⟩ := handle_grown hgrown (event 2000000013) (Sink.queue 0) room
  have hcovered : ∀ path ∈ ([4] : List Path), (event 2000000013).get? path ≠ none := by
    intro path hpath
    rw [List.mem_singleton.mp hpath]
    exact Option.some_ne_none (Value.int 7)
  obtain ⟨key, observed, hkey, -, houtcome, hmetric, hmakes⟩ := hall (by decide) hcovered
  cases hkey
  refine ⟨hgrown, observed, houtcome, by rw [hmetric], hmakes, ?_⟩
  have hfired : handled.outcome.map alertsOf =
      .ok [⟨9, 1, .ofList [⟨4, .int 7⟩], 2000000013, 1, 0, 3⟩] := by decide +kernel
  rw [houtcome] at hfired
  exact Except.ok.inj hfired

end Metric

end CountAlarm
