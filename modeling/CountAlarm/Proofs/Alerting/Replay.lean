import CountAlarm.Proofs.Alerting.Reflection
/-!
# Detectors over streams

`Detector.replay` lets a detector observe a stream and keeps what came of each event. Like a
history, a stream is given with the latest event first. Events before the start of the grid are
refused and change nothing, so a detector reflects the `accepted` ones: `reflects_replay`. The
outcomes of a slice within reach are those of its own events alone: `outcomesOf_replay`.
-/

namespace CountAlarm

open History

/-- A detector after a part of a stream, and what came of each event, the latest first. -/
structure Replay (World : Type) where
  detector : Detector
  world : World
  outcomes : List (Sighting × Except DropCause Detection)

/-- The alert of an event that was not refused. -/
def alertIn : Except DropCause Detection → Option Alert
  | .ok detection => detection.fired?
  | .error _ => none

namespace Replay

variable {World : Type}

def feed (r : Replay World) (sink : Sink World) (s : Sighting) : Replay World :=
  match r.detector.observe s.key s.amount s.time sink r.world with
  | .error cause => { r with outcomes := (s, .error cause) :: r.outcomes }
  | .ok o =>
    { detector := o.detector, world := o.world, outcomes := (s, .ok o.detection) :: r.outcomes }

/-- What came of the events of one slice. -/
def outcomesOf (r : Replay World) (key : SliceKey) :
    List (Sighting × Except DropCause Detection) :=
  r.outcomes.filter fun p => p.1.key = key

/-- The seconds of the events that a slice fired at. -/
def firesOf (r : Replay World) (key : SliceKey) : List Nat :=
  (r.outcomesOf key).filterMap fun p => (alertIn p.2).map fun _ => p.1.second

theorem outcomesOf_of_cons {r r' : Replay World} {s : Sighting}
    {outcome : Except DropCause Detection} (h : r'.outcomes = (s, outcome) :: r.outcomes)
    (key : SliceKey) :
    r'.outcomesOf key =
      if s.key = key then (s, outcome) :: r.outcomesOf key else r.outcomesOf key := by
  unfold outcomesOf
  rw [h, List.filter_cons]
  simp only [decide_eq_true_iff]

end Replay

def Detector.replay {World : Type} (d : Detector) (sink : Sink World) (world : World) :
    List Sighting → Replay World
  | [] => { detector := d, world, outcomes := [] }
  | s :: past => (d.replay sink world past).feed sink s

/-- In the order of time, a replay is a fold. -/
theorem Detector.replay_reverse {World : Type} (d : Detector) (sink : Sink World) (world : World)
    (stream : List Sighting) :
    d.replay sink world stream.reverse =
      stream.foldl (fun r s => r.feed sink s) { detector := d, world, outcomes := [] } := by
  rw [← List.foldr_reverse]
  induction stream.reverse with
  | nil => rfl
  | cons s past ih => rw [Detector.replay, ih, List.foldr_cons]

/-! ## Events that are accepted -/

namespace History

/-- The events that are not before the start of a grid. -/
def accepted (g : BucketGrid) (history : List Sighting) : List Sighting :=
  history.filter fun s => g.start ≤ s.time

variable {g : BucketGrid}

theorem accepted_cons_of_start_le {s : Sighting} (h : g.start ≤ s.time) (past : List Sighting) :
    accepted g (s :: past) = s :: accepted g past := by
  simp [accepted, h]

theorem accepted_cons_of_lt_start {s : Sighting} (h : ¬g.start ≤ s.time) (past : List Sighting) :
    accepted g (s :: past) = accepted g past := by
  simp only [accepted, List.filter_cons, decide_eq_true_iff, if_neg h]

theorem accepted_eq_self {history : List Sighting} (h : ∀ s ∈ history, g.start ≤ s.time) :
    accepted g history = history := by
  rw [accepted, List.filter_eq_self]
  intro s hs
  exact decide_eq_true (h s hs)

theorem ofSlice_accepted (key : SliceKey) (history : List Sighting) :
    ofSlice key (accepted g history) = accepted g (ofSlice key history) := by
  unfold ofSlice accepted
  rw [List.filter_filter, List.filter_filter]
  apply List.filter_congr
  intro s _
  exact Bool.and_comm _ _

end History

/-! ## One event -/

namespace Replay

variable {World : Type} {r : Replay World} {rule : AlertRule} {g : BucketGrid}
  {history : List Sighting}

theorem feed_of_start_le (sink : Sink World) (hr : r.detector.Reflects rule g history)
    {s : Sighting} (h : g.start ≤ s.time) :
    ∃ o, r.detector.observe s.key s.amount s.time sink r.world = .ok o ∧
      r.detector.Observes s o ∧
      r.feed sink s =
        { detector := o.detector, world := o.world
          outcomes := (s, .ok o.detection) :: r.outcomes } := by
  obtain ⟨o, hobserve, ho⟩ :=
    Detector.observe_of_start_le (d := r.detector) sink r.world (hr.grid_eq.symm ▸ h)
  refine ⟨o, hobserve, ho, ?_⟩
  unfold feed
  rw [hobserve]

theorem feed_of_lt_start (sink : Sink World) (hr : r.detector.Reflects rule g history)
    {s : Sighting} (h : ¬g.start ≤ s.time) :
    r.feed sink s = { r with outcomes := (s, .error .beforeStart) :: r.outcomes } := by
  unfold feed
  rw [Detector.observe_of_lt_start sink r.world (hr.grid_eq.symm ▸ h)]

end Replay

/-! ## Streams -/

section Streams

variable {World : Type} (rule : AlertRule) (g : BucketGrid) (sink : Sink World) (world : World)

theorem Detector.reflects_replay (stream : List Sighting) :
    ((start rule g).replay sink world stream).detector.Reflects rule g (accepted g stream) := by
  induction stream with
  | nil => exact reflects_start rule g
  | cons s past ih =>
      rw [Detector.replay]
      by_cases hstart : g.start ≤ s.time
      · obtain ⟨o, -, ho, hfeed⟩ := Replay.feed_of_start_le sink ih hstart
        rw [hfeed, accepted_cons_of_start_le hstart]
        exact ih.step ho hstart
      · rw [Replay.feed_of_lt_start sink ih hstart, accepted_cons_of_lt_start hstart]
        exact ih

/-- What comes of the events of a slice alone. -/
def AlertRule.soloOutcomes : List Sighting → List (Sighting × Except DropCause Detection)
  | [] => []
  | s :: past =>
    let outcome :=
      if g.start ≤ s.time then .ok (rule.soloVerdict g s (accepted g past))
      else .error .beforeStart
    (s, outcome) :: soloOutcomes past

theorem Detector.outcomesOf_replay {key : SliceKey} {stream : List Sighting}
    (hreach : WithinReach g rule.span key (accepted g stream)) :
    ((start rule g).replay sink world stream).outcomesOf key =
      rule.soloOutcomes g (ofSlice key stream) := by
  induction stream with
  | nil => rfl
  | cons s past ih =>
      have hreflects := reflects_replay rule g sink world past
      rw [Detector.replay]
      by_cases hstart : g.start ≤ s.time
      · obtain ⟨o, -, ho, hfeed⟩ := Replay.feed_of_start_le sink hreflects hstart
        rw [accepted_cons_of_start_le hstart] at hreach
        rw [Replay.outcomesOf_of_cons (congrArg Replay.outcomes hfeed), ih hreach.2]
        by_cases hkey : s.key = key
        · subst hkey
          rw [if_pos rfl, ofSlice_cons_self, AlertRule.soloOutcomes, if_pos hstart,
            hreflects.detection ho hstart hreach, ofSlice_accepted]
        · rw [if_neg hkey, ofSlice_cons_of_ne hkey]
      · rw [accepted_cons_of_lt_start hstart] at hreach
        have hfeed := Replay.feed_of_lt_start sink hreflects hstart
        rw [Replay.outcomesOf_of_cons (congrArg Replay.outcomes hfeed), ih hreach]
        by_cases hkey : s.key = key
        · subst hkey
          rw [if_pos rfl, ofSlice_cons_self, AlertRule.soloOutcomes, if_neg hstart]
        · rw [if_neg hkey, ofSlice_cons_of_ne hkey]

theorem AlertRule.fires_soloOutcomes (history : List Sighting) :
    ((rule.soloOutcomes g history).filterMap fun p => (alertIn p.2).map fun _ => p.1.second) =
      rule.fires g (accepted g history) := by
  induction history with
  | nil => rfl
  | cons s past ih =>
      rw [AlertRule.soloOutcomes, List.filterMap_cons, ih]
      by_cases hstart : g.start ≤ s.time
      · rw [if_pos hstart, accepted_cons_of_start_le hstart, AlertRule.fires_cons]
        simp only [alertIn]
        cases (rule.soloVerdict g s (accepted g past)).fired? <;> rfl
      · rw [if_neg hstart, accepted_cons_of_lt_start hstart]
        rfl

theorem Detector.firesOf_replay {key : SliceKey} {stream : List Sighting}
    (hreach : WithinReach g rule.span key (accepted g stream)) :
    ((start rule g).replay sink world stream).firesOf key =
      rule.fires g (ofSlice key (accepted g stream)) := by
  unfold Replay.firesOf
  rw [outcomesOf_replay rule g sink world hreach, AlertRule.fires_soloOutcomes, ofSlice_accepted]

end Streams

end CountAlarm
