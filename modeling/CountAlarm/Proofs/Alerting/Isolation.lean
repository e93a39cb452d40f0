import CountAlarm.Proofs.Alerting.Replay
/-!
# Slices do not influence each other

Two streams with the same events of a slice lead to the same outcomes for it and to the same alerts,
as long as the slice stays within reach in both. To tell which alerts a sink is handed,
`Sink.recording` keeps them in its world; `replay_recording` says that a detector does not notice.
-/

namespace CountAlarm

open History

/-! ## Recorded alerts -/

/-- A sink that also keeps the alerts it is handed, the latest first. -/
def Sink.recording {World : Type} (sink : Sink World) : Sink (World × List Alert) :=
  { name := sink.name
    deliver := fun alert recorded =>
      let delivery := sink.deliver alert recorded.1
      { world := (delivery.world, alert :: recorded.2)
        failure := delivery.failure
        log := delivery.log } }

namespace Detector

variable {World : Type} (d : Detector) (sink : Sink World) (world : World) (sent : List Alert)

theorem detect_recording (key : SliceKey) (sum : Nat) (time : UInt64) :
    d.detect key sum time sink.recording (world, sent) =
      { detector := (d.detect key sum time sink world).detector
        detection := (d.detect key sum time sink world).detection
        world := ((d.detect key sum time sink world).world,
          (d.detect key sum time sink world).detection.fired?.toList ++ sent)
        log := (d.detect key sum time sink world).log } := by
  unfold detect
  split
  · rfl
  · split <;> rfl

theorem observe_recording (key : SliceKey) (amount : Int) (time : UInt64) :
    d.observe key amount time sink.recording (world, sent) =
      (d.observe key amount time sink world).map fun o =>
        { detector := o.detector
          detection := o.detection
          world := (o.world, o.detection.fired?.toList ++ sent)
          log := o.log } := by
  unfold observe
  cases d.counts.count key amount time with
  | error cause => rfl
  | ok counted =>
      simp only [detect_recording]
      rfl

theorem replay_recording (stream : List Sighting) :
    d.replay sink.recording (world, sent) stream =
      { detector := (d.replay sink world stream).detector
        world := ((d.replay sink world stream).world,
          (d.replay sink world stream).outcomes.filterMap (fun p => alertIn p.2) ++ sent)
        outcomes := (d.replay sink world stream).outcomes } := by
  induction stream with
  | nil => rfl
  | cons s past ih =>
      rw [replay, ih, replay]
      unfold Replay.feed
      simp only [observe_recording]
      cases (d.replay sink world past).detector.observe s.key s.amount s.time sink
        (d.replay sink world past).world with
      | error cause => rfl
      | ok o =>
          simp only [Except.map, List.filterMap_cons, alertIn]
          cases o.detection.fired? <;> rfl

end Detector

/-! ## Two streams -/

theorem Detector.slice_of_mem_outcomes {World : Type} (rule : AlertRule) (g : BucketGrid)
    (sink : Sink World) (world : World) (stream : List Sighting) :
    ∀ p ∈ ((start rule g).replay sink world stream).outcomes, ∀ alert,
      alertIn p.2 = some alert → alert.slice = p.1.key := by
  induction stream with
  | nil => exact fun p hp => (List.not_mem_nil hp).elim
  | cons s past ih =>
      have hreflects := reflects_replay rule g sink world past
      rw [replay]
      by_cases hstart : g.start ≤ s.time
      · obtain ⟨o, -, ho, hfeed⟩ := Replay.feed_of_start_le sink hreflects hstart
        rw [hfeed, List.forall_mem_cons]
        refine ⟨fun alert halert => ?_, ih⟩
        have hfired : o.detection.fired? = some alert := halert
        rw [ho.detection] at hfired
        exact AlertRule.slice_of_fired hfired
      · rw [Replay.feed_of_lt_start sink hreflects hstart, List.forall_mem_cons]
        refine ⟨fun alert halert => ?_, ih⟩
        cases halert

/-- The alerts for a slice are those among its outcomes. -/
theorem Replay.filter_alerts {World : Type} (r : Replay World) (key : SliceKey)
    (h : ∀ p ∈ r.outcomes, ∀ alert, alertIn p.2 = some alert → alert.slice = p.1.key) :
    (r.outcomes.filterMap fun p => alertIn p.2).filter (fun alert => alert.slice = key) =
      (r.outcomesOf key).filterMap fun p => alertIn p.2 := by
  unfold Replay.outcomesOf
  rw [List.filter_filterMap, List.filterMap_filter]
  apply List.filterMap_congr
  intro p hp
  cases halert : alertIn p.2 with
  | none => simp
  | some alert =>
      rw [← h p hp alert halert]
      by_cases hkey : alert.slice = key <;> simp [hkey]

/-- What other slices do makes no difference to a slice within reach. -/
theorem Detector.replay_eq_of_ofSlice_eq {World₁ World₂ : Type} (rule : AlertRule) (g : BucketGrid)
    (key : SliceKey) (sink₁ : Sink World₁) (world₁ : World₁) (sink₂ : Sink World₂)
    (world₂ : World₂) {first second : List Sighting}
    (hsame : ofSlice key first = ofSlice key second)
    (hfirst : WithinReach g rule.span key (accepted g first))
    (hsecond : WithinReach g rule.span key (accepted g second)) :
    ((start rule g).replay sink₁ world₁ first).outcomesOf key =
        ((start rule g).replay sink₂ world₂ second).outcomesOf key ∧
      (((start rule g).replay sink₁.recording (world₁, []) first).world.2.filter
          fun alert => alert.slice = key) =
        ((start rule g).replay sink₂.recording (world₂, []) second).world.2.filter
          fun alert => alert.slice = key := by
  have houtcomes : ((start rule g).replay sink₁ world₁ first).outcomesOf key =
      ((start rule g).replay sink₂ world₂ second).outcomesOf key := by
    rw [outcomesOf_replay rule g sink₁ world₁ hfirst, hsame,
      ← outcomesOf_replay rule g sink₂ world₂ hsecond]
  refine ⟨houtcomes, ?_⟩
  rw [replay_recording, replay_recording, List.append_nil, List.append_nil,
    Replay.filter_alerts _ _ (slice_of_mem_outcomes rule g sink₁ world₁ first),
    Replay.filter_alerts _ _ (slice_of_mem_outcomes rule g sink₂ world₂ second), houtcomes]

/-- A slice that is evicted in one of the streams only. -/
theorem Detector.replay_eq_of_ofSlice_eq_evicted :
    let rule : AlertRule := ⟨1, 1, 1, 0, 100⟩
    let g := BucketGrid.of 0 1000000000
    let other := SliceKey.ofList [⟨1, .int 1⟩]
    let first : List Sighting := [⟨.whole, 1, 100000000000⟩, ⟨.whole, 1, 7⟩]
    let second : List Sighting :=
      [⟨.whole, 1, 100000000000⟩, ⟨other, 1, 50000000000⟩, ⟨other, 9, 3⟩, ⟨.whole, 1, 7⟩]
    (ofSlice .whole first = ofSlice .whole second ∧
      WithinReach g rule.span .whole (accepted g first) ∧
      WithinReach g rule.span .whole (accepted g second)) ∧
    ((start rule g).replay Sink.log () first).outcomesOf .whole =
      ((start rule g).replay (Sink.memory 0) {} second).outcomesOf .whole := by
  intro rule g other first second
  have hsame : ofSlice .whole first = ofSlice .whole second := by decide
  have hfirst : WithinReach g rule.span .whole (accepted g first) := by decide
  have hsecond : WithinReach g rule.span .whole (accepted g second) := by decide
  exact ⟨⟨hsame, hfirst, hsecond⟩,
    (replay_eq_of_ofSlice_eq rule g .whole Sink.log () (Sink.memory 0) {} hsame hfirst hsecond).1⟩

end CountAlarm
