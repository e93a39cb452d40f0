import CountAlarm.Proofs.Alerting.Replay
/-!
# Sums and firings against the history

What a detector tells about an event after any stream: the sum is that of the events its slice has
counted since it was evicted, and for a slice within reach that of all its events, of which
evictions forget nothing that matters. Such a slice fires above the threshold just when the
deadlines of all its earlier firings have passed.
-/

namespace CountAlarm

open History

/-! ## Sums -/

theorem History.windowSum_le (g : BucketGrid) (size : Nat) (history : List Sighting) :
    windowSum g size history ≤ countLimit :=
  Nat.min_le_left _ _

theorem WindowOf.head {g : BucketGrid} {size : Nat} {live : List Sighting} {entry : Option Window}
    (h : WindowOf g size live entry) : entry.map Window.head = newest? g live := by
  cases entry with
  | none =>
      have hnil : live = [] := h
      rw [hnil]
      rfl
  | some w =>
      obtain ⟨hne, -, hhead, -⟩ := h
      obtain ⟨s, past, rfl⟩ := List.exists_cons_of_ne_nil hne
      rw [newest?_cons, ← hhead]
      rfl

section Observation

variable {World : Type} (rule : AlertRule) (g : BucketGrid) (sink : Sink World) (world : World)
  (s : Sighting) (past : List Sighting)

/-- After a stream from the start on, a detector observes one more event. -/
theorem Detector.observes_replay (hstart : ∀ e ∈ s :: past, g.start ≤ e.time) :
    ((start rule g).replay sink world past).detector.Reflects rule g past ∧
      ∃ o, ((start rule g).replay sink world past).detector.observe s.key s.amount s.time sink
          ((start rule g).replay sink world past).world = .ok o ∧
        ((start rule g).replay sink world past).detector.Observes s o := by
  obtain ⟨hs, hpast⟩ := List.forall_mem_cons.mp hstart
  have hreflects := reflects_replay rule g sink world past
  rw [accepted_eq_self hpast] at hreflects
  obtain ⟨o, hobserve, ho, -⟩ := Replay.feed_of_start_le sink hreflects hs
  exact ⟨hreflects, o, hobserve, ho⟩

theorem Detector.firesOf_replay_eq {key : SliceKey} {stream : List Sighting}
    (hstart : ∀ e ∈ stream, g.start ≤ e.time) (hreach : WithinReach g rule.span key stream) :
    ((start rule g).replay sink world stream).firesOf key =
      rule.fires g (ofSlice key stream) := by
  rw [← accepted_eq_self hstart] at hreach
  rw [firesOf_replay rule g sink world hreach, accepted_eq_self hstart]

end Observation

/-- The sum reported for an event is that of its slice since it was evicted; evictions are those of
`sinceEviction`, and within reach they make no difference. -/
theorem Detector.sum_replay {World : Type} (rule : AlertRule) (g : BucketGrid) (sink : Sink World)
    (world : World) (s : Sighting) (past : List Sighting)
    (hstart : ∀ e ∈ s :: past, g.start ≤ e.time) :
    ∃ o, ((start rule g).replay sink world past).detector.observe s.key s.amount s.time sink
        ((start rule g).replay sink world past).world = .ok o ∧
      o.detection.sum = windowSum g rule.span (s :: sinceEviction g rule.span s.key past) ∧
      (∀ key, (o.detector.counts.windows.get? key).map Window.head =
        newest? g (sinceEviction g rule.span key (s :: past))) ∧
      (WithinReach g rule.span s.key (s :: past) →
        o.detection.sum = windowSum g rule.span (ofSlice s.key (s :: past))) := by
  obtain ⟨hreflects, o, hobserve, ho⟩ := observes_replay rule g sink world s past hstart
  have hsum : o.detection.sum =
      windowSum g rule.span (s :: sinceEviction g rule.span s.key past) := by
    rw [ho.detection, (hreflects.windowOf_windowAfter s).sum]
    exact AlertRule.sum_verdict _ _ _ (windowSum_le _ _ _)
  refine ⟨o, hobserve, hsum, ?_, ?_⟩
  · intro key
    exact ((hreflects.step ho (hstart s List.mem_cons_self)).window key).head
  · intro hreach
    rw [hsum, windowSum_sinceEviction rule.span_pos hreach]

/-- A late event is counted in the newest bucket of its slice, and negative amounts not at all. -/
theorem Detector.sum_replay_late_event :
    let rule : AlertRule := ⟨1, 1, 2, 3, 0⟩
    let g := BucketGrid.of 0 10
    let past : List Sighting := [⟨.whole, -7, 25⟩, ⟨.whole, 3, 21⟩, ⟨.whole, 5, 5⟩]
    let s : Sighting := ⟨.whole, 4, 12⟩
    (∀ e ∈ s :: past, g.start ≤ e.time) ∧ WithinReach g rule.span s.key (s :: past) ∧
    ∃ o, ((start rule g).replay Sink.log () past).detector.observe s.key s.amount s.time
        Sink.log () = .ok o ∧ o.detection.sum = 7 := by
  intro rule g past s
  have hstart : ∀ e ∈ s :: past, g.start ≤ e.time := by decide
  have hreach : WithinReach g rule.span s.key (s :: past) := by decide
  obtain ⟨o, hobserve, -, -, hsum⟩ := sum_replay rule g Sink.log () s past hstart
  refine ⟨hstart, hreach, o, hobserve, (hsum hreach).trans ?_⟩
  decide

/-! ## Firings -/

/-- Above the threshold, an event is fired at unless the latest firing keeps it quiet. -/
theorem AlertRule.refractory_verdict {rule : AlertRule} (s : Sighting) {sum : Nat}
    (hover : rule.threshold.toInt < sum) {fires : List Nat}
    (hfires : fires.Pairwise fun late early => early + rule.refractorySeconds.toNat + 1 ≤ late) :
    ((rule.verdict s sum (rule.quietUntil fires)).fired?.isSome = true ↔
        ∀ fired ∈ fires, ¬s.second < fired + rule.refractorySeconds.toNat + 1) ∧
      ((rule.verdict s sum (rule.quietUntil fires)).fired?.isSome = false →
        ∃ latest earlier sum', fires = latest :: earlier ∧
          rule.verdict s sum (rule.quietUntil fires) = .suppressed sum'
            (UInt32.ofNat (min 4294967295 (latest + rule.refractorySeconds.toNat + 1)))) := by
  have hquiet : rule.quietUntil fires ≤ s.second ↔
      ∀ fired ∈ fires, ¬s.second < fired + rule.refractorySeconds.toNat + 1 := by
    simp only [Nat.not_lt]
    exact quietUntil_le_iff hfires
  rw [verdict_of_lt rule s _ hover, ← hquiet]
  by_cases hearly : s.second < rule.quietUntil fires
  · rw [if_pos hearly]
    refine ⟨⟨fun hfired => (Bool.false_ne_true hfired).elim, fun hle => ?_⟩, fun _ => ?_⟩
    · omega
    · cases fires with
      | nil => exact (Nat.not_lt_zero _ hearly).elim
      | cons latest earlier => exact ⟨latest, earlier, sum, rfl, rfl⟩
  · rw [if_neg hearly]
    exact ⟨⟨fun _ => Nat.le_of_not_lt hearly, fun _ => rfl⟩, fun hnot => by cases hnot⟩

/-- Above the threshold, a slice within reach fires just when the deadlines of all its firings have
passed, and else reports the latest one. -/
theorem Detector.refractory_replay {World : Type} (rule : AlertRule) (g : BucketGrid)
    (sink : Sink World) (world : World) (s : Sighting) (past : List Sighting)
    (hstart : ∀ e ∈ s :: past, g.start ≤ e.time)
    (hreach : WithinReach g rule.span s.key (s :: past)) :
    ∃ o, ((start rule g).replay sink world past).detector.observe s.key s.amount s.time sink
        ((start rule g).replay sink world past).world = .ok o ∧
      (rule.threshold.toInt < o.detection.sum →
        (o.detection.fired?.isSome = true ↔
          ∀ fired ∈ ((start rule g).replay sink world past).firesOf s.key,
            ¬s.second < fired + rule.refractorySeconds.toNat + 1) ∧
        (o.detection.fired?.isSome = false →
          ∃ latest earlier sum,
            ((start rule g).replay sink world past).firesOf s.key = latest :: earlier ∧
            o.detection = .suppressed sum
              (UInt32.ofNat (min 4294967295 (latest + rule.refractorySeconds.toNat + 1))))) ∧
      (((start rule g).replay sink world (s :: past)).firesOf s.key).Pairwise fun late early =>
        early + rule.refractorySeconds.toNat + 1 < late + rule.refractorySeconds.toNat + 1 := by
  obtain ⟨hs, hpast⟩ := List.forall_mem_cons.mp hstart
  obtain ⟨hreflects, o, hobserve, ho⟩ := observes_replay rule g sink world s past hstart
  have hverdict := hreflects.detection ho hs hreach
  refine ⟨o, hobserve, ?_, ?_⟩
  · intro hover
    have hsum : o.detection.sum = windowSum g rule.span (s :: ofSlice s.key past) := by
      rw [hverdict]
      exact AlertRule.sum_verdict _ _ _ (windowSum_le _ _ _)
    rw [hsum] at hover
    rw [hverdict, firesOf_replay_eq rule g sink world hpast hreach.2]
    exact AlertRule.refractory_verdict s hover (AlertRule.pairwise_fires rule g _)
  · rw [firesOf_replay_eq rule g sink world hstart hreach]
    apply (AlertRule.pairwise_fires rule g _).imp
    intro late early hgap
    omega

/-- A slice whose window was evicted still keeps quiet until its deadline. -/
theorem Detector.refractory_replay_evicted :
    let rule : AlertRule := ⟨1, 1, 1, 0, 100⟩
    let g := BucketGrid.of 0 1000000000
    let other := SliceKey.ofList [⟨1, .int 1⟩]
    let past : List Sighting := [⟨other, 1, 50000000000⟩, ⟨.whole, 1, 7⟩]
    let s : Sighting := ⟨.whole, 1, 100000000000⟩
    (∀ e ∈ s :: past, g.start ≤ e.time) ∧ WithinReach g rule.span s.key (s :: past) ∧
    ∃ o sum, ((start rule g).replay Sink.log () past).detector.observe s.key s.amount s.time
        Sink.log () = .ok o ∧ o.detection = .suppressed sum 101 := by
  intro rule g other past s
  have hstart : ∀ e ∈ s :: past, g.start ≤ e.time := by decide
  have hreach : WithinReach g rule.span s.key (s :: past) := by decide
  obtain ⟨o, hobserve, hrefractory, -⟩ :=
    refractory_replay rule g Sink.log () s past hstart hreach
  have hfires : ((start rule g).replay Sink.log () past).firesOf s.key = [0] := by decide
  have hsum : (((start rule g).replay Sink.log () past).detector.observe s.key s.amount s.time
      Sink.log ()).toOption.map (fun o => o.detection.sum) = some 1 := by decide
  have hover : rule.threshold.toInt < o.detection.sum := by
    rw [hobserve] at hsum
    have hone : o.detection.sum = 1 := Option.some.inj hsum
    rw [hone]
    decide
  obtain ⟨hiff, hquiet⟩ := hrefractory hover
  rw [hfires] at hiff hquiet
  have hnot : o.detection.fired?.isSome = false := by
    rw [Bool.eq_false_iff, ne_eq, hiff]
    decide
  obtain ⟨latest, earlier, sum, hlist, hdetection⟩ := hquiet hnot
  obtain ⟨rfl, rfl⟩ := List.cons.inj hlist
  exact ⟨hstart, hreach, o, sum, hobserve, hdetection⟩

end CountAlarm
