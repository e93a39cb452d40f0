import CountAlarm.Alerting.Detector
import CountAlarm.Proofs.Counting.CountRuns
/-!
# What a detector does with one event

`Observes` says all that an accepted event does to a detector, table by table: the window of its
slice counts it, the verdict compares the sum with the threshold and the time with the deadline, and
if the newest bucket moves, one sweep goes over the windows and then over the deadlines. Later
proofs start from `observe_of_start_le` and do not open `Detector.observe`.
-/

namespace CountAlarm

/-! ## Verdicts -/

/-- The number of buckets of the windows of a rule. -/
def AlertRule.span (rule : AlertRule) : Nat :=
  max rule.buckets.toNat 1

theorem AlertRule.span_pos (rule : AlertRule) : 0 < rule.span :=
  Nat.lt_of_lt_of_le Nat.zero_lt_one (Nat.le_max_right _ _)

/-- The alert for an event of a slice with a sum. -/
def AlertRule.alert (rule : AlertRule) (s : Sighting) (sum : Nat) : Alert :=
  { alertId := rule.id
    metricId := rule.metricId
    slice := s.key
    time := s.time
    sum := Int64.ofNat sum
    threshold := rule.threshold
    refractoryEnd := shownSecond (s.second + rule.refractorySeconds.toNat + 1) }

/-- What becomes of an event of a slice with a sum that must stay quiet before a second. -/
def AlertRule.verdict (rule : AlertRule) (s : Sighting) (sum quiet : Nat) : Detection :=
  if (sum : Int) ≤ rule.threshold.toInt then .below sum
  else if s.second < quiet then .suppressed sum (shownSecond quiet)
  else .fired (rule.alert s sum)

def Detection.sum : Detection → Int
  | .below sum => sum
  | .suppressed sum _ => sum
  | .fired alert => alert.sum.toInt

theorem AlertRule.sum_verdict (rule : AlertRule) (s : Sighting) {sum : Nat} (quiet : Nat)
    (h : sum ≤ countLimit) : (rule.verdict s sum quiet).sum = sum := by
  unfold AlertRule.verdict
  split
  · rfl
  · split
    · rfl
    · have hlt : sum < 2 ^ 63 := by
        unfold countLimit at h
        omega
      exact Int64.toInt_ofNat_of_lt hlt

theorem AlertRule.verdict_of_lt (rule : AlertRule) (s : Sighting) {sum : Nat} (quiet : Nat)
    (h : rule.threshold.toInt < sum) :
    rule.verdict s sum quiet =
      if s.second < quiet then .suppressed sum (shownSecond quiet)
      else .fired (rule.alert s sum) := by
  unfold AlertRule.verdict
  rw [if_neg (Int.not_le.mpr h)]

theorem AlertRule.fired?_verdict (rule : AlertRule) (s : Sighting) (sum quiet : Nat) :
    (rule.verdict s sum quiet).fired? =
      if rule.threshold.toInt < sum ∧ quiet ≤ s.second then some (rule.alert s sum) else none := by
  unfold AlertRule.verdict
  by_cases hover : rule.threshold.toInt < sum
  · rw [if_neg (Int.not_le.mpr hover)]
    by_cases hquiet : quiet ≤ s.second
    · rw [if_neg (Nat.not_lt_of_le hquiet), if_pos ⟨hover, hquiet⟩]
      rfl
    · rw [if_pos (Nat.lt_of_not_le hquiet), if_neg fun h => hquiet h.2]
      rfl
  · rw [if_pos (Int.not_lt.mp hover), if_neg fun h => hover h.1]
    rfl

theorem AlertRule.le_second_of_fired {rule : AlertRule} {s : Sighting} {sum quiet : Nat}
    (h : (rule.verdict s sum quiet).fired?.isSome = true) : quiet ≤ s.second := by
  rw [fired?_verdict] at h
  split at h
  · next hfired => exact hfired.2
  · cases h

theorem AlertRule.slice_of_fired {rule : AlertRule} {s : Sighting} {sum quiet : Nat} {alert : Alert}
    (h : (rule.verdict s sum quiet).fired? = some alert) : alert.slice = s.key := by
  rw [fired?_verdict] at h
  split at h
  · cases h
    rfl
  · cases h

/-- Seconds of 64-bit times leave room for every refractory period. -/
theorem deadline_second (s : Sighting) (period : UInt32) :
    deadline s.second period = s.second + period.toNat + 1 := by
  have htime : s.time.toNat < 18446744073709551616 := s.time.toNat_lt
  have hperiod : period.toNat < 4294967296 := period.toNat_lt
  have hsecond : s.second ≤ 18446744073 := by
    unfold Sighting.second nanosPerSecond
    omega
  unfold deadline wordLimit
  omega

namespace Detector

/-! ## The parts of an observation -/

section Parts

variable {World : Type} (d : Detector) (key : SliceKey) (sum : Nat) (time : UInt64)
  (sink : Sink World) (world : World)

theorem noteLate_rule (tick : Tick) : (d.noteLate key time tick).1.rule = d.rule := by
  unfold noteLate
  split <;> rfl

theorem noteLate_counts (tick : Tick) : (d.noteLate key time tick).1.counts = d.counts := by
  unfold noteLate
  split <;> rfl

theorem noteLate_deadlines (tick : Tick) :
    (d.noteLate key time tick).1.deadlines = d.deadlines := by
  unfold noteLate
  split <;> rfl

theorem detect_rule : (d.detect key sum time sink world).detector.rule = d.rule := by
  unfold detect
  split
  · rfl
  · split <;> rfl

theorem detect_counts : (d.detect key sum time sink world).detector.counts = d.counts := by
  unfold detect
  split
  · rfl
  · split <;> rfl

theorem detect_detection (s : Sighting) :
    (d.detect s.key sum s.time sink world).detection =
      d.rule.verdict s sum (d.deadlineOf s.key) := by
  unfold detect AlertRule.verdict Sighting.second refractoryEnd
  split
  · rfl
  · split
    · rfl
    · show Detection.fired (d.alertAt s.key sum s.time) = _
      unfold alertAt AlertRule.alert
      rw [show s.time.toNat / nanosPerSecond = s.second from rfl, deadline_second]

theorem detect_deadlines (s : Sighting) :
    (d.detect s.key sum s.time sink world).detector.deadlines =
      if (d.rule.verdict s sum (d.deadlineOf s.key)).fired?.isSome then
        d.deadlines.insert s.key (s.second + d.rule.refractorySeconds.toNat + 1)
      else d.deadlines := by
  unfold detect AlertRule.verdict Sighting.second
  split
  · rfl
  · split
    · rfl
    · show d.deadlines.insert s.key (deadline s.second d.rule.refractorySeconds) = _
      rw [deadline_second]
      rfl

theorem evict_rule : d.evict.1.rule = d.rule := by
  unfold evict
  split
  · rfl
  · simp only
    split <;> rfl

theorem evict_counts {horizon : Nat} (h : d.counts.horizon = some horizon) :
    d.evict.1.counts =
      { d.counts with windows := d.counts.windows.filter fun _ w => !w.isStale horizon } := by
  unfold evict SliceCounts.evict
  rw [h]
  simp only
  split <;> rfl

theorem evict_deadlines {horizon : Nat} (h : d.counts.horizon = some horizon) :
    d.evict.1.deadlines = d.deadlines.filter fun key second =>
      d.evict.1.counts.windows.contains key ||
        decide (d.counts.grid.startOf horizon / nanosPerSecond < second) := by
  rw [evict_counts d h]
  unfold evict SliceCounts.evict
  rw [h]
  simp only
  split <;> rfl

end Parts

/-! ## One observation -/

/-- The window of the slice of an event that was just counted. -/
def windowAfter (d : Detector) (s : Sighting) : Window :=
  ((d.counts.windowOr s.key (s.bucket d.counts.grid)).advance
    (s.bucket d.counts.grid)).add s.amount

/-- An event moves the newest bucket of all slices. -/
def advances (d : Detector) (s : Sighting) : Bool :=
  d.counts.newest.any fun newest => decide (newest < s.bucket d.counts.grid)

/-- The oldest bucket within reach once an event has moved the newest one. -/
def horizonAfter (d : Detector) (s : Sighting) : Nat :=
  s.bucket d.counts.grid - d.counts.span

/-- All that an accepted event does to the tables of a detector, and its verdict. -/
structure Observes {World : Type} (d : Detector) (s : Sighting) (o : Observed World) : Prop where
  rule : o.detector.rule = d.rule
  grid : o.detector.counts.grid = d.counts.grid
  span : o.detector.counts.span = d.counts.span
  newest : o.detector.counts.newest =
    some (max (s.bucket d.counts.grid) (d.counts.newest.getD 0))
  detection : o.detection = d.rule.verdict s (d.windowAfter s).sum (d.deadlineOf s.key)
  window : ∀ key, o.detector.counts.windows.get? key =
    (if key = s.key then some (d.windowAfter s) else d.counts.windows.get? key).filter
      fun w => !(d.advances s && w.isStale (d.horizonAfter s))
  deadline : ∀ key, o.detector.deadlines.get? key =
    (if key = s.key ∧ o.detection.fired?.isSome then
        some (s.second + d.rule.refractorySeconds.toNat + 1)
      else d.deadlines.get? key).filter fun second =>
        !d.advances s || o.detector.counts.windows.contains key ||
          decide (d.counts.grid.startOf (d.horizonAfter s) / nanosPerSecond < second)

theorem filter_const_true {α : Type} (a : Option α) : (a.filter fun _ => true) = a := by
  cases a <;> rfl

theorem observe_of_lt_start {World : Type} {d : Detector} {s : Sighting} (sink : Sink World)
    (world : World) (h : ¬d.counts.grid.start ≤ s.time) :
    d.observe s.key s.amount s.time sink world = .error .beforeStart := by
  unfold observe SliceCounts.count
  rw [BucketGrid.bucketOf?_of_lt_start h]

section Sweep

variable {World : Type} (d : Detector) (s : Sighting) (sink : Sink World) (world : World)

/-- What an observation comes to before slices are given up. -/
def beforeSweep : Observed World :=
  let tick := (d.counts.countIn s.key s.amount (s.bucket d.counts.grid)).1
  let counts := (d.counts.countIn s.key s.amount (s.bucket d.counts.grid)).2
  ({ d with counts }.noteLate s.key s.time tick).1.detect s.key tick.sum s.time sink world

theorem beforeSweep_rule : (d.beforeSweep s sink world).detector.rule = d.rule := by
  unfold beforeSweep
  rw [detect_rule, noteLate_rule]

theorem beforeSweep_counts : (d.beforeSweep s sink world).detector.counts =
    (d.counts.countIn s.key s.amount (s.bucket d.counts.grid)).2 := by
  unfold beforeSweep
  rw [detect_counts, noteLate_counts]

theorem beforeSweep_newest : (d.beforeSweep s sink world).detector.counts.newest =
    some (max (s.bucket d.counts.grid) (d.counts.newest.getD 0)) := by
  rw [beforeSweep_counts]
  exact d.counts.newest_countIn s.key s.amount (s.bucket d.counts.grid)

theorem beforeSweep_window (key : SliceKey) :
    (d.beforeSweep s sink world).detector.counts.windows.get? key =
      if key = s.key then some (d.windowAfter s) else d.counts.windows.get? key := by
  rw [beforeSweep_counts]
  exact SliceTable.get?_insert d.counts.windows s.key (d.windowAfter s) key

theorem beforeSweep_detection : (d.beforeSweep s sink world).detection =
    d.rule.verdict s (d.windowAfter s).sum (d.deadlineOf s.key) := by
  unfold beforeSweep
  rw [detect_detection, noteLate_rule]
  unfold deadlineOf
  rw [noteLate_deadlines]
  rfl

theorem beforeSweep_deadline (key : SliceKey) :
    (d.beforeSweep s sink world).detector.deadlines.get? key =
      if key = s.key ∧ (d.beforeSweep s sink world).detection.fired?.isSome then
        some (s.second + d.rule.refractorySeconds.toNat + 1)
      else d.deadlines.get? key := by
  unfold beforeSweep
  rw [detect_deadlines, detect_detection, noteLate_rule, noteLate_deadlines]
  split
  · next hfired =>
    rw [SliceTable.get?_insert]
    simp only [hfired, and_true]
  · next hquiet => rw [if_neg fun hand => hquiet hand.2]

theorem observe_eq (h : d.counts.grid.start ≤ s.time) :
    ∃ log, d.observe s.key s.amount s.time sink world =
      .ok { d.beforeSweep s sink world with
        detector :=
          if d.advances s then (d.beforeSweep s sink world).detector.evict.1
          else (d.beforeSweep s sink world).detector
        log } := by
  have hcount : d.counts.count s.key s.amount s.time =
      .ok (d.counts.countIn s.key s.amount (s.bucket d.counts.grid)) := by
    unfold SliceCounts.count
    rw [BucketGrid.bucketOf?_of_start_le h]
    rfl
  have hadvanced : (d.counts.countIn s.key s.amount (s.bucket d.counts.grid)).1.advanced =
      d.advances s := rfl
  unfold observe
  rw [hcount]
  simp only [hadvanced]
  split <;> exact ⟨_, rfl⟩

/-- The sweep goes back from the bucket of the event, which is the newest one now. -/
theorem beforeSweep_horizon (hadvances : d.advances s = true) :
    (d.beforeSweep s sink world).detector.counts.horizon = some (d.horizonAfter s) := by
  obtain ⟨newest, hsome, hlt⟩ := (Option.any_eq_true _ _).mp hadvances
  have hmax : max (s.bucket d.counts.grid) (d.counts.newest.getD 0) = s.bucket d.counts.grid := by
    rw [hsome, Option.getD_some]
    exact Nat.max_eq_left (Nat.le_of_lt (of_decide_eq_true hlt))
  unfold SliceCounts.horizon
  rw [beforeSweep_newest, hmax, beforeSweep_counts]
  rfl

end Sweep

theorem observe_of_start_le {World : Type} {d : Detector} {s : Sighting} (sink : Sink World)
    (world : World) (h : d.counts.grid.start ≤ s.time) :
    ∃ o, d.observe s.key s.amount s.time sink world = .ok o ∧ d.Observes s o := by
  obtain ⟨log, hobserve⟩ := observe_eq d s sink world h
  refine ⟨_, hobserve, ?_⟩
  have hrule := beforeSweep_rule d s sink world
  have hcounts := beforeSweep_counts d s sink world
  have hnewest := beforeSweep_newest d s sink world
  have hwindow := beforeSweep_window d s sink world
  have hdetection := beforeSweep_detection d s sink world
  have hdeadline := beforeSweep_deadline d s sink world
  cases hadvances : d.advances s with
  | false =>
      simp only [Bool.false_eq_true, if_false]
      refine ⟨hrule, by rw [hcounts]; rfl, by rw [hcounts]; rfl, hnewest, hdetection, ?_, ?_⟩
      · intro key
        rw [hwindow, hadvances]
        exact (filter_const_true _).symm
      · intro key
        rw [hdeadline, hadvances]
        exact (filter_const_true _).symm
  | true =>
      have hhorizon := beforeSweep_horizon d s sink world hadvances
      have hevicted := evict_counts _ hhorizon
      simp only [if_true]
      refine ⟨by rw [evict_rule, hrule], by rw [hevicted, hcounts]; rfl,
        by rw [hevicted, hcounts]; rfl, by rw [hevicted]; exact hnewest, hdetection, ?_, ?_⟩
      · intro key
        rw [hevicted]
        simp only [SliceTable.get?_filter, hwindow, hadvances, Bool.true_and]
      · intro key
        rw [evict_deadlines _ hhorizon, SliceTable.get?_filter, hdeadline, hadvances, hcounts]
        rfl

/-- An event that is not refused does just what `Observes` says. -/
theorem observes_of_observe {World : Type} {d : Detector} {s : Sighting} {sink : Sink World}
    {world : World} {o : Observed World}
    (h : d.observe s.key s.amount s.time sink world = .ok o) :
    d.counts.grid.start ≤ s.time ∧ d.Observes s o := by
  by_cases hstart : d.counts.grid.start ≤ s.time
  · obtain ⟨o', hobserve, ho'⟩ := observe_of_start_le sink world hstart
    rw [hobserve] at h
    cases h
    exact ⟨hstart, ho'⟩
  · rw [observe_of_lt_start sink world hstart] at h
    cases h

end Detector

end CountAlarm
