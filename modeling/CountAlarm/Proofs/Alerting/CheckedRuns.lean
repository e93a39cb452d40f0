import CountAlarm.Pipeline.Snapshot
import CountAlarm.Proofs.Alerting.Requests
import CountAlarm.Proofs.Counting.CheckedCounts
/-!
# Detectors with checked words

A detector whose counting, deadlines, sweeps and snapshots compute with checked words does just what
the plain one does: no operation ever fails, whatever times and amounts it observes. The starts of
buckets that a sweep asks for and the deadlines that a firing sets are computed without a limit
here, so the limits of the plain ones are never reached: `checkedServeAll_start`.
-/

namespace CountAlarm

open History

namespace Detector

variable {World : Type}

/-! ## Firing -/

def checkedDeadline (now : Nat) (refractorySeconds : UInt32) : Checked Nat := do
  let last ← Word.add now refractorySeconds.toNat
  Word.add last 1

/-- Fires and sets a given deadline. -/
def fireUntil (d : Detector) (key : SliceKey) (sum : Nat) (time : UInt64) (sink : Sink World)
    (world : World) (second : Nat) : Observed World :=
  let alert := { d.alertAt key sum time with refractoryEnd := shownSecond second }
  let delivery := sink.deliver alert world
  let complaint := delivery.failure.toList.map fun failure =>
    LogEntry.sinkFailed d.rule.id sink.name failure
  let tally := if delivery.failure.isSome then d.tally.noteSinkFailure else d.tally
  { detector := { d with deadlines := d.deadlines.insert key second, tally := tally.noteFired }
    detection := .fired alert
    world := delivery.world
    log := delivery.log ++ complaint ++ [.fired alert] }

def checkedDetect (d : Detector) (key : SliceKey) (sum : Nat) (time : UInt64) (sink : Sink World)
    (world : World) : Checked (Observed World) :=
  if (sum : Int) ≤ d.rule.threshold.toInt then
    .ok { detector := d, detection := .below sum, world, log := [] }
  else do
    let now ← Word.div time.toNat nanosPerSecond
    if now < d.deadlineOf key then
      .ok
        { detector := { d with tally := d.tally.noteSuppressed }
          detection := .suppressed sum (d.refractoryEnd key)
          world
          log := [.suppressed d.rule.id key sum (d.refractoryEnd key)] }
    else do
      let second ← checkedDeadline now d.rule.refractorySeconds
      .ok (d.fireUntil key sum time sink world second)

theorem checkedDeadline_second (s : Sighting) (period : UInt32) :
    checkedDeadline s.second period = .ok (deadline s.second period) := by
  have hexact := deadline_second s period
  have hlimit : s.second + period.toNat + 1 ≤ wordLimit := by
    rw [← hexact]
    exact Nat.min_le_left _ _
  unfold checkedDeadline
  rw [Word.add_eq_ok (Nat.le_of_succ_le hlimit), Checked.ok_bind, Word.add_eq_ok hlimit, hexact]

theorem checkedDetect_eq_ok (d : Detector) (key : SliceKey) (sum : Nat) (time : UInt64)
    (sink : Sink World) (world : World) :
    d.checkedDetect key sum time sink world = .ok (d.detect key sum time sink world) := by
  have hdeadline := checkedDeadline_second ⟨key, 0, time⟩ d.rule.refractorySeconds
  unfold Sighting.second at hdeadline
  unfold checkedDetect detect
  split
  · rfl
  · rw [Word.div_eq_ok (by decide), Checked.ok_bind]
    split
    · rfl
    · rw [hdeadline]
      rfl

/-! ## Sweeping -/

/-- Gives up the slices before the horizon and the deadlines up to a second. -/
def evictUntil (d : Detector) (horizonSecond : Nat) : Detector × List LogEntry :=
  let (evicted, counts) := d.counts.evict
  let deadlines := d.deadlines.filter fun key second =>
    counts.windows.contains key || decide (horizonSecond < second)
  if evicted.isEmpty then ({ d with counts, deadlines }, [])
  else
    ({ d with counts, deadlines, tally := d.tally.noteEvicted evicted.length },
      [.evicted d.rule.id evicted.length counts.windows.size])

def checkedEvict (d : Detector) : Checked (Detector × List LogEntry) :=
  match d.counts.horizon with
  | none => .ok (d, [])
  | some horizon => do
    let start ← d.counts.grid.checkedStartOf horizon
    let horizonSecond ← Word.div start nanosPerSecond
    .ok (d.evictUntil horizonSecond)

theorem checkedEvict_eq_ok {d : Detector}
    (h : ∀ horizon, d.counts.horizon = some horizon →
      d.counts.grid.start.toNat + horizon * d.counts.grid.width.toNat ≤ wordLimit) :
    d.checkedEvict = .ok d.evict := by
  unfold checkedEvict evict
  cases hhorizon : d.counts.horizon with
  | none => rfl
  | some horizon =>
      simp only [d.counts.grid.checkedStartOf_eq_ok (h horizon hhorizon), Checked.ok_bind,
        Word.div_eq_ok (show 0 < nanosPerSecond by decide)]
      rfl

/-! ## Observing -/

def checkedObserve (d : Detector) (key : SliceKey) (amount : Int) (time : UInt64)
    (sink : Sink World) (world : World) : Checked (Except DropCause (Observed World)) := do
  match ← d.counts.checkedCount key amount time with
  | .error cause => .ok (.error cause)
  | .ok (tick, counts) => do
    let (counted, lateLog) := { d with counts }.noteLate key time tick
    let detected ← counted.checkedDetect key tick.sum time sink world
    let (detector, evictionLog) ←
      if tick.advanced then detected.detector.checkedEvict else .ok (detected.detector, [])
    .ok (.ok { detected with detector, log := lateLog ++ detected.log ++ evictionLog })

/-- A sweep after an event goes back from the bucket of the event, which starts at a word. -/
theorem start_horizonAfter_le {d : Detector} {s : Sighting} (h : d.counts.grid.start ≤ s.time) :
    d.counts.grid.start.toNat + d.horizonAfter s * d.counts.grid.width.toNat ≤ wordLimit :=
  BucketGrid.start_add_le_wordLimit h (Nat.sub_le _ _)

theorem checkedEvict_beforeSweep {d : Detector} {s : Sighting} (sink : Sink World) (world : World)
    (h : d.counts.grid.start ≤ s.time) (hadvances : d.advances s = true) :
    (d.beforeSweep s sink world).detector.checkedEvict =
      .ok (d.beforeSweep s sink world).detector.evict := by
  have hgrid : (d.beforeSweep s sink world).detector.counts.grid = d.counts.grid := by
    rw [beforeSweep_counts]
    rfl
  apply checkedEvict_eq_ok
  intro horizon hhorizon
  rw [beforeSweep_horizon d s sink world hadvances] at hhorizon
  rw [hgrid, ← Option.some.inj hhorizon]
  exact start_horizonAfter_le h

theorem checkedObserve_eq_ok (d : Detector) (s : Sighting) (sink : Sink World) (world : World) :
    d.checkedObserve s.key s.amount s.time sink world =
      .ok (d.observe s.key s.amount s.time sink world) := by
  unfold checkedObserve observe
  rw [SliceCounts.checkedCount_eq_ok, Checked.ok_bind]
  unfold SliceCounts.count
  by_cases hstart : d.counts.grid.start ≤ s.time
  · rw [BucketGrid.bucketOf?_of_start_le hstart]
    have hadvanced : (d.counts.countIn s.key s.amount (d.counts.grid.bucketAt s.time)).1.advanced =
        d.advances s := rfl
    simp only [checkedDetect_eq_ok, Checked.ok_bind, hadvanced]
    cases hadvances : d.advances s with
    | false => rfl
    | true =>
        have hsweep := checkedEvict_beforeSweep sink world hstart hadvances
        unfold beforeSweep at hsweep
        rw [if_pos rfl, if_pos rfl]
        exact congrArg (· >>= _) hsweep
  · rw [BucketGrid.bucketOf?_of_lt_start hstart]

/-! ## Snapshots -/

def checkedSliceSnapshot (d : Detector) (key : SliceKey) : Checked SliceSnapshot := do
  let window ←
    match d.counts.windows.get? key with
    | none => .ok none
    | some w => do
      let counts ← w.checkedOldestFirst
      let sum ← d.counts.checkedSum key
      .ok (some { head := w.head, counts, sum })
  .ok { key, window, refractoryEnd := d.refractoryEnd key }

def checkedSnapshot (d : Detector) : Checked DetectorSnapshot := do
  let slices ← d.sliceKeys.mapM d.checkedSliceSnapshot
  .ok
    { alertId := d.rule.id
      metricId := d.rule.metricId
      buckets := d.rule.buckets
      threshold := d.rule.threshold
      newest := d.counts.newest
      slices
      tally := d.tally }

theorem checkedSliceSnapshot_eq_ok (d : Detector) (key : SliceKey) :
    d.checkedSliceSnapshot key = .ok (d.sliceSnapshot key) := by
  unfold checkedSliceSnapshot sliceSnapshot
  cases d.counts.windows.get? key with
  | none => rfl
  | some w =>
      simp only [Window.checkedOldestFirst_eq_ok, SliceCounts.checkedSum_eq_ok, Checked.ok_bind]
      rfl

theorem checkedSnapshot_eq_ok (d : Detector) : d.checkedSnapshot = .ok d.snapshot := by
  unfold checkedSnapshot
  rw [Checked.mapM_eq_ok d.checkedSliceSnapshot_eq_ok]
  rfl

end Detector

/-! ## Runs -/

namespace Replay

variable {World : Type}

def checkedServe (r : Replay World) (sink : Sink World) : Request → Checked (Replay World)
  | .observe s => do
    match ← r.detector.checkedObserve s.key s.amount s.time sink r.world with
    | .error cause => .ok { r with outcomes := (s, .error cause) :: r.outcomes }
    | .ok o =>
      .ok
        { detector := o.detector, world := o.world, outcomes := (s, .ok o.detection) :: r.outcomes }
  | .reset => .ok { r with detector := r.detector.reset }

theorem checkedServe_eq_ok (r : Replay World) (sink : Sink World) (request : Request) :
    r.checkedServe sink request = .ok (r.serve sink request) := by
  cases request with
  | reset => rfl
  | observe s =>
      rw [checkedServe, Detector.checkedObserve_eq_ok, Checked.ok_bind, serve, feed]
      cases r.detector.observe s.key s.amount s.time sink r.world <;> rfl

end Replay

namespace Detector

variable {World : Type}

def checkedServeAll (d : Detector) (sink : Sink World) (world : World) :
    List Request → Checked (Replay World)
  | [] => .ok { detector := d, world, outcomes := [] }
  | request :: past => do
    let before ← d.checkedServeAll sink world past
    before.checkedServe sink request

theorem checkedServeAll_eq_ok (d : Detector) (sink : Sink World) (world : World)
    (requests : List Request) :
    d.checkedServeAll sink world requests = .ok (d.serveAll sink world requests) := by
  induction requests with
  | nil => rfl
  | cons request past ih =>
      rw [checkedServeAll, ih, Checked.ok_bind, Replay.checkedServe_eq_ok]
      rfl

/-- No bucket up to the newest one starts later than the last word. -/
theorem Reflects.startOf_eq {d : Detector} {rule : AlertRule} {g : BucketGrid}
    {requests : List Request} (h : d.Reflects rule g (accepted g (sinceReset requests)))
    {newest bucket : Nat} (hnewest : d.counts.newest = some newest) (hle : bucket ≤ newest) :
    g.startOf bucket = g.start.toNat + bucket * g.width.toNat := by
  rw [h.newest_eq] at hnewest
  obtain ⟨s, hs, hbucket⟩ := List.mem_map.mp (List.max?_mem hnewest)
  have hstart : g.start ≤ s.time := of_decide_eq_true (List.mem_filter.mp hs).2
  have hnumber : bucket ≤ g.bucketAt s.time := Nat.le_trans hle (Nat.le_of_eq hbucket.symm)
  exact Nat.min_eq_right (BucketGrid.start_add_le_wordLimit hstart hnumber)

/-- From a start and a width on, whatever a detector is asked: nothing fails while it observes, nor
in what is read from it afterwards, the horizon starts just where its number says, and every
deadline is just the second of an event, the period and one more. -/
theorem checkedServeAll_start (rule : AlertRule) (start width : UInt64) (sink : Sink World)
    (world : World) (requests : List Request) :
    let g := BucketGrid.of start width
    let served := (Detector.start rule g).serveAll sink world requests
    let d := served.detector
    (Detector.start rule g).checkedServeAll sink world requests = .ok served ∧
      (∀ key, d.counts.checkedSum key = .ok (d.sum key)) ∧
      d.checkedSnapshot = .ok d.snapshot ∧
      (∀ key w, d.counts.windows.get? key = some w →
        w.checkedCurrent = .ok w.current ∧
          ∀ bucket, w.checkedCountAt bucket = .ok (w.countAt bucket)) ∧
      (∀ horizon, d.counts.horizon = some horizon →
        g.startOf horizon = g.start.toNat + horizon * g.width.toNat) ∧
      ∀ key second, d.deadlines.get? key = some second →
        ∃ e ∈ accepted g (sinceReset requests), e.key = key ∧
          second = e.second + rule.refractorySeconds.toNat + 1 := by
  intro g served d
  have hreflects := reflects_serveAll rule g sink world requests
  refine ⟨checkedServeAll_eq_ok _ sink world requests, d.counts.checkedSum_eq_ok,
    d.checkedSnapshot_eq_ok, fun _ w _ => ⟨w.checkedCurrent_eq_ok, w.checkedCountAt_eq_ok⟩, ?_,
    deadlinesFrom_serveAll rule g sink world requests⟩
  intro horizon hhorizon
  obtain ⟨newest, hnewest, hbehind⟩ := Option.map_eq_some_iff.mp hhorizon
  apply hreflects.startOf_eq hnewest
  rw [← hbehind]
  exact Nat.sub_le _ _

/-- Buckets of one nanosecond, the last of all times and the longest period. -/
theorem checkedServeAll_start_last_time :
    let rule : AlertRule := ⟨1, 1, 0, 0, 4294967295⟩
    let requests : List Request :=
      [.observe ⟨.whole, 1, 18446744073709551615⟩, .observe ⟨.whole, 1, 0⟩]
    let d := ((start rule (BucketGrid.of 0 0)).serveAll Sink.log () requests).detector
    d.counts.horizon = some 18446744073709551614 ∧
      (BucketGrid.of 0 0).startOf 18446744073709551614 = 18446744073709551614 ∧
      d.deadlines.get? .whole = some 22741711369 ∧ d.checkedSnapshot = .ok d.snapshot := by
  intro rule requests d
  have hhorizon : d.counts.horizon = some 18446744073709551614 := by decide
  have hdeadline : d.deadlines.get? .whole = some 22741711369 := by decide
  obtain ⟨-, -, hsnapshot, -, hstarts, -⟩ :=
    checkedServeAll_start rule 0 0 Sink.log () requests
  exact ⟨hhorizon, (hstarts _ hhorizon).trans (by decide), hdeadline, hsnapshot⟩

end Detector

end CountAlarm
