import CountAlarm.Alerting.Metric
import CountAlarm.Proofs.Alerting.Step
import CountAlarm.Proofs.Delivery.Calls
/-!
# Detections account for counters and deliveries

Alerts are handed to the sink deep inside of detectors, while detections are collected further up.
`Accounts` says that nothing gets lost between: the world is the one after the alerts among some
detections, in their order, and the counters have moved as far as the detections say. What accounts
for parts accounts for the whole, whether the parts stand side by side or follow each other.
-/

namespace CountAlarm

/-! ## Counters -/

/-- Counters show two numbers alike. -/
def SameCount (m n : Nat) : Prop :=
  min wordLimit m = min wordLimit n

namespace SameCount

variable {k l m n : Nat}

theorem refl (n : Nat) : SameCount n n :=
  Eq.refl _

theorem trans (h : SameCount k l) (h' : SameCount l m) : SameCount k m :=
  Eq.trans h h'

theorem add (h : SameCount k l) (h' : SameCount m n) : SameCount (k + m) (l + n) := by
  unfold SameCount at *
  omega

theorem addCounters (m n : Nat) : SameCount (addCounters m n) (m + n) := by
  unfold SameCount CountAlarm.addCounters
  omega

end SameCount

/-- The counters of a tally that detections move. -/
inductive Counter where
  | fired
  | suppressed
  | sinkFailures

def Tally.read (t : Tally) : Counter → Nat
  | .fired => t.fired
  | .suppressed => t.suppressed
  | .sinkFailures => t.sinkFailures

/-- What some detectors have counted together. -/
def countAll (detectors : List Detector) (counter : Counter) : Nat :=
  (detectors.map fun d => d.tally.read counter).sum

theorem countAll_append (first second : List Detector) (counter : Counter) :
    countAll (first ++ second) counter = countAll first counter + countAll second counter := by
  unfold countAll
  rw [List.map_append, List.sum_append]

theorem countAll_singleton (d : Detector) (counter : Counter) :
    countAll [d] counter = d.tally.read counter :=
  Nat.add_zero _

/-! ## Detections -/

def Detection.isSuppressed : Detection → Bool
  | .suppressed _ _ => true
  | _ => false

def alertsOf (detections : List Detection) : List Alert :=
  detections.filterMap Detection.fired?

theorem alertsOf_append (first second : List Detection) :
    alertsOf (first ++ second) = alertsOf first ++ alertsOf second :=
  List.filterMap_append

section Accounts

variable {World : Type} (sink : Sink World)

/-- How far some detections move a counter, when their alerts are handed to a sink. -/
def Sink.marks (detections : List Detection) (world : World) : Counter → Nat
  | .fired => (alertsOf detections).length
  | .suppressed => detections.countP Detection.isSuppressed
  | .sinkFailures => (sink.calls (alertsOf detections) world).countP fun call => call.2.isSome

theorem Sink.marks_append (first second : List Detection) (world : World) (counter : Counter) :
    sink.marks (first ++ second) world counter =
      sink.marks first world counter +
        sink.marks second (sink.after (alertsOf first) world) counter := by
  cases counter with
  | fired => rw [marks, alertsOf_append, List.length_append]; rfl
  | suppressed => exact List.countP_append
  | sinkFailures => rw [marks, alertsOf_append, calls_append, List.countP_append]; rfl

/-- Detections account for how detectors and the world of their sink have changed. -/
structure Accounts (detections : List Detection) (old new : List Detector) (world world' : World) :
    Prop where
  world_eq : world' = sink.after (alertsOf detections) world
  counts : ∀ counter,
    SameCount (countAll new counter) (countAll old counter + sink.marks detections world counter)

variable {sink} {first second : List Detection} {old mid new : List Detector}
  {world world' world'' : World}

theorem Accounts.nil (detectors : List Detector) (world : World) :
    Accounts sink [] detectors detectors world world where
  world_eq := rfl
  counts counter := by
    cases counter <;> exact SameCount.refl _

/-- Detectors side by side. -/
theorem Accounts.append {old' new' : List Detector}
    (h : Accounts sink first old new world world')
    (h' : Accounts sink second old' new' world' world'') :
    Accounts sink (first ++ second) (old ++ old') (new ++ new') world world'' where
  world_eq := by rw [alertsOf_append, Sink.after_append, ← h.world_eq, h'.world_eq]
  counts counter := by
    have hsum := (h.counts counter).add (h'.counts counter)
    rw [countAll_append, countAll_append, Sink.marks_append, ← h.world_eq]
    rwa [Nat.add_add_add_comm] at hsum

/-- One event after another. -/
theorem Accounts.trans (h : Accounts sink first old mid world world')
    (h' : Accounts sink second mid new world' world'') :
    Accounts sink (first ++ second) old new world world'' where
  world_eq := by rw [alertsOf_append, Sink.after_append, ← h.world_eq, h'.world_eq]
  counts counter := by
    have hfirst := (h.counts counter).add (SameCount.refl (sink.marks second world' counter))
    rw [Sink.marks_append, ← h.world_eq, ← Nat.add_assoc]
    exact (h'.counts counter).trans hfirst

end Accounts

/-! ## Detectors -/

namespace Detector

variable {World : Type} (d : Detector) (sink : Sink World) (world : World)

theorem read_noteLate (key : SliceKey) (time : UInt64) (tick : Tick) (counter : Counter) :
    (d.noteLate key time tick).1.tally.read counter = d.tally.read counter := by
  unfold noteLate
  split
  · cases counter <;> rfl
  · rfl

theorem read_evict (counter : Counter) : d.evict.1.tally.read counter = d.tally.read counter := by
  unfold evict
  split
  · rfl
  · simp only
    split
    · rfl
    · cases counter <;> rfl

theorem tally_fire (key : SliceKey) (sum : Nat) (time : UInt64) :
    (d.fire key sum time sink world).detector.tally =
      (if (sink.deliver (d.alertAt key sum time) world).failure.isSome then d.tally.noteSinkFailure
        else d.tally).noteFired :=
  rfl

theorem accounts_fire (key : SliceKey) (sum : Nat) (time : UInt64) :
    Accounts sink [(d.fire key sum time sink world).detection] [d]
      [(d.fire key sum time sink world).detector] world (d.fire key sum time sink world).world where
  world_eq := rfl
  counts counter := by
    rw [countAll_singleton, countAll_singleton, tally_fire]
    cases counter with
    | fired => split <;> exact SameCount.addCounters _ _
    | suppressed => split <;> exact SameCount.refl _
    | sinkFailures =>
        have hmarks : sink.marks [(d.fire key sum time sink world).detection] world .sinkFailures =
            if (sink.deliver (d.alertAt key sum time) world).failure.isSome then 1 else 0 :=
          List.countP_singleton
        rw [hmarks]
        split
        · exact SameCount.addCounters _ _
        · exact SameCount.refl _

theorem accounts_detect (key : SliceKey) (sum : Nat) (time : UInt64) :
    Accounts sink [(d.detect key sum time sink world).detection] [d]
      [(d.detect key sum time sink world).detector] world
      (d.detect key sum time sink world).world := by
  unfold detect
  split
  · refine ⟨rfl, fun counter => ?_⟩
    cases counter <;> exact SameCount.refl _
  · split
    · refine ⟨rfl, fun counter => ?_⟩
      cases counter with
      | fired => exact SameCount.refl _
      | suppressed => exact SameCount.addCounters _ _
      | sinkFailures => exact SameCount.refl _
    · exact d.accounts_fire sink world key sum time

variable {d sink world} in
theorem accounts_observe {s : Sighting} {o : Observed World}
    (h : d.observe s.key s.amount s.time sink world = .ok o) :
    Accounts sink [o.detection] [d] [o.detector] world o.world := by
  obtain ⟨log, hobserve⟩ := observe_eq d s sink world (observes_of_observe h).1
  have hdetect := accounts_detect
    ({ d with counts := (d.counts.countIn s.key s.amount (s.bucket d.counts.grid)).2 }.noteLate
      s.key s.time (d.counts.countIn s.key s.amount (s.bucket d.counts.grid)).1).1 sink world s.key
    (d.counts.countIn s.key s.amount (s.bucket d.counts.grid)).1.sum s.time
  rw [hobserve] at h
  cases h
  refine ⟨hdetect.world_eq, fun counter => ?_⟩
  -- what is late or evicted is counted in counters of its own
  have hcounts := hdetect.counts counter
  rw [countAll_singleton, countAll_singleton, read_noteLate] at hcounts
  rw [countAll_singleton, countAll_singleton]
  dsimp only
  split
  · rw [read_evict]
    exact hcounts
  · exact hcounts

end Detector

/-! ## Metrics -/

/-- The detections on an event that was not dropped. -/
def detectionsIn : Except DropCause (List Detection) → List Detection
  | .ok detections => detections
  | .error _ => []

namespace Metric

/-- The detectors of a metric share its grid. -/
def Uniform (m : Metric) : Prop :=
  ∀ d ∈ m.detectors, d.counts.grid = m.grid

variable {World : Type} (sink : Sink World)

/-- No detector refuses an event that is not too old for it, so that no alert is handed over without
being returned. -/
theorem accounts_observeAll (key : SliceKey) (time : UInt64) {detectors : List Detector}
    (h : ∀ d ∈ detectors, d.counts.grid.start ≤ time) (world : World) :
    let observed := observeAll sink key time detectors world
    ∃ detections, observed.outcome = .ok detections ∧
      Accounts sink detections detectors observed.detectors world observed.world := by
  induction detectors generalizing world with
  | nil => exact ⟨[], rfl, Accounts.nil [] world⟩
  | cons d rest ih =>
      obtain ⟨hd, hrest⟩ := List.forall_mem_cons.mp h
      obtain ⟨o, hobserve, -⟩ :=
        Detector.observe_of_start_le (s := ⟨key, 1, time⟩) sink world hd
      obtain ⟨detections, houtcome, hothers⟩ := ih hrest o.world
      intro observed
      have hobserved : observed =
          { detectors := o.detector :: (observeAll sink key time rest o.world).detectors
            outcome := .ok (o.detection :: detections)
            world := (observeAll sink key time rest o.world).world
            log := o.log ++ (observeAll sink key time rest o.world).log } := by
        simp only [observed, observeAll, hobserve, houtcome]
        rfl
      rw [hobserved]
      exact ⟨_, rfl, (Detector.accounts_observe hobserve).append hothers⟩

theorem accounts_handle {m : Metric} (h : m.Uniform) (event : Event) (world : World) :
    let handled := m.handle event sink world
    Accounts sink (detectionsIn handled.outcome) m.detectors handled.metric.detectors world
      handled.world := by
  intro handled
  by_cases hstart : m.grid.start ≤ event.time
  · have hbucket : (m.grid.bucketOf? event.time).isNone = false := by
      rw [BucketGrid.bucketOf?_of_start_le hstart]
      rfl
    simp only [handled, handle, hbucket, Bool.false_eq_true, if_false]
    cases m.projection.key? event with
    | none => exact Accounts.nil m.detectors world
    | some key =>
        -- what is not too old for the metric is not too old for any of its detectors
        have hdetectors : ∀ d ∈ m.detectors, d.counts.grid.start ≤ event.time :=
          fun d hd => (h d hd).symm ▸ hstart
        obtain ⟨detections, houtcome, haccounts⟩ :=
          accounts_observeAll sink key event.time hdetectors world
        simp only [houtcome]
        exact haccounts
  · have hbucket : (m.grid.bucketOf? event.time).isNone = true := by
      rw [BucketGrid.bucketOf?_of_lt_start hstart]
      rfl
    simp only [handled, handle, hbucket, if_true]
    exact Accounts.nil m.detectors world

end Metric

end CountAlarm
