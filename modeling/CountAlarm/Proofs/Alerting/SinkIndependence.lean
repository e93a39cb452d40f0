import CountAlarm.Alerting.Metric
/-!
# What does not hang on the sink

A sink may refuse alerts and change its world as it likes: what is counted, dropped and fired is the
same for all sinks. Only the count of sink failures tells them apart, and `sansFailures` leaves it
out. So what a metric makes of an event can be said without a sink, by `verdicts` and `after`.
-/

namespace CountAlarm

/-! ## Detectors -/

/-- A detector but for its count of sink failures. -/
def Detector.sansFailures (d : Detector) : Detector :=
  { d with tally := { d.tally with sinkFailures := 0 } }

/-- What is left of an observation without the sink. -/
def Observed.essence {World : Type} (o : Observed World) : Detector × Detection :=
  (o.detector.sansFailures, o.detection)

namespace Detector

variable (d : Detector) (key : SliceKey) (time : UInt64)

theorem noteLate_sansFailures (tick : Tick) :
    d.sansFailures.noteLate key time tick =
      ((d.noteLate key time tick).1.sansFailures, (d.noteLate key time tick).2) := by
  unfold noteLate
  split <;> rfl

theorem evict_sansFailures : d.sansFailures.evict = (d.evict.1.sansFailures, d.evict.2) := by
  unfold evict
  cases hhorizon : d.counts.horizon with
  | none =>
      have hsame : d.sansFailures.counts.horizon = none := hhorizon
      rw [hsame]
  | some horizon =>
      have hsame : d.sansFailures.counts.horizon = some horizon := hhorizon
      rw [hsame]
      simp only [show d.sansFailures.counts = d.counts from rfl]
      split <;> rfl

variable {World : Type} (sink : Sink World) (world : World)

theorem essence_detect (sum : Nat) :
    (d.detect key sum time sink world).essence =
      (d.sansFailures.detect key sum time Sink.log ()).essence := by
  unfold detect
  by_cases hbelow : (sum : Int) ≤ d.rule.threshold.toInt
  · have hbelow' : (sum : Int) ≤ d.sansFailures.rule.threshold.toInt := hbelow
    rw [if_pos hbelow, if_pos hbelow']
    rfl
  · have hbelow' : ¬(sum : Int) ≤ d.sansFailures.rule.threshold.toInt := hbelow
    rw [if_neg hbelow, if_neg hbelow']
    by_cases hquiet : time.toNat / nanosPerSecond < d.deadlineOf key
    · have hquiet' : time.toNat / nanosPerSecond < d.sansFailures.deadlineOf key := hquiet
      rw [if_pos hquiet, if_pos hquiet']
      rfl
    · have hquiet' : ¬time.toNat / nanosPerSecond < d.sansFailures.deadlineOf key := hquiet
      rw [if_neg hquiet, if_neg hquiet']
      unfold fire
      cases hfailure : (sink.deliver (d.alertAt key sum time) world).failure with
      | none => simp only [hfailure]; rfl
      | some failure => simp only [hfailure]; rfl

theorem essence_observe (amount : Int) :
    (d.observe key amount time sink world).map Observed.essence =
      (d.sansFailures.observe key amount time Sink.log ()).map Observed.essence := by
  unfold observe
  have hcount : d.sansFailures.counts = d.counts := rfl
  rw [hcount]
  cases d.counts.count key amount time with
  | error cause => rfl
  | ok counted =>
      obtain ⟨tick, counts⟩ := counted
      have hlate := noteLate_sansFailures { d with counts } key time tick
      have hwith : ({ d.sansFailures with counts } : Detector) =
          ({ d with counts } : Detector).sansFailures := rfl
      have hdetect := essence_detect (noteLate { d with counts } key time tick).1 key time sink
        world tick.sum
      simp only [Except.map, hwith, hlate]
      obtain ⟨hdetector, hdetection⟩ := Prod.mk.inj hdetect
      cases tick.advanced with
      | false => exact congrArg Except.ok (Prod.ext hdetector hdetection)
      | true =>
          have hevict : ∀ a b : Detector, a.sansFailures = b.sansFailures →
              a.evict.1.sansFailures = b.evict.1.sansFailures := by
            intro a b hab
            have hpair := a.evict_sansFailures
            rw [hab, b.evict_sansFailures] at hpair
            exact (Prod.mk.inj hpair).1.symm
          exact congrArg Except.ok (Prod.ext (hevict _ _ hdetector) hdetection)

end Detector

/-! ## Metrics -/

/-- A metric but for the counts of sink failures. -/
def Metric.sansFailures (m : Metric) : Metric :=
  { m with detectors := m.detectors.map Detector.sansFailures }

theorem Metric.sansFailures_sansFailures (m : Metric) :
    m.sansFailures.sansFailures = m.sansFailures := by
  unfold sansFailures
  rw [List.map_map]
  rfl

def ObservedAll.essence {World : Type} (o : ObservedAll World) :
    List Detector × Except DropCause (List Detection) :=
  (o.detectors.map Detector.sansFailures, o.outcome)

def Handled.essence {World : Type} (h : Handled World) :
    Metric × Except DropCause (List Detection) :=
  (h.metric.sansFailures, h.outcome)

namespace Metric

section Essence

variable {World : Type} (sink : Sink World) (world : World)

theorem essence_observeAll (key : SliceKey) (time : UInt64) (detectors : List Detector) :
    (observeAll sink key time detectors world).essence =
      (observeAll Sink.log key time (detectors.map Detector.sansFailures) ()).essence := by
  induction detectors generalizing world with
  | nil => rfl
  | cons d rest ih =>
      have hfirst := d.essence_observe key time sink world 1
      rw [List.map_cons]
      unfold observeAll
      cases hobserve : d.observe key 1 time sink world with
      | error cause =>
          rw [hobserve] at hfirst
          cases hother : d.sansFailures.observe key 1 time Sink.log () with
          | ok o =>
              rw [hother] at hfirst
              cases hfirst
          | error other =>
              rw [hother] at hfirst
              cases hfirst
              simp only [ObservedAll.essence, List.map_cons, List.map_map]
              rfl
      | ok o =>
          rw [hobserve] at hfirst
          cases hother : d.sansFailures.observe key 1 time Sink.log () with
          | error cause =>
              rw [hother] at hfirst
              cases hfirst
          | ok other =>
              rw [hother] at hfirst
              obtain ⟨hdetector, hdetection⟩ := Prod.mk.inj (Except.ok.inj hfirst)
              obtain ⟨hdetectors, houtcome⟩ := Prod.mk.inj (ih o.world)
              simp only [ObservedAll.essence, List.map_cons, hdetector, hdetection, hdetectors,
                houtcome]

variable (m : Metric) (event : Event)

theorem essence_handle :
    (m.handle event sink world).essence = (m.sansFailures.handle event Sink.log ()).essence := by
  unfold handle
  have hgrid : m.sansFailures.grid = m.grid := rfl
  have hprojection : m.sansFailures.projection = m.projection := rfl
  rw [hgrid, hprojection]
  split
  · simp only [Handled.essence, sansFailures_sansFailures]
  · cases m.projection.key? event with
    | none => simp only [Handled.essence, sansFailures_sansFailures]
    | some key =>
        have hall := essence_observeAll sink world key event.time m.detectors
        obtain ⟨hdetectors, houtcome⟩ := Prod.mk.inj hall
        simp only [Handled.essence, sansFailures, hdetectors, houtcome]

end Essence

/-- What a metric makes of an event, whatever its sink does. -/
def verdicts (m : Metric) (event : Event) : Except DropCause (List Detection) :=
  (m.handle event Sink.log ()).outcome

/-- A metric after an event but for sink failures, whatever its sink does. -/
def after (m : Metric) (event : Event) : Metric :=
  (m.handle event Sink.log ()).metric.sansFailures

theorem verdicts_sansFailures (m : Metric) (event : Event) :
    m.sansFailures.verdicts event = m.verdicts event :=
  (congrArg Prod.snd (m.essence_handle Sink.log () event)).symm

theorem after_sansFailures (m : Metric) (event : Event) :
    m.sansFailures.after event = m.after event :=
  (congrArg Prod.fst (m.essence_handle Sink.log () event)).symm

variable {World : Type} (m : Metric) (event : Event) (sink : Sink World) (world : World)

theorem outcome_handle : (m.handle event sink world).outcome = m.verdicts event := by
  rw [← verdicts_sansFailures]
  exact congrArg Prod.snd (m.essence_handle sink world event)

theorem sansFailures_handle : (m.handle event sink world).metric.sansFailures = m.after event := by
  rw [← after_sansFailures]
  exact congrArg Prod.fst (m.essence_handle sink world event)

end Metric

end CountAlarm
