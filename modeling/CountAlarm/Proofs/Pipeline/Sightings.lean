import CountAlarm.Proofs.Pipeline.Expectation
/-!
# From events to sightings

What a metric counts of a stream of events, as a history of its detectors. In order of time, the
number of events that a configuration asks about is the sum of a window.
-/

namespace CountAlarm

open History

namespace MetricConfig

variable (c : Config) (m : MetricConfig)

def gridOf : BucketGrid :=
  .of c.start (m.bucketWidth?.getD 0)

/-- What the detectors of a metric observe of an event. -/
def sighting? (e : Event) : Option Sighting :=
  if m.Counts c e then some ⟨m.projection.keyOf e, 1, e.time⟩ else none

def sightings (events : List Event) : List Sighting :=
  events.filterMap (m.sighting? c)

variable {c m}

theorem sighting?_of_counts {e : Event} (h : m.Counts c e) :
    m.sighting? c e = some ⟨m.projection.keyOf e, 1, e.time⟩ :=
  if_pos h

theorem sightings_cons_of_counts {e : Event} (h : m.Counts c e) (past : List Event) :
    m.sightings c (e :: past) = ⟨m.projection.keyOf e, 1, e.time⟩ :: m.sightings c past :=
  List.filterMap_cons_some (sighting?_of_counts h)

theorem sightings_cons_of_not {e : Event} (h : ¬m.Counts c e) (past : List Event) :
    m.sightings c (e :: past) = m.sightings c past :=
  List.filterMap_cons_none (if_neg h)

theorem of_mem_sightings {s : Sighting} {events : List Event} (h : s ∈ m.sightings c events) :
    ∃ e ∈ events, m.Counts c e ∧ s = ⟨m.projection.keyOf e, 1, e.time⟩ := by
  obtain ⟨e, he, hs⟩ := List.mem_filterMap.mp h
  unfold sighting? at hs
  split at hs
  · next hcounts => exact ⟨e, he, hcounts, (Option.some.inj hs).symm⟩
  · cases hs

theorem ordered_sightings {events : List Event}
    (h : events.Pairwise fun late early => early.time ≤ late.time) :
    Ordered (m.sightings c events) := by
  induction events with
  | nil => exact List.Pairwise.nil
  | cons e past ih =>
      obtain ⟨he, hpast⟩ := List.pairwise_cons.mp h
      by_cases hcounts : m.Counts c e
      · rw [sightings_cons_of_counts hcounts]
        refine List.pairwise_cons.mpr ⟨fun s hs => ?_, ih hpast⟩
        obtain ⟨early, hearly, -, rfl⟩ := of_mem_sightings hs
        exact he early hearly
      · rw [sightings_cons_of_not hcounts]
        exact ih hpast

theorem bucketAt_gridOf {width : UInt64} (hwidth : m.bucketWidth? = some width)
    (hpos : 0 < width.toNat) (e : Event) : (m.gridOf c).bucketAt e.time = m.bucketOf c e := by
  unfold gridOf bucketOf BucketGrid.of
  rw [hwidth, Option.getD_some, dif_pos hpos]
  rfl

theorem start_gridOf (c : Config) (m : MetricConfig) : (m.gridOf c).start = c.start :=
  BucketGrid.start_of _ _

theorem bucketOf_mono (c : Config) (m : MetricConfig) {early late : Event}
    (h : early.time ≤ late.time) : m.bucketOf c early ≤ m.bucketOf c late := by
  have hle : early.time.toNat ≤ late.time.toNat := UInt64.le_iff_toNat_le.mp h
  exact Nat.div_le_div_right (by omega)

/-- The window of the slice of an event sums up to the number of events in the last buckets. -/
theorem windowSum_sightings {width : UInt64} (hwidth : m.bucketWidth? = some width)
    (hpos : 0 < width.toNat) {e : Event} {past : List Event} (hcounts : m.Counts c e)
    (hsorted : (e :: past).Pairwise fun late early => early.time ≤ late.time)
    (hlength : (e :: past).length ≤ countLimit) (buckets : Nat) :
    windowSum (m.gridOf c) buckets
        (ofSlice (m.projection.keyOf e) (m.sightings c (e :: past))) =
      m.countIn c buckets e (e :: past) := by
  have hslice : ofSlice (m.projection.keyOf e) (m.sightings c (e :: past)) =
      ⟨m.projection.keyOf e, 1, e.time⟩ ::
        ofSlice (m.projection.keyOf e) (m.sightings c past) := by
    rw [sightings_cons_of_counts hcounts, ofSlice_cons_self ⟨m.projection.keyOf e, 1, e.time⟩]
  have hordered : Ordered (ofSlice (m.projection.keyOf e) (m.sightings c (e :: past))) :=
    (ordered_sightings hsorted).filter _
  have hone : ∀ s ∈ ofSlice (m.projection.keyOf e) (m.sightings c (e :: past)), s.amount = 1 := by
    intro s hs
    obtain ⟨other, -, -, rfl⟩ := of_mem_sightings (List.mem_filter.mp hs).1
    rfl
  have hshort :
      (ofSlice (m.projection.keyOf e) (m.sightings c (e :: past))).length ≤ countLimit :=
    calc (ofSlice (m.projection.keyOf e) (m.sightings c (e :: past))).length
      _ ≤ (m.sightings c (e :: past)).length := List.length_filter_le _ _
      _ ≤ (e :: past).length := List.length_filterMap_le _ _
      _ ≤ countLimit := hlength
  have hsum : windowSum (m.gridOf c) buckets
      (ofSlice (m.projection.keyOf e) (m.sightings c (e :: past))) =
      (ofSlice (m.projection.keyOf e) (m.sightings c (e :: past))).countP fun s =>
        m.bucketOf c e < s.bucket (m.gridOf c) + buckets := by
    rw [hslice] at hordered hone hshort ⊢
    rw [windowSum_of_ordered hordered hone hshort, ← bucketAt_gridOf hwidth hpos e]
    rfl
  have hlast : ∀ other ∈ e :: past, m.bucketOf c other ≤ m.bucketOf c e := by
    rw [List.forall_mem_cons]
    exact ⟨Nat.le_refl _, fun other hother =>
      bucketOf_mono c m ((List.pairwise_cons.mp hsorted).1 other hother)⟩
  rw [hsum]
  unfold ofSlice sightings countIn
  rw [List.countP_filter, List.countP_filterMap]
  apply List.countP_congr
  intro other hother
  unfold sighting?
  by_cases hother' : m.Counts c other
  · have hkey : m.projection.keyOf other = m.projection.keyOf e ↔ m.projection.Agree other e :=
      Projection.keyOf_eq_iff hother'.2.2
    have hbucket : Sighting.bucket (m.gridOf c) ⟨m.projection.keyOf other, 1, other.time⟩ =
        m.bucketOf c other := bucketAt_gridOf hwidth hpos other
    simp [hother', hkey, hbucket, hlast other hother, and_comm]
  · simp [hother']

end MetricConfig

end CountAlarm
