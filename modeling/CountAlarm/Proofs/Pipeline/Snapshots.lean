import CountAlarm.Pipeline.Snapshot
import CountAlarm.Proofs.Alerting.Sweep
import CountAlarm.Proofs.Counting.ReadingAhead
import CountAlarm.Proofs.Event.Order
import CountAlarm.Proofs.Pipeline.AlertIds
/-!
# What snapshots show

A slice is listed if one of two tables has it, and the tables come apart: a sweep can take the
window of a slice and leave its deadline. `GivenUp` follows such a slice through a run, and a slice
is shown without a window just when this has happened to it. The counts of a window end at its own
head, but the sum beside them at the newest bucket of all slices, so the oldest counts may not be in
it.
-/

namespace CountAlarm

/-! ## Listings of keys -/

namespace SliceTable

variable {α : Type}

theorem pairwise_keys (t : SliceTable α) : t.keys.Pairwise SliceKey.Below := by
  unfold keys
  rw [List.pairwise_map]
  exact t.ascending.imp fun h => (SliceKey.orders_below.lt_iff _ _).mp h

/-- The keys of a listing as a table. -/
def marked (listing : List SliceKey) : SliceTable Unit :=
  listing.foldl (fun t key => t.insert key ()) .empty

theorem contains_insert (t : SliceTable α) (key : SliceKey) (a : α) (other : SliceKey) :
    (t.insert key a).contains other = true ↔ other = key ∨ t.contains other = true := by
  unfold contains
  rw [get?_insert]
  by_cases h : other = key <;> simp [h]

theorem mem_keys_marked {listing : List SliceKey} {key : SliceKey} :
    key ∈ (marked listing).keys ↔ key ∈ listing := by
  have hfold : ∀ t : SliceTable Unit,
      (listing.foldl (fun t key => t.insert key ()) t).contains key = true ↔
        key ∈ listing ∨ t.contains key = true := by
    induction listing with
    | nil => simp
    | cons first rest ih =>
        intro t
        rw [List.foldl_cons, ih, contains_insert, List.mem_cons, or_left_comm, or_assoc]
  rw [mem_keys, marked, hfold]
  simp [contains]

/-- In what order keys are listed, and how often, does not matter. -/
theorem keys_marked_eq {first second : List SliceKey} (h : ∀ key, key ∈ first ↔ key ∈ second) :
    (marked first).keys = (marked second).keys := by
  have hirrefl : Std.Irrefl SliceKey.Below := ⟨SliceKey.orders_below.irrefl⟩
  have hperm : (marked first).keys.Perm (marked second).keys := by
    rw [List.perm_ext_iff_of_nodup (pairwise_keys _).nodup (pairwise_keys _).nodup]
    intro key
    rw [mem_keys_marked, mem_keys_marked, h]
  refine hperm.eq_of_pairwise (fun a b _ _ hab hba => ?_) (pairwise_keys _) (pairwise_keys _)
  exact absurd (SliceKey.orders_below.trans a b a hab hba) (SliceKey.orders_below.irrefl a)

end SliceTable

/-! ## Slices without a window -/

namespace Detector

variable {World : Type}

/-- In a run of requests, the window of a slice was lost to the sweep of an event and no event has
opened another one, while the deadline was kept all the time. -/
inductive GivenUp (run : List Request → Detector) (key : SliceKey) (second : Nat) :
    List Request → Prop where
  | swept {s : Sighting} {past : List Request}
      (hwindow : (run past).counts.windows.contains key = true)
      (hbefore : (run past).deadlines.get? key = some second)
      (hmoved : (run (.observe s :: past)).counts.newest ≠ (run past).counts.newest)
      (hgone : (run (.observe s :: past)).counts.windows.get? key = none)
      (hkept : (run (.observe s :: past)).deadlines.get? key = some second) :
      GivenUp run key second (.observe s :: past)
  | stays {s : Sighting} {past : List Request} (hpast : GivenUp run key second past)
      (hgone : (run (.observe s :: past)).counts.windows.get? key = none)
      (hkept : (run (.observe s :: past)).deadlines.get? key = some second) :
      GivenUp run key second (.observe s :: past)

theorem GivenUp.tables {run : List Request → Detector} {key : SliceKey} {second : Nat}
    {requests : List Request} (h : GivenUp run key second requests) :
    (run requests).counts.windows.get? key = none ∧
      (run requests).deadlines.get? key = some second := by
  cases h with
  | swept _ _ _ hgone hkept => exact ⟨hgone, hkept⟩
  | stays _ hgone hkept => exact ⟨hgone, hkept⟩

/-- Only the event of a slice sets its deadline. -/
theorem Observes.deadline_before {d : Detector} {s : Sighting} {o : Observed World}
    (ho : d.Observes s o) {key : SliceKey} (hkey : key ≠ s.key) {second : Nat}
    (hafter : o.detector.deadlines.get? key = some second) :
    d.deadlines.get? key = some second := by
  rw [ho.deadline, if_neg fun hand => hkey hand.1, Option.filter_eq_some_iff] at hafter
  exact hafter.1

/-- Only an event that moves the newest bucket takes windows. -/
theorem Observes.newest_ne {d : Detector} {s : Sighting} {o : Observed World}
    (ho : d.Observes s o) {key : SliceKey} (hbefore : d.counts.windows.contains key = true)
    (hgone : o.detector.counts.windows.get? key = none) :
    o.detector.counts.newest ≠ d.counts.newest := by
  intro hsame
  have hleft := (ho.keeps (ho.advances_eq_false hsame)).window key hbefore
  rw [SliceTable.contains, hgone] at hleft
  cases hleft

section Served

variable (rule : AlertRule) (g : BucketGrid) (sink : Sink World) (world : World)

theorem givenUp_of_tables {key : SliceKey} {second : Nat} {requests : List Request}
    (hgone : ((start rule g).serveAll sink world requests).detector.counts.windows.get? key =
      none)
    (hkept : ((start rule g).serveAll sink world requests).detector.deadlines.get? key =
      some second) :
    GivenUp (fun requests => ((start rule g).serveAll sink world requests).detector) key second
      requests := by
  induction requests with
  | nil => cases hkept
  | cons request past ih =>
      cases request with
      | reset => cases hkept
      | observe s =>
          have hreflects := reflects_serveAll rule g sink world past
          by_cases hs : g.start ≤ s.time
          · obtain ⟨o, -, ho, hfeed⟩ := Replay.feed_of_start_le sink hreflects hs
            have hserved : ((start rule g).serveAll sink world (.observe s :: past)).detector =
                o.detector := congrArg Replay.detector hfeed
            have hgone' := hserved ▸ hgone
            have hkey : key ≠ s.key := by
              rintro rfl
              rw [ho.own] at hgone'
              cases hgone'
            have hbefore := ho.deadline_before hkey (hserved ▸ hkept)
            cases hwindow :
                ((start rule g).serveAll sink world past).detector.counts.windows.get? key with
            | none => exact .stays (ih hwindow hbefore) hgone hkept
            | some w =>
                have hcontains := Option.isSome_of_eq_some hwindow
                refine .swept hcontains hbefore ?_ hgone hkept
                exact hserved.symm ▸ ho.newest_ne hcontains hgone'
          · have hserved : ((start rule g).serveAll sink world (.observe s :: past)).detector =
                ((start rule g).serveAll sink world past).detector := by
              rw [serveAll, Replay.serve, Replay.feed_of_lt_start sink hreflects hs]
            exact .stays (ih (hserved ▸ hgone) (hserved ▸ hkept)) hgone hkept

/-- A slice with a window or a deadline is without a window just when it was given up. -/
theorem exists_givenUp_iff {key : SliceKey} {requests : List Request} :
    let run := fun requests => ((start rule g).serveAll sink world requests).detector
    (run requests).counts.windows.contains key = true ∨
        (run requests).deadlines.contains key = true →
      ((run requests).counts.windows.get? key = none ↔
        ∃ second, GivenUp run key second requests) := by
  intro run hlisted
  constructor
  · intro hgone
    have hwindowless : ¬(run requests).counts.windows.contains key = true := by
      rw [SliceTable.contains, hgone]
      exact Bool.false_ne_true
    obtain ⟨second, hkept⟩ := Option.isSome_iff_exists.mp (hlisted.resolve_left hwindowless)
    exact ⟨second, givenUp_of_tables rule g sink world hgone hkept⟩
  · rintro ⟨second, hgivenUp⟩
    exact hgivenUp.tables.1

end Served

/-! ## Slices as they are shown -/

theorem mem_sliceKeys (d : Detector) (key : SliceKey) :
    key ∈ d.sliceKeys ↔
      d.counts.windows.contains key = true ∨ d.deadlines.contains key = true := by
  rw [← SliceTable.mem_keys, ← SliceTable.mem_keys, ← List.mem_append]
  exact SliceTable.mem_keys_marked

theorem map_key_slices (d : Detector) :
    d.snapshot.slices.map SliceSnapshot.key = d.sliceKeys := by
  rw [snapshot, List.map_map]
  exact List.map_id _

theorem shownSecond_pos {second : Nat} (h : 0 < second) : 0 < shownSecond second := by
  have hlt : min 4294967295 second < UInt32.size := by
    unfold UInt32.size
    omega
  rw [shownSecond, UInt32.lt_iff_toNat_lt, UInt32.toNat_ofNat_of_lt' hlt, UInt32.toNat_zero]
  omega

/-- What is shown of the window of a slice: all its counts up to its own head, and the sum of the
slice, which leaves out the counts that are no longer in the window at the newest bucket. -/
structure Shows (d : Detector) (key : SliceKey) (size : Nat) (shown : WindowSnapshot) : Prop where
  window : ∃ w, d.counts.windows.get? key = some w ∧ shown.head = w.head ∧
    shown.counts = w.oldestFirst
  length : shown.counts.length = size
  sum_eq : shown.sum = d.sum key
  newest : ∃ newest, d.snapshot.newest = some newest ∧ shown.head ≤ newest ∧
    shown.sum = sumCounts (shown.counts.drop (min size (newest - shown.head)))

section Shown

variable {d : Detector} {rule : AlertRule} {g : BucketGrid} {history : List Sighting}

theorem Reflects.shows (h : d.Reflects rule g history) {key : SliceKey} {shown : WindowSnapshot}
    (hshown : (d.sliceSnapshot key).window = some shown) : d.Shows key rule.span shown := by
  obtain ⟨w, hw, rfl⟩ := Option.map_eq_some_iff.mp hshown
  obtain ⟨newest, hnewest, hle⟩ := h.head_le hw
  have hwindow := h.window key
  rw [hw] at hwindow
  obtain ⟨-, hsize, -, hholds⟩ := hwindow
  refine ⟨⟨w, hw, rfl, rfl⟩, w.length_oldestFirst.trans hsize, rfl, newest, hnewest, hle, ?_⟩
  have hsum : d.sum key = w.sumAt newest := by
    rw [sum, SliceCounts.sum, hw, hnewest]
  exact hsum.trans (hsize ▸ hholds.sumAt_eq_sumCounts_drop hle)

theorem DeadlinesFrom.refractoryEnd_pos (h : d.DeadlinesFrom rule history) {key : SliceKey}
    {second : Nat} (hsecond : d.deadlines.get? key = some second) :
    0 < d.refractoryEnd key := by
  obtain ⟨e, -, -, heq⟩ := h key second hsecond
  have hpos : 0 < second := by omega
  rw [refractoryEnd, deadlineOf, hsecond]
  exact shownSecond_pos hpos

end Shown

end Detector

/-! ## Pipelines -/

theorem Pipeline.detector?_snapshot {World : Type} (p : Pipeline World) (id : UInt64) :
    p.snapshot.detector? id = (p.detector? id).map Detector.snapshot := by
  have hshown : p.snapshot.metrics.flatMap MetricSnapshot.detectors =
      (p.metrics.flatMap Metric.detectors).map Detector.snapshot := by
    rw [snapshot, List.flatMap_map, List.map_flatMap]
    rfl
  rw [PipelineSnapshot.detector?, hshown, List.find?_map, detector?_eq_find?]
  rfl

/-- Whatever a detector was asked, its snapshot lists in ascending order just the slices that have a
window or a deadline, in whatever order the tables are gone through. A slice is shown without a
window just when it was given up with its deadline kept, and then the deadline is not zero. A window
is shown with all its counts; beside them stands the sum of the slice, which is that of the counts
that the newest bucket leaves in the window. A pipeline shows of every alert the snapshot of its
detector, and the totals that it reports. -/
theorem snapshots_faithful {World : Type} :
    (∀ (rule : AlertRule) (g : BucketGrid) (sink : Sink World) (world : World)
      (requests : List Request),
      let run := fun requests => ((Detector.start rule g).serveAll sink world requests).detector
      let d := run requests
      let slices := d.snapshot.slices
      (slices.map SliceSnapshot.key).Pairwise SliceKey.Below ∧
      (∀ key, key ∈ slices.map SliceSnapshot.key ↔
        d.counts.windows.contains key = true ∨ d.deadlines.contains key = true) ∧
      (∀ windowKeys deadlineKeys : List SliceKey,
        (∀ key, key ∈ windowKeys ↔ d.counts.windows.contains key = true) →
        (∀ key, key ∈ deadlineKeys ↔ d.deadlines.contains key = true) →
          (SliceTable.marked (windowKeys ++ deadlineKeys)).keys.map d.sliceSnapshot = slices) ∧
      ∀ slice ∈ slices,
        slice.refractoryEnd = d.refractoryEnd slice.key ∧
        (slice.window = none ↔ ∃ second, Detector.GivenUp run slice.key second requests) ∧
        (slice.window = none → 0 < slice.refractoryEnd) ∧
        ∀ shown, slice.window = some shown →
          d.Shows slice.key (max rule.buckets.toNat 1) shown) ∧
    ∀ p : Pipeline World,
      (∀ id, p.snapshot.detector? id = (p.detector? id).map Detector.snapshot) ∧
      p.snapshot.totals = p.allTotals := by
  refine ⟨?_, fun p => ⟨p.detector?_snapshot, rfl⟩⟩
  intro rule g sink world requests run d slices
  have hreflects : d.Reflects rule g _ := Detector.reflects_serveAll rule g sink world requests
  have hdeadlines : d.DeadlinesFrom rule _ :=
    Detector.deadlinesFrom_serveAll rule g sink world requests
  refine ⟨?_, ?_, ?_, ?_⟩
  · rw [d.map_key_slices]
    exact SliceTable.pairwise_keys _
  · rw [d.map_key_slices]
    exact d.mem_sliceKeys
  · intro windowKeys deadlineKeys hwindows hends
    refine congrArg (List.map d.sliceSnapshot) (SliceTable.keys_marked_eq fun key => ?_)
    rw [List.mem_append, List.mem_append, hwindows, hends, SliceTable.mem_keys,
      SliceTable.mem_keys]
  · intro slice hslice
    obtain ⟨key, hkey, rfl⟩ := List.mem_map.mp hslice
    have hwindowless : (d.sliceSnapshot key).window = none ↔
        ∃ second, Detector.GivenUp run key second requests := by
      rw [Detector.sliceSnapshot, Option.map_eq_none_iff]
      exact Detector.exists_givenUp_iff rule g sink world ((d.mem_sliceKeys key).mp hkey)
    refine ⟨rfl, hwindowless, ?_, fun _ hshown => hreflects.shows hshown⟩
    intro hnone
    obtain ⟨second, hgivenUp⟩ := hwindowless.mp hnone
    exact hdeadlines.refractoryEnd_pos hgivenUp.tables.2

/-- The window of the first slice is given up and its deadline kept, the second has the newest
bucket, and the third is a bucket behind it. -/
theorem snapshots_faithful_given_up :
    let rule : AlertRule := ⟨1, 1, 2, 0, 100⟩
    let g := BucketGrid.of 0 1000000000
    let latest := SliceKey.ofList [⟨1, .int 1⟩]
    let behind := SliceKey.ofList [⟨1, .int 2⟩]
    let requests : List Request :=
      [.observe ⟨behind, 3, 49000000000⟩, .observe ⟨latest, 1, 50000000000⟩,
        .observe ⟨.whole, 1, 7⟩]
    let run := fun requests =>
      ((Detector.start rule g).serveAll (Sink.log : Sink Unit) () requests).detector
    let d := run requests
    d.snapshot.slices =
      [⟨.whole, none, 101⟩, ⟨latest, some ⟨50, [0, 1], 1⟩, 151⟩,
        ⟨behind, some ⟨49, [0, 3], 3⟩, 150⟩] ∧
    SliceKey.whole.Below latest ∧ latest.Below behind ∧
    (SliceTable.marked ([behind, latest] ++ [latest, .whole, behind])).keys.map d.sliceSnapshot =
      d.snapshot.slices ∧
    (∃ second, Detector.GivenUp run .whole second requests) ∧
    d.sum behind = sumCounts [3] := by
  intro rule g latest behind requests run d
  obtain ⟨hdetectors, -⟩ := @snapshots_faithful Unit
  obtain ⟨hpairwise, -, hlisting, hslices⟩ := hdetectors rule g Sink.log () requests
  have hshown : d.snapshot.slices =
      [⟨.whole, none, 101⟩, ⟨latest, some ⟨50, [0, 1], 1⟩, 151⟩,
        ⟨behind, some ⟨49, [0, 3], 3⟩, 150⟩] := by decide
  have hnewest : d.snapshot.newest = some 50 := by decide
  have hwindows : d.counts.windows.keys = [latest, behind] := by decide
  have hdeadlines : d.deadlines.keys = [.whole, latest, behind] := by decide
  have hordered : [SliceKey.whole, latest, behind].Pairwise SliceKey.Below := by
    have hkeys : d.snapshot.slices.map SliceSnapshot.key = [.whole, latest, behind] := by
      rw [hshown]
      rfl
    exact hkeys ▸ hpairwise
  obtain ⟨hfirst, hrest⟩ := List.pairwise_cons.mp hordered
  refine ⟨hshown, hfirst latest (by simp), (List.pairwise_cons.mp hrest).1 behind (by simp),
    ?_, ?_, ?_⟩
  · apply hlisting
    · intro key
      rw [← SliceTable.mem_keys, hwindows]
      simp [or_comm]
    · intro key
      rw [← SliceTable.mem_keys, hdeadlines]
      simp [or_left_comm]
  · have hwhole : ⟨.whole, none, 101⟩ ∈ d.snapshot.slices := by simp [hshown]
    exact (hslices _ hwhole).2.1.mp rfl
  · have hbehind : ⟨behind, some ⟨49, [0, 3], 3⟩, 150⟩ ∈ d.snapshot.slices := by simp [hshown]
    have hshows := (hslices _ hbehind).2.2.2 _ rfl
    obtain ⟨newest, hsome, -, hcounts⟩ := hshows.newest
    rw [hnewest] at hsome
    cases hsome
    rw [← hshows.sum_eq]
    exact hcounts

end CountAlarm
