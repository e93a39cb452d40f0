import CountAlarm.Proofs.Alerting.Evictions
/-!
# What a sweep gives up

An event that moves the newest bucket of a detector has it sweep its tables: first the windows, then
the deadlines of the slices that are left without one. `sweep_serveAll` says what such a sweep
leaves, whatever was observed before it, and that nothing else takes anything away. So every slice
that is left has an event in the last two windows' worth of buckets.
-/

namespace CountAlarm

open History

/-! ## Events of slices that are left -/

namespace History

variable {g : BucketGrid} {size : Nat} {key : SliceKey} {history : List Sighting}

theorem mem_sinceEviction {e : Sighting} (h : e ∈ sinceEviction g size key history) :
    e ∈ history ∧ e.key = key := by
  induction history with
  | nil => exact (List.not_mem_nil h).elim
  | cons s past ih =>
      rw [sinceEviction] at h
      generalize hlive : (if s.key = key then s :: sinceEviction g size key past
        else sinceEviction g size key past) = live at h
      split at h
      · exact (List.not_mem_nil h).elim
      · rw [← hlive] at h
        split at h
        · next hkey =>
          rcases List.mem_cons.mp h with rfl | h
          · exact ⟨List.mem_cons_self, hkey⟩
          · exact ⟨List.mem_cons_of_mem s (ih h).1, (ih h).2⟩
        · exact ⟨List.mem_cons_of_mem s (ih h).1, (ih h).2⟩

theorem exists_bucket_eq_newest (h : history ≠ []) :
    ∃ e ∈ history, e.bucket g = newest g history := by
  obtain ⟨s, past, rfl⟩ := List.exists_cons_of_ne_nil h
  obtain ⟨e, he, hbucket⟩ := List.mem_map.mp (List.max?_mem (newest?_cons g s past))
  exact ⟨e, he, hbucket⟩

end History

/-- The head of a window is the bucket of an event of its slice. -/
theorem WindowOf.exists_bucket_eq_head {g : BucketGrid} {size : Nat} {key : SliceKey}
    {history : List Sighting} {w : Window}
    (h : WindowOf g size (sinceEviction g size key history) (some w)) :
    ∃ e ∈ history, e.key = key ∧ e.bucket g = w.head := by
  obtain ⟨hne, -, hhead, -⟩ := h
  obtain ⟨e, he, hbucket⟩ := exists_bucket_eq_newest hne
  obtain ⟨hmem, hkey⟩ := mem_sinceEviction he
  exact ⟨e, hmem, hkey, hbucket.trans hhead.symm⟩

/-! ## One sweep -/

namespace Detector

variable {World : Type}

/-- What an event leaves of its own slice: the window that has counted it, and the deadline that it
has set if it fired, else the one from before. -/
structure KeepsOwn (d : Detector) (s : Sighting) (o : Observed World) : Prop where
  ownWindow : o.detector.counts.windows.get? s.key = some (d.windowAfter s)
  ownDeadline : o.detector.deadlines.get? s.key =
    if o.detection.fired?.isSome then some (s.second + d.rule.refractorySeconds.toNat + 1)
    else d.deadlines.get? s.key

/-- No slice loses anything, and only the slice of the event changes. -/
structure Keeps (d : Detector) (s : Sighting) (o : Observed World) : Prop
    extends d.KeepsOwn s o where
  window : ∀ key, d.counts.windows.contains key = true →
    o.detector.counts.windows.contains key = true
  deadline : ∀ key, d.deadlines.contains key = true → o.detector.deadlines.contains key = true
  others : ∀ key ≠ s.key,
    o.detector.counts.windows.get? key = d.counts.windows.get? key ∧
      o.detector.deadlines.get? key = d.deadlines.get? key

/-- The slice of the event is left as it is, with its head at the event, and of the others just
those windows less than a window before the horizon and just those deadlines that have a window or
come after the second of the horizon. -/
structure Sweeps (d : Detector) (s : Sighting) (o : Observed World) (horizon : Nat) : Prop
    extends d.KeepsOwn s o where
  ownHead : (d.windowAfter s).head = s.bucket d.counts.grid
  window : ∀ key ≠ s.key, ∀ w, o.detector.counts.windows.get? key = some w ↔
    d.counts.windows.get? key = some w ∧ horizon - w.head < d.counts.span
  deadline : ∀ key ≠ s.key, ∀ second, o.detector.deadlines.get? key = some second ↔
    d.deadlines.get? key = some second ∧ (o.detector.counts.windows.contains key = true ∨
      d.counts.grid.startOf horizon / nanosPerSecond < second)

section Sweep

variable {d : Detector} {rule : AlertRule} {g : BucketGrid} {history : List Sighting}
  {s : Sighting} {o : Observed World}

/-- The window of the event is not before the horizon. -/
theorem isStale_windowAfter (d : Detector) (s : Sighting) :
    (d.windowAfter s).isStale (d.horizonAfter s) = false := by
  have hhead : s.bucket d.counts.grid ≤ (d.windowAfter s).head := by
    unfold windowAfter
    rw [Window.head_add, Window.head_advance]
    exact Nat.le_max_right _ _
  have hpos := (d.windowAfter s).size_pos
  unfold Window.isStale horizonAfter
  rw [decide_eq_false_iff_not]
  omega

theorem Observes.own (ho : d.Observes s o) :
    o.detector.counts.windows.get? s.key = some (d.windowAfter s) := by
  rw [ho.window, if_pos rfl, Option.filter_some, isStale_windowAfter, Bool.and_false]
  rfl

theorem Observes.contains_own (ho : d.Observes s o) :
    o.detector.counts.windows.contains s.key = true := by
  rw [SliceTable.contains, ho.own]
  rfl

/-- The slice of the event has a window, so a sweep leaves its deadline alone. -/
theorem Observes.keepsOwn (ho : d.Observes s o) : d.KeepsOwn s o where
  ownWindow := ho.own
  ownDeadline := by
    rw [ho.deadline, ho.contains_own]
    simp only [Bool.or_true, Bool.true_or, true_and]
    exact filter_const_true _

theorem KeepsOwn.contains_deadline (h : d.KeepsOwn s o)
    (hbefore : d.deadlines.contains s.key = true) :
    o.detector.deadlines.contains s.key = true := by
  unfold SliceTable.contains at hbefore ⊢
  rw [h.ownDeadline]
  split
  · rfl
  · exact hbefore

theorem Observes.keeps (ho : d.Observes s o) (hadvances : d.advances s = false) :
    d.Keeps s o := by
  have hothers : ∀ key ≠ s.key,
      o.detector.counts.windows.get? key = d.counts.windows.get? key ∧
        o.detector.deadlines.get? key = d.deadlines.get? key := by
    intro key hkey
    rw [ho.window, ho.deadline, hadvances, if_neg hkey, if_neg fun hand => hkey hand.1]
    exact ⟨filter_const_true _, filter_const_true _⟩
  refine ⟨ho.keepsOwn, fun key hcontains => ?_, fun key hcontains => ?_, hothers⟩
  · by_cases hkey : key = s.key
    · rw [hkey]
      exact ho.contains_own
    · rw [SliceTable.contains, (hothers key hkey).1]
      exact hcontains
  · by_cases hkey : key = s.key
    · subst hkey
      exact ho.keepsOwn.contains_deadline hcontains
    · rw [SliceTable.contains, (hothers key hkey).2]
      exact hcontains

theorem Observes.sweeps (ho : d.Observes s o) (hadvances : d.advances s = true)
    (hsize : ∀ key w, d.counts.windows.get? key = some w → w.slots.size = d.counts.span)
    (hhead : (d.windowAfter s).head = s.bucket d.counts.grid) :
    d.Sweeps s o (d.horizonAfter s) where
  toKeepsOwn := ho.keepsOwn
  ownHead := hhead
  window key hkey w := by
    rw [ho.window, if_neg hkey, hadvances, Option.filter_eq_some_iff]
    apply and_congr_right
    intro hw
    rw [Bool.true_and, Bool.not_eq_true', Window.isStale, decide_eq_false_iff_not, Nat.not_le,
      hsize key w hw]
  deadline key hkey second := by
    rw [ho.deadline, if_neg fun hand => hkey hand.1, hadvances, Option.filter_eq_some_iff,
      Bool.not_true, Bool.false_or, Bool.or_eq_true, decide_eq_true_iff]

/-- Before the first event since a reset there is nothing to lose. -/
theorem Observes.sweeps_of_nil (h : d.Reflects rule g []) (hdeadlines : d.DeadlinesFrom rule [])
    (ho : d.Observes s o) (hhead : (d.windowAfter s).head = s.bucket d.counts.grid)
    (horizon : Nat) : d.Sweeps s o horizon := by
  have hwindows : ∀ key, d.counts.windows.get? key = none := by
    intro key
    have hwindow := h.window key
    cases hentry : d.counts.windows.get? key with
    | none => rfl
    | some w =>
        rw [hentry] at hwindow
        exact absurd rfl hwindow.1
  have hnone : ∀ key, d.deadlines.get? key = none := by
    intro key
    cases hentry : d.deadlines.get? key with
    | none => rfl
    | some second =>
        obtain ⟨e, he, -⟩ := hdeadlines key second hentry
        exact (List.not_mem_nil he).elim
  refine ⟨ho.keepsOwn, hhead, ?_, ?_⟩
  · intro key hkey w
    rw [ho.window, if_neg hkey, hwindows]
    simp
  · intro key hkey second
    rw [ho.deadline, if_neg fun hand => hkey hand.1, hnone]
    simp

theorem Observes.advances_eq_false (ho : d.Observes s o)
    (hsame : o.detector.counts.newest = d.counts.newest) : d.advances s = false := by
  rw [ho.newest] at hsame
  unfold advances
  rw [← hsame, Option.any_some, decide_eq_false_iff_not]
  omega

theorem Reflects.lt_of_newest_ne (h : d.Reflects rule g history) (ho : d.Observes s o)
    (hraised : o.detector.counts.newest ≠ d.counts.newest) :
    ∀ e ∈ history, e.bucket g < s.bucket g := by
  intro e he
  by_contra hnot
  apply hraised
  have hle : s.bucket g ≤ newest g history :=
    Nat.le_trans (Nat.le_of_not_lt hnot) (bucket_le_newest he)
  obtain ⟨latest, past, rfl⟩ := List.exists_cons_of_ne_nil (List.ne_nil_of_mem he)
  rw [ho.newest, h.newest_eq, h.grid_eq, newest?_cons, Option.getD_some, Nat.max_eq_right hle]

/-- The window of an event that no earlier one is ahead of has its head at the event. -/
theorem Reflects.head_windowAfter (h : d.Reflects rule g history)
    (hle : ∀ e ∈ history, e.bucket g ≤ s.bucket g) :
    (d.windowAfter s).head = s.bucket d.counts.grid := by
  have hlive : newest g (sinceEviction g rule.span s.key history) ≤ s.bucket g :=
    newest_le_iff.mpr fun e he => hle e (mem_sinceEviction he).1
  rw [(h.windowOf_windowAfter s).2.2.1, newest_cons, h.grid_eq, Nat.max_eq_left hlive]

theorem Reflects.sweeps (h : d.Reflects rule g history) (hdeadlines : d.DeadlinesFrom rule history)
    (ho : d.Observes s o) (hraised : o.detector.counts.newest ≠ d.counts.newest) :
    d.Sweeps s o (d.horizonAfter s) := by
  have hlt := h.lt_of_newest_ne ho hraised
  have hhead := h.head_windowAfter fun e he => Nat.le_of_lt (hlt e he)
  by_cases hnil : history = []
  · subst hnil
    exact ho.sweeps_of_nil h hdeadlines hhead _
  · refine ho.sweeps ((h.advances_iff s).mpr ⟨hnil, hlt⟩) (fun key w hw => ?_) hhead
    have hwindow := h.window key
    rw [hw] at hwindow
    rw [h.span_eq]
    exact hwindow.2.1

/-- After a sweep, every slice left has an event in the last two windows' worth of buckets. -/
theorem Sweeps.exists_recent (hsweeps : d.Sweeps s o (d.horizonAfter s))
    (h : d.Reflects rule g history) (ho : d.Observes s o) {key : SliceKey} {w : Window}
    (hw : o.detector.counts.windows.get? key = some w) :
    ∃ e ∈ s :: history, e.key = key ∧ s.bucket g < e.bucket g + 2 * rule.span := by
  have hwindow := h.windowOf_step ho key
  rw [hw] at hwindow
  obtain ⟨e, he, hkey, hbucket⟩ := hwindow.exists_bucket_eq_head
  refine ⟨e, he, hkey, ?_⟩
  have hspan := rule.span_pos
  by_cases hown : key = s.key
  · have hget := hsweeps.ownWindow
    rw [← hown, hw] at hget
    cases hget
    rw [hbucket, hsweeps.ownHead, h.grid_eq]
    omega
  · have hnear := ((hsweeps.window key hown w).mp hw).2
    unfold horizonAfter at hnear
    rw [h.grid_eq, h.span_eq] at hnear
    omega

end Sweep

section Served

variable (rule : AlertRule) (g : BucketGrid) (sink : Sink World) (world : World)
  (requests : List Request)

theorem Reflects.head_le {d : Detector} {rule : AlertRule} {g : BucketGrid}
    {history : List Sighting} (h : d.Reflects rule g history) {key : SliceKey} {w : Window}
    (hw : d.counts.windows.get? key = some w) :
    ∃ newest, d.counts.newest = some newest ∧ w.head ≤ newest := by
  have hwindow := h.window key
  rw [hw] at hwindow
  obtain ⟨e, he, -, hbucket⟩ := hwindow.exists_bucket_eq_head
  obtain ⟨latest, past, rfl⟩ := List.exists_cons_of_ne_nil (List.ne_nil_of_mem he)
  refine ⟨_, h.newest_eq.trans (newest?_cons g latest past), ?_⟩
  rw [← hbucket]
  exact bucket_le_newest he

/-- Whatever a detector was asked before, its rule, grid and span are those it started with, its
newest bucket is that of what it has accepted since the last reset, and no window is ahead of it;
without resets, the windows that are gone are those counted as evicted. The next event is either in
no newer bucket and takes nothing away, or its sweep leaves just what `Sweeps` says, which is slices
with an event in the last two windows' worth of buckets. In both cases the event's own slice has its
window, and the deadline that was set if the event fired. -/
theorem sweep_serveAll (s : Sighting) (hstart : g.start ≤ s.time) :
    let served := (start rule g).serveAll sink world requests
    let d := served.detector
    let history := accepted g (sinceReset requests)
    (d.rule = rule ∧ d.counts.grid = g ∧ d.counts.span = rule.span) ∧
    (d.counts.newest = (history.map (Sighting.bucket g)).max? ∧
      ∀ key w, d.counts.windows.get? key = some w →
        ∃ newest, d.counts.newest = some newest ∧ w.head ≤ newest) ∧
    ((∀ request ∈ requests, request ≠ .reset) →
      ∃ gone, (start rule g).opened sink world requests = d.counts.windows.size + gone ∧
        d.tally.evicted = min wordLimit gone) ∧
    ∃ o, d.observe s.key s.amount s.time sink served.world = .ok o ∧
      ((start rule g).serveAll sink world (.observe s :: requests)).detector = o.detector ∧
      (o.detector.counts.newest = d.counts.newest → d.Keeps s o) ∧
      (o.detector.counts.newest ≠ d.counts.newest →
        o.detector.counts.newest = some (s.bucket g) ∧
        d.Sweeps s o (s.bucket g - rule.span) ∧
        ∀ key, o.detector.counts.windows.contains key = true →
          ∃ e ∈ s :: history, e.key = key ∧ s.bucket g < e.bucket g + 2 * rule.span) := by
  intro served d history
  have hreflects := reflects_serveAll rule g sink world requests
  have hdeadlines := deadlinesFrom_serveAll rule g sink world requests
  obtain ⟨o, hobserve, ho, hfeed⟩ := Replay.feed_of_start_le sink hreflects hstart
  refine ⟨⟨hreflects.rule_eq, hreflects.grid_eq, hreflects.span_eq⟩,
    ⟨hreflects.newest_eq, fun key w hw => hreflects.head_le hw⟩, opened_eq rule g sink world,
    o, hobserve, ?_, ?_, ?_⟩
  · rw [serveAll, Replay.serve, hfeed]
  · exact fun hsame => ho.keeps (ho.advances_eq_false hsame)
  · intro hraised
    have hhorizon : d.horizonAfter s = s.bucket g - rule.span := by
      unfold horizonAfter
      rw [hreflects.grid_eq, hreflects.span_eq]
    have hsweeps := hreflects.sweeps hdeadlines ho hraised
    refine ⟨?_, hhorizon ▸ hsweeps, fun key hkey => ?_⟩
    · have hle : newest g history ≤ s.bucket g := newest_le_iff.mpr fun e he =>
        Nat.le_of_lt (hreflects.lt_of_newest_ne ho hraised e he)
      rw [ho.newest, hreflects.grid_eq, hreflects.newest_eq]
      exact congrArg some (Nat.max_eq_left hle)
    · obtain ⟨w, hw⟩ := Option.isSome_iff_exists.mp hkey
      exact hsweeps.exists_recent hreflects ho hw

end Served

/-- After a reset, an event of another slice gives up a window and keeps its deadline, and the
deadline that it sets for its own slice is there after the sweep. -/
theorem sweep_serveAll_kept_deadline :
    let rule : AlertRule := ⟨1, 1, 1, 0, 100⟩
    let g := BucketGrid.of 0 1000000000
    let other := SliceKey.ofList [⟨1, .int 1⟩]
    let requests : List Request :=
      [.observe ⟨.whole, 1, 7⟩, .reset, .observe ⟨other, 1, 90000000000⟩]
    let s : Sighting := ⟨other, 1, 50000000000⟩
    let after := ((start rule g).serveAll Sink.log () (.observe s :: requests)).detector
    g.start ≤ s.time ∧ after.counts.newest = some 50 ∧
      after.counts.windows.contains .whole = false ∧ after.deadlines.get? .whole = some 101 ∧
      after.deadlines.get? other = some 151 := by
  intro rule g other requests s after
  have hstart : g.start ≤ s.time := by decide
  have hother : SliceKey.whole ≠ s.key := by decide
  have hafter : after.counts.newest = some 50 := by decide
  obtain ⟨⟨hrule, hgrid, hspan⟩, -, -, o, hobserve, heq, -, hraised⟩ :=
    sweep_serveAll rule g Sink.log () requests s hstart
  have hnewest : ((start rule g).serveAll Sink.log () requests).detector.counts.newest =
      some 0 := by decide
  have hwindow : (((start rule g).serveAll Sink.log () requests).detector.counts.windows.get?
      .whole).map Window.head = some 0 := by decide
  have hdeadline : ((start rule g).serveAll Sink.log () requests).detector.deadlines.get? .whole =
      some 101 := by decide
  have hfires : (((start rule g).serveAll Sink.log () requests).detector.observe s.key s.amount
      s.time Sink.log ((start rule g).serveAll Sink.log () requests).world).toOption.map
        (fun o => o.detection.fired?.isSome) = some true := by decide
  -- From here on only what was read off the two runs counts, so they need not be run again.
  generalize (start rule g).serveAll Sink.log () requests = served at *
  change after = o.detector at heq
  clear_value after
  subst heq
  rw [hobserve] at hfires
  have hfired : o.detection.fired?.isSome = true := Option.some.inj hfires
  obtain ⟨-, hsweeps, -⟩ := hraised (by rw [hafter, hnewest]; decide)
  refine ⟨hstart, hafter, ?_, ?_, ?_⟩
  · rw [SliceTable.contains, Option.isSome_eq_false_iff, Option.isNone_iff_eq_none,
      Option.eq_none_iff_forall_ne_some]
    intro w hw
    obtain ⟨hbefore, hnear⟩ := (hsweeps.window .whole hother w).mp hw
    rw [hbefore] at hwindow
    have hhead : w.head = 0 := Option.some.inj hwindow
    rw [hhead, hspan] at hnear
    revert hnear
    decide
  · refine (hsweeps.deadline .whole hother 101).mpr ⟨hdeadline, Or.inr ?_⟩
    rw [hgrid]
    decide
  · have hown := hsweeps.ownDeadline
    rw [hfired, if_pos rfl, hrule] at hown
    exact hown.trans (by decide)

end Detector

end CountAlarm
