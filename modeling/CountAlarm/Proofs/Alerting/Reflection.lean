import CountAlarm.Proofs.Alerting.Step
/-!
# Detectors reflect their history

`Reflects` is the invariant of a detector over what it has observed. The window of a slice holds the
charges since the slice was last evicted. The deadline of a slice that stays within reach is that
of its last firing; where it is gone, it lies at or before the horizon, so that no event within
reach can tell.

`soloVerdict` is what a slice would be told if it were alone. `Reflects.detection` says that
a slice within reach is told just that, whatever happens to the other slices.
-/

namespace CountAlarm

open History

/-! ## A slice alone -/

namespace AlertRule

variable (rule : AlertRule) (g : BucketGrid)

/-- The second from which a slice may fire again that fired at some seconds, the latest first. -/
def quietUntil : List Nat → Nat
  | [] => 0
  | fired :: _ => fired + rule.refractorySeconds.toNat + 1

/-- The seconds at which a slice fires by its own events alone, both the latest first. -/
def fires : List Sighting → List Nat
  | [] => []
  | s :: past =>
    let verdict := rule.verdict s (windowSum g rule.span (s :: past)) (rule.quietUntil (fires past))
    if verdict.fired?.isSome then s.second :: fires past else fires past

/-- The verdict on an event by the events of its slice alone. -/
def soloVerdict (s : Sighting) (past : List Sighting) : Detection :=
  rule.verdict s (windowSum g rule.span (s :: past)) (rule.quietUntil (rule.fires g past))

theorem fires_cons (s : Sighting) (past : List Sighting) :
    rule.fires g (s :: past) =
      if (rule.soloVerdict g s past).fired?.isSome then s.second :: rule.fires g past
      else rule.fires g past := rfl

variable {rule} in
/-- After the deadline of the latest firing, those of all earlier ones have passed too. -/
theorem quietUntil_le_iff {fires : List Nat} {second : Nat}
    (h : fires.Pairwise fun late early => early + rule.refractorySeconds.toNat + 1 ≤ late) :
    rule.quietUntil fires ≤ second ↔
      ∀ fired ∈ fires, fired + rule.refractorySeconds.toNat + 1 ≤ second := by
  cases fires with
  | nil => simp [quietUntil]
  | cons latest earlier =>
      have hearlier := (List.pairwise_cons.mp h).1
      rw [quietUntil, List.forall_mem_cons]
      refine ⟨fun hle => ⟨hle, ?_⟩, fun hall => hall.1⟩
      intro fired hfired
      have hgap := hearlier fired hfired
      omega

theorem pairwise_fires (history : List Sighting) :
    (rule.fires g history).Pairwise fun late early =>
      early + rule.refractorySeconds.toNat + 1 ≤ late := by
  induction history with
  | nil => exact List.Pairwise.nil
  | cons s past ih =>
      rw [fires_cons]
      split
      · next hfired =>
        exact List.pairwise_cons.mpr ⟨(quietUntil_le_iff ih).mp (le_second_of_fired hfired), ih⟩
      · exact ih

end AlertRule

/-! ## The invariant -/

/-- A table entry is the window of a slice that has counted some events since it was evicted. -/
def WindowOf (g : BucketGrid) (size : Nat) (live : List Sighting) : Option Window → Prop
  | none => live = []
  | some w => live ≠ [] ∧ w.slots.size = size ∧ w.head = newest g live ∧ w.Holds (chargedTo g live)

/-- A table entry is as good as a deadline for all events from a second on. -/
def DeadlineOf (quiet horizon : Nat) : Option Nat → Prop
  | none => quiet ≤ horizon
  | some second => second = quiet

/-- The second in which the oldest bucket within reach starts. -/
def horizonSecond (g : BucketGrid) (size : Nat) (history : List Sighting) : Nat :=
  g.startOf (newest g history - size) / nanosPerSecond

/-- A detector is in a state that a history leads to. -/
structure Detector.Reflects (d : Detector) (rule : AlertRule) (g : BucketGrid)
    (history : List Sighting) : Prop where
  rule_eq : d.rule = rule
  grid_eq : d.counts.grid = g
  span_eq : d.counts.span = rule.span
  newest_eq : d.counts.newest = newest? g history
  window : ∀ key, WindowOf g rule.span (sinceEviction g rule.span key history)
    (d.counts.windows.get? key)
  deadline : ∀ key, WithinReach g rule.span key history →
    DeadlineOf (rule.quietUntil (rule.fires g (ofSlice key history)))
      (horizonSecond g rule.span history) (d.deadlines.get? key)

theorem Detector.reflects_start (rule : AlertRule) (g : BucketGrid) :
    (start rule g).Reflects rule g [] where
  rule_eq := rfl
  grid_eq := rfl
  span_eq := rfl
  newest_eq := rfl
  window _ := rfl
  deadline _ _ := Nat.zero_le _

/-! ## Tables under a sweep -/

theorem WindowOf.sum {g : BucketGrid} {size : Nat} {live : List Sighting} {w : Window}
    (h : WindowOf g size live (some w)) : w.sum = windowSum g size live := by
  obtain ⟨-, hsize, hhead, hholds⟩ := h
  rw [hholds.sum_eq, hsize, sum_chargedTo (Nat.le_of_eq hhead.symm), hhead]
  rfl

theorem DeadlineOf.mono {quiet early late : Nat} {entry : Option Nat}
    (h : DeadlineOf quiet early entry) (hle : early ≤ late) : DeadlineOf quiet late entry := by
  cases entry with
  | none => exact Nat.le_trans h hle
  | some second => exact h

theorem DeadlineOf.filter {quiet horizon : Nat} {entry : Option Nat} {keep : Nat → Bool}
    (h : DeadlineOf quiet horizon entry) (hkeep : ∀ second, horizon < second → keep second = true) :
    DeadlineOf quiet horizon (entry.filter keep) := by
  cases entry with
  | none => exact h
  | some second =>
      rw [Option.filter_some]
      split
      · exact h
      · next hdropped =>
        have hle : second ≤ horizon := Nat.le_of_not_lt fun hlt => hdropped (hkeep second hlt)
        have heq : second = quiet := h
        rw [heq] at hle
        exact hle

theorem horizonSecond_mono (g : BucketGrid) (size : Nat) {early late : List Sighting}
    (h : newest g early ≤ newest g late) : horizonSecond g size early ≤ horizonSecond g size late :=
  Nat.div_le_div_right (g.startOf_mono (Nat.sub_le_sub_right h size))

/-- An event within reach is not before the second of the horizon. -/
theorem horizonSecond_le_second {g : BucketGrid} {size : Nat} {s : Sighting}
    {history : List Sighting} (hstart : g.start ≤ s.time)
    (hreach : newest g history ≤ s.bucket g + size) :
    horizonSecond g size history ≤ s.second := by
  have hbucket : newest g history - size ≤ g.bucketAt s.time := Nat.sub_le_iff_le_add.mpr hreach
  exact Nat.div_le_div_right (BucketGrid.startOf_le_of_le_bucketAt hstart hbucket)

/-- Deadlines that differ only at or before the second of an event lead to one verdict. -/
theorem DeadlineOf.verdict {quiet horizon : Nat} {entry : Option Nat}
    (h : DeadlineOf quiet horizon entry) {s : Sighting} (hs : horizon ≤ s.second)
    (rule : AlertRule) (sum : Nat) :
    rule.verdict s sum (entry.getD 0) = rule.verdict s sum quiet := by
  cases entry with
  | none =>
      have hle : quiet ≤ s.second := Nat.le_trans h hs
      unfold AlertRule.verdict
      rw [Option.getD_none, if_neg (Nat.not_lt_zero _), if_neg (Nat.not_lt_of_le hle)]
  | some second =>
      have heq : second = quiet := h
      rw [Option.getD_some, heq]

/-- A detection can be the verdict on an event after a history: its sum is that of the slice since
the last eviction, and within reach it is the verdict on the slice alone. -/
structure AlertRule.Judges (rule : AlertRule) (g : BucketGrid) (history : List Sighting)
    (s : Sighting) (detection : Detection) : Prop where
  verdict : ∃ quiet, detection = rule.verdict s
    (windowSum g rule.span (s :: sinceEviction g rule.span s.key history)) quiet
  solo : WithinReach g rule.span s.key (s :: history) →
    detection = rule.soloVerdict g s (ofSlice s.key history)

/-! ## One step -/

namespace Detector

section Step

variable {d : Detector} {rule : AlertRule} {g : BucketGrid} {history : List Sighting}

theorem Reflects.windowOf_windowAfter (h : d.Reflects rule g history) (s : Sighting) :
    WindowOf g rule.span (s :: sinceEviction g rule.span s.key history)
      (some (d.windowAfter s)) := by
  have hwindow := h.window s.key
  obtain ⟨w, hw, hsize, hhead, hholds⟩ : ∃ w,
      d.counts.windowOr s.key (s.bucket g) = w ∧ w.slots.size = rule.span ∧
      max w.head (s.bucket g) = newest g (s :: sinceEviction g rule.span s.key history) ∧
      w.Holds (chargedTo g (sinceEviction g rule.span s.key history)) := by
    refine ⟨_, rfl, ?_⟩
    unfold SliceCounts.windowOr
    cases hentry : d.counts.windows.get? s.key with
    | none =>
        rw [hentry] at hwindow
        have hlive : sinceEviction g rule.span s.key history = [] := hwindow
        have hspan := rule.span_pos
        rw [hlive, Option.getD_none, h.span_eq, newest_cons]
        refine ⟨?_, ?_, Window.holds_zero _ _⟩
        · rw [Window.size_zero]
          omega
        · rw [Window.head_zero]
          simp [newest, newest?]
    | some w =>
        rw [hentry] at hwindow
        obtain ⟨-, hsize, hhead, hholds⟩ := hwindow
        rw [Option.getD_some, newest_cons, ← hhead, Nat.max_comm]
        exact ⟨hsize, rfl, hholds⟩
  unfold windowAfter
  rw [h.grid_eq, hw]
  have hnewest : ((w.advance (s.bucket g)).add s.amount).head =
      newest g (s :: sinceEviction g rule.span s.key history) := by
    rw [Window.head_add, Window.head_advance, hhead]
  refine ⟨List.cons_ne_nil _ _, ?_, hnewest, ?_⟩
  · rw [Window.size_add, Window.size_advance, hsize]
  · have hadded := (hholds.advance (s.bucket g)).add s.amount
    rw [Window.head_advance, hhead] at hadded
    exact hadded

theorem Reflects.advances_iff (h : d.Reflects rule g history) (s : Sighting) :
    d.advances s = true ↔ history ≠ [] ∧ ∀ e ∈ history, e.bucket g < s.bucket g := by
  unfold advances
  rw [h.newest_eq, h.grid_eq]
  cases history with
  | nil => simp [newest?]
  | cons e past =>
      rw [newest?_cons, Option.any_some, decide_eq_true_iff]
      constructor
      · intro hlt
        refine ⟨List.cons_ne_nil _ _, fun e he => ?_⟩
        exact Nat.lt_of_le_of_lt (bucket_le_newest he) hlt
      · rintro ⟨hne, hall⟩
        exact (newest_add_le hne hall : newest g (e :: past) + 1 ≤ s.bucket g)

theorem Reflects.horizonAfter_eq (h : d.Reflects rule g history) {s : Sighting}
    (hadvances : d.advances s = true) :
    d.horizonAfter s = newest g (s :: history) - rule.span := by
  have hall := ((h.advances_iff s).mp hadvances).2
  have hle : newest g history ≤ s.bucket g :=
    newest_le_iff.mpr fun e he => Nat.le_of_lt (hall e he)
  unfold horizonAfter
  rw [h.grid_eq, h.span_eq, newest_cons, Nat.max_eq_left hle]

theorem Reflects.windowOf_step {World : Type} {s : Sighting} {o : Observed World}
    (h : d.Reflects rule g history) (ho : d.Observes s o) (key : SliceKey) :
    WindowOf g rule.span (sinceEviction g rule.span key (s :: history))
      (o.detector.counts.windows.get? key) := by
  obtain ⟨live, hlive, hentry⟩ : ∃ live,
      live = (if s.key = key then s :: sinceEviction g rule.span key history
        else sinceEviction g rule.span key history) ∧
      WindowOf g rule.span live
        (if key = s.key then some (d.windowAfter s) else d.counts.windows.get? key) := by
    refine ⟨_, rfl, ?_⟩
    by_cases hkey : key = s.key
    · subst hkey
      rw [if_pos rfl, if_pos rfl]
      exact h.windowOf_windowAfter s
    · rw [if_neg (Ne.symm hkey), if_neg hkey]
      exact h.window key
  rw [ho.window key, sinceEviction, ← hlive]
  generalize (if key = s.key then some (d.windowAfter s)
    else d.counts.windows.get? key) = entry at hentry
  cases entry with
  | none =>
      have hnil : live = [] := hentry
      rw [hnil, ite_self]
      rfl
  | some w =>
      obtain ⟨hne, hsize, hhead, hholds⟩ := hentry
      -- both sides give up the same windows; before the first event there is none but its own
      have hsame : (d.advances s && w.isStale (d.horizonAfter s)) = true ↔
          (∀ e ∈ history, e.bucket g < s.bucket g) ∧
            rule.span ≤ s.bucket g - rule.span - newest g live := by
        have hstale : w.isStale (d.horizonAfter s) = true ↔
            rule.span ≤ s.bucket g - rule.span - newest g live := by
          unfold Window.isStale horizonAfter
          rw [h.grid_eq, h.span_eq, hsize, hhead, decide_eq_true_iff]
        rw [Bool.and_eq_true, hstale, h.advances_iff s]
        refine ⟨fun hand => ⟨hand.1.2, hand.2⟩, fun hand => ⟨⟨?_, hand.1⟩, hand.2⟩⟩
        rintro rfl
        have hspan := rule.span_pos
        have hs : newest g live = s.bucket g := by
          rw [hlive] at hne ⊢
          split at hne
          · next hkey => rw [if_pos hkey, newest_cons]; simp [sinceEviction, newest, newest?]
          · exact absurd rfl hne
        omega
      rw [Option.filter_some]
      by_cases hgone : (d.advances s && w.isStale (d.horizonAfter s)) = true
      · rw [if_pos (hsame.mp hgone), if_neg (by simp [hgone])]
        rfl
      · rw [if_neg fun hand => hgone (hsame.mpr hand), if_pos (by simp [hgone])]
        exact ⟨hne, hsize, hhead, hholds⟩

/-- A slice within reach gets the verdict that it would get alone. -/
theorem Reflects.detection {World : Type} {s : Sighting} {o : Observed World}
    (h : d.Reflects rule g history) (ho : d.Observes s o) (hstart : g.start ≤ s.time)
    (hreach : WithinReach g rule.span s.key (s :: history)) :
    o.detection = rule.soloVerdict g s (ofSlice s.key history) := by
  have hsum : (d.windowAfter s).sum = windowSum g rule.span (s :: ofSlice s.key history) := by
    rw [(h.windowOf_windowAfter s).sum, windowSum_sinceEviction rule.span_pos hreach,
      ofSlice_cons_self]
  have hdeadline := h.deadline s.key hreach.2
  rw [ho.detection, h.rule_eq, hsum]
  exact hdeadline.verdict (horizonSecond_le_second hstart (hreach.1 rfl)) rule _

theorem Reflects.judges {World : Type} {s : Sighting} {o : Observed World}
    (h : d.Reflects rule g history) (ho : d.Observes s o) (hstart : g.start ≤ s.time) :
    rule.Judges g history s o.detection where
  verdict := by
    refine ⟨d.deadlineOf s.key, ?_⟩
    rw [ho.detection, h.rule_eq, (h.windowOf_windowAfter s).sum]
  solo := h.detection ho hstart

theorem Reflects.deadlineOf_step {World : Type} {s : Sighting} {o : Observed World}
    (h : d.Reflects rule g history) (ho : d.Observes s o) (hstart : g.start ≤ s.time)
    {key : SliceKey} (hreach : WithinReach g rule.span key (s :: history)) :
    DeadlineOf (rule.quietUntil (rule.fires g (ofSlice key (s :: history))))
      (horizonSecond g rule.span (s :: history)) (o.detector.deadlines.get? key) := by
  have hmono : horizonSecond g rule.span history ≤ horizonSecond g rule.span (s :: history) :=
    horizonSecond_mono g rule.span (by rw [newest_cons]; exact Nat.le_max_right _ _)
  have hold := (h.deadline key hreach.2).mono hmono
  rw [ho.deadline key]
  apply DeadlineOf.filter
  · by_cases hkey : key = s.key
    · subst hkey
      rw [ofSlice_cons_self, AlertRule.fires_cons, ← h.detection ho hstart hreach]
      by_cases hfired : o.detection.fired?.isSome = true
      · rw [if_pos hfired, if_pos ⟨rfl, hfired⟩, h.rule_eq]
        rfl
      · rw [if_neg hfired, if_neg fun hand => hfired hand.2]
        exact hold
    · rw [if_neg fun hand => hkey hand.1, ofSlice_cons_of_ne (Ne.symm hkey)]
      exact hold
  · intro second hsecond
    cases hadvances : d.advances s with
    | false => rfl
    | true =>
        rw [h.horizonAfter_eq hadvances, h.grid_eq]
        simp only [Bool.not_true, Bool.false_or, Bool.or_eq_true, decide_eq_true_iff]
        exact Or.inr hsecond

theorem Reflects.step {World : Type} {s : Sighting} {o : Observed World}
    (h : d.Reflects rule g history) (ho : d.Observes s o) (hstart : g.start ≤ s.time) :
    o.detector.Reflects rule g (s :: history) where
  rule_eq := ho.rule.trans h.rule_eq
  grid_eq := ho.grid.trans h.grid_eq
  span_eq := ho.span.trans h.span_eq
  newest_eq := by
    rw [ho.newest, h.newest_eq, h.grid_eq, newest?_cons, newest_cons]
    rfl
  window key := h.windowOf_step ho key
  deadline _ hreach := h.deadlineOf_step ho hstart hreach

end Step

end Detector

end CountAlarm
