import CountAlarm.Proofs.Counting.BucketMap
import CountAlarm.Proofs.Counting.CountRuns
/-!
# Late events

Counting compares numbers of buckets, but an event is late when it is older than the time at which
the head of its slice's window starts. The two come to the same, since a head is the bucket of an
event that was counted: it starts at a time and not at the limit that stands for later starts. A
late event is added to the head, and nothing else is changed: `lateness_takeAll`. An event before
the start of the grid is older than any head, but it is refused and not late.
-/

namespace CountAlarm

namespace Window

/-- An amount was added to the count of the head, and the rest of the window is as before. -/
structure AddsToHead (before : Window) (amount : Int) (after : Window) : Prop where
  head_eq : after.head = before.head
  grown : after.countAt before.head =
    min countLimit (before.countAt before.head + amount.toNat)
  kept : ∀ bucket, bucket ≠ before.head → after.countAt bucket = before.countAt bucket

theorem Holds.addsToHead {w : Window} {totals : Nat → Nat} (h : w.Holds totals) (amount : Int) :
    w.AddsToHead amount (w.add amount) where
  head_eq := head_add w amount
  grown := by
    have hinside : w.head ≤ w.head ∧ w.head < w.head + w.slots.size :=
      ⟨Nat.le_refl _, Nat.lt_add_of_pos_right w.size_pos⟩
    rw [(h.add amount).countAt, h.countAt, head_add, size_add, if_pos hinside, if_pos hinside,
      if_pos rfl]
    omega
  kept bucket hne := by
    rw [(h.add amount).countAt, h.countAt, head_add, size_add, if_neg hne.symm, Nat.add_zero]

end Window

namespace SliceCounts

open History

variable {c after : SliceCounts} {g : BucketGrid} {history : List Sighting} {s : Sighting}
  {key : SliceKey} {w : Window} {tick : Tick}

/-! ## Late by buckets -/

theorem windowOr_of_get? (hw : c.windows.get? key = some w) (bucket : Nat) :
    c.windowOr key bucket = w := by
  rw [windowOr, hw, Option.getD_some]

/-- An event is not late for a window that it opens, whose head is its bucket. -/
theorem late_countIn_iff (c : SliceCounts) (key : SliceKey) (amount : Int) (bucket : Nat) :
    (c.countIn key amount bucket).1.late = true ↔
      ∃ w, c.windows.get? key = some w ∧ bucket < w.head := by
  have hlate : (c.countIn key amount bucket).1.late = true ↔
      bucket < (c.windowOr key bucket).head := decide_eq_true_iff
  rw [hlate]
  cases hw : c.windows.get? key with
  | none => simp [windowOr, hw]
  | some w => simp [windowOr_of_get? hw]

/-- A late event does not move its window. -/
theorem windowAfter_of_lt_head {bucket : Nat} (hw : c.windows.get? key = some w)
    (hlt : bucket < w.head) (amount : Int) : c.windowAfter key amount bucket = w.add amount := by
  rw [windowAfter, windowOr_of_get? hw, Window.advance, if_pos (Nat.le_of_lt hlt)]

/-! ## Late by times -/

/-- The head of a window starts at a time, as it is the bucket of an event. -/
theorem Follows.start_add_head_le {steps : List Step} (h : c.Follows g (counted g steps))
    (hw : c.windows.get? key = some w) :
    g.start.toNat + w.head * g.width.toNat ≤ wordLimit := by
  obtain ⟨e, he, -, hbucket⟩ := h.head key w hw
  have hstart : g.start ≤ e.time := start_le_of_mem_counted he
  exact BucketGrid.start_add_le_wordLimit hstart (Nat.le_of_eq hbucket.symm)

/-- From the start of the grid on, an event is in a bucket before a head just when it is older than
the time at which the head starts. -/
theorem Follows.bucket_lt_head_iff {steps : List Step} (h : c.Follows g (counted g steps))
    (hw : c.windows.get? key = some w) (hs : g.start ≤ s.time) :
    s.bucket g < w.head ↔ s.time.toNat < g.startOf w.head := by
  have hadjoint : g.startOf w.head ≤ s.time.toNat ↔ g.start ≤ s.time ∧ w.head ≤ s.bucket g :=
    BucketGrid.startOf_le_iff (h.start_add_head_le hw)
  rw [← Nat.not_le, ← Nat.not_le, hadjoint, and_iff_right hs]

/-- What is counted is not before the start of the grid. -/
theorem Follows.of_count_eq_ok (h : c.Follows g history)
    (hcount : c.count s.key s.amount s.time = .ok (tick, after)) :
    g.start ≤ s.time ∧ c.countIn s.key s.amount (s.bucket g) = (tick, after) := by
  by_cases hs : g.start ≤ s.time
  · rw [h.count_of_start_le hs] at hcount
    exact ⟨hs, Except.ok.inj hcount⟩
  · rw [h.count_of_lt_start hs] at hcount
    cases hcount

/-- Only what is before the start of the grid is refused. -/
theorem Follows.beforeStart_iff (h : c.Follows g history) (s : Sighting) :
    c.count s.key s.amount s.time = .error .beforeStart ↔ ¬g.start ≤ s.time := by
  refine ⟨fun hrefused hs => ?_, h.count_of_lt_start⟩
  rw [h.count_of_start_le hs] at hrefused
  cases hrefused

theorem Follows.late_count_iff {steps : List Step} (h : c.Follows g (counted g steps))
    (s : Sighting) :
    (∃ tick after, c.count s.key s.amount s.time = .ok (tick, after) ∧ tick.late = true) ↔
      g.start ≤ s.time ∧
        ∃ w, c.windows.get? s.key = some w ∧ s.time.toNat < g.startOf w.head := by
  have hlate := c.late_countIn_iff s.key s.amount (s.bucket g)
  constructor
  · rintro ⟨tick, after, hcount, htick⟩
    obtain ⟨hs, hcountIn⟩ := h.of_count_eq_ok hcount
    rw [hcountIn] at hlate
    obtain ⟨w, hw, hlt⟩ := hlate.mp htick
    exact ⟨hs, w, hw, (h.bucket_lt_head_iff hw hs).mp hlt⟩
  · rintro ⟨hs, w, hw, hbefore⟩
    have hlt : s.bucket g < w.head := (h.bucket_lt_head_iff hw hs).mpr hbefore
    exact ⟨_, _, h.count_of_start_le hs, hlate.mpr ⟨w, hw, hlt⟩⟩

/-! ## What a late event changes -/

/-- An event was added late: the window of its slice has got the amount in its head, and the other
windows and the newest bucket are as before. -/
structure AddsLate (before : SliceCounts) (s : Sighting) (after : SliceCounts) : Prop where
  window : ∃ w w', before.windows.get? s.key = some w ∧ after.windows.get? s.key = some w' ∧
    w.AddsToHead s.amount w'
  others : ∀ key, key ≠ s.key → after.windows.get? key = before.windows.get? key
  newest_eq : after.newest = before.newest

/-- Counts with a window have a newest bucket, and it is not before the head. -/
theorem Follows.exists_newest (h : c.Follows g history) (hw : c.windows.get? key = some w) :
    ∃ newest, c.newest = some newest ∧ w.head ≤ newest := by
  obtain ⟨e, he, -⟩ := h.head key w hw
  obtain ⟨latest, past, rfl⟩ := List.exists_cons_of_ne_nil (List.ne_nil_of_mem he)
  exact ⟨_, h.newest_eq.trans (newest?_cons g latest past), h.head_le hw⟩

theorem Follows.addsLate (h : c.Follows g history)
    (hcount : c.count s.key s.amount s.time = .ok (tick, after)) (htick : tick.late = true) :
    c.AddsLate s after := by
  obtain ⟨-, hcountIn⟩ := h.of_count_eq_ok hcount
  have hafter : after = (c.countIn s.key s.amount (s.bucket g)).2 := by rw [hcountIn]
  have hlate := c.late_countIn_iff s.key s.amount (s.bucket g)
  rw [hcountIn] at hlate
  obtain ⟨w, hw, hlt⟩ := hlate.mp htick
  refine ⟨⟨w, w.add s.amount, hw, ?_, ?_⟩, ?_, ?_⟩
  · rw [hafter, get?_countIn, if_pos rfl, windowAfter_of_lt_head hw hlt]
  · obtain ⟨totals, hholds⟩ := h.totals s.key w hw
    exact hholds.addsToHead s.amount
  · intro other hother
    rw [hafter, get?_countIn, if_neg hother]
  · obtain ⟨newest, hnewest, hle⟩ := h.exists_newest hw
    have hmax : max (s.bucket g) newest = newest := Nat.max_eq_right (by omega)
    rw [hafter, newest_countIn, hnewest, Option.getD_some, hmax]

/-! ## Any counts -/

/-- Numbers and starts of the buckets of a grid are adjoint, and every time from the start on is
less than one width after the start of its bucket. Whatever counts have been through, an event is
refused just when it is before the start, and late just when it is not refused and older than the
start of its slice's head. A late event is added to the head and changes nothing else. -/
theorem lateness_takeAll (start width : UInt64) :
    let g := BucketGrid.of start width
    let size := max width.toNat 1
    (∀ (time : UInt64) (bucket : Nat), start.toNat + bucket * size ≤ wordLimit →
      ((∃ found, g.bucketOf? time = some found ∧ bucket ≤ found) ↔
        g.startOf bucket ≤ time.toNat)) ∧
    (∀ time : UInt64, start ≤ time → ∃ bucket, g.bucketOf? time = some bucket ∧
      g.startOf bucket ≤ time.toNat ∧ time.toNat < g.startOf bucket + size) ∧
    ∀ (span : Nat) (steps : List Step) (s : Sighting),
      let c := (SliceCounts.start g span).takeAll steps
      (c.count s.key s.amount s.time = .error .beforeStart ↔ ¬start ≤ s.time) ∧
      ((∃ tick after, c.count s.key s.amount s.time = .ok (tick, after) ∧ tick.late = true) ↔
        start ≤ s.time ∧
          ∃ w, c.windows.get? s.key = some w ∧ s.time.toNat < g.startOf w.head) ∧
      ∀ tick after, c.count s.key s.amount s.time = .ok (tick, after) → tick.late = true →
        c.AddsLate s after := by
  intro g size
  have hwidth : g.width.toNat = size := BucketGrid.toNat_width_of start width
  have hstart : g.start = start := BucketGrid.start_of start width
  refine ⟨?_, ?_, ?_⟩
  · intro time bucket hfits
    rw [← hwidth, ← hstart] at hfits
    rw [BucketGrid.startOf_le_iff hfits]
    constructor
    · rintro ⟨found, hfound, hle⟩
      obtain ⟨hafter, rfl⟩ := BucketGrid.bucketOf?_eq_some_iff.mp hfound
      exact ⟨hafter, hle⟩
    · rintro ⟨hafter, hle⟩
      exact ⟨_, BucketGrid.bucketOf?_of_start_le hafter, hle⟩
  · intro time hafter
    rw [← hstart] at hafter
    rw [← hwidth]
    exact ⟨_, BucketGrid.bucketOf?_of_start_le hafter,
      BucketGrid.startOf_le_of_le_bucketAt hafter (Nat.le_refl _),
      BucketGrid.lt_startOf_bucketAt_add hafter⟩
  · intro span steps s c
    have hfollows : c.Follows g (counted g steps) := follows_takeAll g span steps
    rw [← hstart]
    exact ⟨hfollows.beforeStart_iff s, hfollows.late_count_iff s,
      fun _ _ hcount hlate => hfollows.addsLate hcount hlate⟩

/-- Two slices, of which the second has moved the newest bucket on. An event of the first slice
comes a nanosecond before its head starts, and another one a nanosecond before the start of the
grid. -/
theorem lateness_takeAll_two_slices :
    let g := BucketGrid.of 1000 100
    let ahead := SliceKey.ofList [⟨1, .int 2⟩]
    let c := (start g 2).takeAll [.count ⟨ahead, 4, 1310⟩, .count ⟨.whole, 3, 1250⟩]
    (1000 + 2 * 100 ≤ wordLimit ∧
      ∃ found, g.bucketOf? 1250 = some found ∧ 2 ≤ found) ∧
    (∃ bucket, g.bucketOf? 1250 = some bucket ∧ g.startOf bucket ≤ 1250 ∧
      1250 < g.startOf bucket + 100) ∧
    (c.windows.get? .whole).map Window.head = some 2 ∧ g.startOf 2 = 1200 ∧
    c.count .whole 5 999 = .error .beforeStart ∧
    ∃ tick after, c.count .whole 5 1199 = .ok (tick, after) ∧ tick.late = true ∧
      c.AddsLate ⟨.whole, 5, 1199⟩ after := by
  intro g ahead c
  obtain ⟨hadjoint, hbetween, hcounts⟩ := lateness_takeAll 1000 100
  have hevents := hcounts 2 [.count ⟨ahead, 4, 1310⟩, .count ⟨.whole, 3, 1250⟩]
  obtain ⟨-, hlate, hadds⟩ := hevents ⟨.whole, 5, 1199⟩
  obtain ⟨hrefused, -⟩ := hevents ⟨.whole, 5, 999⟩
  have hfits : 1000 + 2 * 100 ≤ wordLimit := by decide
  have hstarted : g.startOf 2 ≤ 1250 := by decide
  have hhead : (c.windows.get? .whole).map Window.head = some 2 := by decide
  obtain ⟨w, hw, hwhead⟩ := Option.map_eq_some_iff.mp hhead
  have hbefore : 1199 < g.startOf w.head := by
    rw [hwhead]
    decide
  obtain ⟨tick, after, hcount, htick⟩ := hlate.mpr ⟨by decide, w, hw, hbefore⟩
  exact ⟨⟨hfits, (hadjoint 1250 2 hfits).mpr hstarted⟩, hbetween 1250 (by decide), hhead,
    by decide, hrefused.mpr (by decide), tick, after, hcount, htick,
    hadds tick after hcount htick⟩

/-- An event before the start of the grid is older than the start of any head, but it is refused and
so not late. And a late event adds nothing to a head whose count has reached the limit. -/
theorem refused_before_head :
    let g := BucketGrid.of 1000 100
    let c := (start g 2).takeAll [.count ⟨.whole, 9223372036854775807, 1250⟩]
    ¬((∃ tick after, c.count .whole 1 999 = .ok (tick, after) ∧ tick.late = true) ↔
        ∃ w, c.windows.get? .whole = some w ∧ (999 : UInt64).toNat < g.startOf w.head) ∧
      ∃ tick after w w', c.count .whole 1 1199 = .ok (tick, after) ∧ tick.late = true ∧
        c.windows.get? .whole = some w ∧ after.windows.get? .whole = some w' ∧
        w'.countAt w.head ≠ w.countAt w.head + 1 := by
  intro g c
  have hrefused : c.count .whole 1 999 = .error .beforeStart := by rfl
  have hhead : (c.windows.get? .whole).map Window.head = some 2 := by decide
  constructor
  · intro h
    obtain ⟨w, hw, hwhead⟩ := Option.map_eq_some_iff.mp hhead
    have hbefore : (999 : UInt64).toNat < g.startOf w.head := by
      rw [hwhead]
      decide
    obtain ⟨tick, after, hcount, -⟩ := h.mpr ⟨w, hw, hbefore⟩
    rw [hrefused] at hcount
    cases hcount
  · exact ⟨_, _, _, _, rfl, by decide, rfl, rfl, by decide⟩

end SliceCounts

end CountAlarm
