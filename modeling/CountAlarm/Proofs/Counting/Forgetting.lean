import CountAlarm.Proofs.Counting.CountRuns
/-!
# What windows forget

A head may move at once or by stages, over any slots: where it ends decides what is left. The
buckets that fall out of the window are lost and no others are, so a window is stale just when
moving the head leaves nothing of it. Such a window is given up, and an event at or after the
horizon cannot tell: the window that it opens is the one that it would have found.
-/

namespace CountAlarm

namespace Window

variable {w : Window}

theorem ext_getD {v w : Window} (hhead : v.head = w.head) (hsize : v.slots.size = w.slots.size)
    (hslots : ∀ i < w.slots.size, v.slots.getD i 0 = w.slots.getD i 0) : v = w := by
  have heq : v.slots = w.slots := by
    apply Array.ext hsize
    intro i hv hw
    have hi := hslots i hw
    simpa [Array.getD, hv, hw] using hi
  cases v
  cases w
  cases hhead
  cases heq
  rfl

/-! ## Moving by stages -/

theorem advance_self (w : Window) : w.advance w.head = w :=
  if_pos (Nat.le_refl _)

theorem advance_advance (w : Window) (first second : Nat) :
    (w.advance first).advance second = w.advance (max first second) := by
  apply ext_getD
  · rw [head_advance, head_advance, head_advance, Nat.max_assoc]
  · rw [size_advance, size_advance, size_advance]
  · intro i _
    rw [getD_advance, getD_advance, getD_advance, size_advance, head_advance]
    by_cases hfirst : ∃ b ≤ first, w.head < b ∧ b % w.slots.size = i
    · have hboth : ∃ b ≤ max first second, w.head < b ∧ b % w.slots.size = i := by
        obtain ⟨b, hb, hafter, hbi⟩ := hfirst
        exact ⟨b, by omega, hafter, hbi⟩
      rw [if_pos hfirst, if_pos hboth, ite_self]
    · rw [if_neg hfirst]
      apply if_congr _ rfl rfl
      constructor
      · rintro ⟨b, hb, hafter, hbi⟩
        exact ⟨b, by omega, by omega, hbi⟩
      · rintro ⟨b, hb, hafter, hbi⟩
        have hlater : first < b := Nat.lt_of_not_le fun hle => hfirst ⟨b, hle, hafter, hbi⟩
        exact ⟨b, by omega, by omega, hbi⟩

/-! ## What is lost -/

/-- Moving the head loses the buckets that fall out of the window and no others. -/
theorem countAt_advance (w : Window) (target bucket : Nat) :
    (w.advance target).countAt bucket =
      if target < bucket + w.slots.size then w.countAt bucket else 0 := by
  by_cases hleft : target < bucket + w.slots.size
  · rw [if_pos hleft]
    unfold countAt
    rw [head_advance, size_advance, inSlot_eq_getD, inSlot_eq_getD, getD_advance, size_advance]
    by_cases hafter : w.head < bucket
    · rw [if_pos (Or.inl hafter)]
      by_cases htarget : bucket ≤ target
      · have hcleared : ∃ b ≤ target, w.head < b ∧ b % w.slots.size = bucket % w.slots.size :=
          ⟨bucket, htarget, hafter, rfl⟩
        rw [if_pos hcleared, ite_self]
      · exact if_pos (by omega)
    · -- no bucket that the head moves over is a whole window away from this one
      have hkept : ¬∃ b ≤ target, w.head < b ∧ b % w.slots.size = bucket % w.slots.size := by
        rintro ⟨b, hb, hlater, hbi⟩
        exact mod_ne_mod (by omega) (by omega) hbi.symm
      rw [if_neg hkept]
      apply if_congr _ rfl rfl
      omega
  · rw [if_neg hleft, countAt, head_advance, size_advance]
    exact if_pos (by omega)

theorem countAt_head_of_not_isStale {current : Nat} (h : w.isStale current = false) :
    (w.advance current).countAt w.head = w.countAt w.head := by
  have hnear : ¬w.slots.size ≤ current - w.head := of_decide_eq_false h
  rw [countAt_advance, if_pos (by omega)]

/-- Among as many buckets in a row as there are slots, every slot has one. -/
theorem exists_mod_eq {size i : Nat} (hi : i < size) (head : Nat) :
    ∃ b ≤ head + size, head < b ∧ b % size = i := by
  have himage := Nat.image_Ico_mod (head + 1) size
  obtain ⟨b, hb, hbi⟩ := Finset.mem_image.mp (himage ▸ Finset.mem_range.mpr hi)
  rw [Finset.mem_Ico] at hb
  exact ⟨b, by omega, by omega, hbi⟩

/-- Nothing is left of a stale window, wherever its head goes from there. -/
theorem advance_of_isStale {current later : Nat} (h : w.isStale current = true)
    (hle : current ≤ later) : w.advance later = zero w.slots.size later := by
  have hfar : w.slots.size ≤ current - w.head := of_decide_eq_true h
  have hsize : max w.slots.size 1 = w.slots.size := Nat.max_eq_left w.size_pos
  have hpos := w.size_pos
  apply ext_getD
  · rw [head_advance, head_zero]
    omega
  · rw [size_advance, size_zero, hsize]
  · intro i hi
    rw [size_zero, hsize] at hi
    obtain ⟨b, hb, hafter, hbi⟩ := exists_mod_eq hi w.head
    have hcleared : ∃ b ≤ later, w.head < b ∧ b % w.slots.size = i :=
      ⟨b, by omega, hafter, hbi⟩
    rw [getD_advance, getD_zero, if_pos hcleared]

end Window

namespace SliceCounts

variable {c : SliceCounts}

/-! ## Windows of one size -/

/-- All windows have as many buckets as a new one. -/
structure Uniform (c : SliceCounts) : Prop where
  span_pos : 0 < c.span
  size_eq : ∀ key w, c.windows.get? key = some w → w.slots.size = c.span

theorem uniform_start (g : BucketGrid) (span : Nat) : (start g span).Uniform where
  span_pos := Nat.lt_of_lt_of_le Nat.zero_lt_one (Nat.le_max_right _ _)
  size_eq _ _ h := by cases h

theorem Uniform.size_windowOr (h : c.Uniform) (key : SliceKey) (head : Nat) :
    (c.windowOr key head).slots.size = c.span := by
  unfold windowOr
  cases hw : c.windows.get? key with
  | none => exact (Window.size_zero c.span head).trans (Nat.max_eq_left h.span_pos)
  | some w => exact h.size_eq key w hw

theorem Uniform.countIn (h : c.Uniform) (key : SliceKey) (amount : Int) (bucket : Nat) :
    (c.countIn key amount bucket).2.Uniform where
  span_pos := h.span_pos
  size_eq other w hw := by
    rw [get?_countIn] at hw
    split at hw
    · cases hw
      rw [windowAfter, Window.size_add, Window.size_advance]
      exact h.size_windowOr key bucket
    · exact h.size_eq other w hw

theorem span_evict (c : SliceCounts) : c.evict.2.span = c.span := by
  unfold evict
  split <;> rfl

theorem Uniform.evict (h : c.Uniform) : c.evict.2.Uniform where
  span_pos := by
    rw [span_evict]
    exact h.span_pos
  size_eq key w hw := by
    rw [span_evict]
    exact h.size_eq key w (c.get?_of_get?_evict key hw)

theorem Uniform.clear (h : c.Uniform) : c.clear.Uniform where
  span_pos := h.span_pos
  size_eq _ _ hw := by cases hw

theorem Uniform.take (h : c.Uniform) (step : Step) : (c.take step).Uniform := by
  cases step with
  | evict => exact h.evict
  | clear => exact h.clear
  | count s =>
      rw [SliceCounts.take, count]
      cases c.grid.bucketOf? s.time with
      | none => exact h
      | some bucket => exact h.countIn s.key s.amount bucket

theorem uniform_takeAll (g : BucketGrid) (span : Nat) (steps : List Step) :
    ((start g span).takeAll steps).Uniform := by
  induction steps with
  | nil => exact uniform_start g span
  | cons step past ih => exact ih.take step

/-! ## Giving up and opening again -/

theorem get?_evict {horizon : Nat} (h : c.horizon = some horizon) (key : SliceKey) :
    c.evict.2.windows.get? key = (c.windows.get? key).filter fun w => !w.isStale horizon := by
  unfold evict
  rw [h]
  exact SliceTable.get?_filter _ _ _

/-- At or after the horizon, a sweep changes neither the window that an event leads to nor whether
the event is late for it. -/
theorem Uniform.windowOr_evict (h : c.Uniform) {horizon bucket : Nat}
    (hhorizon : c.horizon = some horizon) (hle : horizon ≤ bucket) (key : SliceKey) :
    (c.evict.2.windowOr key bucket).advance bucket = (c.windowOr key bucket).advance bucket ∧
      (bucket < (c.evict.2.windowOr key bucket).head ↔
        bucket < (c.windowOr key bucket).head) := by
  unfold windowOr
  rw [get?_evict hhorizon, span_evict]
  cases hw : c.windows.get? key with
  | none => exact ⟨rfl, Iff.rfl⟩
  | some w =>
      rw [Option.filter_some]
      cases hstale : w.isStale horizon with
      | false => exact ⟨rfl, Iff.rfl⟩
      | true =>
          have hfar : w.slots.size ≤ horizon - w.head := of_decide_eq_true hstale
          have hpos := w.size_pos
          constructor
          · rw [Option.getD_some, Window.advance_of_isStale hstale hle, h.size_eq key w hw]
            exact Window.advance_self _
          · show bucket < bucket ↔ bucket < w.head
            omega

/-- Where the head of a window ends decides what is left of it, whatever its slots hold. A stale
window becomes a new one, and one that is not stale keeps the count of its head. So, whatever counts
have been through, an event at or after the horizon is told the same and leaves the same window
whether or not windows were given up before it. -/
theorem forgets_takeAll :
    (∀ (w : Window) (first second : Nat),
      (w.advance first).advance second = w.advance (max first second)) ∧
    (∀ (w : Window) (current : Nat),
      (w.isStale current = true →
        ∀ later, current ≤ later → w.advance later = .zero w.slots.size later) ∧
      (w.isStale current = false →
        (w.advance current).countAt w.head = w.countAt w.head)) ∧
    ∀ (g : BucketGrid) (span : Nat) (steps : List Step) (s : Sighting) (horizon bucket : Nat),
      let c := (start g span).takeAll steps
      c.horizon = some horizon → g.bucketOf? s.time = some bucket → horizon ≤ bucket →
        ∃ tick kept swept, c.count s.key s.amount s.time = .ok (tick, kept) ∧
          c.evict.2.count s.key s.amount s.time = .ok (tick, swept) ∧
          kept.windows.get? s.key = swept.windows.get? s.key := by
  refine ⟨fun w => w.advance_advance, fun w current => ⟨?_, ?_⟩, ?_⟩
  · exact fun hstale later hle => Window.advance_of_isStale hstale hle
  · exact Window.countAt_head_of_not_isStale
  · intro g span steps s horizon bucket c hhorizon hbucket hle
    have huniform : c.Uniform := uniform_takeAll g span steps
    have hgrid : c.grid = g := (follows_takeAll g span steps).grid_eq
    obtain ⟨hwindow, hlate⟩ := huniform.windowOr_evict hhorizon hle s.key
    have hkept : c.count s.key s.amount s.time = .ok (c.countIn s.key s.amount bucket) := by
      rw [count, hgrid, hbucket]
    have hswept : c.evict.2.count s.key s.amount s.time =
        .ok (c.evict.2.countIn s.key s.amount bucket) := by
      rw [count, grid_evict, hgrid, hbucket]
    have htick : (c.evict.2.countIn s.key s.amount bucket).1 =
        (c.countIn s.key s.amount bucket).1 := by
      simp only [SliceCounts.countIn, hwindow, hlate, newest_evict]
    refine ⟨(c.countIn s.key s.amount bucket).1, (c.countIn s.key s.amount bucket).2,
      (c.evict.2.countIn s.key s.amount bucket).2, hkept, ?_, ?_⟩
    · rw [← htick]
      exact hswept
    · rw [get?_countIn, get?_countIn, if_pos rfl, if_pos rfl, windowAfter, windowAfter, hwindow]

/-- The head of a window with counts in all of its three slots goes on by one bucket, by three and
by five. Of two slices, the window of the first is stale when its next event comes. -/
theorem forgets_takeAll_reopened :
    let w : Window := ⟨#[5, 6, 7], 4, by decide⟩
    let g := BucketGrid.of 0 100
    let other := SliceKey.ofList [⟨1, .int 2⟩]
    let c := (start g 2).takeAll [.count ⟨other, 4, 410⟩, .count ⟨.whole, 1, 10⟩]
    ((w.advance 5).advance 9 = w.advance 9) ∧
    (w.isStale 7 = true ∧ w.advance 9 = .zero 3 9) ∧
    (w.isStale 6 = false ∧ (w.advance 6).countAt 4 = 6) ∧
    (c.horizon = some 2 ∧ g.bucketOf? 299 = some 2 ∧
      c.windows.contains .whole = true ∧ c.evict.2.windows.contains .whole = false ∧
      ∃ tick kept swept, c.count .whole 3 299 = .ok (tick, kept) ∧
        c.evict.2.count .whole 3 299 = .ok (tick, swept) ∧
        kept.windows.get? .whole = swept.windows.get? .whole) := by
  intro w g other c
  obtain ⟨hstages, hstale, hcounts⟩ := forgets_takeAll
  have hfar : w.isStale 7 = true := by decide
  have hnear : w.isStale 6 = false := by decide
  have hhorizon : c.horizon = some 2 := by decide
  have hbucket : g.bucketOf? 299 = some 2 := by decide
  refine ⟨hstages w 5 9, ⟨hfar, (hstale w 7).1 hfar 9 (by decide)⟩, ⟨hnear, ?_⟩,
    hhorizon, hbucket, by decide, by decide, ?_⟩
  · exact ((hstale w 6).2 hnear).trans (by decide)
  · exact hcounts g 2 _ ⟨.whole, 3, 299⟩ 2 2 hhorizon hbucket (Nat.le_refl 2)

end SliceCounts

end CountAlarm
