import CountAlarm.Proofs.Counting.BucketMap
import CountAlarm.Proofs.Counting.Forgetting
/-!
# Reading ahead

The sum of a window as of a later head can be had in two ways: by adding up the counts of the last
buckets up to that head, or by moving the head there and adding up the slots. Both come to the sum
of the totals behind the window, since the buckets that the head would move over have none. So the
sum of a slice as of the newest bucket is what an event without an amount would be told there,
although reading moves no window.
-/

namespace CountAlarm

namespace Window

variable {w : Window} {totals : Nat → Nat} {head : Nat}

/-- The buckets up to a head are the last ones of a window of that size. -/
theorem sum_map_bucketsUpTo {size : Nat} (hsize : 0 < size) (head : Nat) (f : Nat → Nat) :
    ((bucketsUpTo size head).map f).sum = ∑ b ∈ Finset.Ico (head + 1 - size) (head + 1), f b := by
  have holdest : head - (size - 1) = head + 1 - size := by omega
  unfold bucketsUpTo
  rw [holdest]
  rfl

/-- From the head on, the window shows the totals of all buckets that are left of it. -/
theorem Holds.countAt_of_lt (h : w.Holds totals) (hle : w.head ≤ head) {bucket : Nat}
    (hbucket : head < bucket + w.slots.size) :
    w.countAt bucket = min countLimit (totals bucket) := by
  rw [h.countAt]
  by_cases hafter : w.head < bucket
  · rw [if_neg (by omega), h.later bucket hafter, Nat.min_zero]
  · exact if_pos ⟨Nat.le_of_not_lt hafter, by omega⟩

theorem Holds.sumAt_eq (h : w.Holds totals) (hle : w.head ≤ head) :
    w.sumAt head = min countLimit
      (∑ b ∈ Finset.Ico (head + 1 - w.slots.size) (head + 1), totals b) := by
  have hcounts : ∀ b ∈ Finset.Ico (head + 1 - w.slots.size) (head + 1),
      w.countAt b = min countLimit (totals b) := by
    intro b hb
    rw [Finset.mem_Ico] at hb
    exact h.countAt_of_lt hle (by omega)
  unfold sumAt
  rw [sumCounts_eq, sum_map_bucketsUpTo w.size_pos, Finset.sum_congr rfl hcounts, min_sum_min]

/-- Reading as of a later head is moving there and reading. -/
theorem Holds.sumAt_eq_sum_advance (h : w.Holds totals) (hle : w.head ≤ head) :
    w.sumAt head = (w.advance head).sum := by
  rw [h.sumAt_eq hle, (h.advance head).sum_eq, size_advance, head_advance, Nat.max_eq_right hle]

/-- Moving the head drops the oldest counts from the listing and appends as many zeros. -/
theorem oldestFirst_advance (hle : w.head ≤ head) :
    (w.advance head).oldestFirst =
      w.oldestFirst.drop (min w.slots.size (head - w.head)) ++
        List.replicate (min w.slots.size (head - w.head)) 0 := by
  have hmax : max w.head head = head := Nat.max_eq_right hle
  rw [oldestFirst_eq, oldestFirst_eq, size_advance, head_advance, hmax]
  apply List.ext_getElem
  · simp
  · intro i hi _
    simp only [List.length_map, List.length_range] at hi
    simp only [List.getElem_map, List.getElem_range, List.getElem_append, List.length_drop,
      List.length_map, List.length_range, List.getElem_drop, List.getElem_replicate,
      countAt_advance]
    by_cases hshown : i < w.slots.size - min w.slots.size (head - w.head)
    · rw [dif_pos hshown]
      apply if_congr (by omega) _ rfl
      rw [if_pos (by omega)]
      congr 1
      omega
    · rw [dif_neg hshown, countAt, if_pos (c := _ ∨ _) (by omega)]
      simp

theorem length_oldestFirst (w : Window) : w.oldestFirst.length = w.slots.size := by
  simp [oldestFirst]

/-- The sum as of a later head is that of the counts listed that are not before its window. -/
theorem Holds.sumAt_eq_sumCounts_drop (h : w.Holds totals) (hle : w.head ≤ head) :
    w.sumAt head =
      sumCounts (w.oldestFirst.drop (min w.slots.size (head - w.head))) := by
  have hsum : (w.advance head).slots.toList.sum =
      (w.oldestFirst.drop (min w.slots.size (head - w.head))).sum := by
    rw [← (h.advance head).sum_oldestFirst, oldestFirst_advance hle, List.sum_append]
    simp
  rw [h.sumAt_eq_sum_advance hle, Window.sum, sumCounts_eq, sumCounts_eq, hsum]

/-- An amount of zero is ignored. -/
theorem add_zero (w : Window) : w.add 0 = w :=
  if_pos (Int.le_refl 0)

theorem sum_zero (size head : Nat) : (zero size head).sum = 0 := by
  rw [(holds_zero size head).sum_eq, Finset.sum_const_zero, Nat.min_zero]

end Window

namespace SliceCounts

open History

variable {c : SliceCounts} {g : BucketGrid} {history : List Sighting}

/-- An event without an amount in the newest bucket is told the sum that can be read. -/
theorem Follows.sum_countIn_zero (h : c.Follows g history) {bucket : Nat}
    (hnewest : c.newest = some bucket) (key : SliceKey) :
    (c.countIn key 0 bucket).1.sum = c.sum key := by
  have htold : (c.countIn key 0 bucket).1.sum = ((c.windowOr key bucket).advance bucket).sum := by
    rw [← Window.add_zero ((c.windowOr key bucket).advance bucket)]
    rfl
  rw [htold]
  unfold windowOr sum
  cases hw : c.windows.get? key with
  | none =>
      -- the window that the event would open is empty and has its head in the bucket already
      have hstays : (Window.zero c.span bucket).advance bucket = .zero c.span bucket :=
        if_pos (Nat.le_refl bucket)
      exact (congrArg Window.sum hstays).trans (Window.sum_zero c.span bucket)
  | some w =>
      obtain ⟨totals, hholds⟩ := h.totals key w hw
      have hle : w.head ≤ bucket := by
        have hhead := h.head_le hw
        rwa [History.newest, ← h.newest_eq, hnewest] at hhead
      rw [hnewest]
      exact (hholds.sumAt_eq_sum_advance hle).symm

/-- Whatever a window has been through, its sum as of a later head is the sum after moving there.
And whatever counts have been through, once an event was counted the sum of any slice, whether it
has a window, has lost it or never had one, is what an event without an amount in the newest bucket
would be told. Reading gives back a number and no window, so nothing is moved. -/
theorem readsAhead_takeAll :
    (∀ (size start : Nat) (steps : List Window.Step) (head : Nat),
      let w := (Window.zero size start).takeAll steps
      w.head ≤ head → w.sumAt head = (w.advance head).sum) ∧
    ∀ (g : BucketGrid) (span : Nat) (steps : List Step),
      let c := (start g span).takeAll steps
      let history := counted g steps
      c.newest = (history.map (Sighting.bucket g)).max? ∧
      (history ≠ [] → ∀ (key : SliceKey) (time : UInt64), g.bucketOf? time = c.newest →
        ∃ tick after, c.count key 0 time = .ok (tick, after) ∧ tick.sum = c.sum key) := by
  refine ⟨?_, ?_⟩
  · intro size start steps head w hle
    exact (Window.holds_takeAll size start steps).1.sumAt_eq_sum_advance hle
  · intro g span steps c history
    have hfollows : c.Follows g history := follows_takeAll g span steps
    refine ⟨hfollows.newest_eq, fun hne key time htime => ?_⟩
    obtain ⟨bucket, hnewest⟩ : ∃ bucket, c.newest = some bucket := by
      obtain ⟨latest, past, hhistory⟩ := List.exists_cons_of_ne_nil hne
      rw [hfollows.newest_eq, hhistory]
      exact ⟨_, newest?_cons g latest past⟩
    have hcount : c.count key 0 time = .ok (c.countIn key 0 bucket) := by
      unfold count
      rw [hfollows.grid_eq, htime, hnewest]
    exact ⟨_, _, hcount, hfollows.sum_countIn_zero hnewest key⟩

/-- The head of a window of three buckets moves past the first one. Of three slices, the first was
given up, the second is a bucket behind, and the third has the newest bucket. -/
theorem readsAhead_takeAll_behind :
    let w := (Window.zero 3 0).takeAll [.add 1, .advance 1, .add 3]
    let g := BucketGrid.of 0 100
    let behind := SliceKey.ofList [⟨1, .int 1⟩]
    let latest := SliceKey.ofList [⟨1, .int 2⟩]
    let steps : List Step :=
      [.evict, .count ⟨latest, 4, 410⟩, .count ⟨behind, 2, 350⟩, .count ⟨.whole, 1, 10⟩]
    let c := (start g 2).takeAll steps
    (w.head ≤ 3 ∧ w.sumAt 3 = 1 ∧ (w.advance 3).sum = 1) ∧
    (counted g steps ≠ [] ∧ g.bucketOf? 499 = c.newest) ∧
    (c.windows.contains .whole = false ∧
      ∃ tick after, c.count .whole 0 499 = .ok (tick, after) ∧ tick.sum = 0) ∧
    ((c.windows.get? behind).map Window.head = some 3 ∧
      ∃ tick after, c.count behind 0 499 = .ok (tick, after) ∧ tick.sum = 2) := by
  intro w g behind latest steps c
  obtain ⟨hwindows, hcounts⟩ := readsAhead_takeAll
  obtain ⟨-, hreads⟩ := hcounts g 2 steps
  have hhead : w.head ≤ 3 := by decide
  have hsum : w.sumAt 3 = 1 := by decide
  have hne : counted g steps ≠ [] := by decide
  have htime : g.bucketOf? 499 = c.newest := by decide
  have hgone : c.sum .whole = 0 := by decide
  have hbehind : c.sum behind = 2 := by decide
  refine ⟨⟨hhead, hsum, ?_⟩, ⟨hne, htime⟩, ⟨by decide, ?_⟩, by decide, ?_⟩
  · rw [← hwindows 3 0 [.add 1, .advance 1, .add 3] 3 hhead]
    exact hsum
  · rw [← hgone]
    exact hreads hne .whole 499 htime
  · rw [← hbehind]
    exact hreads hne behind 499 htime

end SliceCounts

end CountAlarm
