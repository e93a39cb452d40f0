import CountAlarm.Proofs.Counting.WindowTotals
/-!
# Windows as views of a bucket map

Behind a window stands a map that forgets nothing: for every bucket, what was added while it was the
head. `headAfter` and `addedTo` tell this map by the steps alone. After any steps the window `Holds`
the map, and everything that can be read from it is read from the last `size` buckets of the map:
`takeAll_zero`.
-/

namespace CountAlarm

namespace Window

/-! ## Steps -/

/-- What can be done to a window. -/
inductive Step where
  | advance (target : Nat)
  | add (amount : Int)
deriving DecidableEq, Repr

def Step.target? : Step → Option Nat
  | .advance target => some target
  | .add _ => none

def take (w : Window) : Step → Window
  | .advance target => w.advance target
  | .add amount => w.add amount

/-- A window after some steps, of which the latest stands first. -/
def takeAll (w : Window) : List Step → Window
  | [] => w
  | step :: past => (w.takeAll past).take step

/-! ## The map behind a window -/

/-- The greatest of the first head and all targets. -/
def headAfter (start : Nat) (steps : List Step) : Nat :=
  (steps.filterMap Step.target?).foldr max start

/-- What was added while a bucket was the head. Amounts that are not positive add nothing. -/
def addedTo (start : Nat) : List Step → Nat → Nat
  | [], _ => 0
  | .advance _ :: past, bucket => addedTo start past bucket
  | .add amount :: past, bucket =>
    addedTo start past bucket + if headAfter start past = bucket then amount.toNat else 0

/-- The count of a bucket as far as a window of some size still has it. -/
def countAfter (size start : Nat) (steps : List Step) (bucket : Nat) : Nat :=
  let head := headAfter start steps
  if bucket ≤ head ∧ head < bucket + size then min countLimit (addedTo start steps bucket) else 0

/-- The counts of the last `size` buckets up to the head. Buckets before the first one count zero.
-/
def countsAfter (size start : Nat) (steps : List Step) : List Nat :=
  (List.range size).map fun (i : Nat) =>
    let bucket : Int := headAfter start steps - size + 1 + i
    if 0 ≤ bucket then countAfter size start steps bucket.toNat else 0

/-! ## Reading a window that holds totals -/

section Reading

variable {w : Window} {totals : Nat → Nat}

theorem Holds.countAt (h : w.Holds totals) (bucket : Nat) :
    w.countAt bucket =
      if bucket ≤ w.head ∧ w.head < bucket + w.slots.size then min countLimit (totals bucket)
      else 0 := by
  unfold Window.countAt
  by_cases hin : bucket ≤ w.head ∧ w.head < bucket + w.slots.size
  · rw [if_neg (by omega), if_pos hin]
    exact h.counts bucket hin.1 hin.2
  · rw [if_pos (by omega), if_neg hin]

/-- The listing goes through the buckets up to the head in their order. -/
theorem oldestFirst_eq (w : Window) :
    w.oldestFirst = (List.range w.slots.size).map fun (i : Nat) =>
      let bucket : Int := w.head - w.slots.size + 1 + i
      if 0 ≤ bucket then w.countAt bucket.toNat else 0 := by
  unfold oldestFirst
  apply List.ext_getElem
  · simp
  · intro i hi _
    simp only [List.length_map, List.length_reverse, List.length_range] at hi
    simp only [List.getElem_map, List.getElem_reverse, List.getElem_range, List.length_range]
    apply if_congr (by omega) _ rfl
    congr 1
    omega

/-- The listing leaves out no slot that counts. -/
theorem Holds.sum_oldestFirst (h : w.Holds totals) : w.oldestFirst.sum = w.slots.toList.sum := by
  have hcount : ∀ b ∈ Finset.Ico (w.head + 1 - w.slots.size) (w.head + 1),
      w.countAt b = w.inSlot b := by
    intro b hb
    rw [Finset.mem_Ico] at hb
    rw [Window.countAt, if_neg (by omega)]
  calc w.oldestFirst.sum
    _ = ∑ back ∈ Finset.range w.slots.size,
          if back ≤ w.head then w.countAt (w.head - back) else 0 := by
        rw [oldestFirst, List.map_reverse, List.sum_reverse]
        rfl
    _ = ∑ back ∈ (Finset.range w.slots.size).filter (· ≤ w.head), w.countAt (w.head - back) :=
        (Finset.sum_filter _ _).symm
    _ = ∑ b ∈ Finset.Ico (w.head + 1 - w.slots.size) (w.head + 1), w.countAt b := by
        refine Finset.sum_nbij' (w.head - ·) (w.head - ·) ?_ ?_ ?_ ?_ fun _ _ => rfl
        all_goals simp only [Finset.mem_filter, Finset.mem_range, Finset.mem_Ico]
        all_goals omega
    _ = ∑ b ∈ Finset.Ico (w.head + 1 - w.slots.size) (w.head + 1), w.inSlot b :=
        Finset.sum_congr rfl hcount
    _ = w.slots.toList.sum := h.sum_slots.symm

theorem isZero_iff (w : Window) : w.isZero = true ↔ w.slots.toList.sum = 0 := by
  unfold isZero
  rw [List.all_eq_true, List.sum_eq_zero_iff_forall_eq_nat]
  simp only [beq_iff_eq]

end Reading

/-! ## Runs -/

theorem Holds.take {w : Window} {start : Nat} {past : List Step}
    (h : w.Holds (addedTo start past)) (hhead : w.head = headAfter start past) (step : Step) :
    (w.take step).Holds (addedTo start (step :: past)) ∧
      (w.take step).head = headAfter start (step :: past) := by
  cases step with
  | advance target =>
      have hmax : (w.advance target).head = max target (headAfter start past) := by
        rw [head_advance, hhead, Nat.max_comm]
      exact ⟨h.advance target, hmax⟩
  | add amount =>
      have hadd := h.add amount
      rw [hhead] at hadd
      exact ⟨hadd, (head_add w amount).trans hhead⟩

theorem holds_takeAll (size start : Nat) (steps : List Step) :
    ((zero size start).takeAll steps).Holds (addedTo start steps) ∧
      ((zero size start).takeAll steps).head = headAfter start steps := by
  induction steps with
  | nil => exact ⟨holds_zero size start, rfl⟩
  | cons step past ih => exact ih.1.take ih.2 step

theorem size_takeAll (w : Window) (steps : List Step) :
    (w.takeAll steps).slots.size = w.slots.size := by
  induction steps with
  | nil => rfl
  | cons step past ih =>
      rw [takeAll]
      cases step with
      | advance target => exact (size_advance _ target).trans ih
      | add amount => exact (size_add _ amount).trans ih

/-- After any steps, a window shows the last buckets of the map behind it and nothing else. -/
theorem takeAll_zero (size start : Nat) (steps : List Step) :
    let w := (zero size start).takeAll steps
    let counts := countsAfter (max size 1) start steps
    w.head = headAfter start steps ∧
      (∀ bucket, w.countAt bucket = countAfter (max size 1) start steps bucket) ∧
      w.current = w.countAt w.head ∧
      (w.oldestFirst = counts ∧ counts.length = max size 1) ∧
      w.sum = min countLimit counts.sum ∧
      (w.isZero = true ↔ counts.sum = 0) := by
  intro w counts
  obtain ⟨hholds, hhead⟩ := holds_takeAll size start steps
  have hsize : w.slots.size = max size 1 := (size_takeAll _ steps).trans (size_zero size start)
  have hcount : ∀ bucket, w.countAt bucket = countAfter (max size 1) start steps bucket := by
    intro bucket
    rw [hholds.countAt, hhead, hsize]
    rfl
  have hlist : w.oldestFirst = counts := by
    rw [oldestFirst_eq, hhead, hsize]
    simp only [hcount]
    rfl
  have hsum : counts.sum = w.slots.toList.sum := hlist ▸ hholds.sum_oldestFirst
  have hcurrent : w.current = w.countAt w.head := by
    rw [Window.countAt, if_neg (by have := w.size_pos; omega), current]
  refine ⟨hhead, hcount, hcurrent, ⟨hlist, by simp [counts, countsAfter]⟩, ?_, ?_⟩
  · rw [hsum]
    exact sumCounts_eq _
  · rw [hsum]
    exact w.isZero_iff

end Window

end CountAlarm
