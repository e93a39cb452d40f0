import CountAlarm.Counting.Window
import Mathlib.Algebra.BigOperators.Fin
import Mathlib.Order.Interval.Finset.Nat
/-!
# Windows over totals of buckets

The slots of a window are a view of a total for every bucket, however far the head has moved.
`Holds` ties the two: the buckets of the window show their totals up to `countLimit`, slots that
stand for no bucket yet are zero, and no bucket after the head has a total. Moving the head keeps
the totals, counting adds to the total of the head, and the sum is that of the totals in the window.
-/

namespace CountAlarm

/-! ## Sums that stop at the limit -/

theorem foldl_addCounts (counts : List Nat) (acc : Nat) (h : acc ≤ countLimit) :
    counts.foldl addCounts acc = min countLimit (acc + counts.sum) := by
  induction counts generalizing acc with
  | nil => simp [h]
  | cons count counts ih =>
      have hle : addCounts acc count ≤ countLimit := Nat.min_le_left _ _
      rw [List.foldl_cons, ih _ hle, List.sum_cons]
      unfold addCounts
      omega

theorem sumCounts_eq (counts : List Nat) : sumCounts counts = min countLimit counts.sum := by
  unfold sumCounts
  rw [foldl_addCounts counts 0 (Nat.zero_le _), Nat.zero_add]

theorem min_sum_min (limit : Nat) (buckets : Finset Nat) (totals : Nat → Nat) :
    min limit (∑ b ∈ buckets, min limit (totals b)) = min limit (∑ b ∈ buckets, totals b) := by
  induction buckets using Finset.induction_on with
  | empty => rfl
  | insert b buckets hb ih =>
      rw [Finset.sum_insert hb, Finset.sum_insert hb]
      omega

theorem sum_toList_eq_sum_range (slots : Array Nat) :
    slots.toList.sum = ∑ i ∈ Finset.range slots.size, slots.getD i 0 := by
  rw [Finset.sum_range, ← Fin.sum_univ_getElem slots.toList]
  apply Finset.sum_congr rfl
  intro i _
  simp [Array.getD]

namespace Window

/-! ## Slots -/

theorem inSlot_eq_getD (w : Window) (bucket : Nat) :
    w.inSlot bucket = w.slots.getD (bucket % w.slots.size) 0 := by
  have hlt := w.slot_lt bucket
  unfold slot at hlt
  simp [inSlot, slot, Array.getD, hlt]

/-- Two buckets less than a window apart have different slots. -/
theorem mod_ne_mod {size first second : Nat} (hlt : first < second)
    (hnear : second < first + size) : first % size ≠ second % size := by
  intro heq
  have hinj := Nat.mod_injOn_Ico first size
  have hfirst : first ∈ (Finset.Ico first (first + size) : Set Nat) := by simp; omega
  have hsecond : second ∈ (Finset.Ico first (first + size) : Set Nat) := by simp; omega
  exact absurd (hinj hfirst hsecond heq) (Nat.ne_of_lt hlt)

theorem getD_setIfInBounds {slots : Array Nat} {j : Nat} (hj : j < slots.size) (value i : Nat) :
    (slots.setIfInBounds j value).getD i 0 = if j = i then value else slots.getD i 0 := by
  rw [Array.getD_eq_getD_getElem?, Array.getD_eq_getD_getElem?, Array.getElem?_setIfInBounds]
  by_cases hji : j = i
  · rw [if_pos hji, if_pos hj, if_pos hji, Option.getD_some]
  · rw [if_neg hji, if_neg hji]

theorem getD_clearAfter {slots : Array Nat} (hsize : 0 < slots.size) (bucket count i : Nat) :
    (clearAfter slots bucket count).getD i 0 =
      if ∃ k < count, (bucket + 1 + k) % slots.size = i then 0 else slots.getD i 0 := by
  induction count with
  | zero => simp [clearAfter]
  | succ count ih =>
      have hstep : clearAfter slots bucket (count + 1) =
          (clearAfter slots bucket count).setIfInBounds
            ((bucket + 1 + count) % slots.size) 0 := by
        simp [clearAfter, List.range_succ]
      have hslot : (bucket + 1 + count) % slots.size < (clearAfter slots bucket count).size := by
        rw [size_clearAfter]
        exact Nat.mod_lt _ hsize
      rw [hstep, getD_setIfInBounds hslot, ih]
      by_cases hlast : (bucket + 1 + count) % slots.size = i
      · rw [if_pos hlast, if_pos ⟨count, Nat.lt_succ_self count, hlast⟩]
      · rw [if_neg hlast]
        congr 1
        apply propext
        constructor
        · rintro ⟨k, hk, hki⟩
          exact ⟨k, Nat.lt_succ_of_lt hk, hki⟩
        · rintro ⟨k, hk, hki⟩
          rcases Nat.lt_succ_iff_lt_or_eq.mp hk with hk | rfl
          · exact ⟨k, hk, hki⟩
          · exact absurd hki hlast

/-! ## Totals -/

/-- The window shows the totals of its buckets, and no bucket after its head has one. -/
structure Holds (w : Window) (totals : Nat → Nat) : Prop where
  counts : ∀ b ≤ w.head, w.head < b + w.slots.size →
    w.inSlot b = min countLimit (totals b)
  unused : ∀ i < w.slots.size, w.head < i → w.slots.getD i 0 = 0
  later : ∀ b, w.head < b → totals b = 0

@[simp] theorem size_zero (size head : Nat) : (zero size head).slots.size = max size 1 :=
  Array.size_replicate

@[simp] theorem head_zero (size head : Nat) : (zero size head).head = head := rfl

@[simp] theorem size_advance (w : Window) (target : Nat) :
    (w.advance target).slots.size = w.slots.size := by
  unfold advance
  split
  · rfl
  · exact size_clearAfter _ _ _

@[simp] theorem head_advance (w : Window) (target : Nat) :
    (w.advance target).head = max w.head target := by
  unfold advance
  split
  · next h => exact (Nat.max_eq_left h).symm
  · next h => exact (Nat.max_eq_right (Nat.le_of_not_le h)).symm

@[simp] theorem size_add (w : Window) (amount : Int) :
    (w.add amount).slots.size = w.slots.size := by
  unfold add
  split
  · rfl
  · exact Array.size_setIfInBounds

@[simp] theorem head_add (w : Window) (amount : Int) : (w.add amount).head = w.head := by
  unfold add
  split <;> rfl

theorem getD_zero (size head i : Nat) : (zero size head).slots.getD i 0 = 0 := by
  unfold zero
  rw [Array.getD_eq_getD_getElem?, Array.getElem?_replicate]
  split <;> rfl

theorem holds_zero (size head : Nat) : (zero size head).Holds fun _ => 0 where
  counts b _ _ := by rw [inSlot_eq_getD, getD_zero, Nat.min_zero]
  unused i _ _ := getD_zero size head i
  later _ _ := rfl

/-- Moving the head clears the slots of the buckets that it moves over. -/
theorem getD_advance (w : Window) (target i : Nat) :
    (w.advance target).slots.getD i 0 =
      if ∃ b ≤ target, w.head < b ∧ b % w.slots.size = i then 0 else w.slots.getD i 0 := by
  by_cases hle : target ≤ w.head
  · rw [advance, if_pos hle, if_neg]
    rintro ⟨b, hb, hafter, -⟩
    omega
  · have hslots : (w.advance target).slots =
        clearAfter w.slots w.head (min (target - w.head) w.slots.size) := by
      rw [advance, if_neg hle]
    rw [hslots, getD_clearAfter w.size_pos]
    apply if_congr _ rfl rfl
    constructor
    · rintro ⟨k, hk, hki⟩
      exact ⟨w.head + 1 + k, by omega, by omega, hki⟩
    · rintro ⟨b, hb, hafter, hbi⟩
      -- one turn at most is cleared, and within it lies the slot of every bucket
      have hlt := Nat.mod_lt (b - w.head - 1) w.size_pos
      have hmodle := Nat.mod_le (b - w.head - 1) w.slots.size
      refine ⟨(b - w.head - 1) % w.slots.size, by omega, ?_⟩
      rw [Nat.add_mod_mod, ← hbi]
      congr 1
      omega

/-- Moving the head keeps all totals; the buckets that it moves over have none. -/
theorem Holds.advance {w : Window} {totals : Nat → Nat} (h : w.Holds totals) (target : Nat) :
    (w.advance target).Holds totals := by
  refine ⟨?_, ?_, ?_⟩
  · intro b hb hwindow
    rw [head_advance] at hb hwindow
    rw [size_advance] at hwindow
    rw [inSlot_eq_getD, size_advance, getD_advance]
    by_cases hold : b ≤ w.head
    · -- the bucket stays, since no cleared one is a whole window away from it
      have hkept : ¬∃ c ≤ target, w.head < c ∧ c % w.slots.size = b % w.slots.size := by
        rintro ⟨c, hc, hafter, hcb⟩
        exact mod_ne_mod (by omega) (by omega) hcb.symm
      rw [if_neg hkept, ← inSlot_eq_getD]
      exact h.counts b hold (by omega)
    · have hcleared : ∃ c ≤ target, w.head < c ∧ c % w.slots.size = b % w.slots.size :=
        ⟨b, by omega, Nat.lt_of_not_le hold, rfl⟩
      rw [if_pos hcleared, h.later b (Nat.lt_of_not_le hold), Nat.min_zero]
  · intro i hi htarget
    rw [size_advance] at hi
    rw [head_advance] at htarget
    rw [getD_advance, h.unused i hi (by omega), ite_self]
  · intro b hb
    rw [head_advance] at hb
    exact h.later b (by omega)

/-- Counting adds to the total of the head. -/
theorem Holds.add {w : Window} {totals : Nat → Nat} (h : w.Holds totals) (amount : Int) :
    (w.add amount).Holds fun b => totals b + if w.head = b then amount.toNat else 0 := by
  by_cases hpos : amount ≤ 0
  · have hzero : amount.toNat = 0 := Int.toNat_of_nonpos hpos
    simpa only [Window.add, if_pos hpos, hzero, ite_self, Nat.add_zero] using h
  have hslots : (w.add amount).slots =
      w.slots.setIfInBounds (w.slot w.head) (addCounts (w.inSlot w.head) amount.toNat) := by
    rw [Window.add, if_neg hpos]
  refine ⟨?_, ?_, ?_⟩
  · intro b hb hwindow
    rw [head_add] at hb hwindow
    rw [size_add] at hwindow
    rw [inSlot_eq_getD, size_add, hslots, getD_setIfInBounds (w.slot_lt w.head)]
    by_cases heq : w.head = b
    · subst heq
      rw [if_pos (show w.slot w.head = w.head % w.slots.size from rfl),
        h.counts w.head hb hwindow, if_pos rfl]
      unfold addCounts
      omega
    · rw [if_neg, ← inSlot_eq_getD, if_neg heq]
      · exact h.counts b hb hwindow
      · exact (mod_ne_mod (by omega) hwindow).symm
  · intro i hi hhead
    rw [size_add] at hi
    rw [head_add] at hhead
    have hslot : w.slot w.head ≠ i := by
      unfold slot
      rw [Nat.mod_eq_of_lt (by omega)]
      omega
    rw [hslots, getD_setIfInBounds (w.slot_lt w.head), if_neg hslot]
    exact h.unused i hi hhead
  · intro b hb
    rw [head_add] at hb
    rw [h.later b hb, if_neg (by omega)]

/-! ## Sums -/

/-- The slots hold the counts of the window's buckets and nothing else. -/
theorem Holds.sum_slots {w : Window} {totals : Nat → Nat} (h : w.Holds totals) :
    w.slots.toList.sum = ∑ b ∈ Finset.Ico (w.head + 1 - w.slots.size) (w.head + 1), w.inSlot b := by
  have hinj : Set.InjOn (· % w.slots.size)
      (Finset.Ico (w.head + 1 - w.slots.size) (w.head + 1) : Set Nat) := by
    apply (Nat.mod_injOn_Ico (w.head + 1 - w.slots.size) w.slots.size).mono
    intro b hb
    simp only [Finset.coe_Ico, Set.mem_Ico] at hb ⊢
    omega
  rw [sum_toList_eq_sum_range, Finset.sum_congr rfl fun b _ => w.inSlot_eq_getD b,
    ← Finset.sum_image (f := fun i => w.slots.getD i 0) hinj]
  symm
  apply Finset.sum_subset
  · intro i hi
    obtain ⟨b, -, rfl⟩ := Finset.mem_image.mp hi
    exact Finset.mem_range.mpr (Nat.mod_lt b w.size_pos)
  · intro i hi hnot
    rw [Finset.mem_range] at hi
    apply h.unused i hi
    by_contra hle
    apply hnot
    by_cases hfull : w.slots.size ≤ w.head + 1
    · have himage := Nat.image_Ico_mod (w.head + 1 - w.slots.size) w.slots.size
      rw [Nat.sub_add_cancel hfull] at himage
      rw [himage]
      exact Finset.mem_range.mpr hi
    · refine Finset.mem_image.mpr ⟨i, ?_, Nat.mod_eq_of_lt hi⟩
      rw [Finset.mem_Ico]
      omega

theorem Holds.sum_eq {w : Window} {totals : Nat → Nat} (h : w.Holds totals) :
    w.sum = min countLimit
      (∑ b ∈ Finset.Ico (w.head + 1 - w.slots.size) (w.head + 1), totals b) := by
  have hcounts : ∀ b ∈ Finset.Ico (w.head + 1 - w.slots.size) (w.head + 1),
      w.inSlot b = min countLimit (totals b) := by
    intro b hb
    rw [Finset.mem_Ico] at hb
    exact h.counts b (by omega) (by omega)
  unfold sum
  rw [sumCounts_eq, h.sum_slots, Finset.sum_congr rfl hcounts, min_sum_min]

end Window

end CountAlarm
