import CountAlarm.Counting.SliceCounts
import CountAlarm.Proofs.Counting.BucketIndex
/-!
# Counting with checked words

Windows, grids and counts once more, on words of 64 bits: every sum, difference, product, quotient,
remainder and slot is computed by an operation that fails where the result is no word, the divisor
is zero or there is no such slot. None of them ever fails, whatever the state is, and the results
are those of the unchecked operations. Operations that stop at a limit by design stay as they are.
-/

namespace CountAlarm

/-- What an operation on words and slots can fail with. -/
inductive RangeFault where
  | overflow
  | underflow
  | zeroDivisor
  | outOfBounds
deriving DecidableEq, Repr

abbrev Checked (α : Type) :=
  Except RangeFault α

namespace Checked

@[simp] theorem ok_bind {α β : Type} (a : α) (f : α → Checked β) :
    ((.ok a : Checked α) >>= f) = f a := rfl

theorem mapM_eq_ok {α β : Type} {f : α → Checked β} {g : α → β} (h : ∀ a, f a = .ok (g a))
    (as : List α) : as.mapM f = .ok (as.map g) := by
  rw [funext h]
  exact List.mapM_pure

end Checked

/-! ## Words -/

namespace Word

def add (a b : Nat) : Checked Nat :=
  if a + b ≤ wordLimit then .ok (a + b) else .error .overflow

def sub (a b : Nat) : Checked Nat :=
  if b ≤ a then .ok (a - b) else .error .underflow

def mul (a b : Nat) : Checked Nat :=
  if a * b ≤ wordLimit then .ok (a * b) else .error .overflow

def div (a b : Nat) : Checked Nat :=
  if b = 0 then .error .zeroDivisor else .ok (a / b)

def rem (a b : Nat) : Checked Nat :=
  if b = 0 then .error .zeroDivisor else .ok (a % b)

variable {a b : Nat}

theorem add_eq_ok (h : a + b ≤ wordLimit) : add a b = .ok (a + b) :=
  if_pos h

theorem sub_eq_ok (h : b ≤ a) : sub a b = .ok (a - b) :=
  if_pos h

theorem mul_eq_ok (h : a * b ≤ wordLimit) : mul a b = .ok (a * b) :=
  if_pos h

theorem div_eq_ok (h : 0 < b) : div a b = .ok (a / b) :=
  if_neg (Nat.ne_of_gt h)

theorem rem_eq_ok (h : 0 < b) : rem a b = .ok (a % b) :=
  if_neg (Nat.ne_of_gt h)

end Word

/-! ## Windows -/

namespace Window

def read (w : Window) (slot : Nat) : Checked Nat :=
  match w.slots[slot]? with
  | some count => .ok count
  | none => .error .outOfBounds

def write (w : Window) (slot count : Nat) : Checked Window :=
  if slot < w.slots.size then
    .ok
      { slots := w.slots.setIfInBounds slot count
        head := w.head
        size_pos := by rw [Array.size_setIfInBounds]; exact w.size_pos }
  else .error .outOfBounds

def checkedSlot (w : Window) (bucket : Nat) : Checked Nat :=
  Word.rem bucket w.slots.size

/-- Clears the slot of a bucket that lies some buckets after the head. -/
def checkedClear (w : Window) (distance : Nat) : Checked Window := do
  let bucket ← Word.add w.head distance
  let slot ← w.checkedSlot bucket
  w.write slot 0

def checkedAdvance (w : Window) (target : Nat) : Checked Window :=
  if target ≤ w.head then .ok w
  else do
    let distance ← Word.sub target w.head
    let cleared ← (List.range' 1 (min distance w.slots.size)).foldlM checkedClear w
    .ok { cleared with head := target }

def checkedAdd (w : Window) (amount : Int) : Checked Window :=
  if amount ≤ 0 then .ok w
  else do
    let slot ← w.checkedSlot w.head
    let count ← w.read slot
    w.write slot (addCounts count amount.toNat)

def checkedCurrent (w : Window) : Checked Nat := do
  let slot ← w.checkedSlot w.head
  w.read slot

def checkedCountAt (w : Window) (bucket : Nat) : Checked Nat :=
  if w.head < bucket then .ok 0
  else do
    let back ← Word.sub w.head bucket
    if w.slots.size ≤ back then .ok 0
    else do
      let slot ← w.checkedSlot bucket
      w.read slot

def checkedSumAt (w : Window) (head : Nat) : Checked Nat := do
  let reach ← Word.sub w.slots.size 1
  let counts ← (List.range' (head - reach) (head + 1 - (head - reach))).mapM w.checkedCountAt
  .ok (sumCounts counts)

def checkedOldestFirst (w : Window) : Checked (List Nat) :=
  (List.range w.slots.size).reverse.mapM fun back =>
    if back ≤ w.head then w.checkedCountAt (w.head - back) else .ok 0

variable (w : Window)

theorem checkedSlot_eq_ok (bucket : Nat) : w.checkedSlot bucket = .ok (w.slot bucket) :=
  Word.rem_eq_ok w.size_pos

theorem read_slot (bucket : Nat) : w.read (w.slot bucket) = .ok (w.inSlot bucket) := by
  unfold read
  rw [Array.getElem?_eq_getElem (w.slot_lt bucket)]
  rfl

theorem write_slot (bucket count : Nat) : w.write (w.slot bucket) count =
    .ok
      { slots := w.slots.setIfInBounds (w.slot bucket) count
        head := w.head
        size_pos := by rw [Array.size_setIfInBounds]; exact w.size_pos } :=
  if_pos (w.slot_lt bucket)

/-! ### Moving the head -/

/-- The window with the slots of the next buckets cleared. -/
def cleared (count : Nat) : Window :=
  { slots := clearAfter w.slots w.head count
    head := w.head
    size_pos := by rw [size_clearAfter]; exact w.size_pos }

theorem clearAfter_succ (slots : Array Nat) (bucket count : Nat) :
    clearAfter slots bucket (count + 1) =
      (clearAfter slots bucket count).setIfInBounds ((bucket + 1 + count) % slots.size) 0 := by
  unfold clearAfter
  rw [List.range_succ, List.foldl_append, List.foldl_cons, List.foldl_nil]

theorem checkedClear_cleared {count : Nat} (h : w.head + (count + 1) ≤ wordLimit) :
    (w.cleared count).checkedClear (1 + count) = .ok (w.cleared (count + 1)) := by
  have hbucket : Word.add (w.cleared count).head (1 + count) = .ok (w.head + (1 + count)) := by
    apply Word.add_eq_ok
    rw [Nat.add_comm 1 count]
    exact h
  have hslot : (w.cleared count).slot (w.head + (1 + count)) =
      (w.head + 1 + count) % w.slots.size := by
    unfold slot cleared
    rw [size_clearAfter, Nat.add_assoc]
  unfold checkedClear
  simp only [hbucket, Checked.ok_bind, checkedSlot_eq_ok, write_slot, hslot]
  unfold cleared
  simp only [clearAfter_succ]

theorem foldlM_checkedClear {count : Nat} (h : w.head + count ≤ wordLimit) :
    (List.range' 1 count).foldlM checkedClear w = .ok (w.cleared count) := by
  induction count with
  | zero => rfl
  | succ count ih =>
      rw [List.range'_1_concat, List.foldlM_append, ih (Nat.le_of_succ_le h), Checked.ok_bind,
        List.foldlM_cons, checkedClear_cleared w h]
      rfl

theorem checkedAdvance_eq_ok {target : Nat} (h : target ≤ wordLimit) :
    w.checkedAdvance target = .ok (w.advance target) := by
  unfold checkedAdvance advance
  split
  · rfl
  · next hbehind =>
    have hle : w.head ≤ target := Nat.le_of_not_le hbehind
    -- the loop ends at the target at the latest
    have hlast : w.head + min (target - w.head) w.slots.size ≤ wordLimit := by
      have hsteps := Nat.min_le_left (target - w.head) w.slots.size
      omega
    rw [Word.sub_eq_ok hle, Checked.ok_bind, foldlM_checkedClear w hlast]
    rfl

/-! ### Counting and reading -/

theorem checkedAdd_eq_ok (amount : Int) : w.checkedAdd amount = .ok (w.add amount) := by
  unfold checkedAdd add
  split
  · rfl
  · simp only [checkedSlot_eq_ok, Checked.ok_bind, read_slot, write_slot]

theorem checkedCurrent_eq_ok : w.checkedCurrent = .ok w.current := by
  unfold checkedCurrent current
  rw [checkedSlot_eq_ok, Checked.ok_bind, read_slot]

theorem checkedCountAt_eq_ok (bucket : Nat) : w.checkedCountAt bucket = .ok (w.countAt bucket) := by
  unfold checkedCountAt countAt
  by_cases hafter : w.head < bucket
  · rw [if_pos hafter, if_pos (Or.inl hafter)]
  · rw [if_neg hafter, Word.sub_eq_ok (Nat.le_of_not_lt hafter), Checked.ok_bind,
      checkedSlot_eq_ok, Checked.ok_bind, read_slot]
    simp only [hafter, false_or]
    split <;> rfl

theorem checkedSumAt_eq_ok (head : Nat) : w.checkedSumAt head = .ok (w.sumAt head) := by
  unfold checkedSumAt
  rw [Word.sub_eq_ok w.size_pos, Checked.ok_bind, Checked.mapM_eq_ok w.checkedCountAt_eq_ok]
  rfl

theorem checkedOldestFirst_eq_ok : w.checkedOldestFirst = .ok w.oldestFirst := by
  apply Checked.mapM_eq_ok
  intro back
  split
  · exact w.checkedCountAt_eq_ok _
  · rfl

end Window

/-! ## Grids -/

namespace BucketGrid

def checkedBucketOf? (g : BucketGrid) (time : UInt64) : Checked (Option Nat) :=
  if g.start.toNat ≤ time.toNat then do
    let bucket ← Word.div (time.toNat - g.start.toNat) g.width.toNat
    .ok (some bucket)
  else .ok none

/-- The time at which a bucket starts, which must be a word. -/
def checkedStartOf (g : BucketGrid) (bucket : Nat) : Checked Nat := do
  let offset ← Word.mul bucket g.width.toNat
  Word.add g.start.toNat offset

variable (g : BucketGrid)

theorem checkedBucketOf?_eq_ok (time : UInt64) :
    g.checkedBucketOf? time = .ok (g.bucketOf? time) := by
  unfold checkedBucketOf? bucketOf?
  split
  · rw [Word.div_eq_ok g.width_pos]
    rfl
  · rfl

theorem checkedStartOf_eq_ok {bucket : Nat}
    (h : g.start.toNat + bucket * g.width.toNat ≤ wordLimit) :
    g.checkedStartOf bucket = .ok (g.startOf bucket) := by
  unfold checkedStartOf startOf
  rw [Word.mul_eq_ok (Nat.le_trans (Nat.le_add_left _ _) h), Checked.ok_bind, Word.add_eq_ok h,
    Nat.min_eq_right h]

theorem le_wordLimit_of_bucketOf? {time : UInt64} {bucket : Nat}
    (h : g.bucketOf? time = some bucket) : bucket ≤ wordLimit := by
  obtain ⟨hstart, hbucket⟩ := bucketOf?_eq_some_iff.mp h
  calc bucket
    _ ≤ bucket * g.width.toNat := Nat.le_mul_of_pos_right _ g.width_pos
    _ ≤ g.start.toNat + bucket * g.width.toNat := Nat.le_add_left _ _
    _ ≤ wordLimit := start_add_le_wordLimit hstart (Nat.le_of_eq hbucket.symm)

end BucketGrid

/-! ## Counts of all slices -/

namespace SliceCounts

def checkedCountIn (c : SliceCounts) (key : SliceKey) (amount : Int) (bucket : Nat) :
    Checked (Tick × SliceCounts) := do
  let advanced := c.newest.any fun newest => decide (newest < bucket)
  let before := c.windowOr key bucket
  let moved ← before.checkedAdvance bucket
  let after ← moved.checkedAdd amount
  .ok
    ({ bucket := after.head, sum := after.sum, late := decide (bucket < before.head), advanced },
      { c with
        windows := c.windows.insert key after
        newest := if advanced || c.newest.isNone then some bucket else c.newest })

def checkedCount (c : SliceCounts) (key : SliceKey) (amount : Int) (time : UInt64) :
    Checked (Except DropCause (Tick × SliceCounts)) := do
  match ← c.grid.checkedBucketOf? time with
  | none => .ok (.error .beforeStart)
  | some bucket => do
    let counted ← c.checkedCountIn key amount bucket
    .ok (.ok counted)

def checkedSum (c : SliceCounts) (key : SliceKey) : Checked Nat :=
  match c.windows.get? key, c.newest with
  | some w, some newest => w.checkedSumAt newest
  | _, _ => .ok 0

variable (c : SliceCounts) (key : SliceKey) (amount : Int)

theorem checkedCountIn_eq_ok {bucket : Nat} (h : bucket ≤ wordLimit) :
    c.checkedCountIn key amount bucket = .ok (c.countIn key amount bucket) := by
  unfold checkedCountIn
  simp only [Window.checkedAdvance_eq_ok _ h, Checked.ok_bind, Window.checkedAdd_eq_ok]
  rfl

theorem checkedCount_eq_ok (time : UInt64) :
    c.checkedCount key amount time = .ok (c.count key amount time) := by
  unfold checkedCount count
  rw [BucketGrid.checkedBucketOf?_eq_ok, Checked.ok_bind]
  cases hbucket : c.grid.bucketOf? time with
  | none => rfl
  | some bucket =>
      simp only [c.checkedCountIn_eq_ok key amount (c.grid.le_wordLimit_of_bucketOf? hbucket),
        Checked.ok_bind]

theorem checkedSum_eq_ok : c.checkedSum key = .ok (c.sum key) := by
  unfold checkedSum sum
  cases c.windows.get? key with
  | none => rfl
  | some w =>
      cases c.newest with
      | none => rfl
      | some newest => exact w.checkedSumAt_eq_ok newest

end SliceCounts

end CountAlarm
