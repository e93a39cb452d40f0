/-!
# Windows of counts

A window holds the counts of the last `size` buckets up to its head. The count of a bucket lies in
the slot with the bucket's number modulo the size; slots are cleared when the head moves over them,
so the sum of all slots is always the sum of the window. Counts stop at `countLimit`.
-/

namespace CountAlarm

/-- The largest count, that of a signed number of 64 bits. -/
def countLimit : Nat :=
  9223372036854775807

/-- The sum of two counts, which stops at the limit. -/
def addCounts (a b : Nat) : Nat :=
  min countLimit (a + b)

def sumCounts (counts : List Nat) : Nat :=
  counts.foldl addCounts 0

/-- Counts in slots, and the newest bucket. -/
structure Window where
  slots : Array Nat
  head : Nat
  size_pos : 0 < slots.size
deriving DecidableEq, Repr

namespace Window

/-- A window without counts. A size of zero is taken for one. -/
def zero (size head : Nat) : Window :=
  { slots := Array.replicate (max size 1) 0
    head
    size_pos := by rw [Array.size_replicate]; omega }

def size (w : Window) : Nat :=
  w.slots.size

def slot (w : Window) (bucket : Nat) : Nat :=
  bucket % w.slots.size

theorem slot_lt (w : Window) (bucket : Nat) : w.slot bucket < w.slots.size :=
  Nat.mod_lt bucket w.size_pos

/-- What lies in the slot of a bucket, whether or not the window holds the bucket. -/
def inSlot (w : Window) (bucket : Nat) : Nat :=
  have := w.slot_lt bucket
  w.slots[w.slot bucket]

/-! ## Moving the head -/

/-- Clears the slots of some buckets after another. -/
def clearAfter (slots : Array Nat) (bucket count : Nat) : Array Nat :=
  (List.range count).foldl
    (fun cleared i => cleared.setIfInBounds ((bucket + 1 + i) % slots.size) 0) slots

@[simp] theorem size_clearAfter (slots : Array Nat) (bucket count : Nat) :
    (clearAfter slots bucket count).size = slots.size := by
  unfold clearAfter
  induction count with
  | zero => rfl
  | succ count ih =>
    rw [List.range_succ, List.foldl_append, List.foldl_cons, List.foldl_nil,
      Array.size_setIfInBounds, ih]

/-- Moves the head forward; the buckets it moves over hold nothing yet. A head never moves back. -/
def advance (w : Window) (target : Nat) : Window :=
  if target ≤ w.head then w
  else
    { slots := clearAfter w.slots w.head (min (target - w.head) w.slots.size)
      head := target
      size_pos := by rw [size_clearAfter]; exact w.size_pos }

/-! ## Counting -/

/-- Adds to the count of the head. Amounts that are not positive are ignored. -/
def add (w : Window) (amount : Int) : Window :=
  if amount ≤ 0 then w
  else
    { slots := w.slots.setIfInBounds (w.slot w.head) (addCounts (w.inSlot w.head) amount.toNat)
      head := w.head
      size_pos := by rw [Array.size_setIfInBounds]; exact w.size_pos }

/-! ## Reading -/

def current (w : Window) : Nat :=
  w.inSlot w.head

def sum (w : Window) : Nat :=
  sumCounts w.slots.toList

/-- The count of a bucket, which is zero outside of the window. -/
def countAt (w : Window) (bucket : Nat) : Nat :=
  if w.head < bucket ∨ w.slots.size ≤ w.head - bucket then 0 else w.inSlot bucket

/-- The buckets of a window of some size with some head, the oldest first. -/
def bucketsUpTo (size head : Nat) : List Nat :=
  let oldest := head - (size - 1)
  List.range' oldest (head + 1 - oldest)

/-- The sum of the window as it would be with another head. -/
def sumAt (w : Window) (head : Nat) : Nat :=
  sumCounts ((bucketsUpTo w.slots.size head).map w.countAt)

def isZero (w : Window) : Bool :=
  w.slots.toList.all (· == 0)

/-- The counts of the window, the oldest bucket first. Where the head has fewer buckets before it
than the window holds, zeros stand for the missing ones. -/
def oldestFirst (w : Window) : List Nat :=
  (List.range w.slots.size).reverse.map fun back =>
    if back ≤ w.head then w.countAt (w.head - back) else 0

/-- Tells whether none of the window's buckets is left in a window with another head. -/
def isStale (w : Window) (current : Nat) : Bool :=
  decide (w.slots.size ≤ current - w.head)

end Window

end CountAlarm
