import CountAlarm.Counting.BucketGrid
import CountAlarm.Counting.DropCause
import CountAlarm.Counting.SliceTable
import CountAlarm.Counting.Window
/-!
# Counts of all slices

Every slice has a window with a head of its own. The newest bucket over all slices decides only
which windows are given up: those that lie so far back that no event within reach could add to them.
-/

namespace CountAlarm

/-- The windows of the live slices. `span` is the number of buckets of each window. -/
structure SliceCounts where
  grid : BucketGrid
  span : Nat
  windows : SliceTable Window
  newest : Option Nat

/-- What counting one event came to: the bucket that it was counted in, the sum of its slice after
that, whether it was older than the head of its slice, and whether it moved the newest bucket. -/
structure Tick where
  bucket : Nat
  sum : Nat
  late : Bool
  advanced : Bool
deriving DecidableEq, Repr

namespace SliceCounts

/-- No slices yet. A span of zero is taken for one. -/
def start (grid : BucketGrid) (span : Nat) : SliceCounts :=
  { grid, span := max span 1, windows := .empty, newest := none }

/-- The oldest bucket for which a window is kept, `span` buckets behind the newest one. -/
def horizon (c : SliceCounts) : Option Nat :=
  c.newest.map fun newest => newest - c.span

/-- The window of a slice, or a new one with a given head. -/
def windowOr (c : SliceCounts) (key : SliceKey) (head : Nat) : Window :=
  (c.windows.get? key).getD (.zero c.span head)

/-- Counts an event in a bucket: in that bucket if the window of its slice can move there, and in
the window's head if the event is late. -/
def countIn (c : SliceCounts) (key : SliceKey) (amount : Int) (bucket : Nat) :
    Tick × SliceCounts :=
  let advanced := c.newest.any fun newest => decide (newest < bucket)
  let before := c.windowOr key bucket
  let after := (before.advance bucket).add amount
  ({ bucket := after.head, sum := after.sum, late := decide (bucket < before.head), advanced },
    { c with
      windows := c.windows.insert key after
      newest := if advanced || c.newest.isNone then some bucket else c.newest })

def count (c : SliceCounts) (key : SliceKey) (amount : Int) (time : UInt64) :
    Except DropCause (Tick × SliceCounts) :=
  match c.grid.bucketOf? time with
  | none => .error .beforeStart
  | some bucket => .ok (c.countIn key amount bucket)

/-- Gives up the windows that lie before the horizon, and returns their keys. -/
def evict (c : SliceCounts) : List SliceKey × SliceCounts :=
  match c.horizon with
  | none => ([], c)
  | some horizon =>
    ((c.windows.filter fun _ w => w.isStale horizon).keys,
      { c with windows := c.windows.filter fun _ w => !w.isStale horizon })

def sum (c : SliceCounts) (key : SliceKey) : Nat :=
  match c.windows.get? key, c.newest with
  | some w, some newest => w.sumAt newest
  | _, _ => 0

def clear (c : SliceCounts) : SliceCounts :=
  { c with windows := .empty, newest := none }

end SliceCounts

end CountAlarm
