import CountAlarm.Document
/-!
# Bucket grids

A grid divides time from a start on into buckets of one width. Times are in nanoseconds.
-/

namespace CountAlarm

/-- The largest number of 64 bits. -/
def wordLimit : Nat :=
  18446744073709551615

/-- Buckets of one width; bucket `k` starts `k` widths after the start. -/
structure BucketGrid where
  start : UInt64
  width : UInt64
  width_pos : 0 < width.toNat
deriving DecidableEq, Repr

namespace BucketGrid

/-- The grid with a start and a width. A width of zero is taken for one. -/
def of (start width : UInt64) : BucketGrid :=
  if h : 0 < width.toNat then ⟨start, width, h⟩ else ⟨start, 1, by decide⟩

/-- The bucket of a time; there is none before the start. -/
def bucketOf? (g : BucketGrid) (time : UInt64) : Option Nat :=
  if g.start.toNat ≤ time.toNat then some ((time.toNat - g.start.toNat) / g.width.toNat)
  else none

/-- The time at which a bucket starts, or the last time if it starts later. -/
def startOf (g : BucketGrid) (bucket : Nat) : Nat :=
  min wordLimit (g.start.toNat + bucket * g.width.toNat)

def toDocument (g : BucketGrid) : Document :=
  .object [("start_time_ns", .natural g.start), ("bucket_size_ns", .natural g.width)]

end BucketGrid

end CountAlarm
