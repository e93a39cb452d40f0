import CountAlarm.Counting.BucketGrid
/-!
# Buckets of times after the start

From the start of a grid on, the bucket of a time is a plain quotient. It grows with the time, and
none of the buckets up to it starts after the time. Numbers and starts of buckets are adjoint as
long as the starts are times: `startOf_le_iff`.
-/

namespace CountAlarm.BucketGrid

/-- The bucket of a time that is not before the start. -/
def bucketAt (g : BucketGrid) (time : UInt64) : Nat :=
  (time.toNat - g.start.toNat) / g.width.toNat

variable {g : BucketGrid} {time : UInt64} {bucket : Nat}

theorem bucketOf?_of_start_le (h : g.start ≤ time) :
    g.bucketOf? time = some (g.bucketAt time) := by
  unfold bucketOf?
  rw [if_pos (UInt64.le_iff_toNat_le.mp h)]
  rfl

theorem bucketOf?_of_lt_start (h : ¬g.start ≤ time) :
    g.bucketOf? time = none := by
  unfold bucketOf?
  rw [if_neg (fun hle => h (UInt64.le_iff_toNat_le.mpr hle))]

theorem bucketAt_mono (g : BucketGrid) {early late : UInt64} (h : early ≤ late) :
    g.bucketAt early ≤ g.bucketAt late := by
  have hle : early.toNat ≤ late.toNat := UInt64.le_iff_toNat_le.mp h
  exact Nat.div_le_div_right (by omega)

theorem bucketOf?_eq_some_iff :
    g.bucketOf? time = some bucket ↔ g.start ≤ time ∧ g.bucketAt time = bucket := by
  by_cases h : g.start ≤ time
  · simp [bucketOf?_of_start_le h, h]
  · simp [bucketOf?_of_lt_start h, h]

/-! ## Starts of buckets -/

theorem toNat_le_wordLimit (time : UInt64) : time.toNat ≤ wordLimit :=
  Nat.le_of_lt_succ time.toNat_lt

theorem start_add_le_of_le_bucketAt (hstart : g.start ≤ time)
    (h : bucket ≤ g.bucketAt time) :
    g.start.toNat + bucket * g.width.toNat ≤ time.toNat := by
  have hle : g.start.toNat ≤ time.toNat := UInt64.le_iff_toNat_le.mp hstart
  have hmul : bucket * g.width.toNat ≤ time.toNat - g.start.toNat :=
    (Nat.le_div_iff_mul_le g.width_pos).mp h
  omega

/-- The bucket of a time starts at a time and not at the limit, and so does every earlier one. -/
theorem start_add_le_wordLimit (hstart : g.start ≤ time) (h : bucket ≤ g.bucketAt time) :
    g.start.toNat + bucket * g.width.toNat ≤ wordLimit :=
  Nat.le_trans (start_add_le_of_le_bucketAt hstart h) (toNat_le_wordLimit time)

/-- A bucket up to that of a time has started by then. -/
theorem startOf_le_of_le_bucketAt (hstart : g.start ≤ time) (h : bucket ≤ g.bucketAt time) :
    g.startOf bucket ≤ time.toNat :=
  Nat.le_trans (Nat.min_le_right _ _) (start_add_le_of_le_bucketAt hstart h)

theorem startOf_mono (g : BucketGrid) {first second : Nat} (h : first ≤ second) :
    g.startOf first ≤ g.startOf second := by
  have hmul : first * g.width.toNat ≤ second * g.width.toNat := Nat.mul_le_mul_right _ h
  unfold startOf
  omega

theorem startOf_bucketAt (h : g.start ≤ time) :
    g.startOf (g.bucketAt time) = g.start.toNat + g.bucketAt time * g.width.toNat :=
  Nat.min_eq_right (start_add_le_wordLimit h (Nat.le_refl _))

/-- A time lies less than one width after the start of its bucket. -/
theorem lt_startOf_bucketAt_add (h : g.start ≤ time) :
    time.toNat < g.startOf (g.bucketAt time) + g.width.toNat := by
  have hle : g.start.toNat ≤ time.toNat := UInt64.le_iff_toNat_le.mp h
  have hnext : time.toNat - g.start.toNat < (g.bucketAt time + 1) * g.width.toNat := by
    rw [Nat.mul_comm]
    exact Nat.lt_mul_div_succ _ g.width_pos
  rw [Nat.add_one_mul] at hnext
  rw [startOf_bucketAt h]
  omega

/-- Bucket numbers and starts of buckets are adjoint. Beyond the last time a bucket has no start of
its own, and nothing follows from the limit that stands for it. -/
theorem startOf_le_iff (h : g.start.toNat + bucket * g.width.toNat ≤ wordLimit) :
    g.startOf bucket ≤ time.toNat ↔ g.start ≤ time ∧ bucket ≤ g.bucketAt time := by
  constructor
  · intro hle
    have hexact : g.startOf bucket = g.start.toNat + bucket * g.width.toNat := Nat.min_eq_right h
    rw [hexact] at hle
    refine ⟨UInt64.le_iff_toNat_le.mpr (by omega), ?_⟩
    apply (Nat.le_div_iff_mul_le g.width_pos).mpr
    omega
  · rintro ⟨hstart, hbucket⟩
    exact startOf_le_of_le_bucketAt hstart hbucket

/-! ## Grids from a start and a width -/

theorem start_of (start width : UInt64) : (of start width).start = start := by
  unfold of
  split <;> rfl

/-- A width of zero is taken for one. -/
theorem toNat_width_of (start width : UInt64) :
    (of start width).width.toNat = max width.toNat 1 := by
  unfold of
  split
  · next hpos => exact (Nat.max_eq_left hpos).symm
  · next hzero => exact (Nat.max_eq_right (by omega)).symm

end CountAlarm.BucketGrid
