import CountAlarm.Proofs.Counting.History
/-!
# Histories in order of time

If no event is older than those before it, every event is within reach and is charged to its own
bucket. The sum of a window of single events is then their number in the last buckets.
-/

namespace CountAlarm.History

/-- No event is older than those before it. -/
def Ordered (history : List Sighting) : Prop :=
  history.Pairwise fun late early => early.time ≤ late.time

variable {g : BucketGrid} {s : Sighting} {past history : List Sighting}

theorem newest_le_of_ordered (h : Ordered (s :: past)) : newest g past ≤ s.bucket g := by
  rw [newest_le_iff]
  intro e he
  exact g.bucketAt_mono ((List.pairwise_cons.mp h).1 e he)

theorem newest_of_ordered (h : Ordered (s :: past)) : newest g (s :: past) = s.bucket g := by
  rw [newest_cons]
  exact Nat.max_eq_left (newest_le_of_ordered h)

theorem withinReach_of_ordered (size : Nat) (key : SliceKey) (h : Ordered history) :
    WithinReach g size key history := by
  induction history with
  | nil => exact True.intro
  | cons s past ih =>
      refine ⟨fun _ => ?_, ih (List.pairwise_cons.mp h).2⟩
      have hle : newest g past ≤ s.bucket g := newest_le_of_ordered h
      omega

theorem chargedWithin_of_ordered {size head : Nat} (h : Ordered history)
    (hone : ∀ e ∈ history, e.amount = 1) :
    chargedWithin g size head history =
      history.countP fun e => head < e.bucket g + size := by
  induction history with
  | nil => rfl
  | cons s past ih =>
      obtain ⟨hs, hpast⟩ := List.forall_mem_cons.mp hone
      rw [chargedWithin, ih (List.pairwise_cons.mp h).2 hpast, newest_of_ordered h, hs,
        List.countP_cons]
      simp only [decide_eq_true_iff]
      rfl

theorem windowSum_of_ordered {size : Nat} (h : Ordered (s :: past))
    (hone : ∀ e ∈ s :: past, e.amount = 1) (hlength : (s :: past).length ≤ countLimit) :
    windowSum g size (s :: past) =
      (s :: past).countP fun e => s.bucket g < e.bucket g + size := by
  have hle : ((s :: past).countP fun e => s.bucket g < e.bucket g + size) ≤ countLimit :=
    Nat.le_trans List.countP_le_length hlength
  unfold windowSum
  rw [chargedWithin_of_ordered h hone, newest_of_ordered h, Nat.min_eq_right hle]

end CountAlarm.History
