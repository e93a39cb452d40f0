import CountAlarm.Event.Instant
import CountAlarm.Event.SliceKey
import CountAlarm.Proofs.Counting.BucketIndex
import CountAlarm.Proofs.Counting.WindowTotals
/-!
# Histories of slices

What windows are about, told by the events alone. A history lists what was counted, the latest
first. An event of a slice is charged to the newest bucket that its slice has seen by then, so a
late event goes to the head. `windowSum` is what the last buckets of a slice were charged with.

A slice is evicted when the newest bucket of all slices gets far enough ahead of its head;
`sinceEviction` is what a slice has counted since. As long as the events of a slice stay
`WithinReach` of the newest bucket, nothing that an eviction forgets could have been in a later
window: `windowSum_sinceEviction`.
-/

namespace CountAlarm

/-- An amount to be counted for a slice at a time. -/
structure Sighting where
  key : SliceKey
  amount : Int
  time : UInt64
deriving DecidableEq, Repr

namespace Sighting

def bucket (g : BucketGrid) (s : Sighting) : Nat :=
  g.bucketAt s.time

def second (s : Sighting) : Nat :=
  s.time.toNat / nanosPerSecond

end Sighting

namespace History

variable (g : BucketGrid)

/-! ## The newest bucket -/

/-- The newest bucket of a history, if there is any. -/
def newest? (history : List Sighting) : Option Nat :=
  (history.map (Sighting.bucket g)).max?

def newest (history : List Sighting) : Nat :=
  (newest? g history).getD 0

theorem newest?_cons (s : Sighting) (past : List Sighting) :
    newest? g (s :: past) = some (newest g (s :: past)) := by
  simp [newest, newest?, List.max?_cons]

theorem newest_cons (s : Sighting) (past : List Sighting) :
    newest g (s :: past) = max (s.bucket g) (newest g past) := by
  unfold newest newest?
  rw [List.map_cons, List.max?_cons]
  cases (past.map (Sighting.bucket g)).max? with
  | none => simp
  | some bucket => rfl

theorem newest_append (recent old : List Sighting) :
    newest g (recent ++ old) = max (newest g recent) (newest g old) := by
  induction recent with
  | nil => simp [newest, newest?]
  | cons s recent ih => rw [List.cons_append, newest_cons, newest_cons, ih, Nat.max_assoc]

variable {g}

theorem newest_le_iff {history : List Sighting} {bucket : Nat} :
    newest g history ≤ bucket ↔ ∀ s ∈ history, s.bucket g ≤ bucket := by
  induction history with
  | nil => simp [newest, newest?]
  | cons s past ih => rw [newest_cons, Nat.max_le, ih, List.forall_mem_cons]

theorem bucket_le_newest {history : List Sighting} {s : Sighting} (h : s ∈ history) :
    s.bucket g ≤ newest g history :=
  newest_le_iff.mp (Nat.le_refl _) s h

/-- A bucket after all those of a slice's events is one window after its head. -/
theorem newest_add_le {history : List Sighting} {size bucket : Nat} (hne : history ≠ [])
    (h : ∀ s ∈ history, s.bucket g + size ≤ bucket) : newest g history + size ≤ bucket := by
  obtain ⟨s, past, rfl⟩ := List.exists_cons_of_ne_nil hne
  have hs := h s List.mem_cons_self
  have hle : newest g (s :: past) ≤ bucket - size :=
    newest_le_iff.mpr fun e he => by have := h e he; omega
  omega

/-! ## Charges -/

variable (g)

/-- What a bucket was charged with by the events of one slice. -/
def chargedTo : List Sighting → Nat → Nat
  | [], _ => 0
  | s :: past, bucket =>
    chargedTo past bucket + if newest g (s :: past) = bucket then s.amount.toNat else 0

/-- What those of the last `size` buckets up to a head were charged with. -/
def chargedWithin (size head : Nat) : List Sighting → Nat
  | [] => 0
  | s :: past =>
    chargedWithin size head past +
      if head < newest g (s :: past) + size then s.amount.toNat else 0

/-- The sum of the window of a slice. The head is the newest bucket of its events. -/
def windowSum (size : Nat) (history : List Sighting) : Nat :=
  min countLimit (chargedWithin g size (newest g history) history)

variable {g}

theorem sum_chargedTo {history : List Sighting} {size head : Nat}
    (h : newest g history ≤ head) :
    ∑ b ∈ Finset.Ico (head + 1 - size) (head + 1), chargedTo g history b =
      chargedWithin g size head history := by
  induction history with
  | nil => simp [chargedTo, chargedWithin]
  | cons s past ih =>
      have hpast : newest g past ≤ head := by
        rw [newest_cons] at h
        omega
      simp only [chargedTo, chargedWithin]
      rw [Finset.sum_add_distrib, ih hpast, Finset.sum_ite_eq]
      congr 1
      apply if_congr _ rfl rfl
      rw [Finset.mem_Ico]
      omega

theorem chargedWithin_eq_zero {history : List Sighting} {size head : Nat}
    (h : ∀ s ∈ history, s.bucket g + size ≤ head) : chargedWithin g size head history = 0 := by
  induction history with
  | nil => rfl
  | cons s past ih =>
      have hfar := newest_add_le (List.cons_ne_nil s past) h
      rw [chargedWithin, ih (List.forall_mem_cons.mp h).2, if_neg (by omega)]

/-- Events that all later ones have left a window behind count for nothing any more. -/
theorem chargedWithin_append {recent old : List Sighting} {size head : Nat}
    (hold : ∀ o ∈ old, o.bucket g + size ≤ head)
    (hrecent : ∀ e ∈ recent, ∀ o ∈ old, o.bucket g ≤ e.bucket g) :
    chargedWithin g size head (recent ++ old) = chargedWithin g size head recent := by
  induction recent with
  | nil => exact chargedWithin_eq_zero hold
  | cons e recent ih =>
      obtain ⟨he, hrest⟩ := List.forall_mem_cons.mp hrecent
      have hnewest : newest g (e :: recent ++ old) = newest g (e :: recent) := by
        have hle : newest g old ≤ e.bucket g := newest_le_iff.mpr he
        rw [newest_append, newest_cons]
        omega
      rw [List.cons_append] at hnewest ⊢
      rw [chargedWithin, chargedWithin, ih hrest, hnewest]

/-! ## Eviction -/

/-- What a slice has counted since it was last evicted. It is evicted after an event that moves the
newest bucket of all slices so far that the slice's head lies `size` buckets before the horizon. -/
def sinceEviction (g : BucketGrid) (size : Nat) (key : SliceKey) :
    List Sighting → List Sighting
  | [] => []
  | s :: past =>
    let live :=
      if s.key = key then s :: sinceEviction g size key past else sinceEviction g size key past
    if (∀ e ∈ past, e.bucket g < s.bucket g) ∧ size ≤ s.bucket g - size - newest g live then []
    else live

/-- All that a slice has ever counted. -/
def ofSlice (key : SliceKey) (history : List Sighting) : List Sighting :=
  history.filter fun s => s.key = key

/-- Every event of a slice is at most `size` buckets behind the newest bucket of all slices seen
before it. -/
def WithinReach (g : BucketGrid) (size : Nat) (key : SliceKey) : List Sighting → Prop
  | [] => True
  | s :: past =>
    (s.key = key → newest g past ≤ s.bucket g + size) ∧ WithinReach g size key past

instance WithinReach.decidable (g : BucketGrid) (size : Nat) (key : SliceKey) :
    (history : List Sighting) → Decidable (WithinReach g size key history)
  | [] => inferInstanceAs (Decidable True)
  | s :: past =>
    have := WithinReach.decidable g size key past
    inferInstanceAs (Decidable ((s.key = key → newest g past ≤ s.bucket g + size) ∧ _))

theorem ofSlice_cons_self (s : Sighting) (past : List Sighting) :
    ofSlice s.key (s :: past) = s :: ofSlice s.key past := by
  simp [ofSlice]

theorem ofSlice_cons_of_ne {s : Sighting} {key : SliceKey} (h : s.key ≠ key)
    (past : List Sighting) : ofSlice key (s :: past) = ofSlice key past := by
  simp [ofSlice, h]

/-- What evictions made a slice forget: all of it is at least two windows behind the newest bucket
and at least one window behind what the slice has counted since. -/
theorem exists_forgotten {size : Nat} (hsize : 0 < size) {key : SliceKey}
    {history : List Sighting} (hreach : WithinReach g size key history) :
    ∃ old, ofSlice key history = sinceEviction g size key history ++ old ∧
      (∀ o ∈ old, o.bucket g + 2 * size ≤ newest g history) ∧
      ∀ e ∈ sinceEviction g size key history, ∀ o ∈ old, o.bucket g + size ≤ e.bucket g := by
  induction history with
  | nil => exact ⟨[], rfl, by simp, by simp⟩
  | cons s past ih =>
      obtain ⟨hs, hpast⟩ := hreach
      obtain ⟨old, hsplit, hfar, hnear⟩ := ih hpast
      -- the split before the sweep; the sweep at most moves all of `live` to what is forgotten
      obtain ⟨live, hlive, hsplit', hnear'⟩ : ∃ live,
          live = (if s.key = key then s :: sinceEviction g size key past
            else sinceEviction g size key past) ∧
          ofSlice key (s :: past) = live ++ old ∧
          ∀ e ∈ live, ∀ o ∈ old, o.bucket g + size ≤ e.bucket g := by
        refine ⟨_, rfl, ?_, ?_⟩
        · split
          · next hkey => rw [← hkey, ofSlice_cons_self, hkey, hsplit, List.cons_append]
          · next hkey => rw [ofSlice_cons_of_ne hkey, hsplit]
        · intro e he o ho
          split at he
          · next hkey =>
            rcases List.mem_cons.mp he with rfl | he
            · have hbehind := hfar o ho
              have hreached := hs hkey
              omega
            · exact hnear e he o ho
          · exact hnear e he o ho
      have hnewest : newest g past ≤ newest g (s :: past) := by
        rw [newest_cons]
        exact Nat.le_max_right _ _
      rw [sinceEviction, ← hlive]
      split
      · next hevicted =>
        refine ⟨live ++ old, by rw [hsplit', List.nil_append], ?_, by simp⟩
        intro o ho
        rcases List.mem_append.mp ho with ho | ho
        · have hle : o.bucket g ≤ newest g live := bucket_le_newest ho
          have hs : s.bucket g ≤ newest g (s :: past) := bucket_le_newest List.mem_cons_self
          have hbound := hevicted.2
          omega
        · have hbehind := hfar o ho
          omega
      · exact ⟨old, hsplit', fun o ho => by have := hfar o ho; omega, hnear'⟩

/-- Within reach, a window over what is left since the last eviction is one over everything. -/
theorem windowSum_sinceEviction {size : Nat} (hsize : 0 < size) {s : Sighting}
    {past : List Sighting} (hreach : WithinReach g size s.key (s :: past)) :
    windowSum g size (s :: sinceEviction g size s.key past) =
      windowSum g size (ofSlice s.key (s :: past)) := by
  obtain ⟨hs, hpast⟩ := hreach
  obtain ⟨old, hsplit, hfar, hnear⟩ := exists_forgotten hsize hpast
  have hleft : ∀ o ∈ old, o.bucket g + size ≤ s.bucket g := by
    intro o ho
    have hbehind := hfar o ho
    have hreached := hs rfl
    omega
  have hrecent : ∀ e ∈ s :: sinceEviction g size s.key past, ∀ o ∈ old,
      o.bucket g ≤ e.bucket g := by
    intro e he o ho
    rcases List.mem_cons.mp he with rfl | he
    · have hgap := hleft o ho
      omega
    · have hgap := hnear e he o ho
      omega
  have hhead : newest g (ofSlice s.key (s :: past)) =
      newest g (s :: sinceEviction g size s.key past) := by
    have hold : newest g old ≤ s.bucket g := newest_le_iff.mpr fun o ho => by
      have := hleft o ho
      omega
    rw [ofSlice_cons_self, hsplit, ← List.cons_append, newest_append, newest_cons]
    omega
  unfold windowSum
  rw [hhead, ofSlice_cons_self, hsplit, ← List.cons_append, chargedWithin_append ?_ hrecent]
  intro o ho
  have hgap := hleft o ho
  rw [newest_cons]
  omega

end History

end CountAlarm
