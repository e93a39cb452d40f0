import CountAlarm.Counting.SliceCounts
import CountAlarm.Proofs.Counting.History
/-!
# Counts after steps

Counts are led by steps: an event is counted, windows are given up, or everything is forgotten. Like
a history, steps are listed with the latest first, and `counted` is the history of what was counted
since everything was last forgotten. After any steps the counts `Follow` this history: the newest
bucket is that of the history, and every window shows some totals and has its head at the bucket of
one of the slice's own events.
-/

namespace CountAlarm.SliceCounts

open History

/-! ## Steps -/

/-- What can be done to counts. -/
inductive Step where
  | count (s : Sighting)
  | evict
  | clear
deriving DecidableEq, Repr

/-- Takes a step. An event before the start of the grid is refused and changes nothing. -/
def take (c : SliceCounts) : Step → SliceCounts
  | .count s =>
    match c.count s.key s.amount s.time with
    | .error _ => c
    | .ok (_, after) => after
  | .evict => c.evict.2
  | .clear => c.clear

/-- Counts after some steps, of which the latest stands first. -/
def takeAll (c : SliceCounts) : List Step → SliceCounts
  | [] => c
  | step :: past => (c.takeAll past).take step

/-- What was counted since everything was last forgotten. -/
def counted (g : BucketGrid) : List Step → List Sighting
  | [] => []
  | .count s :: past => if g.start ≤ s.time then s :: counted g past else counted g past
  | .evict :: past => counted g past
  | .clear :: _ => []

theorem start_le_of_mem_counted {g : BucketGrid} {steps : List Step} {s : Sighting}
    (h : s ∈ counted g steps) : g.start ≤ s.time := by
  induction steps with
  | nil => cases h
  | cons step past ih =>
      cases step with
      | evict => exact ih h
      | clear => cases h
      | count e =>
          rw [counted] at h
          split at h
          · next he =>
            rcases List.mem_cons.mp h with rfl | h
            · exact he
            · exact ih h
          · exact ih h

/-! ## What a step does -/

section Steps

variable (c : SliceCounts) (key : SliceKey) (amount : Int)

theorem newest_countIn (bucket : Nat) :
    (c.countIn key amount bucket).2.newest = some (max bucket (c.newest.getD 0)) := by
  unfold countIn
  cases c.newest with
  | none => simp
  | some newest =>
      by_cases h : newest < bucket
      · simp [h, Nat.max_eq_left (Nat.le_of_lt h)]
      · simp [h, Nat.max_eq_right (Nat.le_of_not_lt h)]

/-- The window of a slice after an event in a bucket. -/
def windowAfter (bucket : Nat) : Window :=
  ((c.windowOr key bucket).advance bucket).add amount

theorem head_windowAfter (bucket : Nat) :
    (c.windowAfter key amount bucket).head = max (c.windowOr key bucket).head bucket := by
  rw [windowAfter, Window.head_add, Window.head_advance]

theorem get?_countIn (bucket : Nat) (other : SliceKey) :
    (c.countIn key amount bucket).2.windows.get? other =
      if other = key then some (c.windowAfter key amount bucket) else c.windows.get? other :=
  SliceTable.get?_insert c.windows key _ other

theorem count_of_start_le {time : UInt64} (h : c.grid.start ≤ time) :
    c.count key amount time = .ok (c.countIn key amount (c.grid.bucketAt time)) := by
  unfold count
  rw [BucketGrid.bucketOf?_of_start_le h]

theorem count_of_lt_start {time : UInt64} (h : ¬c.grid.start ≤ time) :
    c.count key amount time = .error .beforeStart := by
  unfold count
  rw [BucketGrid.bucketOf?_of_lt_start h]

theorem grid_evict : c.evict.2.grid = c.grid := by
  unfold evict
  split <;> rfl

theorem newest_evict : c.evict.2.newest = c.newest := by
  unfold evict
  split <;> rfl

/-- A sweep leaves windows as they are or gives them up. -/
theorem get?_of_get?_evict {w : Window} (h : c.evict.2.windows.get? key = some w) :
    c.windows.get? key = some w := by
  unfold evict at h
  split at h
  · exact h
  · rw [SliceTable.get?_filter, Option.filter_eq_some_iff] at h
    exact h.1

end Steps

/-! ## Counts and their history -/

/-- Counts are in a state that a history leads to, whatever was given up on the way. -/
structure Follows (c : SliceCounts) (g : BucketGrid) (history : List Sighting) : Prop where
  grid_eq : c.grid = g
  newest_eq : c.newest = newest? g history
  totals : ∀ key w, c.windows.get? key = some w → ∃ totals, w.Holds totals
  head : ∀ key w, c.windows.get? key = some w →
    ∃ s ∈ history, s.key = key ∧ s.bucket g = w.head

variable {c : SliceCounts} {g : BucketGrid} {history : List Sighting}

theorem follows_start (g : BucketGrid) (span : Nat) : (start g span).Follows g [] where
  grid_eq := rfl
  newest_eq := rfl
  totals _ _ h := by cases h
  head _ _ h := by cases h

theorem Follows.head_le (h : c.Follows g history) {key : SliceKey} {w : Window}
    (hw : c.windows.get? key = some w) : w.head ≤ History.newest g history := by
  obtain ⟨s, hs, -, hbucket⟩ := h.head key w hw
  rw [← hbucket]
  exact bucket_le_newest hs

theorem Follows.count_of_start_le (h : c.Follows g history) {s : Sighting}
    (hs : g.start ≤ s.time) :
    c.count s.key s.amount s.time = .ok (c.countIn s.key s.amount (s.bucket g)) := by
  rw [SliceCounts.count_of_start_le c s.key s.amount (h.grid_eq.symm ▸ hs), h.grid_eq]
  rfl

theorem Follows.count_of_lt_start (h : c.Follows g history) {s : Sighting}
    (hs : ¬g.start ≤ s.time) : c.count s.key s.amount s.time = .error .beforeStart :=
  SliceCounts.count_of_lt_start c s.key s.amount (h.grid_eq.symm ▸ hs)

/-- A new window shows totals that are all zero, and every other one shows those it had. -/
theorem Follows.exists_holds_windowOr (h : c.Follows g history) (key : SliceKey) (bucket : Nat) :
    ∃ totals, (c.windowOr key bucket).Holds totals := by
  unfold windowOr
  cases hw : c.windows.get? key with
  | none => exact ⟨_, Window.holds_zero c.span bucket⟩
  | some w => exact h.totals key w hw

/-- A window has its head where an event of the slice has put it, be it the one that opens it. -/
theorem Follows.exists_head_windowOr (h : c.Follows g history) (s : Sighting) :
    ∃ e ∈ s :: history, e.key = s.key ∧
      e.bucket g = (c.windowOr s.key (s.bucket g)).head := by
  unfold windowOr
  cases hw : c.windows.get? s.key with
  | none => exact ⟨s, List.mem_cons_self, rfl, rfl⟩
  | some w =>
      obtain ⟨e, he, hkey, hbucket⟩ := h.head s.key w hw
      exact ⟨e, List.mem_cons_of_mem s he, hkey, hbucket⟩

theorem Follows.countIn (h : c.Follows g history) (s : Sighting) :
    (c.countIn s.key s.amount (s.bucket g)).2.Follows g (s :: history) where
  grid_eq := h.grid_eq
  newest_eq := by
    rw [newest_countIn, h.newest_eq, newest?_cons, newest_cons]
    rfl
  totals key w hw := by
    rw [get?_countIn] at hw
    split at hw
    · cases hw
      obtain ⟨totals, hbefore⟩ := h.exists_holds_windowOr s.key (s.bucket g)
      exact ⟨_, (hbefore.advance _).add s.amount⟩
    · exact h.totals key w hw
  head key w hw := by
    rw [get?_countIn] at hw
    split at hw
    · next hkey =>
      cases hw
      rw [hkey, head_windowAfter]
      rcases Nat.le_total (c.windowOr s.key (s.bucket g)).head (s.bucket g) with hle | hle
      · rw [Nat.max_eq_right hle]
        exact ⟨s, List.mem_cons_self, rfl, rfl⟩
      · rw [Nat.max_eq_left hle]
        exact h.exists_head_windowOr s
    · obtain ⟨e, he, hekey, hbucket⟩ := h.head key w hw
      exact ⟨e, List.mem_cons_of_mem s he, hekey, hbucket⟩

theorem Follows.evict (h : c.Follows g history) : c.evict.2.Follows g history where
  grid_eq := c.grid_evict.trans h.grid_eq
  newest_eq := c.newest_evict.trans h.newest_eq
  totals key w hw := h.totals key w (c.get?_of_get?_evict key hw)
  head key w hw := h.head key w (c.get?_of_get?_evict key hw)

theorem Follows.clear (h : c.Follows g history) : c.clear.Follows g [] where
  grid_eq := h.grid_eq
  newest_eq := rfl
  totals _ _ hw := by cases hw
  head _ _ hw := by cases hw

/-! ## Runs -/

theorem Follows.take {steps : List Step} (h : c.Follows g (counted g steps)) (step : Step) :
    (c.take step).Follows g (counted g (step :: steps)) := by
  cases step with
  | evict => exact h.evict
  | clear => exact h.clear
  | count s =>
      rw [SliceCounts.take, counted]
      by_cases hs : g.start ≤ s.time
      · rw [h.count_of_start_le hs, if_pos hs]
        exact h.countIn s
      · rw [h.count_of_lt_start hs, if_neg hs]
        exact h

theorem follows_takeAll (g : BucketGrid) (span : Nat) (steps : List Step) :
    ((start g span).takeAll steps).Follows g (counted g steps) := by
  induction steps with
  | nil => exact follows_start g span
  | cons step past ih => exact ih.take step

end CountAlarm.SliceCounts
