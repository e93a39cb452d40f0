import CountAlarm.Proofs.Alerting.Requests
/-!
# Windows opened and evicted

A detector opens a window for a slice that has none and gives windows up in a sweep, where it counts
them. So without resets the windows that were ever opened are those that are left and those that
were counted as evicted: `opened_eq`.
-/

namespace CountAlarm

/-! ## Sizes of tables -/

namespace SliceTable

variable {α : Type}

theorem lookup_eq_none_of_lt {key : SliceKey} {e : SliceKey × α} {es : List (SliceKey × α)}
    (h : Ascending (e :: es)) (hlt : compare key e.1 = .lt) : lookup key (e :: es) = none := by
  cases hfound : lookup key (e :: es) with
  | none => rfl
  | some a =>
      have hmem : (key, a) ∈ e :: es := (get?_eq_some_iff ⟨e :: es, h⟩ key a).mp hfound
      have hself : compare key key = .lt := by
        rcases List.mem_cons.mp hmem with heq | hlater
        · rwa [← heq] at hlt
        · exact Std.TransCmp.lt_trans hlt ((List.pairwise_cons.mp h).1 _ hlater)
      rw [Std.ReflOrd.compare_self] at hself
      cases hself

theorem length_insertEntry (key : SliceKey) (a : α) {entries : List (SliceKey × α)}
    (h : Ascending entries) :
    (insertEntry key a entries).length =
      entries.length + if !(lookup key entries).isSome then 1 else 0 := by
  induction entries with
  | nil => rfl
  | cons e es ih =>
      unfold insertEntry
      split
      · next hlt =>
        rw [lookup_eq_none_of_lt h hlt]
        rfl
      · next heq =>
        have hkey : key = e.1 := Std.LawfulEqOrd.eq_of_compare heq
        rw [lookup_cons, if_pos hkey.symm]
        rfl
      · next hgt =>
        have hne : e.1 ≠ key := by
          rintro rfl
          rw [Std.ReflOrd.compare_self] at hgt
          cases hgt
        rw [lookup_cons, if_neg hne, List.length_cons, ih (List.pairwise_cons.mp h).2,
          List.length_cons, Nat.add_right_comm]

theorem size_insert (t : SliceTable α) (key : SliceKey) (a : α) :
    (t.insert key a).size = t.size + if !t.contains key then 1 else 0 :=
  length_insertEntry key a t.ascending

/-- A table falls into the entries that are kept and those that are not. -/
theorem size_filter_add_length_keys (t : SliceTable α) (gone : SliceKey → α → Bool) :
    (t.filter fun key a => !gone key a).size + (t.filter gone).keys.length = t.size := by
  have hsplit := t.entries.length_eq_length_filter_add fun e => gone e.1 e.2
  unfold keys size filter
  rw [List.length_map, hsplit, Nat.add_comm]

end SliceTable

/-! ## Windows opened and evicted -/

namespace Detector

section Evicted

variable {World : Type} (d : Detector) (key : SliceKey) (sum : Nat) (time : UInt64)
  (sink : Sink World) (world : World)

theorem evicted_noteLate (tick : Tick) :
    (d.noteLate key time tick).1.tally.evicted = d.tally.evicted := by
  unfold noteLate
  split <;> rfl

theorem evicted_detect :
    (d.detect key sum time sink world).detector.tally.evicted = d.tally.evicted := by
  unfold detect
  split
  · rfl
  · split
    · rfl
    · unfold fire
      simp only
      split <;> rfl

/-- A detector has given up some windows and counts them as evicted. -/
structure GivesUp (before after : Detector) (gone : Nat) : Prop where
  size : after.counts.windows.size + gone = before.counts.windows.size
  evicted : after.tally.evicted =
    if gone = 0 then before.tally.evicted else addCounters before.tally.evicted gone

theorem givesUp_evict : ∃ gone, d.GivesUp d.evict.1 gone := by
  unfold evict SliceCounts.evict
  cases d.counts.horizon with
  | none => exact ⟨0, rfl, rfl⟩
  | some horizon =>
      have hsize := d.counts.windows.size_filter_add_length_keys fun _ w => w.isStale horizon
      simp only
      generalize (d.counts.windows.filter fun _ w => w.isStale horizon).keys = stale at hsize ⊢
      cases stale with
      | nil => exact ⟨0, hsize, rfl⟩
      | cons key rest => exact ⟨(key :: rest).length, hsize, rfl⟩

variable {d sink world} in
theorem givesUp_observe {s : Sighting} {o : Observed World}
    (h : d.observe s.key s.amount s.time sink world = .ok o) :
    ∃ gone, (d.beforeSweep s sink world).detector.GivesUp o.detector gone := by
  obtain ⟨log, hobserve⟩ := observe_eq d s sink world (observes_of_observe h).1
  rw [hobserve] at h
  cases h
  simp only
  split
  · exact givesUp_evict _
  · exact ⟨0, rfl, rfl⟩

theorem size_beforeSweep (s : Sighting) :
    (d.beforeSweep s sink world).detector.counts.windows.size =
      d.counts.windows.size + if !d.counts.windows.contains s.key then 1 else 0 := by
  rw [beforeSweep_counts]
  exact SliceTable.size_insert d.counts.windows s.key (d.windowAfter s)

theorem evicted_beforeSweep (s : Sighting) :
    (d.beforeSweep s sink world).detector.tally.evicted = d.tally.evicted := by
  unfold beforeSweep
  rw [evicted_detect, evicted_noteLate]

end Evicted

end Detector

/-- A request has a window opened: it is an event, not before the start, of a slice that has none.
-/
def Replay.opens {World : Type} (r : Replay World) : Request → Bool
  | .observe s =>
    decide (r.detector.counts.grid.start ≤ s.time) && !r.detector.counts.windows.contains s.key
  | .reset => false

namespace Detector

variable {World : Type}

/-- How many windows some requests had opened. -/
def opened (d : Detector) (sink : Sink World) (world : World) : List Request → Nat
  | [] => 0
  | request :: past =>
    d.opened sink world past + if (d.serveAll sink world past).opens request then 1 else 0

/-- Without resets, every window that was opened is still there or was evicted. -/
theorem opened_eq (rule : AlertRule) (g : BucketGrid) (sink : Sink World) (world : World)
    {requests : List Request} (h : ∀ request ∈ requests, request ≠ .reset) :
    let d := ((start rule g).serveAll sink world requests).detector
    ∃ gone, (start rule g).opened sink world requests = d.counts.windows.size + gone ∧
      d.tally.evicted = min wordLimit gone := by
  induction requests with
  | nil => exact ⟨0, rfl, rfl⟩
  | cons request past ih =>
      obtain ⟨hrequest, hpast⟩ := List.forall_mem_cons.mp h
      obtain ⟨before, hopened, hevicted⟩ := ih hpast
      have hreflects := reflects_serveAll rule g sink world past
      cases request with
      | reset => exact absurd rfl hrequest
      | observe s =>
          rw [serveAll, Replay.serve, opened, hopened, Replay.opens, hreflects.grid_eq]
          by_cases hstart : g.start ≤ s.time
          · obtain ⟨o, hobserve, -, hfeed⟩ := Replay.feed_of_start_le sink hreflects hstart
            obtain ⟨gone, hsize, hcounted⟩ := givesUp_observe hobserve
            rw [size_beforeSweep] at hsize
            rw [evicted_beforeSweep, hevicted] at hcounted
            rw [hfeed]
            refine ⟨before + gone, ?_, ?_⟩
            · rw [decide_eq_true hstart, Bool.true_and, Nat.add_right_comm, ← hsize,
                Nat.add_assoc, Nat.add_comm gone]
            · rw [hcounted]
              unfold addCounters
              split <;> omega
          · rw [Replay.feed_of_lt_start sink hreflects hstart, decide_eq_false hstart,
              Bool.false_and]
            exact ⟨before, rfl, hevicted⟩

end Detector

end CountAlarm
