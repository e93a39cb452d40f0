import CountAlarm.Proofs.Pipeline.Sightings
import CountAlarm.Proofs.Setup.Soundness
/-!
# The run of a configuration, slice by slice

The alerts that a sound configuration asks for are those that its slices would fire alone. Numbers
of alerts differ, so the earlier alerts with a number and a slice are the firings of that slice for
that rule: `secondsOf_run`.
-/

namespace CountAlarm

open History

/-! ## Earlier alerts -/

/-- The seconds of the events that fired an alert with a number for a slice. -/
def secondsOf (run : FiredRun) (id : UInt64) (key : SliceKey) : List Nat :=
  run.flatMap fun p =>
    (p.2.filter fun alert => alert.alertId = id ∧ alert.slice = key).map fun _ => p.1.second

theorem mem_secondsOf {run : FiredRun} {id : UInt64} {key : SliceKey} {second : Nat} :
    second ∈ secondsOf run id key ↔
      ∃ p ∈ run, ∃ alert ∈ p.2, (alert.alertId = id ∧ alert.slice = key) ∧ p.1.second = second := by
  simp only [secondsOf, List.mem_flatMap, List.mem_map, List.mem_filter, decide_eq_true_iff,
    and_assoc]

namespace MetricConfig

theorem unhindered_iff {m : MetricConfig} {a : AlertConfig} {run : FiredRun} {e : Event} :
    m.Unhindered a run e ↔ ∀ fired ∈ secondsOf run a.id (m.projection.keyOf e),
      fired + a.refractorySeconds.toNat + 1 ≤ e.second := by
  constructor
  · intro h fired hfired
    obtain ⟨p, hp, alert, halert, ⟨hid, hslice⟩, rfl⟩ := mem_secondsOf.mp hfired
    exact Nat.le_of_not_lt (h p hp alert halert hid hslice)
  · intro h p hp alert halert hid hslice
    exact Nat.not_lt_of_le
      (h _ (mem_secondsOf.mpr ⟨p, hp, alert, halert, ⟨hid, hslice⟩, rfl⟩))

/-! ## One alert -/

/-- The alert that the slice of an event would fire alone. -/
def soloAlert? (c : Config) (m : MetricConfig) (a : AlertConfig) (past : List Event) (e : Event) :
    Option Alert :=
  (m.sighting? c e).bind fun s =>
    ((a.rule m.id).soloVerdict (m.gridOf c) s (ofSlice s.key (m.sightings c past))).fired?

theorem soloAlert?_of_counts {c : Config} {m : MetricConfig} {e : Event} (h : m.Counts c e)
    (a : AlertConfig) (past : List Event) :
    m.soloAlert? c a past e = ((a.rule m.id).soloVerdict (m.gridOf c)
      ⟨m.projection.keyOf e, 1, e.time⟩
      (ofSlice (m.projection.keyOf e) (m.sightings c past))).fired? := by
  unfold soloAlert?
  rw [sighting?_of_counts h]
  rfl

theorem soloAlert?_of_not {c : Config} {m : MetricConfig} {e : Event} (h : ¬m.Counts c e)
    (a : AlertConfig) (past : List Event) : m.soloAlert? c a past e = none := by
  unfold soloAlert? sighting?
  rw [if_neg h]
  rfl

theorem of_soloAlert? {c : Config} {m : MetricConfig} {a : AlertConfig} {past : List Event}
    {e : Event} {alert : Alert} (h : m.soloAlert? c a past e = some alert) :
    alert.alertId = a.id ∧ alert.slice = m.projection.keyOf e := by
  by_cases hcounts : m.Counts c e
  · rw [soloAlert?_of_counts hcounts, AlertRule.soloVerdict, AlertRule.fired?_verdict] at h
    split at h
    · cases h
      exact ⟨rfl, rfl⟩
    · cases h
  · rw [soloAlert?_of_not hcounts] at h
    cases h

theorem alert?_eq_soloAlert? {c : Config} {m : MetricConfig} {a : AlertConfig} {run : FiredRun}
    {past : List Event} {e : Event} (hvalid : m.validate = .ok ()) (ha : a ∈ m.alerts)
    (hsorted : (e :: past).Pairwise fun late early => early.time ≤ late.time)
    (hlength : (e :: past).length ≤ countLimit)
    (hrun : ∀ key, secondsOf run a.id key =
      (a.rule m.id).fires (m.gridOf c) (ofSlice key (m.sightings c past))) :
    m.alert? c a run past e = m.soloAlert? c a past e := by
  by_cases hcounts : m.Counts c e
  · obtain ⟨⟨width, hwidth, hpos⟩, hbuckets⟩ := of_validate hvalid
    have hspan : (a.rule m.id).span = a.buckets.toNat := Nat.max_eq_left (hbuckets a ha)
    have hsum := windowSum_sightings hwidth hpos hcounts hsorted hlength a.buckets.toNat
    rw [sightings_cons_of_counts hcounts,
      ofSlice_cons_self ⟨m.projection.keyOf e, 1, e.time⟩] at hsum
    have hfree : m.Unhindered a run e ↔ (a.rule m.id).quietUntil ((a.rule m.id).fires (m.gridOf c)
        (ofSlice (m.projection.keyOf e) (m.sightings c past))) ≤ e.second := by
      rw [unhindered_iff, hrun]
      exact (AlertRule.quietUntil_le_iff (AlertRule.pairwise_fires _ _ _)).symm
    rw [soloAlert?_of_counts hcounts, AlertRule.soloVerdict, hspan, hsum, AlertRule.fired?_verdict]
    refine if_congr ⟨?_, ?_⟩ rfl rfl
    · rintro ⟨-, hover, hunhindered⟩
      exact ⟨hover, hfree.mp hunhindered⟩
    · rintro ⟨hover, hquiet⟩
      exact ⟨hcounts, hover, hfree.mpr hquiet⟩
  · rw [soloAlert?_of_not hcounts, alert?, if_neg fun h => hcounts h.1]

end MetricConfig

/-! ## All alerts -/

/-- If the sources of alerts have numbers of their own, the alerts with the number of one of them
are its own. -/
theorem filter_alertId {α : Type} {id : α → UInt64} {alert? : α → Option Alert} {sources : List α}
    (hnodup : (sources.map id).Nodup)
    (hid : ∀ x ∈ sources, ∀ alert, alert? x = some alert → alert.alertId = id x) {x : α}
    (hx : x ∈ sources) :
    (sources.filterMap alert?).filter (fun alert => alert.alertId = id x) = (alert? x).toList := by
  induction sources with
  | nil => exact (List.not_mem_nil hx).elim
  | cons y rest ih =>
      obtain ⟨hy, hrest⟩ := List.nodup_cons.mp hnodup
      obtain ⟨hidy, hidrest⟩ := List.forall_mem_cons.mp hid
      have hsplit : (List.filterMap alert? (y :: rest)).filter (fun alert => alert.alertId = id x) =
          (alert? y).toList.filter (fun alert => alert.alertId = id x) ++
            (rest.filterMap alert?).filter (fun alert => alert.alertId = id x) := by
        cases halert : alert? y with
        | none => rw [List.filterMap_cons_none halert]; rfl
        | some alert =>
            rw [List.filterMap_cons_some halert, Option.toList_some, ← List.filter_append]
            rfl
      rw [hsplit]
      rcases List.mem_cons.mp hx with rfl | hx
      · have hothers : (rest.filterMap alert?).filter (fun alert => alert.alertId = id x) = [] := by
          rw [List.filter_eq_nil_iff]
          intro alert halert
          obtain ⟨z, hz, hsome⟩ := List.mem_filterMap.mp halert
          rw [decide_eq_true_iff, hidrest z hz alert hsome]
          intro hsame
          exact hy (hsame ▸ List.mem_map_of_mem hz)
        have hown : (alert? x).toList.filter (fun alert => alert.alertId = id x) =
            (alert? x).toList := by
          rw [List.filter_eq_self]
          intro alert halert
          exact decide_eq_true (hidy alert (Option.mem_toList.mp halert))
        rw [hothers, hown, List.append_nil]
      · have hother : (alert? y).toList.filter (fun alert => alert.alertId = id x) = [] := by
          rw [List.filter_eq_nil_iff]
          intro alert halert
          rw [decide_eq_true_iff, hidy alert (Option.mem_toList.mp halert)]
          intro hsame
          exact hy (hsame ▸ List.mem_map_of_mem hx)
        rw [hother, List.nil_append]
        exact ih hrest hidrest hx

private theorem map_filter_slice {alert? : Option Alert} {key : SliceKey}
    (h : ∀ alert, alert? = some alert → alert.slice = key) (other : SliceKey) (second : Nat) :
    ((alert?.toList.filter fun alert => alert.slice = other).map fun _ => second) =
      if key = other ∧ alert?.isSome then [second] else [] := by
  cases alert? with
  | none => simp
  | some alert =>
      have hslice := h alert rfl
      by_cases hkey : key = other <;> simp [hslice, hkey]

namespace Config

/-- The alerts that the slices of an event would fire alone. -/
def soloAlertsAt (c : Config) (past : List Event) (e : Event) : List Alert :=
  c.metrics.flatMap fun m => m.alerts.filterMap fun a => m.soloAlert? c a past e

/-- All alerts, each with its metric. -/
def alerts (c : Config) : List (MetricConfig × AlertConfig) :=
  c.metrics.flatMap fun m => m.alerts.map fun a => (m, a)

theorem nodup_alerts {c : Config} (hsound : c.Sound) : (c.alerts.map fun x => x.2.id).Nodup := by
  have hids := hsound.alertIds
  unfold alerts
  rw [List.map_flatMap]
  simp only [List.map_map]
  exact hids

theorem filter_soloAlertsAt {c : Config} (hsound : c.Sound) {m : MetricConfig} (hm : m ∈ c.metrics)
    {a : AlertConfig} (ha : a ∈ m.alerts) (past : List Event) (e : Event) :
    (c.soloAlertsAt past e).filter (fun alert => alert.alertId = a.id) =
      (m.soloAlert? c a past e).toList := by
  have halerts : c.soloAlertsAt past e =
      c.alerts.filterMap fun x => x.1.soloAlert? c x.2 past e := by
    unfold soloAlertsAt alerts
    rw [List.filterMap_flatMap]
    simp only [List.filterMap_map]
    rfl
  have hmem : (m, a) ∈ c.alerts :=
    List.mem_flatMap.mpr ⟨m, hm, List.mem_map_of_mem ha⟩
  rw [halerts]
  exact filter_alertId (nodup_alerts hsound)
    (fun x _ alert halert => (MetricConfig.of_soloAlert? halert).1) hmem

theorem alertsAt_eq_soloAlertsAt {c : Config} (hsound : c.Sound) {past : List Event} {e : Event}
    (hsorted : (e :: past).Pairwise fun late early => early.time ≤ late.time)
    (hlength : (e :: past).length ≤ countLimit)
    (hrun : ∀ m ∈ c.metrics, ∀ a ∈ m.alerts, ∀ key, secondsOf (c.run past) a.id key =
      (a.rule m.id).fires (m.gridOf c) (ofSlice key (m.sightings c past))) :
    c.alertsAt (c.run past) past e = c.soloAlertsAt past e := by
  unfold alertsAt soloAlertsAt
  apply List.flatMap_congr
  intro m hm
  apply List.filterMap_congr
  intro a ha
  exact MetricConfig.alert?_eq_soloAlert? (hsound.metric m hm) ha hsorted hlength (hrun m hm a ha)

/-- The earlier alerts of a slice are the firings that keep it quiet. -/
theorem secondsOf_run {c : Config} (hsound : c.Sound) {events : List Event}
    (hsorted : events.Pairwise fun late early => early.time ≤ late.time)
    (hlength : events.length ≤ countLimit) :
    ∀ m ∈ c.metrics, ∀ a ∈ m.alerts, ∀ key, secondsOf (c.run events) a.id key =
      (a.rule m.id).fires (m.gridOf c) (ofSlice key (m.sightings c events)) := by
  induction events with
  | nil => exact fun m _ a _ key => rfl
  | cons e past ih =>
      intro m hm a ha key
      have hpast := ih (List.pairwise_cons.mp hsorted).2 (Nat.le_of_succ_le hlength)
      have hstep : secondsOf (c.run (e :: past)) a.id key =
          (if m.projection.keyOf e = key ∧ (m.soloAlert? c a past e).isSome then [e.second]
            else []) ++ secondsOf (c.run past) a.id key := by
        rw [← map_filter_slice fun _ halert => (MetricConfig.of_soloAlert? halert).2,
          ← filter_soloAlertsAt hsound hm ha, List.filter_filter,
          ← alertsAt_eq_soloAlertsAt hsound hsorted hlength hpast]
        simp only [secondsOf, run, List.flatMap_cons, Bool.decide_and, Bool.and_comm]
      rw [hstep, hpast m hm a ha key]
      by_cases hcounts : m.Counts c e
      · rw [MetricConfig.sightings_cons_of_counts hcounts,
          MetricConfig.soloAlert?_of_counts hcounts]
        by_cases hkey : m.projection.keyOf e = key
        · subst hkey
          rw [ofSlice_cons_self ⟨m.projection.keyOf e, 1, e.time⟩, AlertRule.fires_cons]
          simp only [true_and]
          split <;> rfl
        · rw [if_neg fun hand => hkey hand.1,
            ofSlice_cons_of_ne (s := ⟨m.projection.keyOf e, 1, e.time⟩) hkey]
          rfl
      · rw [MetricConfig.sightings_cons_of_not hcounts, MetricConfig.soloAlert?_of_not hcounts,
          if_neg fun hand => Bool.false_ne_true hand.2]
        rfl

/-- What a sound configuration asks for is what its slices would fire alone. -/
theorem run_cons_eq {c : Config} (hsound : c.Sound) {past : List Event} {e : Event}
    (hsorted : (e :: past).Pairwise fun late early => early.time ≤ late.time)
    (hlength : (e :: past).length ≤ countLimit) :
    c.run (e :: past) = (e, c.soloAlertsAt past e) :: c.run past := by
  have hpast := secondsOf_run hsound (List.pairwise_cons.mp hsorted).2 (Nat.le_of_succ_le hlength)
  rw [run, alertsAt_eq_soloAlertsAt hsound hsorted hlength hpast]

end Config

end CountAlarm
