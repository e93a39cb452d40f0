import CountAlarm.Proofs.Pipeline.Accounts
/-!
# What becomes of events

What a configuration says about each event of a stream in any order, in terms of raw events: which
metrics it goes to, which of them drop it and why, and which alerts stay silent although the sum of
its slice exceeds their threshold. A pipeline that reflects the stream drops and suppresses just
these.
-/

namespace CountAlarm

open History

/-! ## Outcomes by configuration -/

namespace MetricConfig

variable (c : Config) (m : MetricConfig)

/-- Why a metric drops an event, if it is routed to it and dropped. -/
def drop? (e : Event) : Option DropCause :=
  if m.Routed c e then
    if c.start ≤ e.time then if m.projection.Covers e then none else some .missingField
    else some .beforeStart
  else none

/-- The sum that the slice of an event has with it, back to the last eviction of the slice, exceeds
the threshold of an alert. -/
def Exceeds (a : AlertConfig) (past : List Event) (e : Event) : Prop :=
  let g := m.gridOf c
  let span := (a.rule m.id).span
  let s : Sighting := ⟨m.projection.keyOf e, 1, e.time⟩
  a.threshold.toInt < windowSum g span (s :: sinceEviction g span s.key (m.sightings c past))

instance (a : AlertConfig) (past : List Event) (e : Event) : Decidable (m.Exceeds c a past e) :=
  inferInstanceAs (Decidable (_ < _))

/-- A counted event exceeds the threshold of an alert that is not among those it fired. -/
def Silent (a : AlertConfig) (past : List Event) (e : Event) (fired : List Alert) : Prop :=
  m.Counts c e ∧ m.Exceeds c a past e ∧ ∀ alert ∈ fired, alert.alertId ≠ a.id

instance (a : AlertConfig) (past : List Event) (e : Event) (fired : List Alert) :
    Decidable (m.Silent c a past e fired) :=
  inferInstanceAs (Decidable (_ ∧ _ ∧ _))

end MetricConfig

namespace Config

variable (c : Config)

/-- How many metrics drop the events of a stream for a cause, event by event. -/
def dropsFor (cause : DropCause) (events : List Event) : Nat :=
  (events.map fun e => c.metrics.countP fun m => m.drop? c e = some cause).sum

/-- How many alerts stay silent at an event. -/
def silentAt (past : List Event) (e : Event) (fired : List Alert) : Nat :=
  c.alerts.countP fun x => x.1.Silent c x.2 past e fired

/-- How many alerts stay silent in a run, event by event. -/
def silentIn : FiredRun → Nat
  | [] => 0
  | (e, fired) :: earlier => silentIn earlier + c.silentAt (earlier.map Prod.fst) e fired

end Config

/-! ## Suppressed detections -/

theorem AlertRule.isSuppressed_verdict_iff {rule : AlertRule} {s : Sighting} {sum quiet : Nat} :
    (rule.verdict s sum quiet).isSuppressed = true ↔
      rule.threshold.toInt < sum ∧ (rule.verdict s sum quiet).fired? = none := by
  unfold AlertRule.verdict
  by_cases hbelow : (sum : Int) ≤ rule.threshold.toInt
  · rw [if_pos hbelow]
    simp [Detection.isSuppressed, hbelow]
  · rw [if_neg hbelow]
    have hover : rule.threshold.toInt < sum := Int.not_le.mp hbelow
    split <;> simp [Detection.isSuppressed, Detection.fired?, hover]

/-- What can come of an event for an alert of a metric: nothing if it is not counted, else a
verdict. -/
def MetricConfig.MayJudge (c : Config) (m : MetricConfig) (a : AlertConfig) (past : List Event)
    (e : Event) : Option Detection → Prop
  | none => ¬m.Counts c e
  | some detection => m.Counts c e ∧ (a.rule m.id).Judges (m.gridOf c) (m.sightings c past)
      ⟨m.projection.keyOf e, 1, e.time⟩ detection

namespace MetricConfig.MayJudge

variable {c : Config} {m : MetricConfig} {a : AlertConfig} {past : List Event} {e : Event}
  {judged : Option Detection}

theorem alertId_eq (h : m.MayJudge c a past e judged) {alert : Alert}
    (halert : judged.bind Detection.fired? = some alert) : alert.alertId = a.id := by
  cases judged with
  | none => cases halert
  | some detection =>
      obtain ⟨quiet, hverdict⟩ := h.2.verdict
      rw [Option.bind_some, hverdict, AlertRule.fired?_verdict] at halert
      split at halert
      · cases halert
        rfl
      · cases halert

/-- An event is suppressed just when it is counted and exceeds the threshold but does not fire. -/
theorem isSuppressed_iff (h : m.MayJudge c a past e judged) :
    judged.any Detection.isSuppressed = true ↔
      m.Counts c e ∧ m.Exceeds c a past e ∧ judged.bind Detection.fired? = none := by
  cases judged with
  | none =>
      have hnot : ¬m.Counts c e := h
      simp [hnot]
  | some detection =>
      obtain ⟨hcounts, hjudges⟩ := h
      obtain ⟨quiet, hverdict⟩ := hjudges.verdict
      rw [Option.any_some, Option.bind_some, hverdict, AlertRule.isSuppressed_verdict_iff]
      exact ⟨fun hand => ⟨hcounts, hand⟩, fun hand => hand.2⟩

end MetricConfig.MayJudge

/-- Each detection on a counted event with the alert that it is for. -/
theorem MetricConfig.exists_judged {c : Config} {m : MetricConfig} {past : List Event} {e : Event}
    (hcounts : m.Counts c e) {alerts : List AlertConfig} {detections : List Detection}
    (h : List.Forall₂
      (fun a detection => (a.rule m.id).Judges (m.gridOf c) (m.sightings c past)
        ⟨m.projection.keyOf e, 1, e.time⟩ detection)
      alerts detections) :
    ∃ judged : List ((MetricConfig × AlertConfig) × Option Detection),
      judged.map Prod.fst = alerts.map (fun a => (m, a)) ∧
      detections = judged.filterMap Prod.snd ∧
      ∀ x ∈ judged, x.1.1.MayJudge c x.1.2 past e x.2 := by
  induction h with
  | nil => exact ⟨[], rfl, rfl, fun x hx => (List.not_mem_nil hx).elim⟩
  | @cons a detection alerts detections hjudges _ ih =>
      obtain ⟨judged, halerts, hdetections, hall⟩ := ih
      refine ⟨((m, a), some detection) :: judged, ?_, ?_, ?_⟩
      · rw [List.map_cons, List.map_cons, halerts]
      · rw [hdetections]
        rfl
      · exact List.forall_mem_cons.mpr ⟨⟨hcounts, hjudges⟩, hall⟩

theorem Metric.Reflects.exists_judged {metric : Metric} {c : Config} {m : MetricConfig}
    {past : List Event} (h : metric.Reflects c m past) {e : Event} {accepting : List UInt64}
    (haccepting : metric.matcherId ∈ accepting ↔ m.Routed c e) :
    ∃ judged : List ((MetricConfig × AlertConfig) × Option Detection),
      judged.map Prod.fst = m.alerts.map (fun a => (m, a)) ∧
      Pipeline.detectionsOf e accepting metric = judged.filterMap Prod.snd ∧
      ∀ x ∈ judged, x.1.1.MayJudge c x.1.2 past e x.2 := by
  unfold Pipeline.detectionsOf verdicts
  by_cases hcounts : m.Counts c e
  · obtain ⟨⟨detections, houtcome, hjudges⟩, -⟩ := Metric.handle_of_counts Sink.log () h hcounts
    rw [if_pos (haccepting.mpr hcounts.1), houtcome]
    exact MetricConfig.exists_judged hcounts hjudges
  · have hnone : (if metric.matcherId ∈ accepting then
        detectionsIn (metric.handle e Sink.log ()).outcome else []) = [] := by
      split
      · next haccepted =>
        have hrest : ¬(c.start ≤ e.time ∧ m.projection.Covers e) := fun hrest =>
          hcounts ⟨haccepting.mp haccepted, hrest⟩
        rw [(Metric.handle_of_not Sink.log () h hrest).1]
        rfl
      · rfl
    refine ⟨m.alerts.map fun a => ((m, a), none), ?_, ?_, ?_⟩
    · rw [List.map_map]
      rfl
    · rw [hnone, eq_comm, List.filterMap_eq_nil_iff, List.forall_mem_map]
      exact fun _ _ => rfl
    · rw [List.forall_mem_map]
      exact fun a _ => hcounts

namespace Pipeline

variable {World : Type} {p : Pipeline World} {c : Config} {past : List Event}

/-- The detections on an event, each with the alert that it is for. -/
theorem Reflects.exists_judged (h : p.Reflects c past) (e : Event) :
    ∃ judged : List ((MetricConfig × AlertConfig) × Option Detection),
      judged.map Prod.fst = c.alerts ∧ p.detections e = judged.filterMap Prod.snd ∧
      ∀ x ∈ judged, x.1.1.MayJudge c x.1.2 past e x.2 := by
  have haccepting : ∀ (m : MetricConfig) (metric : Metric), metric.Reflects c m past →
      (metric.matcherId ∈ p.accepting e ↔ m.Routed c e) :=
    fun _ _ hm => h.mem_accepting_iff hm e
  have hmetrics := h.metrics
  unfold Config.alerts detections
  generalize p.metrics = metrics at hmetrics
  generalize c.metrics = configs at hmetrics
  induction hmetrics with
  | nil => exact ⟨[], rfl, rfl, fun x hx => (List.not_mem_nil hx).elim⟩
  | @cons m metric configs metrics hm _ ih =>
      obtain ⟨judged, halerts, hdetections, hall⟩ := hm.exists_judged (haccepting m metric hm)
      obtain ⟨others, halerts', hdetections', hall'⟩ := ih
      refine ⟨judged ++ others, ?_, ?_, List.forall_mem_append.mpr ⟨hall, hall'⟩⟩
      · rw [List.map_append, halerts, halerts', List.flatMap_cons]
      · rw [List.flatMap_cons, hdetections, hdetections', List.filterMap_append]

/-- The suppressed detections on an event are those of the alerts that stay silent. -/
theorem Reflects.countP_isSuppressed (h : p.Reflects c past) (hsound : c.Sound) (e : Event) :
    (p.detections e).countP Detection.isSuppressed =
      c.silentAt past e (alertsOf (p.detections e)) := by
  obtain ⟨judged, halerts, hdetections, hall⟩ := h.exists_judged e
  have hnodup : (judged.map fun x => x.1.2.id).Nodup := by
    have hids := Config.nodup_alerts hsound
    rw [← halerts, List.map_map] at hids
    exact hids
  have hfired : alertsOf (p.detections e) =
      judged.filterMap fun x => x.2.bind Detection.fired? := by
    rw [hdetections, alertsOf, List.filterMap_filterMap]
  unfold Config.silentAt
  rw [hfired, ← halerts, List.countP_map, hdetections, List.countP_filterMap]
  apply List.countP_congr
  intro x hx
  -- numbers differ, so the alerts with a number can only come from its own detection
  have hown := filter_alertId hnodup (fun y hy _ halert => (hall y hy).alertId_eq halert) hx
  have hunfired : x.2.bind Detection.fired? = none ↔
      ∀ alert ∈ judged.filterMap fun x => x.2.bind Detection.fired?, alert.alertId ≠ x.1.2.id := by
    rw [← Option.toList_eq_nil_iff, ← hown, List.filter_eq_nil_iff]
    simp only [decide_eq_true_iff, ne_eq]
  have hany : (x.2.map Detection.isSuppressed).getD false = x.2.any Detection.isSuppressed := by
    cases x.2 <;> rfl
  rw [hany, (hall x hx).isSuppressed_iff, hunfired]
  exact decide_eq_true_iff.symm

theorem map_fst_fired (p : Pipeline World) (world : World) (events : List Event) :
    (p.play world events).fired.map Prod.fst = events := by
  induction events with
  | nil => rfl
  | cons e past ih => rw [play, List.map_cons, ih]

theorem Reflects.countP_allDetections (h : p.Reflects c []) (hsound : c.Sound) (world : World)
    (events : List Event) :
    (p.allDetections world events).countP Detection.isSuppressed =
      c.silentIn (p.play world events).fired := by
  induction events with
  | nil => rfl
  | cons e past ih =>
      rw [allDetections, List.countP_append, ih, Pipeline.play, Config.silentIn, map_fst_fired,
        fired_eq_alertsOf, (h.play world past).countP_isSuppressed hsound]

/-! ## Drops -/

theorem Reflects.drop?_eq (h : p.Reflects c past) {m : MetricConfig} {metric : Metric}
    (hm : metric.Reflects c m past) (e : Event) :
    m.drop? c e =
      if metric.matcherId ∈ p.accepting e then dropIn? (metric.verdicts e) else none := by
  unfold MetricConfig.drop? Metric.verdicts
  by_cases hrouted : m.Routed c e
  · rw [if_pos hrouted, if_pos ((h.mem_accepting_iff hm e).mpr hrouted)]
    by_cases hrest : c.start ≤ e.time ∧ m.projection.Covers e
    · obtain ⟨⟨detections, houtcome, -⟩, -⟩ :=
        Metric.handle_of_counts Sink.log () hm ⟨hrouted, hrest⟩
      rw [if_pos hrest.1, if_pos hrest.2, houtcome, dropIn?]
    · rw [(Metric.handle_of_not Sink.log () hm hrest).1, dropIn?]
      split
      · next hstart => rw [if_neg fun hcovers => hrest ⟨hstart, hcovers⟩]
      · rfl
  · rw [if_neg hrouted, if_neg fun hmem => hrouted ((h.mem_accepting_iff hm e).mp hmem)]

theorem Reflects.drops_handleAll (h : p.Reflects c past) (e : Event) (world : World) :
    (handleAll p.sink e (p.accepting e) p.metrics world).drops =
      c.metrics.filterMap fun m => m.drop? c e := by
  have hmap := map_eq_of_forall₂ h.metrics fun _ _ hm => h.drop?_eq hm e
  have hdrops := congrArg (List.filterMap id) hmap
  rw [List.filterMap_map, List.filterMap_map] at hdrops
  rw [Pipeline.drops_handleAll]
  exact hdrops.symm

end Pipeline

end CountAlarm
