import CountAlarm.Proofs.Setup.Soundness
import Mathlib.Data.List.Duplicate
import Mathlib.Data.List.Flatten
import Mathlib.Data.Option.Basic
/-!
# What validation accepts

`WellFormed` says what a configuration has to be like, with no order of checks. `Breach` lists the
ways not to be like that, each with the rejection that names a part which has to do with it.
Validation accepts the well-formed configurations and answers any other one with one of its
breaches: `validate_eq_ok_iff_wellFormed`.
-/

namespace CountAlarm

/-! ## Alerts -/

namespace AlertConfig

/-- The length of the window and the threshold are within their limits. -/
structure InLimits (a : AlertConfig) : Prop where
  some_buckets : 1 ≤ a.buckets.toNat
  few_buckets : a.buckets.toNat ≤ 10000
  threshold : 0 ≤ a.threshold.toInt

/-- What is wrong with an alert by itself. -/
inductive Breach (a : AlertConfig) : Fault → Prop where
  | noBuckets : a.buckets.toNat < 1 → Breach a .noBuckets
  | tooManyBuckets : 10000 < a.buckets.toNat → Breach a .tooManyBuckets
  | negativeThreshold : a.threshold.toInt < 0 → Breach a .negativeThreshold

variable {a : AlertConfig}

theorem InLimits.not_breach (h : a.InLimits) (fault : Fault) : ¬a.Breach fault := by
  rintro (hfew | hmany | hnegative)
  · exact Nat.not_le_of_lt hfew h.some_buckets
  · exact Nat.not_le_of_lt hmany h.few_buckets
  · exact Int.not_le_of_gt hnegative h.threshold

theorem inLimits_of_validate (h : a.validate = .ok ()) : a.InLimits := by
  unfold validate at h
  split at h
  · cases h
  · next hsome =>
    split at h
    · cases h
    · next hfew =>
      split at h
      · cases h
      · next hthreshold =>
        exact ⟨Nat.le_of_not_lt hsome, Nat.le_of_not_lt hfew, Int.not_lt.mp hthreshold⟩

theorem breach_of_validate {r : Rejection} (h : a.validate = .error r) :
    ∃ fault, r = ⟨.alert, a.id, fault⟩ ∧ a.Breach fault := by
  unfold validate at h
  split at h
  · next hnone =>
    cases h
    exact ⟨_, rfl, .noBuckets hnone⟩
  · split at h
    · next hmany =>
      cases h
      exact ⟨_, rfl, .tooManyBuckets hmany⟩
    · split at h
      · next hnegative =>
        cases h
        exact ⟨_, rfl, .negativeThreshold hnegative⟩
      · cases h

end AlertConfig

/-! ## Metrics -/

namespace MetricConfig

/-- There is a width of the buckets, in nanoseconds or else by a unit, and it is not zero. -/
def HasWidth (m : MetricConfig) : Prop :=
  ∃ width, (m.width = some width ∨ m.width = none ∧ m.unit.map TimeUnit.nanos = some width) ∧
    0 < width.toNat

/-- What is wrong with the width of a metric. -/
inductive Breach (m : MetricConfig) : Fault → Prop where
  | noWidth : m.width = none → m.unit = none → Breach m .noBucketSize
  | zeroWidth : m.width = some 0 → Breach m .zeroBucketSize

variable {m : MetricConfig}

theorem HasWidth.not_breach (h : m.HasWidth) (fault : Fault) : ¬m.Breach fault := by
  obtain ⟨width, hwidth, hpos⟩ := h
  rintro (⟨hwidth', hunit⟩ | hzero)
  · simp [hwidth', hunit] at hwidth
  · simp only [hzero, reduceCtorEq, false_and, or_false, Option.some.injEq] at hwidth
    rw [← hwidth] at hpos
    exact absurd hpos (by decide)

theorem bucketWidth?_eq_some_iff {width : UInt64} :
    m.bucketWidth? = some width ↔
      m.width = some width ∨ m.width = none ∧ m.unit.map TimeUnit.nanos = some width := by
  unfold bucketWidth?
  cases m.width <;> simp

/-- No unit is empty. -/
theorem nanos_ne_zero (u : TimeUnit) : u.nanos ≠ 0 := by
  cases u <;> decide

theorem inLimits_of_validateAlerts {seen : List UInt64} {alerts : List AlertConfig}
    (h : validateAlerts seen alerts = .ok ()) : ∀ a ∈ alerts, a.InLimits := by
  induction alerts generalizing seen with
  | nil => exact fun a ha => (List.not_mem_nil ha).elim
  | cons a rest ih =>
      obtain ⟨hvalid, -, hrest⟩ := of_validateAlerts_cons h
      exact List.forall_mem_cons.mpr ⟨AlertConfig.inLimits_of_validate hvalid, ih hrest⟩

theorem inLimits_of_validate (h : m.validate = .ok ()) :
    m.HasWidth ∧ ∀ a ∈ m.alerts, a.InLimits := by
  obtain ⟨⟨width, hwidth, hpos⟩, -⟩ := of_validate h
  refine ⟨⟨width, bucketWidth?_eq_some_iff.mp hwidth, hpos⟩, ?_⟩
  unfold validate at h
  split at h
  · cases h
  · split at h
    · cases h
    · exact inLimits_of_validateAlerts h

end MetricConfig

/-! ## Configurations -/

namespace Config

def alertIds (c : Config) : List UInt64 :=
  c.metrics.flatMap fun m => m.alerts.map AlertConfig.id

/-- What a configuration has to be like. -/
structure WellFormed (c : Config) : Prop where
  matcherIds : (c.matchers.map AtomMatcher.id).Nodup
  metricIds : (c.metrics.map MetricConfig.id).Nodup
  matcher : ∀ m ∈ c.metrics, m.matcherId ∈ c.matchers.map AtomMatcher.id
  width : ∀ m ∈ c.metrics, m.HasWidth
  alert : ∀ m ∈ c.metrics, ∀ a ∈ m.alerts, a.InLimits
  alertIds : c.alertIds.Nodup

/-- The ways not to be well-formed. A rejection names the matcher, the metric or the alert that has
its number twice or is wrong by itself. -/
inductive Breach (c : Config) : Rejection → Prop where
  | matcherTwice {id : UInt64} : List.Duplicate id (c.matchers.map AtomMatcher.id) →
      Breach c ⟨.matcher, id, .duplicateMatcher⟩
  | metricTwice {id : UInt64} : List.Duplicate id (c.metrics.map MetricConfig.id) →
      Breach c ⟨.metric, id, .duplicateMetric⟩
  | matcherMissing {m : MetricConfig} : m ∈ c.metrics →
      m.matcherId ∉ c.matchers.map AtomMatcher.id →
      Breach c ⟨.metric, m.id, .unknownMatcher m.matcherId⟩
  | metric {m : MetricConfig} {fault : Fault} : m ∈ c.metrics → m.Breach fault →
      Breach c ⟨.metric, m.id, fault⟩
  | alert {m : MetricConfig} {a : AlertConfig} {fault : Fault} : m ∈ c.metrics →
      a ∈ m.alerts → a.Breach fault → Breach c ⟨.alert, a.id, fault⟩
  | alertTwice {id : UInt64} : List.Duplicate id c.alertIds →
      Breach c ⟨.alert, id, .duplicateAlert⟩

/-- A configuration has a part of some kind with some number. -/
def Has (c : Config) (id : UInt64) : CountAlarm.Part → Prop
  | .matcher => id ∈ c.matchers.map AtomMatcher.id
  | .metric => id ∈ c.metrics.map MetricConfig.id
  | .alert => id ∈ c.alertIds
  | .other _ => False

variable {c : Config} {r : Rejection}

theorem Breach.has (h : c.Breach r) : c.Has r.id r.part := by
  cases h with
  | matcherTwice htwice => exact htwice.mem
  | metricTwice htwice => exact htwice.mem
  | matcherMissing hm _ => exact List.mem_map_of_mem hm
  | metric hm _ => exact List.mem_map_of_mem hm
  | alert hm ha _ => exact List.mem_flatMap.mpr ⟨_, hm, List.mem_map_of_mem ha⟩
  | alertTwice htwice => exact htwice.mem

theorem WellFormed.not_breach (h : c.WellFormed) (r : Rejection) : ¬c.Breach r := by
  intro hbreach
  cases hbreach with
  | matcherTwice htwice => exact htwice.not_nodup h.matcherIds
  | metricTwice htwice => exact htwice.not_nodup h.metricIds
  | matcherMissing hm hmissing => exact hmissing (h.matcher _ hm)
  | metric hm hfault => exact (h.width _ hm).not_breach _ hfault
  | alert hm ha hfault => exact (h.alert _ hm _ ha).not_breach _ hfault
  | alertTwice htwice => exact htwice.not_nodup h.alertIds

/-! ## Numbers seen before -/

theorem duplicate_append_cons {α : Type} {a : α} {before after : List α} (h : a ∈ before) :
    List.Duplicate a (before ++ a :: after) :=
  List.duplicate_iff_sublist.mpr
    ((List.singleton_sublist.mpr h).append (List.singleton_sublist.mpr List.mem_cons_self))

theorem cons_subset_concat {α : Type} {a : α} {seen before : List α} (h : seen ⊆ before) :
    a :: seen ⊆ before ++ [a] := by
  rw [List.cons_subset]
  exact ⟨List.mem_append_right _ List.mem_cons_self, List.subset_append_of_subset_left _ h⟩

theorem duplicate_of_validateMatchers {seen before : List UInt64} {matchers : List AtomMatcher}
    (hseen : seen ⊆ before) (h : validateMatchers seen matchers = .error r) :
    ∃ id, r = ⟨.matcher, id, .duplicateMatcher⟩ ∧
      List.Duplicate id (before ++ matchers.map AtomMatcher.id) := by
  induction matchers generalizing seen before with
  | nil => cases h
  | cons m rest ih =>
      unfold validateMatchers at h
      split at h
      · next hold =>
        cases h
        exact ⟨m.id, rfl, duplicate_append_cons (hseen hold)⟩
      · have hrest := ih (cons_subset_concat hseen) h
        rwa [List.append_assoc] at hrest

theorem subset_of_validateMatchers {seen ids : List UInt64} {matchers : List AtomMatcher}
    (h : validateMatchers seen matchers = .ok ids) :
    seen ⊆ ids ∧ matchers.map AtomMatcher.id ⊆ ids := by
  induction matchers generalizing seen with
  | nil =>
      cases h
      exact ⟨List.Subset.refl _, List.nil_subset _⟩
  | cons m rest ih =>
      unfold validateMatchers at h
      split at h
      · cases h
      · obtain ⟨hseen, hrest⟩ := ih h
        rw [List.cons_subset] at hseen
        rw [List.map_cons, List.cons_subset]
        exact ⟨hseen.2, hseen.1, hrest⟩

theorem duplicate_of_distinctAlerts {seen before : List UInt64} {alerts : List AlertConfig}
    (hseen : seen ⊆ before) (h : distinctAlerts seen alerts = .error r) :
    ∃ id, r = ⟨.alert, id, .duplicateAlert⟩ ∧
      List.Duplicate id (before ++ alerts.map AlertConfig.id) := by
  induction alerts generalizing seen before with
  | nil => cases h
  | cons a rest ih =>
      unfold distinctAlerts at h
      split at h
      · next hold =>
        cases h
        exact ⟨a.id, rfl, duplicate_append_cons (hseen hold)⟩
      · have hrest := ih (cons_subset_concat hseen) h
        rwa [List.append_assoc] at hrest

/-! ## Rejections -/

/-- An alert of a metric is rejected by itself, or because its number was there before. -/
theorem breach_of_validateAlerts {seen before : List UInt64} {alerts : List AlertConfig}
    (hseen : seen ⊆ before) (h : MetricConfig.validateAlerts seen alerts = .error r) :
    (∃ a ∈ alerts, ∃ fault, r = ⟨.alert, a.id, fault⟩ ∧ a.Breach fault) ∨
      ∃ id, r = ⟨.alert, id, .duplicateAlert⟩ ∧
        List.Duplicate id (before ++ alerts.map AlertConfig.id) := by
  induction alerts generalizing seen before with
  | nil => cases h
  | cons a rest ih =>
      unfold MetricConfig.validateAlerts at h
      cases hvalid : a.validate with
      | error rejection =>
          rw [hvalid] at h
          cases h
          exact Or.inl ⟨a, List.mem_cons_self, AlertConfig.breach_of_validate hvalid⟩
      | ok =>
          rw [hvalid] at h
          simp only [bind, Except.bind] at h
          split at h
          · next hold =>
            cases h
            exact Or.inr ⟨a.id, rfl, duplicate_append_cons (hseen hold)⟩
          · rcases ih (cons_subset_concat hseen) h with ⟨b, hb, hfault⟩ | htwice
            · exact Or.inl ⟨b, List.mem_cons_of_mem a hb, hfault⟩
            · rw [List.append_assoc] at htwice
              exact Or.inr htwice

theorem breach_of_metric {m : MetricConfig} (hm : m ∈ c.metrics) (h : m.validate = .error r) :
    c.Breach r := by
  unfold MetricConfig.validate at h
  cases hwidth : m.bucketWidth? with
  | none =>
      rw [hwidth] at h
      cases h
      obtain ⟨hwidth, hunit⟩ := (Option.orElse_eq_none _ _).mp hwidth
      exact .metric hm (.noWidth hwidth (Option.map_eq_none_iff.mp hunit))
  | some width =>
      rw [hwidth] at h
      simp only at h
      split at h
      · next hzero =>
        cases h
        rcases MetricConfig.bucketWidth?_eq_some_iff.mp hwidth with hwidth | ⟨-, hunit⟩
        · exact .metric hm (.zeroWidth (hzero ▸ hwidth))
        · obtain ⟨u, -, hnanos⟩ := Option.map_eq_some_iff.mp hunit
          exact absurd (hnanos.trans hzero) (MetricConfig.nanos_ne_zero u)
      · rcases breach_of_validateAlerts (List.Subset.refl []) h with
          ⟨a, ha, fault, rfl, hfault⟩ | ⟨id, rfl, htwice⟩
        · exact .alert hm ha hfault
        · have hsublist := (List.singleton_sublist.mpr hm).flatMap
            fun m => m.alerts.map AlertConfig.id
          rw [List.flatMap_singleton] at hsublist
          exact .alertTwice (htwice.mono_sublist hsublist)

/-- A metric is rejected for what it is or for the numbers of the metrics before it. -/
theorem breach_of_validateMetrics {matchers metrics alerts : List UInt64}
    {old rest : List MetricConfig} (hsplit : c.metrics = old ++ rest)
    (hmatchers : c.matchers.map AtomMatcher.id ⊆ matchers)
    (hmetrics : metrics ⊆ old.map MetricConfig.id)
    (halerts : alerts ⊆ old.flatMap fun m => m.alerts.map AlertConfig.id)
    (h : validateMetrics matchers metrics alerts rest = .error r) : c.Breach r := by
  induction rest generalizing old metrics alerts with
  | nil => cases h
  | cons m rest ih =>
      have hm : m ∈ c.metrics := by
        rw [hsplit]
        exact List.mem_append_right _ List.mem_cons_self
      unfold validateMetrics at h
      split at h
      · next hold =>
        cases h
        apply Breach.metricTwice
        rw [hsplit, List.map_append]
        exact duplicate_append_cons (hmetrics hold)
      · split at h
        · next hmissing =>
          cases h
          exact .matcherMissing hm fun hmem => hmissing (hmatchers hmem)
        · cases hvalid : m.validate with
          | error rejection =>
              rw [hvalid] at h
              cases h
              exact breach_of_metric hm hvalid
          | ok =>
              rw [hvalid] at h
              cases hdistinct : distinctAlerts alerts m.alerts with
              | error rejection =>
                  rw [hdistinct] at h
                  cases h
                  obtain ⟨id, rfl, htwice⟩ := duplicate_of_distinctAlerts halerts hdistinct
                  apply Breach.alertTwice
                  rw [alertIds, hsplit, List.flatMap_append, List.flatMap_cons, ← List.append_assoc]
                  exact htwice.mono_sublist (List.sublist_append_left _ _)
              | ok ids =>
                  rw [hdistinct] at h
                  have hids : ids ⊆ (old ++ [m]).flatMap fun m => m.alerts.map AlertConfig.id := by
                    intro id hid
                    rw [List.flatMap_append, List.flatMap_singleton, List.mem_append]
                    exact (((of_distinctAlerts hdistinct).2.2 id).mp hid).imp_left (halerts ·)
                  have hgrown : m.id :: metrics ⊆ (old ++ [m]).map MetricConfig.id := by
                    rw [List.map_append]
                    exact cons_subset_concat hmetrics
                  refine ih ?_ hgrown hids h
                  rw [hsplit, List.append_assoc]
                  rfl

theorem breach_of_validate (h : c.validate = .error r) : c.Breach r := by
  unfold validate at h
  cases hmatchers : validateMatchers [] c.matchers with
  | error rejection =>
      rw [hmatchers] at h
      cases h
      obtain ⟨id, rfl, htwice⟩ := duplicate_of_validateMatchers (List.Subset.refl []) hmatchers
      exact .matcherTwice htwice
  | ok ids =>
      rw [hmatchers] at h
      have hsplit : c.metrics = [] ++ c.metrics := rfl
      exact breach_of_validateMetrics hsplit (subset_of_validateMatchers hmatchers).2
        (List.Subset.refl []) (List.Subset.refl []) h

/-! ## The answer of validation -/

theorem wellFormed_of_validate (h : c.validate = .ok ()) : c.WellFormed where
  matcherIds := matcherIds_of_validate h
  metricIds := (sound_of_validate h).metricIds
  matcher := (sound_of_validate h).matcher
  width m hm := (MetricConfig.inLimits_of_validate ((sound_of_validate h).metric m hm)).1
  alert m hm := (MetricConfig.inLimits_of_validate ((sound_of_validate h).metric m hm)).2
  alertIds := (sound_of_validate h).alertIds

theorem validate_of_wellFormed (h : c.WellFormed) : c.validate = .ok () := by
  cases hvalid : c.validate with
  | ok => rfl
  | error r => exact absurd (breach_of_validate hvalid) (h.not_breach r)

theorem validate_iff_wellFormed : c.validate = .ok () ↔ c.WellFormed :=
  ⟨wellFormed_of_validate, validate_of_wellFormed⟩

/-- Validation accepts just the well-formed configurations, which are those without a breach. Any
other one is rejected for a breach, under the kind and the number of one of its parts. -/
theorem validate_eq_ok_iff_wellFormed (c : Config) :
    (c.validate = .ok () ↔ c.WellFormed) ∧ (c.WellFormed ↔ ∀ r, ¬c.Breach r) ∧
      (¬c.WellFormed → ∃ r, c.validate = .error r ∧ c.Has r.id r.part ∧ c.Breach r) := by
  have hiff : c.validate = .ok () ↔ c.WellFormed := validate_iff_wellFormed
  cases hvalid : c.validate with
  | ok =>
      have h := hiff.mp hvalid
      rw [hvalid] at hiff
      exact ⟨hiff, iff_of_true h h.not_breach, fun hnot => absurd h hnot⟩
  | error r =>
      have hbreach := breach_of_validate hvalid
      have hnot : ¬c.WellFormed := fun h => h.not_breach r hbreach
      rw [hvalid] at hiff
      exact ⟨hiff, iff_of_false hnot fun hnone => hnone r hbreach,
        fun _ => ⟨r, rfl, hbreach.has, hbreach⟩⟩

/-- Two metrics of their own numbers share the number of an alert: each of them alone is
well-formed, both together are not. -/
theorem validate_eq_ok_iff_wellFormed_shared_alert :
    let metric : UInt64 → MetricConfig := fun id => ⟨id, 7, [], some .oneHour, none, [⟨9, 1, 0, 0⟩]⟩
    let c : List MetricConfig → Config := fun metrics => ⟨0, [⟨7, 3, []⟩], metrics⟩
    (c [metric 1]).WellFormed ∧ ¬(c [metric 1, metric 2]).WellFormed ∧
      ∃ r, (c [metric 1, metric 2]).validate = .error r ∧
        (c [metric 1, metric 2]).Has r.id r.part ∧ (c [metric 1, metric 2]).Breach r ∧
        r.message = "Anomaly: alert 9 rejected: duplicate alert id" := by
  intro metric c
  have hvalid : (c [metric 1]).validate = .ok () := by rfl
  have hinvalid : (c [metric 1, metric 2]).validate =
      .error ⟨.alert, 9, .duplicateAlert⟩ := by rfl
  have htwice : ¬(c [metric 1, metric 2]).alertIds.Nodup := by decide
  have hnot : ¬(c [metric 1, metric 2]).WellFormed := fun h => htwice h.alertIds
  obtain ⟨r, hr, hhas, hbreach⟩ := (validate_eq_ok_iff_wellFormed (c [metric 1, metric 2])).2.2 hnot
  have hwell := (validate_eq_ok_iff_wellFormed (c [metric 1])).1.mp hvalid
  refine ⟨hwell, hnot, r, hr, hhas, hbreach, ?_⟩
  rw [hinvalid] at hr
  cases hr
  decide

end Config

end CountAlarm
