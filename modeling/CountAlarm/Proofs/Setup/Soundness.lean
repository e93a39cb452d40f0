import CountAlarm.Setup.Validation
import Mathlib.Data.List.Nodup
/-!
# Sound configurations

What a configuration is known to be once it has passed validation: metrics and alerts have numbers
of their own, the matchers that metrics refer to are there, and every metric is sound by itself.
-/

namespace CountAlarm

structure Config.Sound (c : Config) : Prop where
  metricIds : (c.metrics.map MetricConfig.id).Nodup
  alertIds : (c.metrics.flatMap fun m => m.alerts.map AlertConfig.id).Nodup
  matcher : ∀ m ∈ c.metrics, m.matcherId ∈ c.matchers.map AtomMatcher.id
  metric : ∀ m ∈ c.metrics, m.validate = .ok ()

/-! ## Metrics by themselves -/

namespace MetricConfig

theorem buckets_pos_of_validate {a : AlertConfig} (h : a.validate = .ok ()) :
    0 < a.buckets.toNat := by
  unfold AlertConfig.validate at h
  split at h
  · cases h
  · next hbuckets => exact Nat.lt_of_not_le fun hle => hbuckets (Nat.lt_succ_of_le hle)

/-- The first alert is sound and new, and the others were checked with its number seen. -/
theorem of_validateAlerts_cons {seen : List UInt64} {a : AlertConfig} {rest : List AlertConfig}
    (h : validateAlerts seen (a :: rest) = .ok ()) :
    a.validate = .ok () ∧ a.id ∉ seen ∧ validateAlerts (a.id :: seen) rest = .ok () := by
  unfold validateAlerts at h
  cases hvalid : a.validate with
  | error rejection =>
      rw [hvalid] at h
      cases h
  | ok =>
      rw [hvalid] at h
      simp only [bind, Except.bind] at h
      split at h
      · cases h
      · next hnew => exact ⟨rfl, hnew, h⟩

theorem buckets_pos_of_validateAlerts {seen : List UInt64} {alerts : List AlertConfig}
    (h : validateAlerts seen alerts = .ok ()) : ∀ a ∈ alerts, 0 < a.buckets.toNat := by
  induction alerts generalizing seen with
  | nil => exact fun a ha => (List.not_mem_nil ha).elim
  | cons a rest ih =>
      obtain ⟨hvalid, -, hrest⟩ := of_validateAlerts_cons h
      exact List.forall_mem_cons.mpr ⟨buckets_pos_of_validate hvalid, ih hrest⟩

theorem nodup_of_validateAlerts {seen : List UInt64} {alerts : List AlertConfig}
    (h : validateAlerts seen alerts = .ok ()) :
    (alerts.map AlertConfig.id).Nodup ∧ ∀ id ∈ alerts.map AlertConfig.id, id ∉ seen := by
  induction alerts generalizing seen with
  | nil => exact ⟨List.nodup_nil, fun id hid => (List.not_mem_nil hid).elim⟩
  | cons a rest ih =>
      obtain ⟨-, hnew, hrest⟩ := of_validateAlerts_cons h
      obtain ⟨hnodup, hunseen⟩ := ih hrest
      rw [List.map_cons, List.nodup_cons, List.forall_mem_cons]
      refine ⟨⟨fun hmem => ?_, hnodup⟩, hnew, fun id hid hseen => ?_⟩
      · exact hunseen a.id hmem List.mem_cons_self
      · exact hunseen id hid (List.mem_cons_of_mem _ hseen)

theorem of_validate {m : MetricConfig} (h : m.validate = .ok ()) :
    (∃ width, m.bucketWidth? = some width ∧ 0 < width.toNat) ∧
      ∀ a ∈ m.alerts, 0 < a.buckets.toNat := by
  unfold validate at h
  cases hwidth : m.bucketWidth? with
  | none =>
      rw [hwidth] at h
      cases h
  | some width =>
      rw [hwidth] at h
      simp only at h
      split at h
      · cases h
      · next hzero =>
        have hpos : 0 < width.toNat :=
          Nat.pos_of_ne_zero fun hnat => hzero (UInt64.toNat_inj.mp hnat)
        exact ⟨⟨width, rfl, hpos⟩, buckets_pos_of_validateAlerts h⟩

theorem nodup_of_validate {m : MetricConfig} (h : m.validate = .ok ()) :
    (m.alerts.map AlertConfig.id).Nodup := by
  unfold validate at h
  split at h
  · cases h
  · split at h
    · cases h
    · exact (nodup_of_validateAlerts h).1

end MetricConfig

/-! ## Numbers -/

namespace Config

theorem mem_of_validateMatchers {seen ids : List UInt64} {matchers : List AtomMatcher}
    (h : validateMatchers seen matchers = .ok ids) :
    ∀ id ∈ ids, id ∈ seen ∨ id ∈ matchers.map AtomMatcher.id := by
  induction matchers generalizing seen with
  | nil =>
      cases h
      exact fun id hid => Or.inl hid
  | cons m rest ih =>
      unfold validateMatchers at h
      split at h
      · cases h
      · intro id hid
        rcases ih h id hid with hseen | hrest
        · rcases List.mem_cons.mp hseen with rfl | hseen
          · exact Or.inr List.mem_cons_self
          · exact Or.inl hseen
        · exact Or.inr (List.mem_cons_of_mem _ hrest)

theorem nodup_of_validateMatchers {seen ids : List UInt64} {matchers : List AtomMatcher}
    (h : validateMatchers seen matchers = .ok ids) :
    (matchers.map AtomMatcher.id).Nodup ∧ ∀ id ∈ matchers.map AtomMatcher.id, id ∉ seen := by
  induction matchers generalizing seen with
  | nil => exact ⟨List.nodup_nil, fun id hid => (List.not_mem_nil hid).elim⟩
  | cons m rest ih =>
      unfold validateMatchers at h
      split at h
      · cases h
      · next hnew =>
        obtain ⟨hnodup, hunseen⟩ := ih h
        rw [List.map_cons, List.nodup_cons, List.forall_mem_cons]
        refine ⟨⟨fun hmem => ?_, hnodup⟩, hnew, fun id hid hseen => ?_⟩
        · exact hunseen m.id hmem List.mem_cons_self
        · exact hunseen id hid (List.mem_cons_of_mem _ hseen)

theorem of_distinctAlerts {seen ids : List UInt64} {alerts : List AlertConfig}
    (h : distinctAlerts seen alerts = .ok ids) :
    (alerts.map AlertConfig.id).Nodup ∧ (∀ a ∈ alerts, a.id ∉ seen) ∧
      ∀ id, id ∈ ids ↔ id ∈ seen ∨ id ∈ alerts.map AlertConfig.id := by
  induction alerts generalizing seen with
  | nil =>
      cases h
      exact ⟨List.nodup_nil, fun a ha => (List.not_mem_nil ha).elim, fun id => by simp⟩
  | cons a rest ih =>
      unfold distinctAlerts at h
      split at h
      · cases h
      · next hnew =>
        obtain ⟨hnodup, hdisjoint, hids⟩ := ih h
        refine ⟨?_, ?_, ?_⟩
        · rw [List.map_cons, List.nodup_cons]
          refine ⟨fun hmem => ?_, hnodup⟩
          obtain ⟨b, hb, hsame⟩ := List.mem_map.mp hmem
          exact hdisjoint b hb (hsame ▸ List.mem_cons_self)
        · rw [List.forall_mem_cons]
          exact ⟨hnew, fun b hb hseen => hdisjoint b hb (List.mem_cons_of_mem _ hseen)⟩
        · intro id
          rw [hids id, List.map_cons, List.mem_cons, List.mem_cons]
          tauto

/-- All checks of the first metric were passed before the others were checked. -/
theorem of_validateMetrics_cons {matchers metrics alerts : List UInt64} {m : MetricConfig}
    {rest : List MetricConfig}
    (h : validateMetrics matchers metrics alerts (m :: rest) = .ok ()) :
    m.id ∉ metrics ∧ m.matcherId ∈ matchers ∧ m.validate = .ok () ∧
      ∃ ids, distinctAlerts alerts m.alerts = .ok ids ∧
        validateMetrics matchers (m.id :: metrics) ids rest = .ok () := by
  unfold validateMetrics at h
  split at h
  · cases h
  · next hnew =>
    split at h
    · cases h
    · next hknown =>
      cases hvalid : m.validate with
      | error rejection =>
          rw [hvalid] at h
          cases h
      | ok =>
          rw [hvalid] at h
          cases hdistinct : distinctAlerts alerts m.alerts with
          | error rejection =>
              rw [hdistinct] at h
              cases h
          | ok ids =>
              rw [hdistinct] at h
              exact ⟨hnew, Decidable.not_not.mp hknown, rfl, ids, rfl, h⟩

/-- What validation knows about metrics, given the numbers seen before them. -/
theorem of_validateMetrics {matchers metrics alerts : List UInt64} {configs : List MetricConfig}
    (h : validateMetrics matchers metrics alerts configs = .ok ()) :
    ((configs.map MetricConfig.id).Nodup ∧ ∀ m ∈ configs, m.id ∉ metrics) ∧
      ((configs.flatMap fun m => m.alerts.map AlertConfig.id).Nodup ∧
        ∀ id ∈ configs.flatMap fun m => m.alerts.map AlertConfig.id, id ∉ alerts) ∧
      ∀ m ∈ configs, m.matcherId ∈ matchers ∧ m.validate = .ok () := by
  induction configs generalizing metrics alerts with
  | nil => simp
  | cons m rest ih =>
      obtain ⟨hnew, hknown, hvalid, ids, hdistinct, hothers⟩ := of_validateMetrics_cons h
      obtain ⟨hnodup, hdisjoint, hids⟩ := of_distinctAlerts hdistinct
      obtain ⟨⟨hmetrics, hfresh⟩, ⟨halerts, hunseen⟩, hrest⟩ := ih hothers
      refine ⟨⟨?_, ?_⟩, ⟨?_, ?_⟩, List.forall_mem_cons.mpr ⟨⟨hknown, hvalid⟩, hrest⟩⟩
      · rw [List.map_cons, List.nodup_cons]
        refine ⟨fun hmem => ?_, hmetrics⟩
        obtain ⟨n, hn, hsame⟩ := List.mem_map.mp hmem
        exact hfresh n hn (hsame ▸ List.mem_cons_self)
      · rw [List.forall_mem_cons]
        exact ⟨hnew, fun n hn hseen => hfresh n hn (List.mem_cons_of_mem _ hseen)⟩
      · rw [List.flatMap_cons, List.nodup_append]
        refine ⟨hnodup, halerts, fun id hid other hother hsame => ?_⟩
        rw [← hsame] at hother
        exact hunseen id hother ((hids id).mpr (Or.inr hid))
      · intro id hid hseen
        rw [List.flatMap_cons, List.mem_append] at hid
        rcases hid with hid | hid
        · obtain ⟨a, ha, rfl⟩ := List.mem_map.mp hid
          exact hdisjoint a ha hseen
        · exact hunseen id hid ((hids id).mpr (Or.inl hseen))

theorem sound_of_validate {c : Config} (h : c.validate = .ok ()) : c.Sound := by
  unfold validate at h
  cases hmatchers : validateMatchers [] c.matchers with
  | error rejection =>
      rw [hmatchers] at h
      cases h
  | ok ids =>
      rw [hmatchers] at h
      obtain ⟨⟨hmetrics, -⟩, ⟨halerts, -⟩, hall⟩ := of_validateMetrics h
      refine ⟨hmetrics, halerts, fun m hm => ?_, fun m hm => (hall m hm).2⟩
      rcases mem_of_validateMatchers hmatchers _ (hall m hm).1 with hnil | hmem
      · exact (List.not_mem_nil hnil).elim
      · exact hmem

theorem matcherIds_of_validate {c : Config} (h : c.validate = .ok ()) :
    (c.matchers.map AtomMatcher.id).Nodup := by
  unfold validate at h
  cases hmatchers : validateMatchers [] c.matchers with
  | error rejection =>
      rw [hmatchers] at h
      cases h
  | ok ids => exact (nodup_of_validateMatchers hmatchers).1

end Config

end CountAlarm
