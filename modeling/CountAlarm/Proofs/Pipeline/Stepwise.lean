import CountAlarm.Proofs.Pipeline.Installation
import CountAlarm.Proofs.Setup.WellFormed
/-!
# Metrics one by one

A pipeline can be given the matchers of a configuration and then its metrics, one after the other.
It builds each metric first and then looks for its numbers in what it has installed, where
validation keeps lists of the numbers seen before and checks a metric by itself in the middle. What
carries the agreement is that the installed metrics are those of a well-formed configuration:
`addMetric_eq_ok_iff`.
-/

namespace CountAlarm

namespace Config

/-- A configuration with the first of its metrics. -/
def first (c : Config) (n : Nat) : Config :=
  { c with metrics := c.metrics.take n }

variable {c : Config}

theorem wellFormed_nil (h : (c.matchers.map AtomMatcher.id).Nodup) :
    ({ c with metrics := [] } : Config).WellFormed where
  matcherIds := h
  metricIds := List.nodup_nil
  matcher _ hm := (List.not_mem_nil hm).elim
  width _ hm := (List.not_mem_nil hm).elim
  alert _ hm := (List.not_mem_nil hm).elim
  alertIds := List.nodup_nil

/-- Metrics can be left out at the end. -/
theorem WellFormed.of_append {old next : List MetricConfig}
    (h : ({ c with metrics := old ++ next } : Config).WellFormed) :
    ({ c with metrics := old } : Config).WellFormed where
  matcherIds := h.matcherIds
  metricIds := h.metricIds.sublist ((List.sublist_append_left old next).map _)
  matcher m hm := h.matcher m (List.mem_append_left next hm)
  width m hm := h.width m (List.mem_append_left next hm)
  alert m hm := h.alert m (List.mem_append_left next hm)
  alertIds := h.alertIds.sublist ((List.sublist_append_left old next).flatMap _)

end Config

namespace Pipeline

variable {World : Type} {p : Pipeline World}

/-! ## Matchers -/

def addMatchers (p : Pipeline World) (matchers : List Matcher) : Pipeline World :=
  matchers.foldl addMatcher p

/-- A matcher with a new number takes the place of no other. -/
theorem addMatcher_of_new {matcher : Matcher} (h : ∀ m ∈ p.matchers, m.id ≠ matcher.id) :
    p.addMatcher matcher = { p with matchers := p.matchers ++ [matcher] } := by
  have hkept : (p.matchers.filter fun m => m.id != matcher.id) = p.matchers := by
    rw [List.filter_eq_self]
    exact fun m hm => bne_iff_ne.mpr (h m hm)
  unfold addMatcher
  rw [hkept]

theorem addMatchers_of_nodup {matchers : List Matcher}
    (h : ((p.matchers ++ matchers).map Matcher.id).Nodup) :
    p.addMatchers matchers = { p with matchers := p.matchers ++ matchers } := by
  induction matchers generalizing p with
  | nil => rw [List.append_nil]; rfl
  | cons matcher rest ih =>
      have hnew : ∀ m ∈ p.matchers, m.id ≠ matcher.id := by
        rw [List.map_append, List.nodup_append] at h
        intro m hm
        exact h.2.2 m.id (List.mem_map_of_mem hm) matcher.id List.mem_cons_self
      have hrest := ih (p := p.addMatcher matcher) (by
        rw [addMatcher_of_new hnew, List.append_assoc]
        exact h)
      unfold addMatchers at hrest ⊢
      rw [List.foldl_cons, hrest, addMatcher_of_new hnew, List.append_assoc]
      rfl

/-! ## One metric -/

/-- A metric that is rejected leaves the pipeline as it was. -/
theorem addMetric_of_error {m : MetricConfig} {r : Rejection}
    (h : (p.addMetric m).outcome = .error r) : (p.addMetric m).pipeline = p := by
  rcases p.addMetric_cases m with ⟨_, -, hsame⟩ | ⟨metric, -, -, hok, -⟩
  · exact hsame
  · rw [hok] at h
    cases h

/-- What a pipeline has found out when it accepts a metric, and what becomes of it. -/
theorem addMetric_of_ok {c : Config} (hstart : p.start = c.start) {m : MetricConfig}
    (h : (p.addMetric m).outcome = .ok ()) :
    m.validate = .ok () ∧ p.Admits (m.installed c) ∧
      (p.addMetric m).pipeline = { p with metrics := p.metrics ++ [m.installed c] } := by
  rcases p.addMetric_cases m with ⟨r, herror, -⟩ | ⟨metric, hbuild, hadmits, -, hnew⟩
  · rw [herror] at h
    cases h
  · rw [hstart] at hbuild
    obtain ⟨hvalid, rfl⟩ := MetricConfig.build_eq_ok_iff.mp hbuild
    exact ⟨hvalid, hadmits, hnew⟩

section

variable {c : Config} {old : List MetricConfig}

/-- Numbers that are not among the installed ones are not among the configured ones before. -/
theorem wellFormed_concat (hold : ({ c with metrics := old } : Config).WellFormed)
    (h : p.Carries c old) {m : MetricConfig} (hvalid : m.validate = .ok ())
    (hadmits : p.Admits (m.installed c)) :
    ({ c with metrics := old ++ [m] } : Config).WellFormed where
  matcherIds := hold.matcherIds
  metricIds := by
    rw [List.map_append, List.nodup_append]
    refine ⟨hold.metricIds, List.nodup_singleton _, fun id hid other hother => ?_⟩
    obtain ⟨n, hn, rfl⟩ := List.mem_map.mp hid
    obtain rfl := List.mem_singleton.mp hother
    exact hadmits.metricId (n.installed c) (h.metrics ▸ List.mem_map_of_mem hn)
  matcher := by
    obtain ⟨matcher, hmem, hid⟩ := hadmits.matcher
    rw [h.matchers] at hmem
    obtain ⟨configured, hconfigured, rfl⟩ := List.mem_map.mp hmem
    rw [List.forall_mem_append, List.forall_mem_singleton]
    exact ⟨hold.matcher, List.mem_map.mpr ⟨configured, hconfigured, hid⟩⟩
  width := by
    rw [List.forall_mem_append, List.forall_mem_singleton]
    exact ⟨hold.width, (MetricConfig.inLimits_of_validate hvalid).1⟩
  alert := by
    rw [List.forall_mem_append, List.forall_mem_singleton]
    exact ⟨hold.alert, (MetricConfig.inLimits_of_validate hvalid).2⟩
  alertIds := by
    unfold Config.alertIds
    rw [List.flatMap_append, List.flatMap_singleton, List.nodup_append]
    refine ⟨hold.alertIds, MetricConfig.nodup_of_validate hvalid, fun id hid other hother => ?_⟩
    obtain ⟨n, hn, hid⟩ := List.mem_flatMap.mp hid
    obtain ⟨b, hb, rfl⟩ := List.mem_map.mp hid
    obtain ⟨a, ha, rfl⟩ := List.mem_map.mp hother
    exact hadmits.alertIds (.start (a.rule m.id) _) (List.mem_map_of_mem ha) (n.installed c)
      (h.metrics ▸ List.mem_map_of_mem hn) (.start (b.rule n.id) _) (List.mem_map_of_mem hb)

/-- After the metrics of a well-formed configuration, a pipeline accepts one more just when the
configuration stays well-formed with it. -/
theorem addMetric_eq_ok_iff (hold : ({ c with metrics := old } : Config).WellFormed)
    (h : p.Carries c old) (m : MetricConfig) :
    (p.addMetric m).outcome = .ok () ↔
      ({ c with metrics := old ++ [m] } : Config).WellFormed := by
  constructor
  · intro hok
    obtain ⟨hvalid, hadmits, -⟩ := addMetric_of_ok h.start hok
    exact wellFormed_concat hold h hvalid hadmits
  · intro hwell
    have hsound := Config.sound_of_validate (Config.validate_of_wellFormed hwell)
    have hcarries : p.Carries { c with metrics := old ++ [m] } old :=
      ⟨h.start, h.matchers, h.metrics⟩
    exact (addMetric_of_sound hsound rfl hcarries).1

end

/-! ## Metrics in a row -/

/-- Adds some metrics, each whatever became of those before it, and returns what became of them. -/
def addEach (p : Pipeline World) :
    List MetricConfig → List (Except Rejection Unit) × Pipeline World
  | [] => ([], p)
  | m :: rest =>
    let added := p.addMetric m
    let others := addEach added.pipeline rest
    (added.outcome :: others.1, others.2)

theorem addEach_of_ok {c : Config} {next : List MetricConfig} (hstart : p.start = c.start)
    (h : ∀ outcome ∈ (p.addEach next).1, outcome = .ok ()) :
    (p.addEach next).2 =
      { p with metrics := p.metrics ++ next.map (MetricConfig.installed c) } := by
  induction next generalizing p with
  | nil => rw [List.map_nil, List.append_nil]; rfl
  | cons m rest ih =>
      obtain ⟨hfirst, hrest⟩ := List.forall_mem_cons.mp h
      have hpipeline := (addMetric_of_ok hstart hfirst).2.2
      rw [hpipeline] at hrest
      have hothers := ih (p := { p with metrics := p.metrics ++ [m.installed c] }) hstart hrest
      rw [List.append_assoc] at hothers
      rw [addEach, hpipeline]
      exact hothers

theorem addEach_eq_ok_iff {c : Config} {old next : List MetricConfig}
    (hold : ({ c with metrics := old } : Config).WellFormed) (h : p.Carries c old) :
    (∀ outcome ∈ (p.addEach next).1, outcome = .ok ()) ↔
      ({ c with metrics := old ++ next } : Config).WellFormed := by
  induction next generalizing old p with
  | nil =>
      rw [List.append_nil]
      exact iff_of_true (fun _ h => (List.not_mem_nil h).elim) hold
  | cons m rest ih =>
      have hstep := addMetric_eq_ok_iff hold h m
      have hsplit : old ++ m :: rest = (old ++ [m]) ++ rest := List.append_cons old m rest
      rw [addEach, List.forall_mem_cons, hsplit]
      by_cases hfirst : (p.addMetric m).outcome = .ok ()
      · rw [and_iff_right hfirst, (addMetric_of_ok h.start hfirst).2.2]
        exact ih (hstep.mp hfirst) (h.concat m)
      · -- What is well-formed with all metrics is well-formed with those up to the rejected one.
        exact iff_of_false (fun hall => hfirst hall.1) fun hwell =>
          hfirst (hstep.mpr hwell.of_append)

/-- A pipeline that is given the matchers of a configuration, all of different numbers, and then its
first metrics one after the other accepts all of these just when validation accepts the
configuration with no other metrics. It is then the pipeline of this configuration, up to the sink.
No pipeline is changed by a metric that it rejects. -/
theorem addEach_accepts_iff_validate (c : Config) (hids : (c.matchers.map AtomMatcher.id).Nodup)
    (n : Nat) (sink : Sink World) :
    let matched := (empty c.start sink).addMatchers (c.matchers.map AtomMatcher.toMatcher)
    let added := matched.addEach (c.metrics.take n)
    ((∀ outcome ∈ added.1, outcome = .ok ()) ↔ (c.first n).validate = .ok ()) ∧
      ((c.first n).validate = .ok () → ∀ other : Sink World,
        (ofConfig (c.first n) other).outcome = .ok () ∧
          added.2 = (ofConfig (c.first n) other).pipeline.setSink sink) ∧
      ∀ (p : Pipeline World) (m : MetricConfig) (r : Rejection),
        (p.addMetric m).outcome = .error r → (p.addMetric m).pipeline = p := by
  intro matched added
  have hmatched : matched =
      { empty c.start sink with matchers := c.matchers.map AtomMatcher.toMatcher } := by
    apply addMatchers_of_nodup
    rw [empty, List.nil_append, List.map_map]
    exact hids
  have hcarries : matched.Carries c [] := by
    rw [hmatched]
    exact ⟨rfl, rfl, rfl⟩
  have haccepts : (∀ outcome ∈ added.1, outcome = .ok ()) ↔ (c.first n).validate = .ok () := by
    rw [Config.validate_iff_wellFormed]
    exact addEach_eq_ok_iff (Config.wellFormed_nil hids) hcarries
  refine ⟨haccepts, fun hvalid other => ?_, fun p m r h => addMetric_of_error h⟩
  obtain ⟨houtcome, hpipeline⟩ := ofConfig_ok hvalid other
  refine ⟨houtcome, ?_⟩
  rw [hpipeline, addEach_of_ok hcarries.start (haccepts.mpr hvalid), hmatched]
  rfl

/-- The third metric has the number of the first one and buckets without a width. Both ways accept
the two metrics before it and reject it, for one of its faults each. -/
theorem addEach_accepts_iff_validate_two_faults :
    let third : MetricConfig := ⟨1, 7, [], none, some 0, []⟩
    let c : Config :=
      ⟨5, [⟨7, 3, []⟩, ⟨8, 4, [⟨6, .above 3⟩]⟩],
        [⟨1, 7, [], some .oneHour, none, [⟨9, 1, 0, 0⟩]⟩,
          ⟨2, 8, [6], none, some 60, [⟨10, 2, 0, 0⟩]⟩, third]⟩
    let matched :=
      (empty c.start Sink.log : Pipeline Unit).addMatchers (c.matchers.map AtomMatcher.toMatcher)
    let two := matched.addEach (c.metrics.take 2)
    let three := matched.addEach (c.metrics.take 3)
    ((c.matchers.map AtomMatcher.id).Nodup ∧ (c.first 2).validate = .ok ()) ∧
      ((∀ outcome ∈ two.1, outcome = .ok ()) ∧
        two.2 = (ofConfig (c.first 2) (Sink.fanout [])).pipeline.setSink Sink.log) ∧
      (¬(∀ outcome ∈ three.1, outcome = .ok ()) ∧
        (c.first 3).validate = .error ⟨.metric, 1, .duplicateMetric⟩) ∧
      (two.2.addMetric third).outcome = .error ⟨.metric, 1, .zeroBucketSize⟩ ∧
      (two.2.addMetric third).pipeline = two.2 := by
  intro third c matched two three
  have hids : (c.matchers.map AtomMatcher.id).Nodup := by decide
  have hvalid : (c.first 2).validate = .ok () := by rfl
  have hinvalid : (c.first 3).validate = .error ⟨.metric, 1, .duplicateMetric⟩ := by rfl
  have hrejected : (two.2.addMetric third).outcome = .error ⟨.metric, 1, .zeroBucketSize⟩ := by rfl
  obtain ⟨htwo, hsame, hkeeps⟩ := addEach_accepts_iff_validate c hids 2 (Sink.log : Sink Unit)
  obtain ⟨hthree, -, -⟩ := addEach_accepts_iff_validate c hids 3 (Sink.log : Sink Unit)
  refine ⟨⟨hids, hvalid⟩, ⟨htwo.mpr hvalid, (hsame hvalid (Sink.fanout [])).2⟩,
    ⟨fun h => ?_, hinvalid⟩, hrejected, hkeeps two.2 third _ hrejected⟩
  rw [hthree, hinvalid] at h
  cases h

end Pipeline

end CountAlarm
