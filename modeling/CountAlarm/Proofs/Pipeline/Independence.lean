import CountAlarm.Proofs.Pipeline.Contributions
/-!
# Metrics run by themselves

Whatever happens to a pipeline around a metric, the metric counts and fires what it would count and
fire by itself if it were fed the events that its matcher accepts: `obeyAll_eq_feedAll`. Only a
command that takes the metric or its matcher away does not spare it. The invariant `Runs` ties a
pipeline to the metric alone.
-/

namespace CountAlarm

/-- A command leaves a metric and its matcher where they are. -/
def Command.Spares {World : Type} (m : Metric) : Command World → Prop
  | .addMatcher matcher => matcher.id ≠ m.matcherId
  | .removeMetric id => id ≠ m.id
  | .replaceConfig config => config.validate ≠ .ok ()
  | _ => True

/-- Lets a metric handle a stream by itself. -/
def Metric.feedAll {World : Type} (m : Metric) (sink : Sink World) (world : World) :
    List Event → Metric × World
  | [] => (m, world)
  | e :: past =>
    let before := m.feedAll sink world past
    let handled := before.1.handle e sink before.2
    (handled.metric, handled.world)

theorem Metric.ids_feedAll {World : Type} (m : Metric) (sink : Sink World) (world : World)
    (events : List Event) :
    (m.feedAll sink world events).1.id = m.id ∧
      (m.feedAll sink world events).1.matcherId = m.matcherId := by
  induction events with
  | nil => exact ⟨rfl, rfl⟩
  | cons e past ih =>
      rw [feedAll]
      exact ⟨(id_handle _ e sink _).trans ih.1,
        (matcherId_handle _ e sink _).trans ih.2⟩

namespace Pipeline

variable {World Other : Type} {p : Pipeline World}

/-! ## Matchers -/

theorem exists_matcher? (h : p.Wired) {m : Metric} (hm : m ∈ p.metrics) :
    ∃ matcher ∈ p.matchers, matcher.id = m.matcherId ∧ p.matcher? m.matcherId = some matcher := by
  obtain ⟨known, hknown, hid⟩ := List.mem_map.mp (h.known m.matcherId (List.mem_map_of_mem hm))
  unfold matcher?
  cases hfind : p.matchers.find? fun n => n.id == m.matcherId with
  | none =>
      have hother := List.find?_eq_none.mp hfind known hknown
      exact absurd (beq_iff_eq.mpr hid) hother
  | some matcher =>
      have hsame : matcher.id = m.matcherId := by simpa using List.find?_some hfind
      exact ⟨matcher, List.mem_of_find?_eq_some hfind, hsame, rfl⟩

/-- As numbers of matchers differ, the number of one is accepting just when it accepts. -/
theorem id_mem_accepting_iff (h : p.Wired) {matcher : Matcher} (hmatcher : matcher ∈ p.matchers)
    (event : Event) : matcher.id ∈ p.accepting event ↔ matcher.accepts event = true := by
  unfold accepting
  constructor
  · intro hmem
    obtain ⟨other, hother, hsame⟩ := List.mem_map.mp hmem
    obtain ⟨hother, haccepts⟩ := List.mem_filter.mp hother
    rw [List.inj_on_of_nodup_map h.matcherIds hmatcher hother hsame.symm]
    exact haccepts
  · intro haccepts
    exact List.mem_map_of_mem (List.mem_filter.mpr ⟨hmatcher, haccepts⟩)

/-! ## The invariant -/

/-- A pipeline has a matcher and a metric that is where it would be by itself. -/
structure Runs (p : Pipeline World) (matcher : Matcher) (alone : Metric) : Prop where
  wired : p.Wired
  matcher_mem : matcher ∈ p.matchers
  matcher_id : matcher.id = alone.matcherId
  metric : ∃ now ∈ p.metrics, now.sansFailures = alone.sansFailures

variable {matcher : Matcher} {alone : Metric}

/-- What is not an event changes nothing for a metric that it spares. -/
theorem Runs.obey (h : p.Runs matcher alone) (world : World) {command : Command World}
    (hspared : command.Spares alone) (hquiet : command.event? = none) :
    (p.obey world command).pipeline.Runs matcher alone := by
  have hands : command.Hands fun _ => True := by cases command <;> trivial
  have hwired := wired_invariant.obey h.wired world hands
  obtain ⟨now, hnow, hsame⟩ := h.metric
  have happend : ∀ metric, now ∈ p.metrics ++ [metric] :=
    fun metric => List.mem_append_left _ hnow
  cases command with
  | handle event => cases hquiet
  | setSink sink => exact ⟨hwired, h.matcher_mem, h.matcher_id, now, hnow, hsame⟩
  | addMatcher other =>
      have hkept : matcher ∈ p.matchers.filter fun m => m.id != other.id := by
        rw [List.mem_filter, bne_iff_ne, h.matcher_id]
        exact ⟨h.matcher_mem, Ne.symm hspared⟩
      exact ⟨hwired, List.mem_append_left _ hkept, h.matcher_id, now, hnow, hsame⟩
  | removeMetric id =>
      have hid : now.id = alone.id := (congrArg Metric.id hsame :)
      have hkept : now ∈ p.metrics.filter fun m => m.id != id := by
        rw [List.mem_filter, bne_iff_ne, hid]
        exact ⟨hnow, Ne.symm hspared⟩
      exact ⟨hwired, h.matcher_mem, h.matcher_id, now, hkept, hsame⟩
  | replaceConfig config =>
      rcases p.replaceConfig_cases config with hrefused | ⟨hvalid, -⟩
      · rw [Pipeline.obey, hrefused]
        exact h
      · exact absurd hvalid hspared
  | installMetric metric =>
      rcases p.installMetric_cases metric with ⟨_, -, hrefused⟩ | ⟨-, -, hnew⟩
      · rw [Pipeline.obey, hrefused]
        exact h
      · rw [Pipeline.obey, hnew] at hwired ⊢
        exact ⟨hwired, h.matcher_mem, h.matcher_id, now, happend metric, hsame⟩
  | addMetric config =>
      rcases p.addMetric_cases config with ⟨_, -, hrefused⟩ | ⟨metric, -, -, -, hnew⟩
      · rw [Pipeline.obey, hrefused]
        exact h
      · rw [Pipeline.obey, hnew] at hwired ⊢
        exact ⟨hwired, h.matcher_mem, h.matcher_id, now, happend metric, hsame⟩

/-- An event reaches the metric just when the matcher accepts it. -/
theorem Runs.mem_accepting_iff (h : p.Runs matcher alone) {now : Metric}
    (hsame : now.sansFailures = alone.sansFailures) (event : Event) :
    now.matcherId ∈ p.accepting event ↔ matcher.accepts event = true := by
  have hid : now.matcherId = matcher.id :=
    (congrArg Metric.matcherId hsame).trans h.matcher_id.symm
  rw [hid]
  exact id_mem_accepting_iff h.wired h.matcher_mem event

theorem Runs.onEvent (h : p.Runs matcher alone) (event : Event) (world : World)
    (sink : Sink Other) (other : Other) :
    (p.onEvent event world).pipeline.Runs matcher
      (if matcher.accepts event then (alone.handle event sink other).metric else alone) := by
  obtain ⟨now, hnow, hsame⟩ := h.metric
  have hmap := p.sansFailures_onEvent event world
  -- the metric is found again by what it is without its sink failures
  have hthere :
      (if now.matcherId ∈ p.accepting event then now.after event else now.sansFailures) ∈
        (p.onEvent event world).pipeline.metrics.map Metric.sansFailures := by
    rw [hmap]
    exact List.mem_map_of_mem hnow
  obtain ⟨next, hnext, hafter⟩ := List.mem_map.mp hthere
  refine ⟨h.wired.onEvent event world, h.matcher_mem, ?_, next, hnext, ?_⟩
  · split
    · rw [Metric.matcherId_handle]
      exact h.matcher_id
    · exact h.matcher_id
  · rw [hafter]
    by_cases haccepts : matcher.accepts event = true
    · rw [if_pos ((h.mem_accepting_iff hsame event).mpr haccepts), if_pos haccepts,
        Metric.sansFailures_handle, ← now.after_sansFailures, hsame, alone.after_sansFailures]
    · rw [if_neg fun hmem => haccepts ((h.mem_accepting_iff hsame event).mp hmem),
        if_neg haccepts]
      exact hsame

/-! ## Runs -/

theorem Runs.obeyAll {m : Metric} (h : p.Runs matcher m) (world : World)
    {commands : List (Command World)} (hspared : ∀ command ∈ commands, command.Spares m)
    (sink : Sink Other) (other : Other) :
    (p.obeyAll world commands).pipeline.Runs matcher
      (m.feedAll sink other ((commands.filterMap Command.event?).filter matcher.accepts)).1 := by
  induction commands with
  | nil => exact h
  | cons command past ih =>
      obtain ⟨hlatest, hpast⟩ := List.forall_mem_cons.mp hspared
      have hbefore := ih hpast
      rw [Pipeline.obeyAll]
      cases hevent : command.event? with
      | none =>
          rw [List.filterMap_cons_none hevent]
          refine hbefore.obey _ ?_ hevent
          obtain ⟨hid, hmatcherId⟩ := m.ids_feedAll sink other
            ((past.filterMap Command.event?).filter matcher.accepts)
          -- whether a command spares a metric hangs on the two numbers only
          cases command with
          | addMatcher _ => exact fun hsame => hlatest (hsame.trans hmatcherId)
          | removeMetric _ => exact fun hsame => hlatest (hsame.trans hid)
          | replaceConfig _ => exact hlatest
          | addMetric _ | installMetric _ | setSink _ | handle _ => trivial
      | some event =>
          have hcommand : command = .handle event := by
            cases command with
            | handle e => exact congrArg Command.handle (Option.some.inj hevent)
            | _ => cases hevent
          have hstep := hbefore.onEvent event (p.obeyAll world past).world sink
            (m.feedAll sink other ((past.filterMap Command.event?).filter matcher.accepts)).2
          rw [List.filterMap_cons_some hevent, List.filter_cons, hcommand, Pipeline.obey]
          split
          · next haccepts =>
            rw [if_pos haccepts] at hstep
            exact hstep
          · next hrefused =>
            rw [if_neg hrefused] at hstep
            exact hstep

/-- A metric that is spared is, at every point of a run, the only one with its number and, but for
sink failures, what it would be by itself after the events that its matcher accepts. What it adds to
the alerts of an event is what it would fire by itself. -/
theorem obeyAll_eq_feedAll (hp : p.Reachable fun _ => True) {m : Metric} (hm : m ∈ p.metrics)
    (world : World) {commands : List (Command World)}
    (hspared : ∀ command ∈ commands, command.Spares m) (sink : Sink Other) (other : Other) :
    ∃ matcher, p.matcher? m.matcherId = some matcher ∧
      let run := p.obeyAll world commands
      let accepted := (commands.filterMap Command.event?).filter matcher.accepts
      let alone := m.feedAll sink other accepted
      ∃ now ∈ run.pipeline.metrics,
        (now.id = m.id ∧ ∀ n ∈ run.pipeline.metrics, n.id = m.id → n = now) ∧
        now.sansFailures = alone.1.sansFailures ∧
        ∀ event,
          (run.pipeline.onEvent event run.world).fired =
            run.pipeline.metrics.flatMap (run.pipeline.contribution event) ∧
          run.pipeline.contribution event now =
            if matcher.accepts event then alertsIn (alone.1.handle event sink alone.2).outcome
            else [] := by
  have hwired := hp.invariant wired_invariant
  obtain ⟨matcher, hmatcher, hid, hfound⟩ := exists_matcher? hwired hm
  refine ⟨matcher, hfound, ?_⟩
  intro run accepted alone
  have hruns : run.pipeline.Runs matcher alone.1 :=
    Runs.obeyAll ⟨hwired, hmatcher, hid, m, hm, rfl⟩ world hspared sink other
  obtain ⟨now, hnow, hsame⟩ := hruns.metric
  have hnumber : now.id = m.id :=
    (congrArg Metric.id hsame).trans (m.ids_feedAll sink other accepted).1
  refine ⟨now, hnow, ⟨hnumber, fun n hn hn' => ?_⟩, hsame, fun event => ⟨?_, ?_⟩⟩
  · exact List.inj_on_of_nodup_map hruns.wired.metricIds hn hnow (hn'.trans hnumber.symm)
  · exact run.pipeline.fired_onEvent event run.world
  · have hverdicts : now.verdicts event = (alone.1.handle event sink alone.2).outcome :=
      calc now.verdicts event
        _ = now.sansFailures.verdicts event := (now.verdicts_sansFailures event).symm
        _ = alone.1.sansFailures.verdicts event := by rw [hsame]
        _ = alone.1.verdicts event := alone.1.verdicts_sansFailures event
        _ = (alone.1.handle event sink alone.2).outcome :=
            (alone.1.outcome_handle event sink alone.2).symm
    unfold contribution
    rw [hverdicts]
    exact if_congr (hruns.mem_accepting_iff hsame event) rfl rfl

/-- Between two events of its own, the second of which fires, a metric sees another metric drop one
that its own matcher rejects and go, a metric with its own number refused and a matcher come. -/
theorem obeyAll_eq_feedAll_five_commands :
    let first : MetricConfig := ⟨1, 7, [], none, some 10, [⟨9, 2, 1, 0⟩]⟩
    let second : MetricConfig := ⟨2, 8, [5], none, some 10, [⟨10, 1, 0, 0⟩]⟩
    let c : Config :=
      { start := 0
        matchers := [⟨7, 3, [⟨6, .equalsInt 1⟩]⟩, ⟨8, 3, [⟨6, .below 1⟩]⟩]
        metrics := [first, second] }
    let p := (ofConfig c (Sink.log : Sink Unit)).pipeline
    let m := first.installed c
    let event : UInt64 → Int32 → Event := fun time value => ⟨time, 3, [⟨6, .int value⟩]⟩
    let commands : List (Command Unit) :=
      [.addMatcher ⟨6, fun _ => true⟩, .addMetric first, .removeMetric 2, .handle (event 2 0),
        .handle (event 1 1)]
    let run := p.obeyAll () commands
    (p.Reachable (fun _ => True) ∧ m ∈ p.metrics ∧ ∀ command ∈ commands, command.Spares m) ∧
    ∃ now ∈ run.pipeline.metrics,
      now.sansFailures = (m.feedAll Sink.log () [event 1 1]).1.sansFailures ∧
      run.pipeline.contribution (event 5 1) now = [⟨9, 1, .whole, 5, 2, 1, 1⟩] := by
  intro first second c p m event commands run
  have hvalid : c.validate = .ok () := by rfl
  have hp : p.Reachable fun _ => True := .ofConfig c Sink.log (ofConfig_ok hvalid Sink.log).1
  have hm : m ∈ p.metrics := List.mem_cons_self
  have hspared : ∀ command ∈ commands, command.Spares m := by
    simp only [commands, List.forall_mem_cons, Command.Spares]
    exact ⟨by decide, trivial, by decide, trivial, trivial, fun _ h => (List.not_mem_nil h).elim⟩
  refine ⟨⟨hp, hm, hspared⟩, ?_⟩
  obtain ⟨matcher, hmatcher, now, hnow, -, hsame, hevents⟩ :=
    obeyAll_eq_feedAll hp hm () hspared Sink.log ()
  cases hmatcher
  refine ⟨now, hnow, hsame, ?_⟩
  rw [(hevents (event 5 1)).2]
  decide

end Pipeline

end CountAlarm
