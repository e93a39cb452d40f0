import CountAlarm.Proofs.Pipeline.Independence
/-!
# Who handles an event

Whatever commands led to a pipeline, the numbers of its matchers differ, those of its metrics
differ, and every metric has its matcher. So routing by numbers means what it should: an event is
handled by just the metrics whose own matcher accepts it, each once and in their order, and by
nobody else: `onEvent_addressed`. The order of the matchers makes no difference.
-/

namespace CountAlarm

/-! ## Handling one after the other -/

/-- Lets metrics handle one event, each in the world that the one before it left. -/
def Metric.handleEach {World : Type} (sink : Sink World) (event : Event) :
    List Metric → World → List (Handled World) × World
  | [], world => ([], world)
  | m :: ms, world =>
    let handled := m.handle event sink world
    let rest := handleEach sink event ms handled.world
    (handled :: rest.1, rest.2)

/-- Metrics with some new ones in the places of those with their numbers. -/
def Metric.replaceAll (metrics news : List Metric) : List Metric :=
  metrics.map fun m => (news.find? fun new => new.id == m.id).getD m

namespace Metric

theorem replaceAll_cons_of_not_mem {metrics news : List Metric} {new : Metric}
    (h : new.id ∉ metrics.map Metric.id) :
    replaceAll metrics (new :: news) = replaceAll metrics news := by
  apply List.map_congr_left
  intro m hm
  have hne : ¬(new.id == m.id) = true := by
    rw [beq_iff_eq]
    intro heq
    exact h (heq ▸ List.mem_map_of_mem hm)
  rw [List.find?_cons_of_neg (p := fun n : Metric => n.id == m.id) hne]

theorem replaceAll_cons_of_id_eq {m new : Metric} {metrics news : List Metric} (hid : new.id = m.id)
    (h : m.id ∉ metrics.map Metric.id) :
    replaceAll (m :: metrics) (new :: news) = new :: replaceAll metrics news := by
  have hfound : (new :: news).find? (fun new => new.id == m.id) = some new :=
    List.find?_cons_of_pos (beq_iff_eq.mpr hid)
  have hothers : replaceAll metrics (new :: news) = replaceAll metrics news :=
    replaceAll_cons_of_not_mem (hid ▸ h)
  rw [← hothers]
  unfold replaceAll
  rw [List.map_cons, hfound, Option.getD_some]

theorem cons_replaceAll_of_not_mem {m : Metric} {metrics news : List Metric}
    (h : m.id ∉ news.map Metric.id) :
    replaceAll (m :: metrics) news = m :: replaceAll metrics news := by
  have hnone : (news.find? fun new => new.id == m.id) = none := by
    rw [List.find?_eq_none]
    intro new hnew heq
    exact h (beq_iff_eq.mp heq ▸ List.mem_map_of_mem hnew)
  unfold replaceAll
  rw [List.map_cons, hnone, Option.getD_none]

variable {World : Type} (sink : Sink World) (event : Event)

theorem map_id_handleEach (metrics : List Metric) (world : World) :
    ((handleEach sink event metrics world).1.map Handled.metric).map Metric.id =
      metrics.map Metric.id := by
  induction metrics generalizing world with
  | nil => rfl
  | cons m rest ih =>
      rw [handleEach, List.map_cons, List.map_cons, List.map_cons, id_handle, ih]

end Metric

namespace Pipeline

variable {World : Type}

/-- What it comes to for some metrics that some of them have handled an event. -/
def gather (metrics : List Metric) (event : Event) (handled : List (Handled World) × World) :
    HandledAll World :=
  { metrics := Metric.replaceAll metrics (handled.1.map Handled.metric)
    fired := handled.1.flatMap fun h => alertsIn h.outcome
    drops := handled.1.flatMap fun h => (dropIn? h.outcome).toList
    world := handled.2
    log := handled.1.flatMap fun h => h.entries event }

section HandleAll

variable (sink : Sink World) (event : Event) (accepting : List UInt64)

/-- Handling by numbers is handling one after the other by those whose matcher's number accepts. -/
theorem handleAll_eq_gather {metrics : List Metric} (hids : (metrics.map Metric.id).Nodup)
    (world : World) :
    handleAll sink event accepting metrics world =
      gather metrics event
        (Metric.handleEach sink event (metrics.filter fun m => m.matcherId ∈ accepting) world) := by
  induction metrics generalizing world with
  | nil => rfl
  | cons m rest ih =>
      obtain ⟨hm, hrest⟩ := List.nodup_cons.mp hids
      by_cases haccepted : m.matcherId ∈ accepting
      · have hid := m.id_handle event sink world
        rw [handleAll_cons_eq haccepted world, ih hrest,
          List.filter_cons, if_pos (decide_eq_true haccepted), Metric.handleEach]
        unfold gather
        rw [List.map_cons, Metric.replaceAll_cons_of_id_eq hid hm]
        rfl
      · have hnot : m.id ∉ ((Metric.handleEach sink event
            (rest.filter fun n => n.matcherId ∈ accepting) world).1.map Handled.metric).map
              Metric.id := by
          rw [Metric.map_id_handleEach]
          exact fun hmem => hm ((List.filter_sublist.map _).subset hmem)
        rw [handleAll_cons_of_not_mem haccepted world, ih hrest,
          List.filter_cons, if_neg fun h => haccepted (of_decide_eq_true h)]
        unfold gather
        rw [Metric.cons_replaceAll_of_not_mem hnot]

/-- Which numbers accept decides, and not their order. -/
theorem handleAll_congr {others : List UInt64} (h : ∀ id, id ∈ accepting ↔ id ∈ others)
    (metrics : List Metric) (world : World) :
    handleAll sink event accepting metrics world = handleAll sink event others metrics world := by
  induction metrics generalizing world with
  | nil => rfl
  | cons m rest ih =>
      by_cases haccepted : m.matcherId ∈ accepting
      · rw [handleAll_cons_eq haccepted world, handleAll_cons_eq ((h _).mp haccepted) world, ih]
      · rw [handleAll_cons_of_not_mem haccepted world,
          handleAll_cons_of_not_mem (fun hother => haccepted ((h _).mpr hother)) world, ih]

/-- A metric that handles nothing stays as it is, in its place. -/
theorem getElem?_handleAll_of_not_mem {m : Metric} (hm : m.matcherId ∉ accepting)
    {metrics : List Metric} {n : Nat} (h : metrics[n]? = some m) (world : World) :
    (handleAll sink event accepting metrics world).metrics[n]? = some m := by
  induction metrics generalizing world n with
  | nil => cases h
  | cons first rest ih =>
      by_cases haccepted : first.matcherId ∈ accepting
      · rw [handleAll_cons_eq haccepted world]
        cases n with
        | zero =>
            cases h
            exact absurd haccepted hm
        | succ n => exact ih h _
      · rw [handleAll_cons_of_not_mem haccepted world]
        cases n with
        | zero => exact h
        | succ n => exact ih h world

end HandleAll

/-! ## Routing -/

/-- The matcher that a metric names accepts an event. -/
def addresses (p : Pipeline World) (event : Event) (m : Metric) : Bool :=
  (p.matcher? m.matcherId).any fun matcher => matcher.accepts event

/-- The metrics that an event is for, in the order in which they were installed. -/
def addressed (p : Pipeline World) (event : Event) : List Metric :=
  p.metrics.filter (p.addresses event)

variable {p : Pipeline World}

theorem Wired.mem_accepting_iff (h : p.Wired) {m : Metric} (hm : m ∈ p.metrics) (event : Event) :
    m.matcherId ∈ p.accepting event ↔ p.addresses event m = true := by
  obtain ⟨matcher, hmatcher, hid, hfound⟩ := exists_matcher? h hm
  unfold addresses
  rw [hfound, Option.any_some, ← hid]
  exact id_mem_accepting_iff h hmatcher event

theorem Wired.addressed_eq (h : p.Wired) (event : Event) :
    (p.metrics.filter fun m => m.matcherId ∈ p.accepting event) = p.addressed event := by
  apply List.filter_congr
  intro m hm
  rw [Bool.eq_iff_iff, decide_eq_true_iff]
  exact h.mem_accepting_iff hm event

theorem Wired.any_accepting (h : p.Wired) (event : Event) :
    (p.metrics.any fun m => (p.accepting event).contains m.matcherId) =
      !(p.addressed event).isEmpty := by
  rw [← h.addressed_eq event, Bool.eq_iff_iff]
  simp

/-- The matchers may stand in any order. -/
theorem onEvent_perm {matchers : List Matcher} (hperm : matchers.Perm p.matchers) (event : Event)
    (world : World) :
    ({ p with matchers } : Pipeline World).onEvent event world =
      { p.onEvent event world with
        pipeline := { (p.onEvent event world).pipeline with matchers } } := by
  have haccepting : ∀ id, id ∈ ({ p with matchers } : Pipeline World).accepting event ↔
      id ∈ p.accepting event :=
    fun id => ((hperm.filter _).map _).mem_iff
  have hcontains : ∀ id, (({ p with matchers } : Pipeline World).accepting event).contains id =
      (p.accepting event).contains id := by
    intro id
    rw [Bool.eq_iff_iff, List.contains_iff_mem, List.contains_iff_mem]
    exact haccepting id
  unfold onEvent
  simp only [handleAll_congr p.sink event _ haccepting, hcontains]

/-- In every pipeline that commands lead to, numbers are distinct and no metric is without its
matcher. An event is handled by the metrics that it is for, one after the other; the others stay as
they are, and the order of the matchers makes no difference. -/
theorem onEvent_addressed (hp : p.Reachable fun _ => True) :
    ((p.matchers.map Matcher.id).Nodup ∧ (p.metrics.map Metric.id).Nodup ∧
      ∀ m ∈ p.metrics, ∃ matcher ∈ p.matchers, matcher.id = m.matcherId ∧
        p.matcher? m.matcherId = some matcher) ∧
    ∀ (event : Event) (world : World),
      let routed := p.onEvent event world
      let handled := Metric.handleEach p.sink event (p.addressed event) world
      let counted := (handled.1.flatMap fun h => (dropIn? h.outcome).toList).foldl Totals.noteDrop
        p.totals.noteReceived
      routed =
        { pipeline :=
            { p with
              metrics := Metric.replaceAll p.metrics (handled.1.map Handled.metric)
              totals := if (p.addressed event).isEmpty then counted else counted.noteMatched }
          fired := handled.1.flatMap fun h => alertsIn h.outcome
          world := handled.2
          log := handled.1.flatMap fun h => h.entries event } ∧
      (∀ (n : Nat) (m : Metric), p.metrics[n]? = some m → p.addresses event m = false →
        routed.pipeline.metrics[n]? = some m) ∧
      ∀ matchers : List Matcher, matchers.Perm p.matchers →
        ({ p with matchers } : Pipeline World).onEvent event world =
          { routed with pipeline := { routed.pipeline with matchers } } := by
  have hwired := hp.invariant wired_invariant
  refine ⟨⟨hwired.matcherIds, hwired.metricIds, fun m hm => exists_matcher? hwired hm⟩, ?_⟩
  intro event world routed handled counted
  have hhandled : handleAll p.sink event (p.accepting event) p.metrics world =
      gather p.metrics event handled := by
    rw [handleAll_eq_gather p.sink event _ hwired.metricIds, hwired.addressed_eq event]
  refine ⟨?_, ?_, fun matchers hperm => onEvent_perm hperm event world⟩
  · simp only [routed, onEvent]
    rw [hhandled, hwired.any_accepting event]
    cases (p.addressed event).isEmpty <;> rfl
  · intro n m hn hquiet
    have hmem : m ∈ p.metrics := List.mem_of_getElem? hn
    have hnot : m.matcherId ∉ p.accepting event := by
      rw [hwired.mem_accepting_iff hmem event, hquiet]
      exact Bool.false_ne_true
    exact getElem?_handleAll_of_not_mem p.sink event _ hnot hn world

/-- The matcher of the first of three metrics was replaced and stands last; the second metric wants
events with another value of the field. -/
theorem onEvent_addressed_two_of_three :
    let metric : UInt64 → UInt64 → MetricConfig := fun id matcherId =>
      ⟨id, matcherId, [], none, some 10, [⟨10 * id, 1, 0, 0⟩]⟩
    let c : Config :=
      { start := 0
        matchers := [⟨7, 5, []⟩, ⟨8, 3, [⟨6, .equalsInt 1⟩]⟩, ⟨9, 3, [⟨6, .equalsInt 2⟩]⟩]
        metrics := [metric 1 7, metric 2 8, metric 3 9] }
    let p := ((ofConfig c (Sink.log : Sink Unit)).pipeline.obey ()
      (.addMatcher ⟨7, fun event => event.atom == 3⟩)).pipeline
    let event : Event := ⟨1, 3, [⟨6, .int 2⟩]⟩
    let routed := ({ p with matchers := p.matchers.reverse } : Pipeline Unit).onEvent event ()
    p.Reachable (fun _ => True) ∧ p.matchers.map Matcher.id = [8, 9, 7] ∧
      (p.addressed event).map Metric.id = [1, 3] ∧
      routed.fired = (p.onEvent event ()).fired ∧ routed.fired.map Alert.alertId = [10, 30] ∧
      routed.pipeline.metrics[1]? = p.metrics[1]? := by
  intro metric c p event routed
  have hvalid : c.validate = .ok () := by rfl
  have hp : p.Reachable fun _ => True :=
    .obey () _ (.ofConfig c Sink.log (ofConfig_ok hvalid Sink.log).1) trivial
  obtain ⟨-, hevents⟩ := onEvent_addressed hp
  obtain ⟨-, hquiet, hperm⟩ := hevents event ()
  have hrouted : routed = { p.onEvent event () with
      pipeline := { (p.onEvent event ()).pipeline with matchers := p.matchers.reverse } } :=
    hperm p.matchers.reverse p.matchers.reverse_perm
  have hsecond : p.metrics[1]? = some ((metric 2 8).installed c) := rfl
  have hother : p.addresses event ((metric 2 8).installed c) = false := by decide
  have hkept := hquiet 1 _ hsecond hother
  refine ⟨hp, by decide, by decide, by rw [hrouted], by decide, ?_⟩
  calc routed.pipeline.metrics[1]?
    _ = (p.onEvent event ()).pipeline.metrics[1]? := by rw [hrouted]
    _ = some ((metric 2 8).installed c) := hkept
    _ = p.metrics[1]? := hsecond.symm

end Pipeline

end CountAlarm
