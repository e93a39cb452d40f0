import CountAlarm.Proofs.Pipeline.Outcomes
/-!
# Totals account for every outcome

No alert is lost, sent twice or reordered between detectors, sink and caller, and the totals of a
pipeline are the numbers of what became of the events of a stream: `play_accounts`. Counters stop at
`wordLimit`, and so do the numbers here.
-/

namespace CountAlarm

/-! ## Totals without detectors -/

theorem addCounters_min (m n : Nat) : addCounters (min wordLimit m) n = min wordLimit (m + n) := by
  unfold addCounters
  omega

namespace Totals

/-- How many drops for a cause some totals show. -/
def droppedFor (t : Totals) : DropCause → Nat
  | .missingField => t.missingField
  | .beforeStart => t.beforeStart

theorem foldl_noteDrop (t : Totals) (drops : List DropCause) :
    (drops.foldl noteDrop t).received = t.received ∧ (drops.foldl noteDrop t).matched = t.matched ∧
      (drops.foldl noteDrop t).detectors = t.detectors := by
  induction drops generalizing t with
  | nil => exact ⟨rfl, rfl, rfl⟩
  | cons cause rest ih =>
      obtain ⟨hreceived, hmatched, hdetectors⟩ := ih (t.noteDrop cause)
      cases cause <;> exact ⟨hreceived, hmatched, hdetectors⟩

theorem droppedFor_foldl_noteDrop {t : Totals} {cause : DropCause} {n : Nat}
    (h : t.droppedFor cause = min wordLimit n) (drops : List DropCause) :
    (drops.foldl noteDrop t).droppedFor cause = min wordLimit (n + drops.count cause) := by
  induction drops generalizing t n with
  | nil => exact h
  | cons first rest ih =>
      rw [List.foldl_cons, List.count_cons, Nat.add_comm (rest.count cause), ← Nat.add_assoc]
      apply ih
      by_cases hsame : first = cause
      · subst hsame
        rw [if_pos (beq_self_eq_true _), ← addCounters_min, ← h]
        cases first <;> rfl
      · -- a drop for the other cause leaves this counter alone
        rw [if_neg fun hbeq => hsame (beq_iff_eq.mp hbeq), Nat.add_zero, ← h]
        cases first <;> cases cause <;> first | rfl | exact absurd rfl hsame

/-- Totals count what becomes of the events of a stream, apart from what detectors make of them. -/
structure Tells (t : Totals) (c : Config) (events : List Event) : Prop where
  received : t.received = min wordLimit events.length
  matched : t.matched = min wordLimit (events.countP fun e => ∃ m ∈ c.metrics, m.Routed c e)
  dropped : ∀ cause, t.droppedFor cause = min wordLimit (c.dropsFor cause events)
  detectors : t.detectors = {}

end Totals

namespace Pipeline

variable {World : Type} {p : Pipeline World} {c : Config} {past : List Event}

theorem Reflects.any_accepting_iff (h : p.Reflects c past) (e : Event) :
    (p.metrics.any fun metric => (p.accepting e).contains metric.matcherId) = true ↔
      ∃ m ∈ c.metrics, m.Routed c e := by
  have hmap := map_eq_of_forall₂ h.metrics (f := fun m => decide (m.Routed c e))
    (g := fun metric => (p.accepting e).contains metric.matcherId) fun m metric hm => by
      rw [Bool.eq_iff_iff, decide_eq_true_iff, List.contains_iff_mem]
      exact (h.mem_accepting_iff hm e).symm
  have hany := congrArg (List.any · id) hmap
  simp only [List.any_map, Function.id_comp] at hany
  rw [← hany, List.any_eq_true]
  simp only [decide_eq_true_iff]

theorem count_drops (c : Config) (cause : DropCause) (e : Event) :
    (c.metrics.filterMap fun m => m.drop? c e).count cause =
      c.metrics.countP fun m => m.drop? c e = some cause := by
  rw [List.count, List.countP_filterMap]
  apply List.countP_congr
  intro m _
  cases m.drop? c e <;> simp

theorem Reflects.totals_onEvent (h : p.Reflects c past) (e : Event) (world : World) :
    (p.onEvent e world).pipeline.totals =
      let drops := c.metrics.filterMap fun m => m.drop? c e
      let counted := drops.foldl Totals.noteDrop p.totals.noteReceived
      if ∃ m ∈ c.metrics, m.Routed c e then counted.noteMatched else counted := by
  unfold Pipeline.onEvent
  simp only [h.drops_handleAll e world]
  exact if_congr (h.any_accepting_iff e) rfl rfl

theorem Reflects.tells_onEvent (h : p.Reflects c past) (htells : p.totals.Tells c past) (e : Event)
    (world : World) : (p.onEvent e world).pipeline.totals.Tells c (e :: past) := by
  let drops := c.metrics.filterMap fun m => m.drop? c e
  let counted := drops.foldl Totals.noteDrop p.totals.noteReceived
  obtain ⟨hreceived, hmatched, hdetectors⟩ := Totals.foldl_noteDrop p.totals.noteReceived drops
  have hdetectors : counted.detectors = {} := hdetectors.trans htells.detectors
  have hreceived : counted.received = min wordLimit (e :: past).length := by
    rw [hreceived, List.length_cons, ← addCounters_min, ← htells.received]
    rfl
  have hdropped : ∀ cause, counted.droppedFor cause =
      min wordLimit (c.dropsFor cause (e :: past)) := by
    intro cause
    have hbefore : p.totals.noteReceived.droppedFor cause =
        min wordLimit (c.dropsFor cause past) := by
      rw [← htells.dropped cause]
      cases cause <;> rfl
    rw [Totals.droppedFor_foldl_noteDrop hbefore drops, count_drops, Nat.add_comm]
    rfl
  rw [h.totals_onEvent]
  simp only
  by_cases hrouted : ∃ m ∈ c.metrics, m.Routed c e
  · rw [if_pos hrouted]
    refine ⟨hreceived, ?_, fun cause => ?_, hdetectors⟩
    · rw [List.countP_cons, if_pos (decide_eq_true hrouted), ← addCounters_min, ← htells.matched]
      exact congrArg (addCounters · 1) hmatched
    · rw [← hdropped cause]
      cases cause <;> rfl
  · rw [if_neg hrouted]
    refine ⟨hreceived, ?_, hdropped, hdetectors⟩
    rw [List.countP_cons, if_neg fun hpos => hrouted (of_decide_eq_true hpos), Nat.add_zero,
      ← htells.matched]
    exact hmatched

theorem Reflects.tells_play (h : p.Reflects c []) (htells : p.totals.Tells c []) (world : World)
    (events : List Event) : (p.play world events).pipeline.totals.Tells c events := by
  induction events with
  | nil => exact htells
  | cons e past ih => exact (h.play world past).tells_onEvent ih e _

end Pipeline

/-! ## Totals with detectors -/

theorem Totals.foldl_absorb (t : Totals) (detectors : List Detector) :
    detectors.foldl (fun t d => t.absorb d.tally) t =
      { t with detectors := detectors.foldl (fun u d => u.add d.tally) t.detectors } := by
  induction detectors generalizing t with
  | nil => rfl
  | cons d rest ih => exact ih (t.absorb d.tally)

theorem Tally.read_foldl_add {u : Tally} {counter : Counter} {n : Nat}
    (h : u.read counter = min wordLimit n) (detectors : List Detector) :
    (detectors.foldl (fun u d => u.add d.tally) u).read counter =
      min wordLimit (n + countAll detectors counter) := by
  induction detectors generalizing u n with
  | nil => exact h
  | cons d rest ih =>
      have hadd : (u.add d.tally).read counter = min wordLimit (n + d.tally.read counter) := by
        rw [← addCounters_min, ← h]
        cases counter <;> rfl
      rw [List.foldl_cons, ih hadd, Nat.add_assoc]
      rfl

namespace Pipeline

variable {World : Type}

theorem allTotals_eq (p : Pipeline World) :
    p.allTotals =
      { p.totals with
        detectors := p.detectors.foldl (fun u d => u.add d.tally) p.totals.detectors } :=
  Totals.foldl_absorb p.totals p.detectors

section Fresh

variable {c : Config} (hvalid : c.validate = .ok ()) (sink : Sink World) (world : World)
  (events : List Event)

include hvalid

theorem tells_ofConfig : (ofConfig c sink).pipeline.totals.Tells c [] := by
  rw [(ofConfig_ok hvalid sink).2]
  exact ⟨rfl, rfl, fun cause => by cases cause <;> rfl, rfl⟩

theorem countAll_ofConfig (counter : Counter) :
    countAll (ofConfig c sink).pipeline.detectors counter = 0 := by
  have hnone : ∀ d ∈ (ofConfig c sink).pipeline.detectors, d.tally = {} := by
    rw [(ofConfig_ok hvalid sink).2, detectors]
    intro d hd
    obtain ⟨metric, hmetric, hd⟩ := List.mem_flatMap.mp hd
    obtain ⟨m, -, rfl⟩ := List.mem_map.mp hmetric
    obtain ⟨a, -, rfl⟩ := List.mem_map.mp hd
    rfl
  apply List.sum_eq_zero
  rw [List.forall_mem_map]
  intro d hd
  rw [hnone d hd]
  cases counter <;> rfl

theorem accounts_play_ofConfig :
    let p := (ofConfig c sink).pipeline
    let played := p.play world events
    Accounts sink (p.allDetections world events) p.detectors played.pipeline.detectors world
      played.world := by
  have haccounts := accounts_play (reflects_ofConfig hvalid sink) world events
  have hsink : (ofConfig c sink).pipeline.sink = sink := by rw [(ofConfig_ok hvalid sink).2]
  rw [hsink] at haccounts
  exact haccounts

/-- The detectors of a fresh pipeline have counted what their detections account for. -/
theorem read_allTotals (counter : Counter) :
    let p := (ofConfig c sink).pipeline
    (p.play world events).pipeline.allTotals.detectors.read counter =
      min wordLimit (sink.marks (p.allDetections world events) world counter) := by
  intro p
  have hcounts := (accounts_play_ofConfig hvalid sink world events).counts counter
  rw [countAll_ofConfig hvalid sink, Nat.zero_add] at hcounts
  have htells := (reflects_ofConfig hvalid sink).tells_play (tells_ofConfig hvalid sink) world
    events
  have hzero : (p.play world events).pipeline.totals.detectors.read counter = min wordLimit 0 := by
    rw [htells.detectors]
    cases counter <;> rfl
  calc (p.play world events).pipeline.allTotals.detectors.read counter
    _ = min wordLimit (0 + countAll (p.play world events).pipeline.detectors counter) := by
        rw [allTotals_eq]
        exact Tally.read_foldl_add hzero _
    _ = min wordLimit (countAll (p.play world events).pipeline.detectors counter) := by
        rw [Nat.zero_add]
    _ = min wordLimit (sink.marks (p.allDetections world events) world counter) := hcounts

/-- The calls that a fresh pipeline makes to its sink are those with the alerts that it returns. -/
theorem play_audited :
    let played := (ofConfig c sink).pipeline.play world events
    let audited := (ofConfig c sink.audited).pipeline.play (world, []) events
    audited.fired = played.fired ∧
      audited.world = (played.world, (sink.calls (alertsOfRun played.fired) world).reverse) := by
  intro played audited
  have halike : (ofConfig c sink.audited).pipeline.Alike (ofConfig c sink).pipeline := by
    rw [(ofConfig_ok hvalid sink).2, (ofConfig_ok hvalid sink.audited).2]
    exact ⟨rfl, rfl⟩
  have hfired : audited.fired = played.fired := (halike.play (world, []) world events).1
  have hplayed := (accounts_play_ofConfig hvalid sink world events).world_eq
  have haudited := (accounts_play_ofConfig hvalid sink.audited (world, []) events).world_eq
  rw [← alertsOfRun_play] at hplayed haudited
  refine ⟨hfired, ?_⟩
  calc audited.world
    _ = sink.audited.after (alertsOfRun audited.fired) (world, []) := haudited
    _ = (sink.after (alertsOfRun played.fired) world,
          (sink.calls (alertsOfRun played.fired) world).reverse) := by
        rw [hfired, Sink.after_audited, List.append_nil]
    _ = (played.world, (sink.calls (alertsOfRun played.fired) world).reverse) := by rw [hplayed]

end Fresh

/-- What a fresh pipeline returns is what its sink is called with, in the same order, and the totals
are the numbers of what became of the events, as far as counters go. -/
theorem play_accounts (c : Config) (sink : Sink World) (world : World) (events : List Event)
    (hvalid : c.validate = .ok ()) :
    let played := (ofConfig c sink).pipeline.play world events
    let audited := (ofConfig c sink.audited).pipeline.play (world, []) events
    let alerts := alertsOfRun played.fired
    let calls := audited.world.2.reverse
    let totals := played.pipeline.allTotals
    ((ofConfig c sink).outcome = .ok () ∧ (ofConfig c sink.audited).outcome = .ok ()) ∧
    (audited.fired = played.fired ∧ audited.world.1 = played.world ∧
      calls.map Prod.fst = alerts) ∧
    totals.detectors.fired = min wordLimit alerts.length ∧
    totals.detectors.sinkFailures = min wordLimit (calls.countP fun call => call.2.isSome) ∧
    totals.detectors.suppressed = min wordLimit (c.silentIn played.fired) ∧
    totals.received = min wordLimit events.length ∧
    totals.matched = min wordLimit (events.countP fun e => ∃ m ∈ c.metrics, m.Routed c e) ∧
    totals.beforeStart = min wordLimit (c.dropsFor .beforeStart events) ∧
    totals.missingField = min wordLimit (c.dropsFor .missingField events) := by
  intro played audited alerts calls totals
  obtain ⟨hfired, hworld⟩ := play_audited hvalid sink world events
  have hcalls : calls = sink.calls alerts world := by
    simp only [calls, audited, hworld, List.reverse_reverse]
    rfl
  have halerts : alerts = alertsOf ((ofConfig c sink).pipeline.allDetections world events) :=
    alertsOfRun_play _ world events
  have hreflects := reflects_ofConfig hvalid sink
  have hsound := Config.sound_of_validate hvalid
  have hread := read_allTotals hvalid sink world events
  have htells := hreflects.tells_play (tells_ofConfig hvalid sink) world events
  have htotals := allTotals_eq played.pipeline
  refine ⟨⟨(ofConfig_ok hvalid sink).1, (ofConfig_ok hvalid sink.audited).1⟩,
    ⟨hfired, congrArg Prod.fst hworld, ?_⟩, ?_, ?_, ?_, ?_, ?_, ?_, ?_⟩
  · rw [hcalls, Sink.map_fst_calls]
  · rw [halerts]
    exact hread .fired
  · rw [hcalls, halerts]
    exact hread .sinkFailures
  · rw [← hreflects.countP_allDetections hsound world events]
    exact hread .suppressed
  · simp only [totals, htotals]
    exact htells.received
  · simp only [totals, htotals]
    exact htells.matched
  · simp only [totals, htotals]
    exact htells.dropped .beforeStart
  · simp only [totals, htotals]
    exact htells.dropped .missingField

/-- Of five events one fires into a sink that refuses it, one is too old, one lacks the field of the
projection, one is too high for the matcher and one is suppressed. -/
theorem play_accounts_five_events :
    let c : Config :=
      { start := 100
        matchers := [⟨7, 3, [⟨6, .below 10⟩]⟩]
        metrics := [⟨1, 7, [5], none, some 10, [⟨9, 1, 0, 100⟩, ⟨10, 1, 5, 0⟩]⟩] }
    let refusing : Sink Unit :=
      { name := "refusing"
        deliver := fun _ world => { world, failure := some (.other "refused"), log := [] } }
    let field : Field := ⟨5, .int 8⟩
    let low : Field := ⟨6, .int 9⟩
    let high : Field := ⟨6, .long 10⟩
    let events : List Event :=
      [⟨105, 3, [field, low]⟩, ⟨104, 3, [field, high]⟩, ⟨103, 3, [low]⟩, ⟨50, 3, [field, low]⟩,
        ⟨101, 3, [field, low]⟩]
    let totals := ((ofConfig c refusing).pipeline.play () events).pipeline.allTotals
    c.validate = .ok () ∧
    (totals.detectors.fired = 1 ∧ totals.detectors.sinkFailures = 1 ∧
      totals.detectors.suppressed = 1) ∧
    totals.received = 5 ∧ totals.matched = 4 ∧
    totals.beforeStart = 1 ∧ totals.missingField = 1 := by
  intro c refusing field low high events totals
  have hvalid : c.validate = .ok () := by rfl
  obtain ⟨-, -, hfired, hfailures, hsuppressed, hreceived, hmatched, hbefore, hmissing⟩ :=
    play_accounts c refusing () events hvalid
  refine ⟨hvalid, ⟨?_, ?_, ?_⟩, ?_, ?_, ?_, ?_⟩
  · rw [hfired]
    decide
  · rw [hfailures]
    decide
  · rw [hsuppressed]
    decide
  · rw [hreceived]
    decide
  · rw [hmatched]
    decide
  · rw [hbefore]
    decide
  · rw [hmissing]
    decide

end Pipeline

end CountAlarm
