import CountAlarm.Proofs.Delivery.FanoutTrees
import Mathlib.Data.List.Nodup
/-!
# Trees of built-in sinks

Memories and queues are boxes in which alerts wait to be taken. A box that accepts alerts gets each
of them as often as a tree has leaves for it, whatever the other leaves answer, and nothing but its
owner takes them out again. So as long as a box accepts alerts, what was taken out of it and what is
left in it are all alerts that the tree was handed, in their order.
-/

namespace CountAlarm

/-- A built-in sink. -/
inductive Outlet where
  | log
  | memory (position : Nat)
  | queue (position : Nat)
  | callback (slot : Nat) (answer : List Alert → Option SinkFailure)

/-- Where alerts wait to be taken. -/
inductive Box where
  | memory (position : Nat)
  | queue (position : Nat)
deriving DecidableEq, Repr

namespace Outlet

def sink : Outlet → Sink Mailroom
  | .log => .log
  | .memory position => .memory position
  | .queue position => .queue position
  | .callback slot answer => .callback slot answer

def box? : Outlet → Option Box
  | .memory position => some (.memory position)
  | .queue position => some (.queue position)
  | .log | .callback _ _ => none

end Outlet

/-! ## Boxes of a mailroom -/

namespace Mailroom

variable (m : Mailroom)

def contents : Box → List Alert
  | .memory position => m.remembered position
  | .queue position => (m.queues[position]?.map Queue.pending).getD []

/-- A memory accepts alerts if there is one, and a queue as long as its receiver is there. -/
def accepts : Box → Bool
  | .memory position => decide (position < m.memories.length)
  | .queue position => !m.isClosed position

/-- Takes all alerts out of a box. -/
def take : Box → List Alert × Mailroom
  | .memory position => m.drain position
  | .queue position => m.receive position

theorem fst_take (box : Box) : (m.take box).1 = m.contents box := by
  cases box <;> rfl

theorem contents_take (box other : Box) :
    (m.take box).2.contents other = if other = box then [] else m.contents other := by
  match box, other with
  | .memory i, .memory j =>
      simp only [take, drain, contents, remembered, List.getElem?_set, Box.memory.injEq]
      by_cases h : j = i
      · rw [if_pos h.symm, if_pos h]
        split <;> rfl
      · rw [if_neg (Ne.symm h), if_neg h]
  | .queue i, .queue j =>
      simp only [take, receive, contents, List.getElem?_modify, Box.queue.injEq]
      by_cases h : j = i
      · cases m.queues[j]? <;> simp [h]
      · simp [h, Ne.symm h]
  | .memory i, .queue j => simp [take, drain, contents]
  | .queue i, .memory j => simp [take, receive, contents, remembered]

theorem accepts_take (box other : Box) : (m.take box).2.accepts other = m.accepts other := by
  match box, other with
  | .memory i, .memory j => simp [take, drain, accepts]
  | .queue i, .queue j =>
      simp only [take, receive, accepts, isClosed, List.getElem?_modify]
      by_cases h : i = j <;> cases m.queues[j]? <;> simp [h]
  | .memory i, .queue j => rfl
  | .queue i, .memory j => rfl

theorem contents_close (position : Nat) (box : Box) :
    (m.close position).contents box = if box = .queue position then [] else m.contents box := by
  match box with
  | .memory j => simp [close, contents, remembered]
  | .queue j =>
      simp only [close, contents, List.getElem?_modify, Box.queue.injEq]
      by_cases h : j = position
      · cases m.queues[j]? <;> simp [h]
      · simp [h, Ne.symm h]

theorem accepts_close (position : Nat) (box : Box) :
    (m.close position).accepts box = (m.accepts box && decide (box ≠ .queue position)) := by
  match box with
  | .memory j => exact (Bool.and_true _).symm
  | .queue j =>
      simp only [close, accepts, isClosed, List.getElem?_modify, ne_eq, Box.queue.injEq]
      by_cases h : j = position
      · cases m.queues[j]? <;> simp [h]
      · simp [h, Ne.symm h]

end Mailroom

/-! ## What sinks put into boxes -/

/-- A sink puts every alert into some boxes, as often as they are listed and as far as they accept
it. -/
structure Sink.Fills (sink : Sink Mailroom) (boxes : List Box) : Prop where
  accepts : ∀ alert m box, (sink.deliver alert m).world.accepts box = m.accepts box
  contents : ∀ alert m box, (sink.deliver alert m).world.contents box =
    m.contents box ++ if m.accepts box then List.replicate (boxes.count box) alert else []

namespace Sink

theorem Fills.of_alike {first second : Sink Mailroom} {boxes : List Box} (h : second.Fills boxes)
    (halike : first.Alike second) : first.Fills boxes where
  accepts alert m box := by rw [(halike alert m).1, h.accepts]
  contents alert m box := by rw [(halike alert m).1, h.contents]

theorem fills_memory (position : Nat) : (memory position).Fills [.memory position] where
  accepts alert m box := by
    match box with
    | .memory j => simp [memory, Mailroom.accepts]
    | .queue j => rfl
  contents alert m box := by
    match box with
    | .memory j =>
        simp only [memory, Mailroom.contents, Mailroom.remembered, Mailroom.accepts,
          List.getElem?_modify]
        by_cases hj : j < m.memories.length
        · by_cases h : position = j <;> simp [h, hj]
        · simp [hj]
    | .queue j => simp [memory, Mailroom.contents]

theorem fills_queue (position : Nat) : (queue position).Fills [.queue position] where
  accepts alert m box := by
    simp only [queue]
    split
    · rfl
    · match box with
      | .memory j => rfl
      | .queue j =>
          simp only [Mailroom.accepts, Mailroom.isClosed, List.getElem?_modify]
          by_cases h : position = j <;> cases m.queues[j]? <;> simp [h]
  contents alert m box := by
    simp only [queue]
    match box with
    | .memory j => split <;> simp [Mailroom.contents, Mailroom.remembered]
    | .queue j =>
        by_cases h : position = j
        · subst h
          cases hqueue : m.queues[position]? with
          | none => simp [Mailroom.contents, Mailroom.accepts, Mailroom.isClosed, hqueue]
          | some q =>
              cases hopen : q.isOpen <;>
                simp [Mailroom.contents, Mailroom.accepts, Mailroom.isClosed, hqueue, hopen]
        · split <;> simp [Mailroom.contents, h]

theorem fills_of_boxless {sink : Sink Mailroom}
    (hmemories : ∀ alert m, (sink.deliver alert m).world.memories = m.memories)
    (hqueues : ∀ alert m, (sink.deliver alert m).world.queues = m.queues) : sink.Fills [] where
  accepts alert m box := by
    match box with
    | .memory j => rw [Mailroom.accepts, hmemories]; rfl
    | .queue j => rw [Mailroom.accepts, Mailroom.isClosed, hqueues]; rfl
  contents alert m box := by
    match box with
    | .memory j => simp [Mailroom.contents, Mailroom.remembered, hmemories]
    | .queue j => simp [Mailroom.contents, hqueues]

theorem fills_outlet (outlet : Outlet) : outlet.sink.Fills outlet.box?.toList := by
  cases outlet with
  | log => exact fills_of_boxless (fun _ _ => rfl) fun _ _ => rfl
  | memory position => exact fills_memory position
  | queue position => exact fills_queue position
  | callback slot answer => exact fills_of_boxless (fun _ _ => rfl) fun _ _ => rfl

theorem Fills.cons {sink : Sink Mailroom} {sinks : List (Sink Mailroom)} {first rest : List Box}
    (hfirst : sink.Fills first) (hrest : (fanout sinks).Fills rest) :
    (fanout (sink :: sinks)).Fills (first ++ rest) where
  accepts alert m box := by
    rw [← hfirst.accepts alert m box]
    exact hrest.accepts alert _ box
  contents alert m box := by
    have hcontents := hrest.contents alert (sink.deliver alert m).world box
    rw [hfirst.contents, hfirst.accepts, List.append_assoc] at hcontents
    refine hcontents.trans (congrArg _ ?_)
    rw [List.count_append, ← List.replicate_append_replicate]
    cases m.accepts box <;> rfl

theorem fills_fanout (outlets : List Outlet) :
    (fanout (outlets.map Outlet.sink)).Fills (outlets.filterMap Outlet.box?) := by
  induction outlets with
  | nil => exact fills_of_boxless (fun _ _ => rfl) fun _ _ => rfl
  | cons outlet rest ih =>
      rw [List.filterMap_eq_flatMap_toList] at ih ⊢
      exact (fills_outlet outlet).cons ih

theorem fills_tree (tree : SinkTree Outlet) :
    (tree.sink Outlet.sink).Fills (tree.leaves.filterMap Outlet.box?) :=
  (fills_fanout tree.leaves).of_alike (tree.alike_leaves Outlet.sink)

end Sink

/-! ## Runs -/

/-- What happens to the boxes of a mailroom. -/
inductive BoxStep where
  | deliver (alert : Alert)
  | take (box : Box)
  | close (queue : Nat)

def BoxStep.alert? : BoxStep → Option Alert
  | .deliver alert => some alert
  | .take _ | .close _ => none

/-- A mailroom, and what its boxes held that was taken out of them. -/
structure Emptied where
  mailroom : Mailroom
  taken : Box → List Alert

namespace Emptied

/-- All that came to a box, whether it is still there or not. -/
def held (e : Emptied) (box : Box) : List Alert :=
  e.taken box ++ e.mailroom.contents box

def step (e : Emptied) (sink : Sink Mailroom) : BoxStep → Emptied
  | .deliver alert => { e with mailroom := (sink.deliver alert e.mailroom).world }
  | .take box =>
    let (alerts, mailroom) := e.mailroom.take box
    { mailroom
      taken := fun other => if other = box then e.taken other ++ alerts else e.taken other }
  | .close queue => { e with mailroom := e.mailroom.close queue }

/-- Takes steps, of which the first one stands first. -/
def run (e : Emptied) (sink : Sink Mailroom) : List BoxStep → Emptied
  | [] => e
  | step :: rest => (e.step sink step).run sink rest

variable {sink : Sink Mailroom} {boxes : List Box}

/-- A box that accepts alerts has done so before. -/
theorem accepts_of_step (h : sink.Fills boxes) {e : Emptied} {s : BoxStep} {box : Box}
    (haccepts : (e.step sink s).mailroom.accepts box = true) :
    e.mailroom.accepts box = true := by
  cases s with
  | deliver alert => exact (h.accepts alert e.mailroom box).symm.trans haccepts
  | take other => exact (e.mailroom.accepts_take other box).symm.trans haccepts
  | close queue =>
      rw [step, Mailroom.accepts_close, Bool.and_eq_true] at haccepts
      exact haccepts.1

theorem held_step (h : sink.Fills boxes) {e : Emptied} {s : BoxStep} {box : Box}
    (haccepts : (e.step sink s).mailroom.accepts box = true) :
    (e.step sink s).held box =
      e.held box ++ s.alert?.toList.flatMap (List.replicate (boxes.count box)) := by
  have hbefore := accepts_of_step h haccepts
  cases s with
  | deliver alert =>
      rw [held, step, h.contents, if_pos hbefore, ← List.append_assoc]
      simp [held, BoxStep.alert?]
  | take other =>
      rw [held, step]
      simp only [Mailroom.fst_take, Mailroom.contents_take, BoxStep.alert?, Option.toList_none,
        List.flatMap_nil, List.append_nil, held]
      by_cases hbox : box = other
      · rw [if_pos hbox, if_pos hbox, hbox, List.append_nil]
      · rw [if_neg hbox, if_neg hbox]
  | close queue =>
      rw [step, Mailroom.accepts_close, Bool.and_eq_true, decide_eq_true_iff] at haccepts
      rw [held, step, Mailroom.contents_close, if_neg haccepts.2]
      exact (List.append_nil _).symm

theorem accepts_of_run (h : sink.Fills boxes) {e : Emptied} {steps : List BoxStep} {box : Box}
    (haccepts : (e.run sink steps).mailroom.accepts box = true) :
    e.mailroom.accepts box = true := by
  induction steps generalizing e with
  | nil => exact haccepts
  | cons s rest ih => exact accepts_of_step h (ih haccepts)

theorem held_run (h : sink.Fills boxes) {e : Emptied} {steps : List BoxStep} {box : Box}
    (haccepts : (e.run sink steps).mailroom.accepts box = true) :
    (e.run sink steps).held box =
      e.held box ++
        (steps.filterMap BoxStep.alert?).flatMap (List.replicate (boxes.count box)) := by
  induction steps generalizing e with
  | nil => exact (List.append_nil _).symm
  | cons s rest ih =>
      have hstep : (e.step sink s).mailroom.accepts box = true := accepts_of_run h haccepts
      rw [List.filterMap_eq_flatMap_toList] at ih ⊢
      rw [run, ih haccepts, held_step h hstep, List.flatMap_cons, List.flatMap_append,
        List.append_assoc]

end Emptied

/-! ## Delivery to everyone -/

/-- Whatever its leaves are and answer, a tree hands every alert once to each of them, from left to
right, and answers the first of their failures, if there is one; it leaves the same world, makes the
same calls and answers the same as one sink over its leaves. If the boxes of built-in leaves are
different ones, then each of them, as long as it accepts alerts, has got just the alerts that were
handed to the tree, in their order, whatever else is taken or closed in the meantime. -/
theorem SinkTree.delivers_to_all :
    (∀ {α World : Type} (sinkOf : α → Sink World) (tree : SinkTree α) (world : World)
      (book : List (LeafCall α)),
      let plain := tree.sink sinkOf
      let watched := tree.sink (Sink.watched sinkOf)
      let flat := Sink.fanout (tree.leaves.map sinkOf)
      let flatWatched := Sink.fanout (tree.leaves.map (Sink.watched sinkOf))
      (∀ alert, ∃ calls : List (LeafCall α),
        (watched.deliver alert (world, book)).world =
          ((plain.deliver alert world).world, book ++ calls) ∧
        calls.map (fun call => (call.leaf, call.alert)) = tree.leaves.map (·, alert) ∧
        FirstFailure calls (plain.deliver alert world).failure) ∧
      ∀ alerts,
        (∃ calls : List (LeafCall α),
          watched.after alerts (world, book) = (plain.after alerts world, book ++ calls) ∧
          calls.map (fun call => (call.leaf, call.alert)) =
            alerts.flatMap fun alert => tree.leaves.map (·, alert)) ∧
        watched.calls alerts (world, book) = plain.calls alerts world ∧
        plain.calls alerts world = flat.calls alerts world ∧
        plain.after alerts world = flat.after alerts world ∧
        watched.after alerts (world, book) = flatWatched.after alerts (world, book)) ∧
    ∀ (tree : SinkTree Outlet) (m : Mailroom) (steps : List BoxStep),
      let boxes := tree.leaves.filterMap Outlet.box?
      let before : Emptied := { mailroom := m, taken := fun _ => [] }
      let after := before.run (tree.sink Outlet.sink) steps
      boxes.Nodup → ∀ box ∈ boxes, after.mailroom.accepts box = true →
        after.taken box ++ after.mailroom.contents box =
          m.contents box ++ steps.filterMap BoxStep.alert? := by
  refine ⟨?_, ?_⟩
  · intro α World sinkOf tree world book plain watched flat flatWatched
    have hflat : plain.Alike flat := tree.alike_leaves sinkOf
    have hwatched : watched.Alike flatWatched := tree.alike_leaves (Sink.watched sinkOf)
    refine ⟨fun alert => ?_, fun alerts => ⟨tree.after_watched sinkOf alerts world book, ?_, ?_,
      ?_, ?_⟩⟩
    · obtain ⟨hworld, -, hfailure⟩ := tree.deliver_watched sinkOf alert world book
      exact ⟨_, hworld, map_callsOf sinkOf alert tree.leaves world, hfailure⟩
    · exact tree.calls_watched sinkOf alerts world book
    · exact hflat.calls_eq alerts world
    · exact hflat.after_eq alerts world
    · exact hwatched.after_eq alerts (world, book)
  · intro tree m steps boxes before after hnodup box hbox haccepts
    have hheld := Emptied.held_run (Sink.fills_tree tree) haccepts
    have honce : (steps.filterMap BoxStep.alert?).flatMap (List.replicate 1) =
        steps.filterMap BoxStep.alert? := List.flatMap_singleton' _
    rw [List.count_eq_one_of_mem hnodup hbox, honce] at hheld
    exact hheld

/-- Two memories, two queues, one of them closed, a log and a callback that refuses all alerts, in
sinks within sinks. One memory is drained between two alerts. -/
theorem SinkTree.delivers_to_all_nested :
    let refusing : Outlet := .callback 0 fun _ => some (.other "refused")
    let tree : SinkTree Outlet :=
      .fanout [.leaf (.memory 0),
        .fanout [.leaf (.queue 0), .fanout [.leaf .log, .leaf refusing], .fanout []],
        .leaf (.queue 1), .leaf (.memory 1)]
    let m : Mailroom :=
      { memories := [[], []], queues := [⟨[], false⟩, ⟨[], true⟩], calls := [[]] }
    let first : Alert := ⟨9, 1, .whole, 5, 3, 2, 1⟩
    let second : Alert := ⟨9, 1, .whole, 7, 4, 2, 1⟩
    let steps : List BoxStep :=
      [.deliver first, .take (.memory 0), .deliver second, .take (.memory 0)]
    let boxes := tree.leaves.filterMap Outlet.box?
    let before : Emptied := { mailroom := m, taken := fun _ => [] }
    let after := before.run (tree.sink Outlet.sink) steps
    boxes.Nodup ∧ boxes = [.memory 0, .queue 0, .queue 1, .memory 1] ∧
    (after.mailroom.accepts (.queue 0) = false ∧
      ((tree.sink Outlet.sink).deliver first m).failure = some (.closed "queue")) ∧
    (after.mailroom.accepts (.memory 0) = true ∧
      after.taken (.memory 0) ++ after.mailroom.contents (.memory 0) = [first, second]) ∧
    (after.mailroom.accepts (.queue 1) = true ∧
      after.taken (.queue 1) ++ after.mailroom.contents (.queue 1) = [first, second]) ∧
    (Sink.fanout (tree.leaves.map Outlet.sink)).calls [first, second] m =
      [(first, some (.closed "queue")), (second, some (.closed "queue"))] := by
  intro refusing tree m first second steps boxes before after
  obtain ⟨htrees, hboxes⟩ := SinkTree.delivers_to_all
  have hnodup : boxes.Nodup := by decide
  have hmemory : after.mailroom.accepts (.memory 0) = true := by decide
  have hqueue : after.mailroom.accepts (.queue 1) = true := by decide
  refine ⟨hnodup, by decide, ⟨by decide, by decide⟩, ⟨hmemory, ?_⟩, ⟨hqueue, ?_⟩, ?_⟩
  · exact hboxes tree m steps hnodup (.memory 0) (by decide) hmemory
  · exact hboxes tree m steps hnodup (.queue 1) (by decide) hqueue
  · rw [← ((htrees Outlet.sink tree m []).2 [first, second]).2.2.1]
    decide

end CountAlarm
