import CountAlarm.Proofs.Delivery.Calls
/-!
# Sinks of sinks

A sink that hands alerts on to other sinks may be one of several that another such sink hands alerts
to, and so on: its sinks form a tree, and alerts end up at the leaves. Every alert reaches each leaf
once, from left to right, and the answer is that of the first leaf that fails, whatever the
tree is like. So a tree does what one sink over its leaves would do, only its log may be longer.
-/

namespace CountAlarm

/-- Sinks that hand alerts on, down to leaves that stand for other sinks. -/
inductive SinkTree (α : Type) where
  | leaf (a : α)
  | fanout (parts : List (SinkTree α))

namespace SinkTree

variable {α World : Type}

/-- What holds of all leaves, and of a tree if it holds of its parts, holds of every tree. -/
@[induction_eliminator]
theorem induct {motive : SinkTree α → Prop} (leaf : ∀ a, motive (.leaf a))
    (fanout : ∀ parts, (∀ part ∈ parts, motive part) → motive (.fanout parts))
    (tree : SinkTree α) : motive tree :=
  SinkTree.rec (motive_1 := motive) (motive_2 := fun parts => ∀ part ∈ parts, motive part) leaf
    fanout (fun _ h => (List.not_mem_nil h).elim)
    (fun _ _ hpart hparts => List.forall_mem_cons.mpr ⟨hpart, hparts⟩) tree

mutual

/-- The leaves from left to right. -/
def leaves : SinkTree α → List α
  | .leaf a => [a]
  | .fanout parts => leavesOf parts

def leavesOf : List (SinkTree α) → List α
  | [] => []
  | part :: parts => part.leaves ++ leavesOf parts

end

mutual

/-- The sink that a tree stands for. -/
def sink (sinkOf : α → Sink World) : SinkTree α → Sink World
  | .leaf a => sinkOf a
  | .fanout parts => .fanout (sinksOf sinkOf parts)

def sinksOf (sinkOf : α → Sink World) : List (SinkTree α) → List (Sink World)
  | [] => []
  | part :: parts => part.sink sinkOf :: sinksOf sinkOf parts

end

end SinkTree

/-! ## Sinks that do the same -/

namespace Sink

variable {World : Type}

/-- Two sinks leave the same world and answer the same. Their logs may differ. -/
def Alike (first second : Sink World) : Prop :=
  ∀ alert world, (first.deliver alert world).world = (second.deliver alert world).world ∧
    (first.deliver alert world).failure = (second.deliver alert world).failure

namespace Alike

variable {first second : Sink World}

theorem after_eq (h : first.Alike second) (alerts : List Alert) (world : World) :
    first.after alerts world = second.after alerts world := by
  induction alerts generalizing world with
  | nil => rfl
  | cons alert rest ih => rw [after, after, (h alert world).1, ih]

theorem calls_eq (h : first.Alike second) (alerts : List Alert) (world : World) :
    first.calls alerts world = second.calls alerts world := by
  induction alerts generalizing world with
  | nil => rfl
  | cons alert rest ih => rw [calls, calls, (h alert world).1, (h alert world).2, ih]

end Alike

section DeliverAll

variable (sink : Sink World) (first second : List (Sink World)) (alert : Alert) (world : World)

theorem world_deliverAll_cons :
    (deliverAll (sink :: second) alert world).world =
      (deliverAll second alert (sink.deliver alert world).world).world := rfl

theorem failure_deliverAll_cons :
    (deliverAll (sink :: second) alert world).failure =
      (sink.deliver alert world).failure.or
        (deliverAll second alert (sink.deliver alert world).world).failure :=
  Option.orElse_eq_or

theorem world_deliverAll_append :
    (deliverAll (first ++ second) alert world).world =
      (deliverAll second alert (deliverAll first alert world).world).world := by
  induction first generalizing world with
  | nil => rfl
  | cons sink rest ih => exact ih _

theorem failure_deliverAll_append :
    (deliverAll (first ++ second) alert world).failure =
      (deliverAll first alert world).failure.or
        (deliverAll second alert (deliverAll first alert world).world).failure := by
  induction first generalizing world with
  | nil => rfl
  | cons sink rest ih =>
      rw [List.cons_append, failure_deliverAll_cons, failure_deliverAll_cons, ih, Option.or_assoc,
        world_deliverAll_cons]

end DeliverAll

end Sink

/-! ## One sink over the leaves -/

namespace SinkTree

variable {α World : Type} (sinkOf : α → Sink World)

theorem alike_sinksOf {parts : List (SinkTree α)}
    (h : ∀ part ∈ parts, (part.sink sinkOf).Alike (.fanout (part.leaves.map sinkOf))) :
    (Sink.fanout (sinksOf sinkOf parts)).Alike (.fanout ((leavesOf parts).map sinkOf)) := by
  induction parts with
  | nil => exact fun _ _ => ⟨rfl, rfl⟩
  | cons part rest ih =>
      obtain ⟨hpart, hrest⟩ := List.forall_mem_cons.mp h
      intro alert world
      obtain ⟨hworld, hfailure⟩ := hpart alert world
      obtain ⟨hworlds, hfailures⟩ := ih hrest alert ((part.sink sinkOf).deliver alert world).world
      rw [sinksOf, leavesOf, List.map_append]
      simp only [Sink.fanout] at hworld hfailure hworlds hfailures ⊢
      rw [Sink.world_deliverAll_cons, Sink.failure_deliverAll_cons, Sink.world_deliverAll_append,
        Sink.failure_deliverAll_append, ← hworld, ← hfailure]
      exact ⟨hworlds, congrArg _ hfailures⟩

/-- A tree does what one sink over its leaves does. -/
theorem alike_leaves (tree : SinkTree α) :
    (tree.sink sinkOf).Alike (.fanout (tree.leaves.map sinkOf)) := by
  induction tree with
  | leaf a =>
      intro alert world
      have hanswer := Sink.failure_deliverAll_cons (sinkOf a) [] alert world
      rw [show (Sink.deliverAll [] alert _).failure = none from rfl, Option.or_none] at hanswer
      exact ⟨rfl, hanswer.symm⟩
  | fanout parts ih =>
      rw [sink, leaves]
      exact alike_sinksOf sinkOf ih

end SinkTree

/-! ## Calls of leaves -/

/-- A leaf was called with an alert, and what it answered. -/
structure LeafCall (α : Type) where
  leaf : α
  alert : Alert
  failure : Option SinkFailure
deriving DecidableEq, Repr

/-- An answer is the first of the failures that some calls came to, if any of them failed. -/
structure FirstFailure {α : Type} (calls : List (LeafCall α)) (answer : Option SinkFailure) :
    Prop where
  none_iff : answer = none ↔ ∀ call ∈ calls, call.failure = none
  some_iff : ∀ failure, answer = some failure ↔
    ∃ (earlier : List (LeafCall α)) (call : LeafCall α) (later : List (LeafCall α)),
      calls = earlier ++ call :: later ∧ call.failure = some failure ∧
        ∀ other ∈ earlier, other.failure = none

theorem firstFailure_findSome? {α : Type} (calls : List (LeafCall α)) :
    FirstFailure calls (calls.findSome? LeafCall.failure) where
  none_iff := List.findSome?_eq_none_iff
  some_iff _ := List.findSome?_eq_some_iff

/-- A leaf that also writes its calls into a book for all leaves, the latest one last. -/
def Sink.watched {α World : Type} (sinkOf : α → Sink World) (a : α) :
    Sink (World × List (LeafCall α)) :=
  { name := (sinkOf a).name
    deliver := fun alert watch =>
      let delivery := (sinkOf a).deliver alert watch.1
      { world := (delivery.world, watch.2 ++ [⟨a, alert, delivery.failure⟩])
        failure := delivery.failure
        log := delivery.log } }

namespace SinkTree

variable {α World : Type} (sinkOf : α → Sink World)

/-- The calls of some leaves with an alert, one after the other. -/
def callsOf (alert : Alert) : List α → World → List (LeafCall α)
  | [], _ => []
  | a :: rest, world =>
    let delivery := (sinkOf a).deliver alert world
    ⟨a, alert, delivery.failure⟩ :: callsOf alert rest delivery.world

theorem map_callsOf (alert : Alert) (leaves : List α) (world : World) :
    (callsOf sinkOf alert leaves world).map (fun call => (call.leaf, call.alert)) =
      leaves.map (·, alert) := by
  induction leaves generalizing world with
  | nil => rfl
  | cons a rest ih => exact congrArg (List.cons (a, alert)) (ih _)

theorem failure_deliverAll (alert : Alert) (leaves : List α) (world : World) :
    (Sink.deliverAll (leaves.map sinkOf) alert world).failure =
      (callsOf sinkOf alert leaves world).findSome? LeafCall.failure := by
  induction leaves generalizing world with
  | nil => rfl
  | cons a rest ih =>
      rw [List.map_cons, Sink.failure_deliverAll_cons, ih, callsOf, List.findSome?_cons]
      cases ((sinkOf a).deliver alert world).failure <;> rfl

/-- Watching leaves changes nothing that they do. -/
theorem deliverAll_watched (alert : Alert) (leaves : List α) (world : World)
    (book : List (LeafCall α)) :
    let plain := Sink.deliverAll (leaves.map sinkOf) alert world
    let watched := Sink.deliverAll (leaves.map (Sink.watched sinkOf)) alert (world, book)
    watched.world = (plain.world, book ++ callsOf sinkOf alert leaves world) ∧
      watched.failure = plain.failure := by
  induction leaves generalizing world book with
  | nil => exact ⟨congrArg (Prod.mk world) (List.append_nil book).symm, rfl⟩
  | cons a rest ih =>
      let delivery := (sinkOf a).deliver alert world
      obtain ⟨hworld, hfailure⟩ := ih delivery.world (book ++ [⟨a, alert, delivery.failure⟩])
      rw [List.append_assoc, List.singleton_append] at hworld
      refine ⟨hworld, ?_⟩
      rw [List.map_cons, List.map_cons, Sink.failure_deliverAll_cons,
        Sink.failure_deliverAll_cons]
      exact congrArg (Option.or _) hfailure

/-- What a tree does with an alert: its leaves are called in their order, and the first failure
among their answers is its own. -/
theorem deliver_watched (tree : SinkTree α) (alert : Alert) (world : World)
    (book : List (LeafCall α)) :
    let plain := (tree.sink sinkOf).deliver alert world
    let watched := (tree.sink (Sink.watched sinkOf)).deliver alert (world, book)
    let calls := callsOf sinkOf alert tree.leaves world
    watched.world = (plain.world, book ++ calls) ∧ watched.failure = plain.failure ∧
      FirstFailure calls plain.failure := by
  obtain ⟨hworld, hfailure⟩ := tree.alike_leaves sinkOf alert world
  obtain ⟨hwatching, hwatched⟩ :=
    tree.alike_leaves (Sink.watched sinkOf) alert (world, book)
  obtain ⟨hbook, hanswer⟩ := deliverAll_watched sinkOf alert tree.leaves world book
  simp only [Sink.fanout] at hworld hfailure hwatching hwatched
  refine ⟨?_, ?_, ?_⟩
  · rw [hwatching, hbook, hworld]
  · rw [hwatched, hanswer, hfailure]
  · rw [hfailure, failure_deliverAll]
    exact firstFailure_findSome? _

/-- Over a sequence of alerts, every leaf is called with each of them once and in its turn. -/
theorem after_watched (tree : SinkTree α) (alerts : List Alert) (world : World)
    (book : List (LeafCall α)) :
    ∃ calls : List (LeafCall α),
      (tree.sink (Sink.watched sinkOf)).after alerts (world, book) =
        ((tree.sink sinkOf).after alerts world, book ++ calls) ∧
      calls.map (fun call => (call.leaf, call.alert)) =
        alerts.flatMap fun alert => tree.leaves.map (·, alert) := by
  induction alerts generalizing world book with
  | nil => exact ⟨[], congrArg (Prod.mk world) (List.append_nil book).symm, rfl⟩
  | cons alert rest ih =>
      obtain ⟨hworld, -, -⟩ := tree.deliver_watched sinkOf alert world book
      let first := callsOf sinkOf alert tree.leaves world
      obtain ⟨calls, hafter, hcalls⟩ :=
        ih ((tree.sink sinkOf).deliver alert world).world (book ++ first)
      refine ⟨first ++ calls, ?_, ?_⟩
      · rw [Sink.after, Sink.after, hworld, hafter, List.append_assoc]
      · rw [List.map_append, map_callsOf, hcalls, List.flatMap_cons]

theorem calls_watched (tree : SinkTree α) (alerts : List Alert) (world : World)
    (book : List (LeafCall α)) :
    (tree.sink (Sink.watched sinkOf)).calls alerts (world, book) =
      (tree.sink sinkOf).calls alerts world := by
  induction alerts generalizing world book with
  | nil => rfl
  | cons alert rest ih =>
      obtain ⟨hworld, hfailure, -⟩ := tree.deliver_watched sinkOf alert world book
      rw [Sink.calls, Sink.calls, hworld, hfailure, ih]

end SinkTree

end CountAlarm
