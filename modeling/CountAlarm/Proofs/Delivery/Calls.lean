import CountAlarm.Delivery.Sink
/-!
# Calls of a sink

What becomes of a world when alerts are handed to its sink one by one, and what the sink answers to
each. To tell which calls a run makes, `Sink.audited` keeps them in its world; otherwise it does
what the sink does.
-/

namespace CountAlarm.Sink

variable {World : Type} (sink : Sink World)

/-- The world after some alerts have been handed over. -/
def after : List Alert → World → World
  | [], world => world
  | alert :: rest, world => after rest (sink.deliver alert world).world

/-- Some alerts as they are handed over, each with the failure that the sink answers, if any. -/
def calls : List Alert → World → List (Alert × Option SinkFailure)
  | [], _ => []
  | alert :: rest, world =>
    let delivery := sink.deliver alert world
    (alert, delivery.failure) :: calls rest delivery.world

theorem after_append (first second : List Alert) (world : World) :
    sink.after (first ++ second) world = sink.after second (sink.after first world) := by
  induction first generalizing world with
  | nil => rfl
  | cons alert rest ih => exact ih _

theorem calls_append (first second : List Alert) (world : World) :
    sink.calls (first ++ second) world =
      sink.calls first world ++ sink.calls second (sink.after first world) := by
  induction first generalizing world with
  | nil => rfl
  | cons alert rest ih => exact congrArg (List.cons _) (ih _)

theorem map_fst_calls (alerts : List Alert) (world : World) :
    (sink.calls alerts world).map Prod.fst = alerts := by
  induction alerts generalizing world with
  | nil => rfl
  | cons alert rest ih => exact congrArg (List.cons alert) (ih _)

/-- A sink that also keeps a book of its calls, the latest first. -/
def audited : Sink (World × List (Alert × Option SinkFailure)) :=
  { name := sink.name
    deliver := fun alert audit =>
      let delivery := sink.deliver alert audit.1
      { world := (delivery.world, (alert, delivery.failure) :: audit.2)
        failure := delivery.failure
        log := delivery.log } }

theorem after_audited (alerts : List Alert) (world : World)
    (book : List (Alert × Option SinkFailure)) :
    sink.audited.after alerts (world, book) =
      (sink.after alerts world, (sink.calls alerts world).reverse ++ book) := by
  induction alerts generalizing world book with
  | nil => rfl
  | cons alert rest ih =>
      have hrest := ih (sink.deliver alert world).world
        ((alert, (sink.deliver alert world).failure) :: book)
      rw [calls, List.reverse_cons, List.append_assoc]
      exact hrest

end CountAlarm.Sink
