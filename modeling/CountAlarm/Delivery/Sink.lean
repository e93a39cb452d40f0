import CountAlarm.Delivery.LogEntry
/-!
# Sinks

A sink is handed each fired alert. What it may read and change is its `World`: a sink is a function
from worlds to worlds that also says whether it accepted the alert. `Sink.fanout` hands an alert to
several sinks, whatever the earlier ones say, and reports the first failure.

`Mailroom` is the world of the built-in sinks: the alerts kept in memory, the queues to receivers
and the calls of callbacks.
-/

namespace CountAlarm

structure Delivery (World : Type) where
  world : World
  failure : Option SinkFailure
  log : List LogEntry

structure Sink (World : Type) where
  name : String
  deliver : Alert → World → Delivery World

namespace Sink

variable {World : Type}

def log : Sink World :=
  { name := "log"
    deliver := fun alert world => { world, failure := none, log := [.written alert] } }

def deliverAll : List (Sink World) → Alert → World → Delivery World
  | [], _, world => { world, failure := none, log := [] }
  | sink :: sinks, alert, world =>
    let first := sink.deliver alert world
    let others := deliverAll sinks alert first.world
    let complaint := first.failure.toList.map fun failure =>
      LogEntry.undelivered sink.name alert.alertId failure
    { world := others.world
      failure := first.failure <|> others.failure
      log := first.log ++ complaint ++ others.log }

def fanout (sinks : List (Sink World)) : Sink World :=
  { name := "fanout", deliver := deliverAll sinks }

end Sink

/-! ## The built-in sinks -/

/-- A queue to a receiver. Once the receiver is gone, nothing is queued any more. -/
structure Queue where
  pending : List Alert
  isOpen : Bool
deriving DecidableEq, Repr

/-- The world of the built-in sinks. Sinks refer to its parts by their position. -/
structure Mailroom where
  memories : List (List Alert) := []
  queues : List Queue := []
  calls : List (List Alert) := []
deriving DecidableEq, Repr, Inhabited

namespace Mailroom

def openMemory (m : Mailroom) : Nat × Mailroom :=
  (m.memories.length, { m with memories := m.memories ++ [[]] })

def openQueue (m : Mailroom) : Nat × Mailroom :=
  (m.queues.length, { m with queues := m.queues ++ [⟨[], true⟩] })

def openCallback (m : Mailroom) : Nat × Mailroom :=
  (m.calls.length, { m with calls := m.calls ++ [[]] })

def remembered (m : Mailroom) (memory : Nat) : List Alert :=
  m.memories[memory]?.getD []

def drain (m : Mailroom) (memory : Nat) : List Alert × Mailroom :=
  (m.remembered memory, { m with memories := m.memories.set memory [] })

def isClosed (m : Mailroom) (queue : Nat) : Bool :=
  !(m.queues[queue]?.any fun q => q.isOpen)

def receive (m : Mailroom) (queue : Nat) : List Alert × Mailroom :=
  ((m.queues[queue]?.map Queue.pending).getD [],
    { m with queues := m.queues.modify queue fun q => { q with pending := [] } })

/-- Lets the receiver of a queue go, and what waits for it. -/
def close (m : Mailroom) (queue : Nat) : Mailroom :=
  { m with queues := m.queues.modify queue fun _ => ⟨[], false⟩ }

end Mailroom

namespace Sink

def memory (memory : Nat) : Sink Mailroom :=
  { name := "memory"
    deliver := fun alert m =>
      { world := { m with memories := m.memories.modify memory (· ++ [alert]) }
        failure := none
        log := [] } }

/-- Puts every alert into a queue, and fails if its receiver is gone. -/
def queue (queue : Nat) : Sink Mailroom :=
  { name := "queue"
    deliver := fun alert m =>
      if m.isClosed queue then { world := m, failure := some (.closed "queue"), log := [] }
      else
        { world :=
            { m with queues := m.queues.modify queue fun q =>
              { q with pending := q.pending ++ [alert] } }
          failure := none
          log := [] } }

/-- A function of all alerts that it has been called with, the latest one last. -/
def callback (slot : Nat) (answer : List Alert → Option SinkFailure) : Sink Mailroom :=
  { name := "callback"
    deliver := fun alert m =>
      let calls := m.calls.modify slot (· ++ [alert])
      { world := { m with calls }
        failure := answer (calls[slot]?.getD [alert])
        log := [] } }

end Sink

end CountAlarm
