import CountAlarm.Event.Instant
import CountAlarm.Event.SliceKey
/-!
# Events

An event has a time, the number of the atom that it was logged as, and fields in logged order. Of
several fields with one path the first one counts.
-/

namespace CountAlarm

/-- A decoded log event; `time` is in nanoseconds. -/
structure Event where
  time : UInt64
  atom : UInt32
  fields : List Field
deriving DecidableEq, Repr, Inhabited

namespace Event

def get? (event : Event) (path : Path) : Option Value :=
  Field.lookup event.fields path

def second (event : Event) : Nat :=
  event.time.toNat / nanosPerSecond

def instant (event : Event) : Instant :=
  .ofNanos event.time

def toDocument (event : Event) : Document :=
  .object
    [("time_ns", .natural event.time), ("atom_id", .ofUInt32 event.atom),
      ("fields", .list (event.fields.map Field.toDocument))]

def ofDocument? (d : Document) : Option Event := do
  let members ← d.record? ["time_ns", "atom_id", "fields"]
  let time ← members.required? ["time_ns"] Document.uint64?
  let atom ← members.required? ["atom_id"] Document.uint32?
  let fields ← members.required? ["fields"] (Document.listOf? Field.ofDocument?)
  some { time, atom, fields }

end Event

end CountAlarm
