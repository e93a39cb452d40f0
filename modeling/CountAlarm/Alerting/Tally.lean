import CountAlarm.Counting.BucketGrid
import CountAlarm.Counting.DropCause
/-!
# Counters of outcomes

A detector keeps a `Tally`, a pipeline the `Totals` of events and of all its detectors. Counters
stop at `wordLimit`.
-/

namespace CountAlarm

def addCounters (a b : Nat) : Nat :=
  min wordLimit (a + b)

def counterDocument (n : Nat) : Document :=
  .natural (UInt64.ofNat n)

structure Tally where
  fired : Nat := 0
  suppressed : Nat := 0
  sinkFailures : Nat := 0
  late : Nat := 0
  evicted : Nat := 0
deriving DecidableEq, Repr, Inhabited

namespace Tally

def noteFired (t : Tally) : Tally :=
  { t with fired := addCounters t.fired 1 }

def noteSuppressed (t : Tally) : Tally :=
  { t with suppressed := addCounters t.suppressed 1 }

def noteSinkFailure (t : Tally) : Tally :=
  { t with sinkFailures := addCounters t.sinkFailures 1 }

def noteLate (t : Tally) : Tally :=
  { t with late := addCounters t.late 1 }

def noteEvicted (t : Tally) (slices : Nat) : Tally :=
  { t with evicted := addCounters t.evicted slices }

def add (t u : Tally) : Tally :=
  { fired := addCounters t.fired u.fired
    suppressed := addCounters t.suppressed u.suppressed
    sinkFailures := addCounters t.sinkFailures u.sinkFailures
    late := addCounters t.late u.late
    evicted := addCounters t.evicted u.evicted }

def members (t : Tally) : Members :=
  [("alerts_fired", counterDocument t.fired),
    ("alerts_suppressed", counterDocument t.suppressed),
    ("sink_errors", counterDocument t.sinkFailures),
    ("late_events", counterDocument t.late),
    ("slices_evicted", counterDocument t.evicted)]

end Tally

/-- What became of the events of a pipeline. An event dropped by two metrics counts twice. -/
structure Totals where
  received : Nat := 0
  matched : Nat := 0
  missingField : Nat := 0
  beforeStart : Nat := 0
  detectors : Tally := {}
deriving DecidableEq, Repr, Inhabited

namespace Totals

def noteReceived (t : Totals) : Totals :=
  { t with received := addCounters t.received 1 }

def noteMatched (t : Totals) : Totals :=
  { t with matched := addCounters t.matched 1 }

def noteDrop (t : Totals) : DropCause → Totals
  | .missingField => { t with missingField := addCounters t.missingField 1 }
  | .beforeStart => { t with beforeStart := addCounters t.beforeStart 1 }

def absorb (t : Totals) (tally : Tally) : Totals :=
  { t with detectors := t.detectors.add tally }

def members (t : Totals) : Members :=
  [("events_received", counterDocument t.received),
    ("events_matched", counterDocument t.matched),
    ("dropped_no_dimension", counterDocument t.missingField),
    ("dropped_before_start", counterDocument t.beforeStart)] ++ t.detectors.members

end Totals

end CountAlarm
