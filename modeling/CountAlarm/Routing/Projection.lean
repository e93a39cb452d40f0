import CountAlarm.Event.Basic
/-!
# Projections

A projection is a list of paths. It takes an event to the slice key made of the values under these
paths.
-/

namespace CountAlarm

/-- The paths whose values tell the slices of a metric apart. -/
structure Projection where
  paths : List Path
deriving DecidableEq, Repr

namespace Projection

/-- The key of an event; an event that lacks a path has none. Without paths there is one slice. -/
def key? (p : Projection) (event : Event) : Option SliceKey :=
  (p.paths.mapM fun path => (event.get? path).map fun value => Field.mk path value).map
    SliceKey.ofList

def toDocument (p : Projection) : Document :=
  .list (p.paths.map Document.ofUInt32)

def ofDocument? (d : Document) : Option Projection :=
  (d.listOf? Document.uint32?).map Projection.mk

end Projection

end CountAlarm
