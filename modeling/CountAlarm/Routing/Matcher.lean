import CountAlarm.Event.Basic
import CountAlarm.Routing.Glob
/-!
# Matchers

A matcher decides which events a metric consumes. `AtomMatcher` is the kind that configurations
hold: it wants one atom and puts conditions on fields. `Matcher` is any predicate with a number to
refer to it by.
-/

namespace CountAlarm

/-! ## Conditions -/

inductive Condition where
  | equalsInt (value : Int64)
  | below (bound : Int64)
  | above (bound : Int64)
  | equalsText (text : String)
  | fits (glob : String)
deriving DecidableEq, Repr

namespace Condition

/-- Conditions on integers accept integers of either width, those on texts accept well-formed byte
strings; no condition accepts a value of another kind. -/
def holds (c : Condition) (value : Value) : Bool :=
  match c with
  | .equalsInt want => value.int? == some want.toInt
  | .below bound => value.int?.any fun i => decide (i < bound.toInt)
  | .above bound => value.int?.any fun i => decide (bound.toInt < i)
  | .equalsText want => value.text? == some want
  | .fits glob => value.text?.any fun text => Glob.fits glob.toByteArray.data text.toByteArray.data

def display : Condition → String
  | .equalsInt value => "== " ++ toString value.toInt
  | .below bound => "< " ++ toString bound.toInt
  | .above bound => "> " ++ toString bound.toInt
  | .equalsText text => "== \"" ++ text ++ "\""
  | .fits glob => "~ \"" ++ glob ++ "\""

/-- The members of a condition: the kind, and what it compares with. -/
def toMembers : Condition → Members
  | .equalsInt value => [("op", .text "eq_int"), ("value", .ofInt64 value)]
  | .below bound => [("op", .text "lt_int"), ("value", .ofInt64 bound)]
  | .above bound => [("op", .text "gt_int"), ("value", .ofInt64 bound)]
  | .equalsText text => [("op", .text "eq_string"), ("value", .text text)]
  | .fits glob => [("op", .text "glob"), ("pattern", .text glob)]

def toDocument (c : Condition) : Document :=
  .object c.toMembers

def ofOperand? (kind : String) (members : Members) : Option Condition :=
  if kind = "eq_int" then (members.required? ["value"] Document.int64?).map .equalsInt
  else if kind = "lt_int" then (members.required? ["value"] Document.int64?).map .below
  else if kind = "gt_int" then (members.required? ["value"] Document.int64?).map .above
  else if kind = "eq_string" then (members.required? ["value"] Document.text?).map .equalsText
  else if kind = "glob" then (members.required? ["pattern"] Document.text?).map .fits
  else none

/-- The kinds of conditions in their order. -/
def kinds : List String :=
  ["eq_int", "lt_int", "gt_int", "eq_string", "glob"]

/-- The name of a kind, given by itself or by its position among the kinds. -/
def kindOrPosition? : Document → Option String
  | .text kind => some kind
  | .natural n => kinds[n.toNat]?
  | _ => none

/-- Reads a condition from members, given how its kind is read. Members that belong to no condition
are ignored, but they must be readable. -/
def ofMembers? (kind? : Document → Option String) (members : Members) : Option Condition := do
  let kind ← members.required? ["op"] kind?
  if Document.membersReadable members then ofOperand? kind members else none

def ofDocument? (d : Document) : Option Condition := do
  let members ← d.members?
  ofMembers? Document.text? members

end Condition

/-! ## Field conditions -/

structure FieldCondition where
  path : Path
  condition : Condition
deriving DecidableEq, Repr

namespace FieldCondition

/-- An event without the field does not match. -/
def holds (f : FieldCondition) (event : Event) : Bool :=
  (event.get? f.path).any f.condition.holds

/-- A field condition is written as one mapping. -/
def toDocument (f : FieldCondition) : Document :=
  .object (("field", .ofUInt32 f.path) :: f.condition.toMembers)

/-- Reads a field condition: the path, and the condition from the other members. -/
def ofDocument? (d : Document) : Option FieldCondition := do
  let members ← d.members?
  let path ← members.required? ["field"] Document.uint32?
  let condition ← Condition.ofMembers? Condition.kindOrPosition?
    (members.filter fun m => m.1 != "field")
  some { path, condition }

end FieldCondition

/-! ## Matchers -/

/-- Matches events of one atom whose fields satisfy every condition. -/
structure AtomMatcher where
  id : UInt64
  atom : UInt32
  conditions : List FieldCondition
deriving DecidableEq, Repr

namespace AtomMatcher

def matchesEvent (m : AtomMatcher) (event : Event) : Bool :=
  event.atom == m.atom && m.conditions.all fun f => f.holds event

def toDocument (m : AtomMatcher) : Document :=
  .object
    [("id", .natural m.id), ("atom_id", .ofUInt32 m.atom),
      ("fields", .list (m.conditions.map FieldCondition.toDocument))]

def ofDocument? (d : Document) : Option AtomMatcher := do
  let members ← d.record? ["id", "atom_id", "fields"]
  let id ← members.required? ["id"] Document.uint64?
  let atom ← members.required? ["atom_id"] Document.uint32?
  let conditions ← members.optional? ["fields"] []
    (Document.listOf? FieldCondition.ofDocument?)
  some { id, atom, conditions }

end AtomMatcher

/-- A numbered predicate on events. -/
structure Matcher where
  id : UInt64
  accepts : Event → Bool

def AtomMatcher.toMatcher (m : AtomMatcher) : Matcher :=
  { id := m.id, accepts := m.matchesEvent }

end CountAlarm
