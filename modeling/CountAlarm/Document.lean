import CountAlarm.Decimal.Rounding
/-!
# Document trees

One tree for the two text formats of this library, JSON and TOML. Members keep their order and may
repeat; the lookups below refuse a member that occurs twice. Decoders for the types of the library
are built from these lookups, encoders build trees with `object`.
-/

namespace CountAlarm

open Decimal (Double)

/-- A document. `natural` and `integer` tell apart how a whole number was written: JSON has naturals
and negative integers, TOML has integers only. `list` and `object` are the sequence and the mapping
of JSON, `array` and `table` those of TOML. `moment` is a date or a time, which no type of this
library holds. `unreadable` is well-formed text without a value, such as half a surrogate pair; it
may stand only where nobody looks at it. -/
inductive Document where
  | null
  | bool (value : Bool)
  | natural (value : UInt64)
  | integer (value : Int64)
  | float (value : Double)
  | text (value : String)
  | moment
  | list (items : List Document)
  | array (items : List Document)
  | object (members : List (String × Document))
  | table (members : List (String × Document))
  | unreadable
deriving Inhabited, Repr

/-- The members of a mapping in their written order. -/
abbrev Members := List (String × Document)

namespace Document

/-- A signed number, as a natural where it has no sign. -/
def ofInt64 (i : Int64) : Document :=
  if 0 ≤ i then .natural i.toUInt64 else .integer i

def ofUInt32 (n : UInt32) : Document :=
  .natural n.toUInt64

/-- Doubles that are no number of the real line have no place in a document. -/
def ofDouble (x : Double) : Document :=
  if x.isFinite then .float x else .null

/-! ## Readability -/

mutual

/-- Tells whether every part of a document has a value. -/
def isReadable : Document → Bool
  | .unreadable => false
  | .list items => areReadable items
  | .array items => areReadable items
  | .object members => membersReadable members
  | .table members => membersReadable members
  | _ => true

def areReadable : List Document → Bool
  | [] => true
  | d :: ds => d.isReadable && areReadable ds

def membersReadable : List (String × Document) → Bool
  | [] => true
  | m :: ms => m.2.isReadable && membersReadable ms

end

/-! ## Reading leaves -/

def int? : Document → Option Int
  | .natural n => some n.toNat
  | .integer i => some i.toInt
  | _ => none

def uint64? (d : Document) : Option UInt64 := do
  let n ← d.int?
  if 0 ≤ n ∧ n < UInt64.size then some (UInt64.ofNat n.toNat) else none

def uint32? (d : Document) : Option UInt32 := do
  let n ← d.int?
  if 0 ≤ n ∧ n < UInt32.size then some (UInt32.ofNat n.toNat) else none

def uint8? (d : Document) : Option UInt8 := do
  let n ← d.int?
  if 0 ≤ n ∧ n < UInt8.size then some (UInt8.ofNat n.toNat) else none

def int64? (d : Document) : Option Int64 := do
  let n ← d.int?
  if Int64.minValue.toInt ≤ n ∧ n ≤ Int64.maxValue.toInt then some (Int64.ofInt n) else none

def int32? (d : Document) : Option Int32 := do
  let n ← d.int?
  if Int32.minValue.toInt ≤ n ∧ n ≤ Int32.maxValue.toInt then some (Int32.ofInt n) else none

/-- A double; whole numbers are rounded to one. -/
def double? : Document → Option Double
  | .float x => some x
  | .natural n => some (.ofInt n.toNat)
  | .integer i => some (.ofInt i.toInt)
  | _ => none

def text? : Document → Option String
  | .text s => some s
  | _ => none

def items? : Document → Option (List Document)
  | .list items => some items
  | .array items => some items
  | _ => none

/-- A sequence read as a pair. The JSON one has exactly two elements, in the TOML one any that
follow are ignored. -/
def pair? : Document → Option (Document × Document)
  | .list [first, second] => some (first, second)
  | .array (first :: second :: _) => some (first, second)
  | _ => none

def members? : Document → Option Members
  | .object members => some members
  | .table members => some members
  | _ => none

/-- The members of a record: those of a mapping, or the elements of a sequence under the names that
belong to their places. A JSON sequence has no more elements than there are names, in a TOML one any
that follow are ignored. -/
def record? (names : List String) : Document → Option Members
  | .list items => if items.length ≤ names.length then some (names.zip items) else none
  | .array items => some (names.zip items)
  | d => d.members?

/-- The elements of a list, each read by `read`. -/
def listOf? {α : Type} (read : Document → Option α) (d : Document) : Option (List α) := do
  let items ← d.items?
  items.mapM read

/-- The name of a case without content: a text, or a mapping with this one name whose value says
nothing. -/
def caseName? : Document → Option String
  | .text s => some s
  | .object [(name, .null)] => some name
  | .table [(name, .table [])] => some name
  | .table [(name, .array [])] => some name
  | _ => none

end Document

/-! ## Reading members -/

namespace Members

def named (members : Members) (names : List String) : Members :=
  members.filter fun m => names.contains m.1

/-- A member that must occur exactly once. -/
def required? {α : Type} (members : Members) (names : List String)
    (read : Document → Option α) : Option α :=
  match members.named names with
  | [m] => read m.2
  | _ => none

/-- A member that may be left out, which then stands for `absent`. -/
def optional? {α : Type} (members : Members) (names : List String) (absent : α)
    (read : Document → Option α) : Option α :=
  match members.named names with
  | [] => some absent
  | [m] => read m.2
  | _ => none

end Members

end CountAlarm
