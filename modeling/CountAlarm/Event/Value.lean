import CountAlarm.Decimal.Layout
import CountAlarm.Document
import CountAlarm.Text.Utf8
/-!
# Field values

A value is an integer of one of two widths, a double or a byte string. Values are totally ordered:
first by kind, then within the kind, doubles by `Double.orderKey`. `Value.ofDocument?` reads back
what `Value.toDocument` writes.
-/

namespace CountAlarm

open Decimal (Double)

inductive Value where
  | int (value : Int32)
  | long (value : Int64)
  | float (value : Double)
  | bytes (value : List UInt8)
deriving DecidableEq, Repr, Inhabited

namespace Value

/-! ## Order -/

def rank : Value → Nat
  | .int _ => 0
  | .long _ => 1
  | .float _ => 2
  | .bytes _ => 3

instance : Ord Value where
  compare
    | .int a, .int b => compare a b
    | .long a, .long b => compare a b
    | .float a, .float b => compare a.orderKey b.orderKey
    | .bytes a, .bytes b => compare a b
    | a, b => compare a.rank b.rank

theorem compare_int (a b : Int32) : compare (int a) (int b) = compare a b := rfl

theorem compare_long (a b : Int64) : compare (long a) (long b) = compare a b := rfl

theorem compare_float (a b : Double) :
    compare (float a) (float b) = compare a.orderKey b.orderKey := rfl

theorem compare_bytes (a b : List UInt8) : compare (bytes a) (bytes b) = compare a b := rfl

/-- Values of different kinds compare as their kinds. -/
theorem compare_of_rank_ne {a b : Value} (h : a.rank ≠ b.rank) :
    compare a b = compare a.rank b.rank := by
  cases a <;> cases b <;> first | rfl | exact absurd rfl h

/-- A value is never above one of a higher kind. -/
theorem rank_le_of_isLE {a b : Value} (h : (compare a b).isLE) : a.rank ≤ b.rank := by
  by_cases hr : a.rank = b.rank
  · exact Nat.le_of_eq hr
  · rw [compare_of_rank_ne hr] at h
    exact Nat.isLE_compare.1 h

theorem compare_swap (a b : Value) : compare a b = (compare b a).swap := by
  by_cases hr : a.rank = b.rank
  · match a, b, hr with
    | int _, int _, _ => exact Std.OrientedOrd.eq_swap (α := Int32)
    | long _, long _, _ => exact Std.OrientedOrd.eq_swap (α := Int64)
    | float _, float _, _ => exact Std.OrientedOrd.eq_swap (α := Nat)
    | bytes _, bytes _, _ => exact Std.OrientedOrd.eq_swap (α := List UInt8)
  · rw [compare_of_rank_ne hr, compare_of_rank_ne (Ne.symm hr)]
    exact Std.OrientedOrd.eq_swap

theorem compare_isLE_trans {a b c : Value} (hab : (compare a b).isLE)
    (hbc : (compare b c).isLE) : (compare a c).isLE := by
  by_cases hr : a.rank = c.rank
  · have hb : a.rank = b.rank := by
      have hab' := rank_le_of_isLE hab
      have hbc' := rank_le_of_isLE hbc
      omega
    match a, b, c, hb, hr, hab, hbc with
    | int _, int _, int _, _, _, hab, hbc => exact Std.TransOrd.isLE_trans (α := Int32) hab hbc
    | long _, long _, long _, _, _, hab, hbc => exact Std.TransOrd.isLE_trans (α := Int64) hab hbc
    | float _, float _, float _, _, _, hab, hbc => exact Std.TransOrd.isLE_trans (α := Nat) hab hbc
    | bytes _, bytes _, bytes _, _, _, hab, hbc =>
      exact Std.TransOrd.isLE_trans (α := List UInt8) hab hbc
  · rw [compare_of_rank_ne hr]
    exact Nat.isLE_compare.2 (Nat.le_trans (rank_le_of_isLE hab) (rank_le_of_isLE hbc))

theorem eq_of_compare {a b : Value} (h : compare a b = .eq) : a = b := by
  by_cases hr : a.rank = b.rank
  · match a, b, hr, h with
    | int i, int j, _, h =>
      rw [compare_int] at h
      rw [Std.LawfulEqOrd.eq_of_compare h]
    | long i, long j, _, h =>
      rw [compare_long] at h
      rw [Std.LawfulEqOrd.eq_of_compare h]
    | float x, float y, _, h =>
      rw [compare_float] at h
      rw [Double.orderKey_injective (Std.LawfulEqOrd.eq_of_compare h)]
    | bytes s, bytes t, _, h =>
      rw [compare_bytes] at h
      rw [Std.LawfulEqOrd.eq_of_compare h]
  · rw [compare_of_rank_ne hr] at h
    exact absurd (Std.LawfulEqOrd.eq_of_compare h) hr

instance : Std.TransOrd Value where
  eq_swap := compare_swap _ _
  isLE_trans := compare_isLE_trans

instance : Std.LawfulEqOrd Value where
  compare_self {a} := by
    cases a <;> simp only [compare_int, compare_long, compare_float, compare_bytes] <;>
      exact Std.ReflOrd.compare_self
  eq_of_compare := eq_of_compare

/-! ## Hashing -/

/-- The words that a hash of a value is made from: the kind and the content, a byte string with its
length in front. -/
def hashWords : Value → List UInt64
  | .int i => [0, i.toInt64.toUInt64]
  | .long i => [1, i.toUInt64]
  | .float x => [2, x.bits]
  | .bytes b => 3 :: UInt64.ofNat b.length :: b.map UInt8.toUInt64

instance : Hashable Value where
  hash v := hash v.hashWords

/-! ## Views -/

def int? : Value → Option Int
  | .int i => some i.toInt
  | .long i => some i.toInt
  | _ => none

def text? : Value → Option String
  | .bytes b => (Text.Utf8.decode? b).map String.ofList
  | _ => none

/-- A value for a reader. Ill-formed bytes show as replacement characters. -/
def display : Value → String
  | .int i => toString i.toInt
  | .long i => toString i.toInt
  | .float x => Decimal.Layout.plain.text x
  | .bytes b => String.ofList (Text.Utf8.decodeLossy b)

/-! ## Documents -/

/-- A value's document has two members, the kind and the content. -/
def toDocument : Value → Document
  | .int i => .object [("type", .text "int"), ("value", .ofInt64 i.toInt64)]
  | .long i => .object [("type", .text "long"), ("value", .ofInt64 i)]
  | .float x => .object [("type", .text "float"), ("value", .ofDouble x)]
  | .bytes b =>
    .object [("type", .text "bytes"), ("value", .list (b.map fun n => .natural n.toUInt64))]

/-- Reads the content of a kind. -/
def ofContent? (kind : String) (content : Document) : Option Value :=
  if kind = "int" then content.int32?.map .int
  else if kind = "long" then content.int64?.map .long
  else if kind = "float" then content.double?.map .float
  else if kind = "bytes" then (content.listOf? Document.uint8?).map .bytes
  else none

def ofDocument? (d : Document) : Option Value := do
  let members ← d.record? ["type", "value"]
  let kind ← members.required? ["type"] Document.caseName?
  members.required? ["value"] (ofContent? kind)

end Value

end CountAlarm
