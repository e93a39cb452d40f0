/-!
# Doubles as exact integers

A double is its 64 bits. A finite one is a whole multiple of the smallest positive double,
`2 ^ -1074`; `units` is that multiple, so comparing and rounding need natural numbers only.
`orderKey` numbers all bit patterns, not-a-number patterns included, in their total order.
-/

namespace CountAlarm.Decimal

structure Double where
  bits : UInt64
deriving DecidableEq, Repr, Inhabited

namespace Double

/-- The weight of the sign bit. -/
def signBit : Nat :=
  0x8000000000000000

/-- The weight of the lowest exponent bit; in a significand it is that of the leading bit. -/
def leadingBit : Nat :=
  0x10000000000000

/-- The sign bit. It is also set on `-0` and on some not-a-number patterns. -/
def isNegative (x : Double) : Bool :=
  decide (signBit ≤ x.bits.toNat)

/-- The bits below the sign. -/
def magnitude (x : Double) : Nat :=
  x.bits.toNat % signBit

def exponentField (x : Double) : Nat :=
  x.magnitude / leadingBit

def fraction (x : Double) : Nat :=
  x.magnitude % leadingBit

/-- An exponent field of all ones stands for an infinity or for no number at all. -/
def isFinite (x : Double) : Bool :=
  decide (x.exponentField < 2047)

def isNaN (x : Double) : Bool :=
  decide (x.exponentField = 2047) && decide (x.fraction ≠ 0)

/-- The integer that the significand bits stand for, the implicit leading bit included. -/
def significand (x : Double) : Nat :=
  if x.exponentField = 0 then x.fraction else leadingBit + x.fraction

/-- How often the significand is doubled: a finite magnitude is `significand * 2 ^ scale` units. -/
def scale (x : Double) : Nat :=
  x.exponentField - 1

/-- The magnitude of a finite double as a multiple of `2 ^ -1074`. -/
def units (x : Double) : Nat :=
  x.significand * Nat.pow 2 x.scale

/-- How many units make one. -/
def one : Nat :=
  Nat.pow 2 1074

def infinityMagnitude : Nat :=
  2047 * leadingBit

/-- The double with the given sign and magnitude bits. -/
def ofMagnitude (negative : Bool) (magnitude : Nat) : Double :=
  ⟨UInt64.ofNat (if negative then signBit + magnitude % signBit else magnitude % signBit)⟩

def zero (negative : Bool) : Double :=
  ofMagnitude negative 0

def infinity (negative : Bool) : Double :=
  ofMagnitude negative infinityMagnitude

/-- The quiet pattern without sign. -/
def notANumber : Double :=
  ofMagnitude false (infinityMagnitude + leadingBit / 2)

/-- Position of a bit pattern in the total order: the negative patterns backwards, then the
positive ones. Signed zeros and all patterns that are no number have places of their own. -/
def orderKey (x : Double) : Nat :=
  if x.bits.toNat < signBit then signBit + x.bits.toNat else 2 * signBit - 1 - x.bits.toNat

theorem orderKey_injective {x y : Double} (h : x.orderKey = y.orderKey) : x = y := by
  have hx := x.bits.toNat_lt
  have hy := y.bits.toNat_lt
  have hbits : x.bits.toNat = y.bits.toNat := by
    unfold orderKey signBit at h
    split at h <;> split at h <;> omega
  cases x
  cases y
  exact congrArg Double.mk (UInt64.toNat_inj.1 hbits)

end Double

end CountAlarm.Decimal
