import CountAlarm.Decimal.Double
/-!
# Rounding to the nearest double

A quotient of natural numbers is rounded to the nearest double, ties to the even significand.
The functions return magnitude bits; a result of at least `Double.infinityMagnitude` says that
the quotient is too large for any finite double.
-/

namespace CountAlarm.Decimal

/-- The integer nearest to `num / den`, a half going to the even neighbour. -/
def roundHalfEven (num den : Nat) : Nat :=
  let quotient := num / den
  let twice := 2 * (num % den)
  if twice < den then quotient
  else if den < twice then quotient + 1
  else quotient + quotient % 2

/-- Magnitude bits of the double nearest to `num / den` units. The quotient is rounded to 53
significant bits, or to whole units where it is smaller than that. A significand that rounds up
to 54 bits carries into the exponent field by itself. -/
def nearestOfUnits (num den : Nat) : Nat :=
  let shift := (num / den).log2 - 52
  min (shift * Double.leadingBit + roundHalfEven num (den * Nat.pow 2 shift))
    Double.infinityMagnitude

/-- Magnitude bits of the double nearest to `num / den`. -/
def nearest (num den : Nat) : Nat :=
  nearestOfUnits (num * Double.one) den

def Double.ofInt (n : Int) : Double :=
  .ofMagnitude (decide (n < 0)) (nearest n.natAbs 1)

end CountAlarm.Decimal
