import CountAlarm.Decimal.Rounding
/-!
# Reading decimal numbers

Two ways from a written number to a double. `Numeral.exact` rounds the number itself.
`Numeral.stepwise` keeps as many leading digits as fit into 64 bits and then scales by powers of ten
that are doubles, rounding after each step; it is the reading of JSON, and it also tells whether the
number is a whole one.
-/

namespace CountAlarm.Decimal

/-- A written number. `exponent` holds the digits after the exponent mark and whether they are
negated. -/
structure Numeral where
  negative : Bool
  whole : List Nat
  fraction : List Nat
  exponent : Option (Bool × List Nat)
deriving Repr

def ofDigits (digits : List Nat) : Nat :=
  digits.foldl (fun n d => 10 * n + d) 0

namespace Numeral

/-! ## Exact reading -/

def scale (n : Numeral) : Int :=
  match n.exponent with
  | none => 0
  | some (true, digits) => -(ofDigits digits : Int)
  | some (false, digits) => (ofDigits digits : Int)

/-- The nearest double. Numbers beyond all doubles become infinities; exponents far outside the
range of doubles are settled before any power of ten is computed. -/
def exact (n : Numeral) : Double :=
  let digits := n.whole ++ n.fraction
  let significand := ofDigits digits
  let exponent := n.scale - (n.fraction.length : Int)
  let magnitude :=
    if significand = 0 then 0
    else if 400 < exponent then Double.infinityMagnitude
    else if exponent + (digits.length : Int) < -400 then 0
    else if 0 ≤ exponent then nearest (significand * Nat.pow 10 exponent.toNat) 1
    else nearest significand (Nat.pow 10 (-exponent).toNat)
  .ofMagnitude n.negative magnitude

/-! ## Stepwise reading -/

/-- Takes digits into a significand as long as it stays below `UInt64.size`, and returns it with the
digits that are left. -/
def absorb (significand : Nat) : List Nat → Nat × List Nat
  | [] => (significand, [])
  | d :: ds =>
    if 10 * significand + d < UInt64.size then absorb (10 * significand + d) ds
    else (significand, d :: ds)

/-- Units of the double nearest to a power of ten; it is finite up to the exponent 308. -/
def powerOfTen (exponent : Nat) : Nat :=
  (Double.ofMagnitude false (nearest (Nat.pow 10 exponent) 1)).units

/-- Magnitude bits of the product of a double with a power of ten. -/
def product (x : Double) (exponent : Nat) : Nat :=
  nearestOfUnits (x.units * powerOfTen exponent) Double.one

/-- Magnitude bits of the quotient of a double by a power of ten. -/
def quotient (x : Double) (exponent : Nat) : Nat :=
  nearestOfUnits (x.units * Double.one) (powerOfTen exponent)

/-- Scales a double of no sign by a power of ten, dividing by `10 ^ 308` as long as the exponent is
smaller than the powers that are doubles. There is no result where it would be infinite. -/
def scaled? (x : Double) (exponent : Int) : Option Double :=
  if exponent < -308 then
    if x.units = 0 then some x
    else scaled? (.ofMagnitude false (quotient x 308)) (exponent + 308)
  else if exponent < 0 then some (.ofMagnitude false (quotient x exponent.natAbs))
  else if exponent ≤ 308 then
    let magnitude := product x exponent.natAbs
    if magnitude < Double.infinityMagnitude then some (.ofMagnitude false magnitude) else none
  else if x.units = 0 then some x
  else none
termination_by (-exponent).toNat

/-- A number as JSON has them. -/
inductive Reading where
  | natural (n : UInt64)
  | integer (i : Int64)
  | float (x : Double)
  | outOfRange
deriving Repr

def floatReading (negative : Bool) (significand : Nat) (exponent : Int) : Reading :=
  match scaled? (.ofMagnitude false (nearest significand 1)) exponent with
  | some x => .float (.ofMagnitude negative x.magnitude)
  | none => .outOfRange

/-- The largest exponent that is taken for a number. -/
def exponentLimit : Nat :=
  2147483647

def clampExponent (exponent : Int) : Int :=
  max (-(exponentLimit : Int) - 1) (min exponent exponentLimit)

/-- Reads a number of JSON. One without fraction and exponent is whole if it fits: without a sign
into 64 bits, and with a sign if it is neither zero nor below the least signed number. -/
def stepwise (n : Numeral) : Reading :=
  let (whole, wholeRest) := absorb 0 n.whole
  let (significand, fractionRest) := absorb whole n.fraction
  let exponent :=
    (wholeRest.length : Int) - ((n.fraction.length : Int) - (fractionRest.length : Int))
  match n.exponent with
  | some (negated, digits) =>
    let written := ofDigits digits
    if written ≤ exponentLimit then
      let total := if negated then exponent - written else exponent + written
      floatReading n.negative significand (clampExponent total)
    else if significand ≠ 0 ∧ !negated then .outOfRange
    else .float (.zero n.negative)
  | none =>
    if n.fraction.isEmpty ∧ wholeRest.isEmpty then
      if !n.negative then .natural (UInt64.ofNat whole)
      else if whole = 0 ∨ 9223372036854775808 < whole then
        .float (.ofMagnitude true (nearest whole 1))
      else .integer (Int64.ofInt (-(whole : Int)))
    else floatReading n.negative significand exponent

end Numeral

end CountAlarm.Decimal
