import CountAlarm.Decimal.Rounding
/-!
# Shortest digits that read back

The reals that round to a finite positive double form an interval around it. The digits of the
double are those of the point of the coarsest power-of-ten grid that has a point in the interval;
of two such points the one nearer to the double is taken.
-/

namespace CountAlarm.Decimal

/-- Which of two equally near decimals is taken. -/
inductive Tie where
  | toEven
  | upward
deriving DecidableEq, Repr

/-- The decimal number `digits * 10 ^ exponent`. -/
structure Scientific where
  digits : Nat
  exponent : Int
deriving DecidableEq, Repr

/-- The reals that round to a double, in quarters of its unit: all between `low` and `high`,
the ends themselves only if `closed`. -/
structure RoundingInterval where
  value : Nat
  low : Nat
  high : Nat
  closed : Bool

/-- Half a step lies above each double and half a step below, but only a quarter step below a
power of two, where the doubles get denser. -/
def RoundingInterval.of (x : Double) : RoundingInterval :=
  let step := Nat.pow 2 x.scale
  let value := 4 * x.units
  let below := if x.significand = Double.leadingBit ∧ 0 < x.scale then step else 2 * step
  { value, low := value - below, high := value + 2 * step, closed := x.significand % 2 == 0 }

/-- Tells whether `num / den` quarters lie in the interval. -/
def RoundingInterval.holds (i : RoundingInterval) (num den : Nat) : Bool :=
  if i.closed then decide (i.low * den ≤ num) && decide (num ≤ i.high * den)
  else decide (i.low * den < num) && decide (num < i.high * den)

/-- The point `count * 10 ^ exponent` as a fraction of quarters. -/
def gridPoint (exponent : Int) (count : Nat) : Nat × Nat :=
  let quarters := 4 * Double.one * count
  if 0 ≤ exponent then (quarters * Nat.pow 10 exponent.toNat, 1)
  else (quarters, Nat.pow 10 (-exponent).toNat)

/-- The number of whole grid steps in the interval's value. -/
def gridFloor (i : RoundingInterval) (exponent : Int) : Nat :=
  if 0 ≤ exponent then i.value / (4 * Double.one * Nat.pow 10 exponent.toNat)
  else i.value * Nat.pow 10 (-exponent).toNat / (4 * Double.one)

/-- The nearer of two neighbouring grid points around the value, of two equally near ones the
one that `tie` names. -/
def nearerCount (tie : Tie) (i : RoundingInterval) (exponent : Int) (count : Nat) : Nat :=
  let (low, den) := gridPoint exponent count
  let (high, _) := gridPoint exponent (count + 1)
  let target := 2 * i.value * den
  if target < low + high then count
  else if low + high < target then count + 1
  else match tie with
    | .toEven => count + count % 2
    | .upward => count + 1

/-- The point that the grid of one exponent offers for the interval, if it has one in it. -/
def gridChoice? (tie : Tie) (i : RoundingInterval) (exponent : Int) : Option Nat :=
  let count := gridFloor i exponent
  let inside (count : Nat) : Bool :=
    let (num, den) := gridPoint exponent count
    i.holds num den
  match inside count, inside (count + 1) with
  | true, true => some (nearerCount tie i exponent count)
  | true, false => some count
  | false, true => some (count + 1)
  | false, false => none

/-- Exponents of the grids from one that is too coarse for the interval to the finest that a double
can need. A power of two has about 0.30103 times its exponent in decimal places, and a double is
determined by 17 digits. -/
def gridExponents (i : RoundingInterval) : List Int :=
  let coarsest := ((i.high.log2 : Int) - 1075) * 30103 / 100000 + 1
  (List.range 20).map fun (k : Nat) => coarsest - (k : Int)

/-- The shortest decimal that reads back as the magnitude of a finite double, and among those
the nearest. -/
def shortest (tie : Tie) (x : Double) : Scientific :=
  if x.units = 0 then ⟨0, 0⟩
  else
    let interval := RoundingInterval.of x
    let found := (gridExponents interval).findSome? fun exponent =>
      (gridChoice? tie interval exponent).map fun count => Scientific.mk count exponent
    found.getD ⟨x.units * Nat.pow 5 1074, -1074⟩

end CountAlarm.Decimal
