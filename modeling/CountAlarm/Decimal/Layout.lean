import CountAlarm.Decimal.Shortest
/-!
# How a double is written

`Layout` holds the decisions of a notation: where positional notation ends, what an integral
value looks like and which way ties go. `Layout.json` is the notation of documents,
`Layout.plain` that of text for readers.
-/

namespace CountAlarm.Decimal

/-- The decisions of a notation for doubles. `positional` tells for which decimal exponents,
those of the first digit, no exponent is written; `wholeSuffix` follows a positional number
without a fraction. -/
structure Layout where
  tie : Tie
  positional : Int → Bool
  wholeSuffix : String

/-- Documents write `1e-5` up to `1e16` positionally and always with a fraction; an exponent has a
sign and no padding. -/
def Layout.json : Layout :=
  { tie := .toEven, positional := fun e => decide (-5 ≤ e) && decide (e < 16), wholeSuffix := ".0" }

/-- Text for readers has neither exponents nor empty fractions. -/
def Layout.plain : Layout :=
  { tie := .upward, positional := fun _ => true, wholeSuffix := "" }

/-- Decimal digits of a number, the most significant first. -/
def digitsOf (n : Nat) : List Char :=
  Nat.toDigits 10 n

/-- Positional text of `digits * 10 ^ exponent`. -/
def positionalText (layout : Layout) (digits : List Char) (exponent : Int) : String :=
  if 0 ≤ exponent then
    String.ofList (digits ++ List.replicate exponent.toNat '0') ++ layout.wholeSuffix
  else
    let places := (-exponent).toNat
    let padded := List.replicate (places + 1 - digits.length) '0' ++ digits
    let whole := padded.take (padded.length - places)
    let fraction := padded.drop (padded.length - places)
    String.ofList (whole ++ '.' :: fraction)

/-- One digit, the fraction if there is one, and an exponent with its sign. -/
def scientificText (digits : List Char) (leading : Int) : String :=
  let mantissa := match digits with
    | [] => []
    | [d] => [d]
    | d :: ds => d :: '.' :: ds
  let sign := if leading < 0 then "e-" else "e+"
  String.ofList mantissa ++ sign ++ String.ofList (digitsOf leading.natAbs)

def Layout.scientific (layout : Layout) (s : Scientific) : String :=
  let digits := digitsOf s.digits
  let leading := s.exponent + (digits.length : Int) - 1
  if layout.positional leading then positionalText layout digits s.exponent
  else scientificText digits leading

def Layout.text (layout : Layout) (x : Double) : String :=
  if x.isNaN then "NaN"
  else
    let sign := if x.isNegative then "-" else ""
    if x.isFinite then sign ++ layout.scientific (shortest layout.tie x)
    else sign ++ "inf"

end CountAlarm.Decimal
