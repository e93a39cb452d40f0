/-!
# Instants and their text

An instant is a number of seconds since 1970 and the nanoseconds within the last of them. Its text
is the RFC 3339 form in universal time, with the fewest of zero, three, six or nine decimals that
are exact.
-/

namespace CountAlarm

def nanosPerSecond : Nat :=
  1000000000

structure Instant where
  second : Nat
  nanosecond : Nat
deriving DecidableEq, Repr

namespace Instant

/-- The latest nanosecond that an instant can lie at, counted from 1970. -/
def lastNano : Nat :=
  9223372036854775807

/-- The instant of a time in nanoseconds; later times stand for the last instant. -/
def ofNanos (time : UInt64) : Instant :=
  let nanos := min time.toNat lastNano
  ⟨nanos / nanosPerSecond, nanos % nanosPerSecond⟩

/-! ## Calendar -/

structure Date where
  year : Nat
  month : Nat
  day : Nat
deriving DecidableEq, Repr

/-- The date that lies some days after the first of January 1970. Years are counted from March,
so a leap day is the last day of its year; 719468 days lead from the first of March of the year
zero to the first of January 1970, and a cycle of 400 years has 146097 days. -/
def dateOfDay (day : Nat) : Date :=
  let shifted := day + 719468
  let cycle := shifted / 146097
  let dayOfCycle := shifted % 146097
  let yearOfCycle :=
    (dayOfCycle - dayOfCycle / 1460 + dayOfCycle / 36524 - dayOfCycle / 146096) / 365
  let dayOfYear := dayOfCycle - (365 * yearOfCycle + yearOfCycle / 4 - yearOfCycle / 100)
  let monthFromMarch := (5 * dayOfYear + 2) / 153
  let month := if monthFromMarch < 10 then monthFromMarch + 3 else monthFromMarch - 9
  { year := cycle * 400 + yearOfCycle + (if month ≤ 2 then 1 else 0)
    month
    day := dayOfYear - (153 * monthFromMarch + 2) / 5 + 1 }

/-! ## Text -/

/-- Decimal digits with zeros in front up to a width. -/
def padded (width n : Nat) : String :=
  let digits := Nat.toDigits 10 n
  String.ofList (List.replicate (width - digits.length) '0' ++ digits)

/-- The fraction of a second with its point; nothing for whole seconds. -/
def fractionText (nanosecond : Nat) : String :=
  if nanosecond = 0 then ""
  else if nanosecond % 1000000 = 0 then "." ++ padded 3 (nanosecond / 1000000)
  else if nanosecond % 1000 = 0 then "." ++ padded 6 (nanosecond / 1000)
  else "." ++ padded 9 nanosecond

def text (i : Instant) : String :=
  let date := dateOfDay (i.second / 86400)
  let inDay := i.second % 86400
  padded 4 date.year ++ "-" ++ padded 2 date.month ++ "-" ++ padded 2 date.day ++ "T" ++
    padded 2 (inDay / 3600) ++ ":" ++ padded 2 (inDay / 60 % 60) ++ ":" ++ padded 2 (inDay % 60) ++
    fractionText i.nanosecond ++ "+00:00"

end Instant

end CountAlarm
