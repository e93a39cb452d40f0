import CountAlarm.Decimal.Reading
import CountAlarm.Document
/-!
# The leaves of TOML

Blanks, comments, keys, texts, numbers and dates. Each reader takes characters and returns what it
read with the characters that are left, or nothing if the characters do not start with it.
-/

namespace CountAlarm.Toml

/-! ## Characters -/

def isDigit (c : Char) : Bool :=
  decide ('0' ≤ c) && decide (c ≤ '9')

def isHexDigit (c : Char) : Bool :=
  isDigit c || (decide ('a' ≤ c) && decide (c ≤ 'f')) || (decide ('A' ≤ c) && decide (c ≤ 'F'))

/-- The value of a digit of any base up to sixteen. -/
def digitValue (c : Char) : Nat :=
  if isDigit c then c.toNat - '0'.toNat
  else if 'a' ≤ c then c.toNat - 'a'.toNat + 10
  else c.toNat - 'A'.toNat + 10

def isBlank (c : Char) : Bool :=
  c == ' ' || c == '\t'

/-- Characters that may stand in comments and texts: the tab and all but the controls. -/
def isPrintable (c : Char) : Bool :=
  c == '\t' || (decide (' ' ≤ c) && decide (c ≤ '~')) || decide (0x80 ≤ c.toNat)

/-- Characters of a key without quotation marks. -/
def isBare (c : Char) : Bool :=
  isDigit c || (decide ('a' ≤ c) && decide (c ≤ 'z')) || (decide ('A' ≤ c) && decide (c ≤ 'Z')) ||
    c == '-' || c == '_'

def skipBlanks (chars : List Char) : List Char :=
  chars.dropWhile isBlank

/-- Line ends as line feeds. A carriage return that ends no line stays, and no reader takes it. -/
def unifyLineEnds : List Char → List Char
  | '\r' :: '\n' :: rest => '\n' :: unifyLineEnds rest
  | c :: rest => c :: unifyLineEnds rest
  | [] => []

def lineEnd? : List Char → Option (List Char)
  | '\n' :: rest => some rest
  | _ => none

def skipComment (chars : List Char) : List Char :=
  match chars with
  | '#' :: rest => rest.dropWhile isPrintable
  | _ => chars

def restOfLine? (chars : List Char) : Option (List Char) :=
  match skipComment (skipBlanks chars) with
  | [] => some []
  | rest => lineEnd? rest

def skipLines : Nat → List Char → List Char
  | 0, chars => chars
  | steps + 1, chars =>
    match skipBlanks chars with
    | '#' :: rest =>
      match lineEnd? (rest.dropWhile isPrintable) with
      | some rest => skipLines steps rest
      | none => '#' :: rest
    | rest =>
      match lineEnd? rest with
      | some rest => skipLines steps rest
      | none => rest

def skipFiller (chars : List Char) : List Char :=
  skipLines (chars.length + 1) chars

/-! ## Texts -/

/-- The characters of a text and what follows it. -/
abbrev TextReading := Option (List Char × List Char)

/-- Puts a character in front of what follows it. -/
def andThen (c : Char) (read : TextReading) : TextReading :=
  read.map fun (text, rest) => (c :: text, rest)

def scalar? (n : Nat) : Option Char :=
  if h : n.isValidChar then some (Char.ofNatAux n h) else none

def codePoint? (digits : List Char) : Option Char :=
  if digits.all isHexDigit then scalar? (digits.foldl (fun n c => 16 * n + digitValue c) 0)
  else none

def simpleEscape? (c : Char) : Option Char :=
  if c = '"' ∨ c = '\\' then some c
  else if c = 'b' then some '\x08'
  else if c = 'f' then some '\x0c'
  else if c = 'n' then some '\n'
  else if c = 'r' then some '\r'
  else if c = 't' then some '\t'
  else none

/-- Reads an escape after its reversed solidus. -/
def escape? : List Char → Option (Char × List Char)
  | 'u' :: a :: b :: c :: d :: rest => (codePoint? [a, b, c, d]).map fun c => (c, rest)
  | 'U' :: a :: b :: c :: d :: e :: f :: g :: h :: rest =>
    (codePoint? [a, b, c, d, e, f, g, h]).map fun c => (c, rest)
  | c :: rest => (simpleEscape? c).map fun c => (c, rest)
  | [] => none

/-- Reads a text on one line after its opening quotation mark. -/
def basicText? : Nat → List Char → TextReading
  | 0, _ => none
  | steps + 1, chars =>
    match chars with
    | [] => none
    | '"' :: rest => some ([], rest)
    | '\\' :: rest => do
      let (c, rest) ← escape? rest
      andThen c (basicText? steps rest)
    | c :: rest => if isPrintable c then andThen c (basicText? steps rest) else none

/-- Reads a text without escapes on one line after its opening apostrophe. -/
def literalText? : List Char → TextReading
  | [] => none
  | '\'' :: rest => some ([], rest)
  | c :: rest => if isPrintable c then andThen c (literalText? rest) else none

/-- A run of quotation marks in a text of several lines: one or two belong to the text, three to
five end it, those beyond three belonging to the text. -/
def quoteRun (mark : Char) (chars : List Char) : Nat :=
  min 5 (chars.takeWhile (· == mark)).length

/-- Skips blanks and line ends after a reversed solidus at the end of a line. -/
def skipLineBreak? (chars : List Char) : Option (List Char) :=
  (lineEnd? (skipBlanks chars)).map fun rest =>
    rest.dropWhile fun c => isBlank c || c == '\n'

/-- Reads a text of several lines. Escapes are read only between quotation marks. -/
def longText? (mark : Char) : Nat → List Char → TextReading
  | 0, _ => none
  | steps + 1, chars =>
    match chars with
    | [] => none
    | c :: rest =>
      if c = mark then
        let run := quoteRun mark chars
        if run < 3 then
          (longText? mark steps (chars.drop run)).map fun (text, rest) =>
            (List.replicate run mark ++ text, rest)
        else some (List.replicate (run - 3) mark, chars.drop run)
      else if c = '\\' ∧ mark = '"' then
        match skipLineBreak? rest with
        | some rest => longText? mark steps rest
        | none => do
          let (c, rest) ← escape? rest
          andThen c (longText? mark steps rest)
      else if isPrintable c ∨ c = '\n' then andThen c (longText? mark steps rest)
      else none

/-- Reads a text of several lines after its opening marks; a line end right after them is not part
of it. -/
def openedLongText? (mark : Char) (chars : List Char) : TextReading :=
  let start := match chars with
    | '\n' :: rest => rest
    | _ => chars
  longText? mark (start.length + 1) start

def shortText? : List Char → TextReading
  | '"' :: rest => basicText? (rest.length + 1) rest
  | '\'' :: rest => literalText? rest
  | _ => none

def text? : List Char → TextReading
  | '"' :: '"' :: '"' :: rest => openedLongText? '"' rest
  | '\'' :: '\'' :: '\'' :: rest => openedLongText? '\'' rest
  | chars => shortText? chars

/-! ## Keys -/

def simpleKey? (chars : List Char) : Option (String × List Char) :=
  match chars with
  | '"' :: _ => (shortText? chars).map fun (text, rest) => (String.ofList text, rest)
  | '\'' :: _ => (shortText? chars).map fun (text, rest) => (String.ofList text, rest)
  | _ =>
    let bare := chars.takeWhile isBare
    if bare.isEmpty then none else some (String.ofList bare, chars.dropWhile isBare)

def keyLimit : Nat :=
  79

def keyParts? : Nat → List Char → Option (List String × List Char)
  | 0, _ => none
  | steps + 1, chars => do
    let (part, rest) ← simpleKey? (skipBlanks chars)
    match skipBlanks rest with
    | '.' :: rest =>
      let (parts, rest) ← keyParts? steps rest
      some (part :: parts, rest)
    | rest => some ([part], rest)

def key? (chars : List Char) : Option (List String × List Char) := do
  let (parts, rest) ← keyParts? (chars.length + 1) chars
  if parts.length ≤ keyLimit then some (parts, rest) else none

/-! ## Numbers -/

/-- Tells whether every low line stands between two digits. -/
def separatesDigits : List Char → Bool
  | [] => false
  | ['_'] => false
  | [_] => true
  | '_' :: '_' :: _ => false
  | _ :: rest => separatesDigits rest

/-- Reads digits with single low lines between them. -/
def digitRun? (isDigit : Char → Bool) (chars : List Char) : Option (List Nat × List Char) :=
  let inRun (c : Char) : Bool := isDigit c || c == '_'
  let run := chars.takeWhile inRun
  if run.head? ≠ some '_' ∧ separatesDigits run then
    some ((run.filter isDigit).map digitValue, chars.dropWhile inRun)
  else none

def sign : List Char → Bool × List Char
  | '-' :: rest => (true, rest)
  | '+' :: rest => (false, rest)
  | chars => (false, chars)

/-- Reads decimal digits without a useless zero in front. -/
def wholePart? (chars : List Char) : Option (List Nat × List Char) :=
  match chars with
  | '0' :: rest => some ([0], rest)
  | _ => digitRun? isDigit chars

/-- The integer that digits stand for, if it is one of 64 bits. -/
def integer? (negative : Bool) (base : Nat) (digits : List Nat) : Option Document :=
  let magnitude := digits.foldl (fun n d => base * n + d) 0
  let value : Int := if negative then -(magnitude : Int) else magnitude
  if Int64.minValue.toInt ≤ value ∧ value ≤ Int64.maxValue.toInt then
    some (.integer (Int64.ofInt value))
  else none

/-- Reads the digits of an exponent after its mark. -/
def exponent? (chars : List Char) : Option (Option (Bool × List Nat) × List Char) :=
  let (negated, rest) := sign chars
  (digitRun? isDigit rest).map fun (digits, rest) => (some (negated, digits), rest)

def exponentPart? : List Char → Option (Option (Bool × List Nat) × List Char)
  | 'e' :: rest => exponent? rest
  | 'E' :: rest => exponent? rest
  | rest => some (none, rest)

/-- A double as a document. Numbers too large for a double are refused; those too small, far below
zero, are the negative infinity. -/
def ofNumeral? (n : Decimal.Numeral) : Option Document :=
  if n.exact = .infinity false then none else some (.float n.exact)

/-- Reads a number that starts with a decimal digit or a sign. -/
def decimal? (chars : List Char) : Option (Document × List Char) := do
  let (negative, rest) := sign chars
  match rest with
  | 'i' :: 'n' :: 'f' :: rest => some (.float (.infinity negative), rest)
  | 'n' :: 'a' :: 'n' :: rest => some (.float .notANumber, rest)
  | _ =>
    let (whole, rest) ← wholePart? rest
    match rest with
    | '.' :: rest => do
      let (fraction, rest) ← digitRun? isDigit rest
      let (exponent, rest) ← exponentPart? rest
      let d ← ofNumeral? { negative, whole, fraction, exponent }
      some (d, rest)
    | _ => do
      let (exponent, rest) ← exponentPart? rest
      match exponent with
      | none => do
        let d ← integer? negative 10 whole
        some (d, rest)
      | some _ => do
        let d ← ofNumeral? { negative, whole, fraction := [], exponent }
        some (d, rest)

/-- Reads an integer in another base. -/
def basedInteger? (base : Nat) (isDigit : Char → Bool) (chars : List Char) :
    Option (Document × List Char) := do
  let (digits, rest) ← digitRun? isDigit chars
  let d ← integer? false base digits
  some (d, rest)

def number? : List Char → Option (Document × List Char)
  | '0' :: 'x' :: rest => basedInteger? 16 isHexDigit rest
  | '0' :: 'o' :: rest => basedInteger? 8 (fun c => decide ('0' ≤ c) && decide (c ≤ '7')) rest
  | '0' :: 'b' :: rest => basedInteger? 2 (fun c => c == '0' || c == '1') rest
  | chars => decimal? chars

/-! ## Dates and times -/

def twoDigits? : List Char → Option (Nat × List Char)
  | a :: b :: rest =>
    if isDigit a && isDigit b then some (10 * digitValue a + digitValue b, rest) else none
  | _ => none

def bounded? (low high : Nat) (chars : List Char) : Option (List Char) := do
  let (n, rest) ← twoDigits? chars
  if low ≤ n ∧ n ≤ high then some rest else none

def daysInMonth (year month : Nat) : Nat :=
  if month = 2 then
    if year % 4 = 0 ∧ (year % 100 ≠ 0 ∨ year % 400 = 0) then 29 else 28
  else if month = 4 ∨ month = 6 ∨ month = 9 ∨ month = 11 then 30
  else 31

def date? (chars : List Char) : Option (List Char) := do
  let (century, rest) ← twoDigits? chars
  let (yearOfCentury, rest) ← twoDigits? rest
  match rest with
  | '-' :: rest => do
    let (month, rest) ← twoDigits? rest
    if month < 1 ∨ 12 < month then none
    match rest with
    | '-' :: rest => bounded? 1 (daysInMonth (100 * century + yearOfCentury) month) rest
    | _ => none
  | _ => none

def decimals? : List Char → Option (List Char)
  | '.' :: c :: rest => if isDigit c then some (rest.dropWhile isDigit) else none
  | '.' :: [] => none
  | rest => some rest

def time? (chars : List Char) : Option (List Char) := do
  match ← bounded? 0 23 chars with
  | ':' :: rest => do
    match ← bounded? 0 59 rest with
    | ':' :: rest => do
      let rest ← bounded? 0 60 rest
      decimals? rest
    | _ => none
  | _ => none

def offsetTime? (chars : List Char) : Option (List Char) := do
  match ← bounded? 0 23 chars with
  | ':' :: rest => bounded? 0 59 rest
  | _ => none

/-- Reads an offset from universal time, if there is one. -/
def offset? : List Char → Option (List Char)
  | 'Z' :: rest => some rest
  | 'z' :: rest => some rest
  | '+' :: rest => offsetTime? rest
  | '-' :: rest => offsetTime? rest
  | rest => some rest

def startsTime (chars : List Char) : Bool :=
  match twoDigits? chars with
  | some (_, ':' :: _) => true
  | _ => false

def startsDate (chars : List Char) : Bool :=
  ((chars.take 4).length == 4 && (chars.take 4).all isDigit) && (chars.drop 4).head? == some '-'

def timeWithOffset? (chars : List Char) : Option (List Char) := do
  let rest ← time? chars
  offset? rest

/-- Reads a date, with a time after it if one follows. -/
def dateTime? (chars : List Char) : Option (List Char) := do
  let rest ← date? chars
  match rest with
  | c :: after =>
    if (c = 'T' ∨ c = 't' ∨ c = ' ') ∧ startsTime after then timeWithOffset? after else some rest
  | [] => some []

def moment? (chars : List Char) : Option (Document × List Char) :=
  (if startsDate chars then dateTime? chars else time? chars).map fun rest => (.moment, rest)

end CountAlarm.Toml
