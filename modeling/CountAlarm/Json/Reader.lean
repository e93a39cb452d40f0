import CountAlarm.Decimal.Reading
import CountAlarm.Document
/-!
# Reading JSON

A reader takes characters and returns what it read with the characters that are left. Values nest,
so their reader is bounded by a count of steps; each step takes a character, and the length of the
text is enough. Parts that are well-formed but have no value become `Document.unreadable`: numbers
beyond all doubles, halves of surrogate pairs, and nesting deeper than `nestingLimit`.
-/

namespace CountAlarm.Json

/-- The deepest level of nesting that has a value. -/
def nestingLimit : Nat :=
  127

def isBlank (c : Char) : Bool :=
  c == ' ' || c == '\n' || c == '\t' || c == '\r'

def skipBlanks (chars : List Char) : List Char :=
  chars.dropWhile isBlank

/-! ## Texts -/

def hexValue? (c : Char) : Option Nat :=
  if '0' ≤ c ∧ c ≤ '9' then some (c.toNat - '0'.toNat)
  else if 'a' ≤ c ∧ c ≤ 'f' then some (c.toNat - 'a'.toNat + 10)
  else if 'A' ≤ c ∧ c ≤ 'F' then some (c.toNat - 'A'.toNat + 10)
  else none

def hexQuad? (a b c d : Char) : Option Nat := do
  let a ← hexValue? a
  let b ← hexValue? b
  let c ← hexValue? c
  let d ← hexValue? d
  some (((a * 16 + b) * 16 + c) * 16 + d)

def isHighSurrogate (n : Nat) : Bool :=
  decide (0xD800 ≤ n) && decide (n < 0xDC00)

def isLowSurrogate (n : Nat) : Bool :=
  decide (0xDC00 ≤ n) && decide (n < 0xE000)

def simpleEscape? (c : Char) : Option Char :=
  if c = '"' ∨ c = '\\' ∨ c = '/' then some c
  else if c = 'b' then some '\x08'
  else if c = 'f' then some '\x0c'
  else if c = 'n' then some '\n'
  else if c = 'r' then some '\r'
  else if c = 't' then some '\t'
  else none

/-- A character of a text, or a code unit that was written as four hexadecimal digits. -/
inductive Piece where
  | char (c : Char)
  | unit (n : Nat)

/-- The pieces of a text after its opening quotation mark. -/
def pieces? : List Char → Option (List Piece × List Char)
  | [] => none
  | '"' :: rest => some ([], rest)
  | '\\' :: 'u' :: a :: b :: c :: d :: rest => do
    let n ← hexQuad? a b c d
    let (pieces, rest) ← pieces? rest
    some (.unit n :: pieces, rest)
  | '\\' :: c :: rest => do
    let c ← simpleEscape? c
    let (pieces, rest) ← pieces? rest
    some (.char c :: pieces, rest)
  | c :: rest => do
    if c.toNat < 0x20 ∨ c = '\\' then none
    let (pieces, rest) ← pieces? rest
    some (.char c :: pieces, rest)

/-- The characters of a text; half a surrogate pair stands for none. -/
def characters? : List Piece → Option (List Char)
  | [] => some []
  | .char c :: rest => (characters? rest).map (c :: ·)
  | .unit high :: .unit low :: rest =>
    if isHighSurrogate high ∧ isLowSurrogate low then
      (characters? rest).map
        (Char.ofNat (0x10000 + (high - 0xD800) * 0x400 + (low - 0xDC00)) :: ·)
    else if isHighSurrogate high ∨ isLowSurrogate high then none
    else (characters? (.unit low :: rest)).map (Char.ofNat high :: ·)
  | .unit n :: rest =>
    if isHighSurrogate n ∨ isLowSurrogate n then none
    else (characters? rest).map (Char.ofNat n :: ·)

/-- Reads a text after its opening quotation mark. It has no value if a part of it has none. -/
def text? (chars : List Char) : Option (Option String × List Char) :=
  (pieces? chars).map fun (pieces, rest) => ((characters? pieces).map String.ofList, rest)

/-! ## Numbers -/

def isDigit (c : Char) : Bool :=
  decide ('0' ≤ c) && decide (c ≤ '9')

def digits (chars : List Char) : List Nat × List Char :=
  ((chars.takeWhile isDigit).map fun c => c.toNat - '0'.toNat, chars.dropWhile isDigit)

/-- The whole part: one digit zero, or digits that start with another one. -/
def wholePart? (chars : List Char) : Option (List Nat × List Char) :=
  match digits chars with
  | ([], _) => none
  | ([d], rest) => some ([d], rest)
  | (d :: ds, rest) => if d = 0 then none else some (d :: ds, rest)

def fractionPart? : List Char → Option (List Nat × List Char)
  | '.' :: chars =>
    match digits chars with
    | ([], _) => none
    | split => some split
  | chars => some ([], chars)

def exponentDigits? (negated : Bool) (chars : List Char) :
    Option (Option (Bool × List Nat) × List Char) :=
  match digits chars with
  | ([], _) => none
  | (ds, rest) => some (some (negated, ds), rest)

def exponentPart? : List Char → Option (Option (Bool × List Nat) × List Char)
  | c :: chars =>
    if c = 'e' ∨ c = 'E' then
      match chars with
      | '+' :: rest => exponentDigits? false rest
      | '-' :: rest => exponentDigits? true rest
      | _ => exponentDigits? false chars
    else some (none, c :: chars)
  | [] => some (none, [])

def numeral? (negative : Bool) (chars : List Char) :
    Option (Decimal.Numeral × List Char) := do
  let (whole, chars) ← wholePart? chars
  let (fraction, chars) ← fractionPart? chars
  let (exponent, chars) ← exponentPart? chars
  some ({ negative, whole, fraction, exponent }, chars)

def ofReading : Decimal.Numeral.Reading → Document
  | .natural n => .natural n
  | .integer i => .integer i
  | .float x => .float x
  | .outOfRange => .unreadable

def number? (negative : Bool) (chars : List Char) : Option (Document × List Char) := do
  let (numeral, rest) ← numeral? negative chars
  some (ofReading numeral.stepwise, rest)

/-! ## Values -/

def ofText : Option String → Document
  | some content => .text content
  | none => .unreadable

/-- A list or an object as a document: nothing below the nesting limit and no object with a name
without value can be read. -/
def ofList (level : Nat) (items : List Document) : Document :=
  if nestingLimit < level then .unreadable else .list items

def ofObject (level : Nat) (members : List (Option String × Document)) : Document :=
  if nestingLimit < level then .unreadable
  else match members.mapM fun m => m.1.map fun name => (name, m.2) with
    | some members => .object members
    | none => .unreadable

def word? (word : String) (value : Document) (chars : List Char) : Option (Document × List Char) :=
  if word.toList.isPrefixOf chars then some (value, chars.drop word.length) else none

mutual

/-- Reads a value that stands inside of `level` lists and objects. -/
def value? (steps level : Nat) (chars : List Char) : Option (Document × List Char) :=
  match steps with
  | 0 => none
  | steps + 1 =>
    match skipBlanks chars with
    | '"' :: rest => (text? rest).map fun (content, rest) => (ofText content, rest)
    | '[' :: rest =>
      match skipBlanks rest with
      | ']' :: rest => some (ofList (level + 1) [], rest)
      | rest => (items? steps (level + 1) rest).map fun (items, rest) =>
        (ofList (level + 1) items, rest)
    | '\x7b' :: rest =>
      match skipBlanks rest with
      | '\x7d' :: rest => some (ofObject (level + 1) [], rest)
      | rest => (members? steps (level + 1) rest).map fun (members, rest) =>
        (ofObject (level + 1) members, rest)
    | '-' :: rest => number? true rest
    | c :: rest =>
      if isDigit c then number? false (c :: rest)
      else if c = 't' then word? "true" (.bool true) (c :: rest)
      else if c = 'f' then word? "false" (.bool false) (c :: rest)
      else word? "null" .null (c :: rest)
    | [] => none

def items? (steps level : Nat) (chars : List Char) : Option (List Document × List Char) :=
  match steps with
  | 0 => none
  | steps + 1 =>
    match value? steps level chars with
    | none => none
    | some (item, rest) =>
      match skipBlanks rest with
      | ']' :: rest => some ([item], rest)
      | ',' :: rest => (items? steps level rest).map fun (items, rest) => (item :: items, rest)
      | _ => none

def members? (steps level : Nat) (chars : List Char) :
    Option (List (Option String × Document) × List Char) :=
  match steps with
  | 0 => none
  | steps + 1 =>
    match skipBlanks chars with
    | '"' :: rest =>
      match text? rest with
      | none => none
      | some (name, rest) =>
        match skipBlanks rest with
        | ':' :: rest =>
          match value? steps level rest with
          | none => none
          | some (item, rest) =>
            match skipBlanks rest with
            | '\x7d' :: rest => some ([(name, item)], rest)
            | ',' :: rest =>
              (members? steps level rest).map fun (members, rest) => ((name, item) :: members, rest)
            | _ => none
        | _ => none
    | _ => none

end

def read? (text : String) : Option Document :=
  let chars := text.toList
  match value? (2 * chars.length + 2) 0 chars with
  | some (d, rest) => if (skipBlanks rest).isEmpty then some d else none
  | none => none

end CountAlarm.Json
