import CountAlarm.Toml.Scanner
import CountAlarm.Toml.Table
/-!
# Reading TOML

Values nest, so their reader is bounded by a count of steps, for which the length of the text is
enough, and by a limit on nesting. A text is a sequence of lines: blank ones, headers, and
keys with values.
-/

namespace CountAlarm.Toml

/-- The deepest nesting of lists and inline tables. -/
def nestingLimit : Nat :=
  79

def word? (word : String) (value : Document) (chars : List Char) : Option (Document × List Char) :=
  if word.toList.isPrefixOf chars then some (value, chars.drop word.length) else none

def leaf? (chars : List Char) : Option (Document × List Char) :=
  match chars with
  | [] => none
  | c :: _ =>
    if c = '"' ∨ c = '\'' then
      (text? chars).map fun (content, rest) => (.text (String.ofList content), rest)
    else if c = 't' then word? "true" (.bool true) chars
    else if c = 'f' then word? "false" (.bool false) chars
    else if startsDate chars ∨ startsTime chars then moment? chars
    else number? chars

mutual

/-- Reads a value inside of `level` lists and inline tables. -/
def value? (steps level : Nat) (chars : List Char) : Option (Document × List Char) :=
  match steps with
  | 0 => none
  | steps + 1 =>
    match chars with
    | '[' :: rest =>
      if nestingLimit ≤ level then none
      else (items? steps (level + 1) rest).map fun (items, rest) => (.array items, rest)
    | '\x7b' :: rest =>
      if nestingLimit ≤ level then none
      else
        match skipBlanks rest with
        | '\x7d' :: rest => some (.table [], rest)
        | rest => (pairs? steps (level + 1) ⟨.header, []⟩ rest).map fun (t, rest) =>
          (t.toDocument, rest)
    | _ => leaf? chars

/-- Reads the elements of a list and its closing bracket. A comma may follow the last element. -/
def items? (steps level : Nat) (chars : List Char) : Option (List Document × List Char) :=
  match steps with
  | 0 => none
  | steps + 1 =>
    match skipFiller chars with
    | ']' :: rest => some ([], rest)
    | start =>
      match value? steps level start with
      | none => none
      | some (item, rest) =>
        match skipFiller rest with
        | ']' :: rest => some ([item], rest)
        | ',' :: rest => (items? steps level rest).map fun (items, rest) => (item :: items, rest)
        | _ => none

/-- Reads the pairs of an inline table into a table, and its closing brace. -/
def pairs? (steps level : Nat) (t : Table) (chars : List Char) : Option (Table × List Char) :=
  match steps with
  | 0 => none
  | steps + 1 =>
    match key? chars with
    | some (key, '=' :: rest) =>
      match value? steps level (skipBlanks rest) with
      | none => none
      | some (item, rest) =>
        match t.addValue? key item with
        | none => none
        | some t =>
          match skipBlanks rest with
          | '\x7d' :: rest => some (t, rest)
          | ',' :: rest => pairs? steps level t rest
          | _ => none
    | _ => none

end

/-! ## Lines -/

structure Draft where
  whole : Table
  header : List String

def header? (draft : Draft) : List Char → Option (Draft × List Char)
  | '[' :: '[' :: rest => do
    let (key, rest) ← key? rest
    match rest with
    | ']' :: ']' :: rest => do
      let whole ← draft.whole.addElement? key
      some (⟨whole, key⟩, rest)
    | _ => none
  | '[' :: rest => do
    let (key, rest) ← key? rest
    match rest with
    | ']' :: rest => do
      let whole ← draft.whole.addTable? key
      some (⟨whole, key⟩, rest)
    | _ => none
  | _ => none

def assignment? (draft : Draft) (chars : List Char) : Option (Draft × List Char) := do
  let (key, rest) ← key? chars
  match rest with
  | '=' :: rest => do
    let start := skipBlanks rest
    let (item, rest) ← value? (2 * start.length + 2) 0 start
    let whole ← draft.whole.addBelow? draft.header key item
    some (⟨whole, draft.header⟩, rest)
  | _ => none

def lines? : Nat → Draft → List Char → Option Draft
  | 0, _, _ => none
  | steps + 1, draft, chars =>
    match skipFiller chars with
    | [] => some draft
    | '#' :: rest => if (rest.dropWhile isPrintable).isEmpty then some draft else none
    | '[' :: rest => do
      let (draft, rest) ← header? draft ('[' :: rest)
      let rest ← restOfLine? rest
      lines? steps draft rest
    | start => do
      let (draft, rest) ← assignment? draft start
      let rest ← restOfLine? rest
      lines? steps draft rest

/-- The characters of a text without a byte order mark, line ends as line feeds. -/
def characters (text : String) : List Char :=
  match text.toList with
  | '\uFEFF' :: rest => unifyLineEnds rest
  | chars => unifyLineEnds chars

def read? (text : String) : Option Document :=
  let chars := characters text
  (lines? (chars.length + 1) ⟨⟨.header, []⟩, []⟩ chars).map fun draft => draft.whole.toDocument

end CountAlarm.Toml
