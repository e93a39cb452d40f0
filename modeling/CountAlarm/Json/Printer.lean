import CountAlarm.Decimal.Layout
import CountAlarm.Document
import CountAlarm.Text.Quoted
/-!
# Writing documents as JSON

`compact` writes a document on one line without blanks, `pretty` one member or element on a line,
two blanks deeper for each level. Members keep their order.
-/

namespace CountAlarm.Document

open CountAlarm.Text.Quoted (quote)

/-- Text of a document that has no parts. -/
def leafText : Document → String
  | .bool true => "true"
  | .bool false => "false"
  | .natural n => toString n.toNat
  | .integer i => toString i.toInt
  | .float x => Decimal.Layout.json.text x
  | .text s => quote s
  | _ => "null"

mutual

def compact : Document → String
  | .list items => "[" ++ compactItems items ++ "]"
  | .array items => "[" ++ compactItems items ++ "]"
  | .object members => "\x7b" ++ compactMembers members ++ "\x7d"
  | .table members => "\x7b" ++ compactMembers members ++ "\x7d"
  | leaf => leafText leaf

def compactItems : List Document → String
  | [] => ""
  | [d] => compact d
  | d :: ds => compact d ++ "," ++ compactItems ds

def compactMembers : List (String × Document) → String
  | [] => ""
  | [m] => quote m.1 ++ ":" ++ compact m.2
  | m :: ms => quote m.1 ++ ":" ++ compact m.2 ++ "," ++ compactMembers ms

end

def lineStart (level : Nat) : String :=
  String.ofList ('\n' :: List.replicate (2 * level) ' ')

mutual

def prettyAt (level : Nat) : Document → String
  | .list [] => "[]"
  | .list items => "[" ++ prettyItems (level + 1) items ++ lineStart level ++ "]"
  | .array [] => "[]"
  | .array items => "[" ++ prettyItems (level + 1) items ++ lineStart level ++ "]"
  | .object [] => "\x7b\x7d"
  | .object members => "\x7b" ++ prettyMembers (level + 1) members ++ lineStart level ++ "\x7d"
  | .table [] => "\x7b\x7d"
  | .table members => "\x7b" ++ prettyMembers (level + 1) members ++ lineStart level ++ "\x7d"
  | leaf => leafText leaf

def prettyItems (level : Nat) : List Document → String
  | [] => ""
  | [d] => lineStart level ++ prettyAt level d
  | d :: ds => lineStart level ++ prettyAt level d ++ "," ++ prettyItems level ds

def prettyMembers (level : Nat) : List (String × Document) → String
  | [] => ""
  | [m] => lineStart level ++ quote m.1 ++ ": " ++ prettyAt level m.2
  | m :: ms =>
    lineStart level ++ quote m.1 ++ ": " ++ prettyAt level m.2 ++ "," ++ prettyMembers level ms

end

def pretty (d : Document) : String :=
  prettyAt 0 d

end CountAlarm.Document
