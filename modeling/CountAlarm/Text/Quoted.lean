/-!
# Quoted text in documents

A text is written between quotation marks. The quotation mark, the reversed solidus and the
characters below the space are written as escapes, everything else stands for itself.
-/

namespace CountAlarm.Text.Quoted

def hexDigit (n : Nat) : Char :=
  (Nat.digitChar (n % 16))

/-- How one character is written. -/
def escape (c : Char) : List Char :=
  if c = '"' then ['\\', '"']
  else if c = '\\' then ['\\', '\\']
  else if c = '\x08' then ['\\', 'b']
  else if c = '\x0c' then ['\\', 'f']
  else if c = '\n' then ['\\', 'n']
  else if c = '\r' then ['\\', 'r']
  else if c = '\t' then ['\\', 't']
  else if c.toNat < 0x20 then ['\\', 'u', '0', '0', hexDigit (c.toNat / 16), hexDigit c.toNat]
  else [c]

def quote (text : String) : String :=
  String.ofList ('"' :: text.toList.flatMap escape ++ ['"'])

end CountAlarm.Text.Quoted
