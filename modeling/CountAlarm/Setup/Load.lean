import CountAlarm.Json.Reader
import CountAlarm.Setup.Config
import CountAlarm.Toml.Reader
/-!
# Loading configurations

A configuration is loaded from the bytes of a TOML text. `Load` says what may go wrong before it can
be validated.
-/

namespace CountAlarm

/-- Why no configuration could be loaded. -/
inductive LoadError where
  /-- The text could not be obtained. -/
  | unreadable
  /-- The text is no configuration. -/
  | malformed
deriving DecidableEq, Repr

namespace Config

def ofToml (text : String) : Except LoadError Config :=
  match Toml.read? text with
  | none => .error .malformed
  | some d =>
    match ofDocument? d with
    | none => .error .malformed
    | some c => .ok c

/-- Loads a configuration from the bytes of a file. There are none if the file could not be read. -/
def load (content : Option (List UInt8)) : Except LoadError Config :=
  match content with
  | none => .error .unreadable
  | some bytes =>
    match Text.Utf8.decode? bytes with
    | none => .error .unreadable
    | some chars => ofToml (String.ofList chars)

end Config

end CountAlarm
