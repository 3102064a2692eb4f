import Relay.Text.Hex

/-!
# Writing JSON

Objects on one line without blanks, their members in the order given.
-/

namespace Relay.Json

/-- What stands for a character in a text. -/
def escape (c : Char) : List Char :=
  if c = '"' ∨ c = '\\' then ['\\', c]
  else if c = '\n' then ['\\', 'n']
  else if c = '\r' then ['\\', 'r']
  else if c = '\t' then ['\\', 't']
  else if c.toNat = 8 then ['\\', 'b']
  else if c.toNat = 12 then ['\\', 'f']
  else if c.toNat < 32 then ['\\', 'u'] ++ Text.Hex.encode [0, UInt8.ofNat c.toNat]
  else [c]

def text (s : String) : String :=
  String.ofList (['"'] ++ s.toList.flatMap escape ++ ['"'])

/-- An object, given the written values of its members. -/
def object (members : List (String × String)) : String :=
  let shown := members.map fun (name, value) => text name ++ ":" ++ value
  "\x7b" ++ String.intercalate "," shown ++ "\x7d"

end Relay.Json
