import Relay.Text.Printable

/-!
# Quoted text

Text between double quotes, with escapes for what would not show: `\0`, `\t`, `\r`, `\n`,
`\\`, the quote itself, and `\u` with a hexadecimal code for anything unprintable.
-/

namespace Relay.Text.Quoted

/-- The escape of a character inside `quote`. -/
def escape (quote c : Char) : List Char :=
  if c = '\x00' then ['\\', '0']
  else if c = '\t' then ['\\', 't']
  else if c = '\r' then ['\\', 'r']
  else if c = '\n' then ['\\', 'n']
  else if c = '\\' ∨ c = quote then ['\\', c]
  else if isPrintable c then [c]
  else ['\\', 'u', '\x7b'] ++ Nat.toDigits 16 c.toNat ++ ['\x7d']

def text (s : String) : String :=
  String.ofList (['"'] ++ s.toList.flatMap (escape '"') ++ ['"'])

def char (c : Char) : String :=
  String.ofList (['\''] ++ escape '\'' c ++ ['\''])

end Relay.Text.Quoted
