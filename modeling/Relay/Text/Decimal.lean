import Relay.Bytes

/-!
# Decimal text
-/

namespace Relay.Text.Decimal

/-- The last decimal digit of `n`. -/
def digit (n : Nat) : Char := Char.ofNat (48 + n % 10)

def value? (c : Char) : Option Nat :=
  if '0' ≤ c ∧ c ≤ '9' then some (c.toNat - 48) else none

def isDigit (c : Char) : Bool := (value? c).isSome

/-- The last `width` digits of `n`. -/
def padded : Nat → Nat → List Char
  | 0, _ => []
  | width + 1, n => padded width (n / 10) ++ [digit n]

def natural (n : Nat) : List Char := Nat.toDigits 10 n

/-- The number written by a list of digits. -/
def ofDigits (cs : List Char) : Nat := cs.foldl (fun n c => 10 * n + (c.toNat - 48)) 0

/-- Reads a whole text as a number: digits only, at least one, after an optional `+`. -/
def readNatural? (cs : List Char) : Option Nat :=
  let ds := match cs with
    | '+' :: rest => rest
    | _ => cs
  if ds ≠ [] ∧ ds.all isDigit then some (ofDigits ds) else none

end Relay.Text.Decimal
