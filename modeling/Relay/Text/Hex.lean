import Relay.Bytes

/-!
# Hexadecimal text

Bytes are written as two lower-case digits each. Digits of either case are read.
-/

namespace Relay.Text.Hex

/-- The lower-case digit for `n < 16`. -/
def digit (n : Nat) : Char := if n < 10 then Char.ofNat (48 + n) else Char.ofNat (87 + n)

/-- The value of a digit, given by its character code. -/
def value? (code : Nat) : Option Nat :=
  if 48 ≤ code ∧ code ≤ 57 then some (code - 48)
  else if 97 ≤ code ∧ code ≤ 102 then some (code - 87)
  else if 65 ≤ code ∧ code ≤ 70 then some (code - 55)
  else none

def encode (bs : Bytes) : List Char :=
  bs.flatMap fun b => [digit (b.toNat / 16), digit (b.toNat % 16)]

/-- What is wrong with a text that should be hexadecimal. -/
inductive Fault where
  | oddLength
  | badDigit (byte : UInt8) (position : Nat)

/-- Reads the digit pairs of a text given by its bytes, the first at `position`. -/
def decodeFrom (acc : Bytes) (position : Nat) : Bytes → Except Fault Bytes
  | [] => .ok acc.reverse
  | [_] => .error .oddLength
  | a :: b :: rest =>
    match value? a.toNat, value? b.toNat with
    | none, _ => .error (.badDigit a position)
    | some _, none => .error (.badDigit b (position + 1))
    | some hi, some lo => decodeFrom (UInt8.ofNat (16 * hi + lo) :: acc) (position + 2) rest

/-- An odd number of bytes is refused before any digit is looked at. -/
def decode (text : Bytes) : Except Fault Bytes :=
  if text.length % 2 = 1 then .error .oddLength else decodeFrom [] 0 text

end Relay.Text.Hex
