import Relay.Bytes

/-!
# Base 58

A byte string is written as a number to base 58, with digits that cannot be mistaken for one
another. Zero bytes in front are written as ones in front, one each.
-/

namespace Relay.Text.Base58

def alphabet : List Char :=
  "123456789ABCDEFGHJKLMNPQRSTUVWXYZabcdefghijkmnopqrstuvwxyz".toList

def digit (n : Nat) : Char := alphabet.getD n '1'

def value? (c : Char) : Option Nat := alphabet.findIdx? (· == c)

/-- The number whose digits are given, the highest first. -/
def ofDigits (base : Nat) (ds : List Nat) : Nat := ds.foldl (fun n d => base * n + d) 0

/-- Puts the digits of a number in front, the highest first and none for zero. -/
def digitsFrom (base : Nat) (acc : List Nat) (n : Nat) : List Nat :=
  if _h : 1 < base ∧ 0 < n then digitsFrom base (n % base :: acc) (n / base) else acc
termination_by n
decreasing_by exact Nat.div_lt_self _h.2 _h.1

/-- How many zeros stand in front. -/
def zeros (ds : List Nat) : Nat := (ds.takeWhile (· == 0)).length

/-- The digits to another base, with as many zeros in front. -/
def convert (source target : Nat) (ds : List Nat) : List Nat :=
  List.replicate (zeros ds) 0 ++ digitsFrom target [] (ofDigits source ds)

def encode (bs : Bytes) : List Char := (convert 256 58 (bs.map UInt8.toNat)).map digit

inductive Fault where
  | badCharacter (c : Char) (position : Nat)
  | notAscii (position : Nat)
  deriving DecidableEq

/-- The values of digits, those before `position` in reverse in `acc`. -/
def valuesFrom (acc : List Nat) (position : Nat) : List Char → Except Fault (List Nat)
  | [] => .ok acc.reverse
  | c :: rest =>
    match value? c with
    | some v => valuesFrom (v :: acc) (position + 1) rest
    | none => .error (if c.toNat < 128 then .badCharacter c position else .notAscii position)

def decode (cs : List Char) : Except Fault Bytes :=
  (valuesFrom [] 0 cs).map fun ds => (convert 58 256 ds).map UInt8.ofNat

end Relay.Text.Base58
