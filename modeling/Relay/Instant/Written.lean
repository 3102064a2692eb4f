import Relay.Instant.Basic
import Relay.Text.Decimal

/-!
# Written instants

Instants are written as RFC 3339 in UTC. On the wire a date has the fewest of 0, 3, 6 or 9
fraction digits that is exact, in the record store always nine. A year outside 0 to 9999 has a
sign and at least four digits.
-/

namespace Relay

open Text

namespace Date

def yearChars (year : Int) : List Char :=
  if 0 ≤ year ∧ year ≤ 9999 then Decimal.padded 4 year.toNat
  else
    let n := year.natAbs
    (if year < 0 then '-' else '+') :: (if n ≤ 9999 then Decimal.padded 4 n else Decimal.natural n)

def chars (d : Date) : List Char :=
  yearChars d.year ++ ['-'] ++ Decimal.padded 2 d.month ++ ['-'] ++ Decimal.padded 2 d.day

end Date

namespace Instant

/-- The fewest of 0, 3, 6 or 9 digits that is exact, after a point if there are any. -/
def fewestDigits (nanos : Nat) : List Char :=
  if nanos = 0 then []
  else if nanos % 1000000 = 0 then '.' :: Decimal.padded 3 (nanos / 1000000)
  else if nanos % 1000 = 0 then '.' :: Decimal.padded 6 (nanos / 1000)
  else '.' :: Decimal.padded 9 nanos

/-- Date and time of day to the second. -/
def charsToSecond (t : Instant) : List Char :=
  t.date.chars ++ ['T'] ++ Decimal.padded 2 t.hour ++ [':'] ++ Decimal.padded 2 t.minute ++
    [':'] ++ Decimal.padded 2 t.second

def chars (t : Instant) : List Char :=
  t.charsToSecond ++ fewestDigits t.fraction ++ ['Z']

def storedChars (t : Instant) : List Char :=
  t.charsToSecond ++ ['.'] ++ Decimal.padded 9 t.fraction ++ ['Z']

/-- The text of an instant on the wire. -/
def text (t : Instant) : String := String.ofList t.chars

/-- The text of an instant in the record store. -/
def storedText (t : Instant) : String := String.ofList t.storedChars

end Instant

end Relay
