import Relay.Instant.Written
import Relay.Text.Blank

/-!
# Reading instants

`Instant.read` takes RFC 3339 in its relaxed form: white space before numbers and around
separators, short numbers, `t` or a space for `T`, any number of fraction digits of which nine
count, and an offset or the word `UTC`. `Instant.readStored?` takes only what `storedText`
writes for years of four digits.
-/

namespace Relay

open Text

namespace Instant

/-- Why a text is no date. -/
inductive Fault where
  | tooShort
  | invalid
  | outOfRange
  | trailing
  | impossible
  deriving DecidableEq

def Fault.message : Fault → String
  | .tooShort => "premature end of input"
  | .invalid => "input contains invalid characters"
  | .outOfRange => "input is out of range"
  | .trailing => "trailing input"
  | .impossible => "no possible date and time matching input"

/-! ### The relaxed form -/

/-- A reader of one part of a text. -/
abbrev Scanner := StateT (List Char) (Except Fault)

namespace Scanner

def blanks : Scanner Unit := modify trimStart

def literal (c : Char) : Scanner Unit := do
  match ← get with
  | [] => throw .tooShort
  | d :: rest => if d = c then set rest else throw .invalid

/-- A number of one to `most` digits that fits in 63 bits. -/
def digits (most : Nat) : Scanner Nat := do
  let cs ← get
  if cs.isEmpty then throw .tooShort
  let ds := (cs.take most).takeWhile Decimal.isDigit
  if ds.isEmpty then throw .invalid
  let n := Decimal.ofDigits ds
  if 2 ^ 63 ≤ n then throw .outOfRange
  set (cs.drop ds.length)
  return n

/-- White space and a number of at most two digits between `low` and `high`. -/
def within (low high : Nat) : Scanner Nat := do
  blanks
  let n ← digits 2
  if n < low ∨ high < n then throw .outOfRange
  return n

/-- A year has at most four digits unless it has a sign. -/
def year : Scanner Int := do
  blanks
  let y ← match ← get with
    | '-' :: rest => set rest; pure (-(← digits rest.length : Int))
    | '+' :: rest => set rest; pure (← digits rest.length : Int)
    | _ => pure (← digits 4 : Int)
  if y < -(2 ^ 31) ∨ 2 ^ 31 ≤ y then throw .outOfRange
  return y

/-- Nanoseconds after a point. Digits after the ninth are passed over. -/
def fraction : Scanner Nat := do
  match ← get with
  | '.' :: rest =>
    set rest
    let n ← digits 9
    let used := rest.length - (← get).length
    modify (·.dropWhile Decimal.isDigit)
    return n * 10 ^ (9 - used)
  | _ => return 0

/-- The two characters in front. A single one counts as cut off only if it is ASCII. -/
def two : Scanner (Char × Char) := do
  match ← get with
  | [] => throw .tooShort
  | [c] => throw (if c.toNat < 128 then .tooShort else .invalid)
  | c :: d :: rest => set rest; return (c, d)

def hourDigits : Scanner Nat := do
  let (c, d) ← two
  match Decimal.value? c, Decimal.value? d with
  | some m, some n => return 10 * m + n
  | _, _ => throw .invalid

def minuteDigits : Scanner Nat := do
  let n ← hourDigits
  if 60 ≤ n then throw .outOfRange
  return n

def isSeparator (c : Char) : Bool := c == ':' || isBlank c

/-- The offset from UTC in seconds. -/
def offset : Scanner Int := do
  let sign : Int ← match ← get with
    | [] => throw .tooShort
    | '+' :: rest => set rest; pure 1
    | '-' :: rest => set rest; pure (-1)
    | '−' :: rest => set rest; pure (-1)
    | _ => throw .invalid
  let hours ← hourDigits
  modify (·.dropWhile isSeparator)
  let minutes ← minuteDigits
  return sign * (hours * 3600 + minutes * 60 : Nat)

def isUtc (cs : List Char) : Bool :=
  cs.length == 3 && cs.map Char.toUpper == ['U', 'T', 'C']

def zone : Scanner Int := do
  let cs ← get
  if isUtc (cs.take 3) then
    set (cs.drop 3)
    return 0
  match cs with
  | 'Z' :: rest | 'z' :: rest => set rest; return 0
  | _ => offset

end Scanner

/-- The parts of a date text. -/
structure Parts where
  date : Date
  hour : Nat
  minute : Nat
  second : Nat
  nanos : Nat
  offset : Int

/-- Reads all parts up to and with the offset. -/
def scan : Scanner Parts := do
  let year ← Scanner.year
  Scanner.blanks
  Scanner.literal '-'
  let month ← Scanner.within 1 12
  Scanner.blanks
  Scanner.literal '-'
  let day ← Scanner.within 1 31
  match ← get with
  | [] => throw .tooShort
  | c :: rest => if c = 't' ∨ c = 'T' ∨ c = ' ' then set rest else throw .invalid
  let hour ← Scanner.within 0 23
  Scanner.blanks
  Scanner.literal ':'
  let minute ← Scanner.within 0 59
  Scanner.blanks
  Scanner.literal ':'
  let second ← Scanner.within 0 60
  let nanos ← Scanner.fraction
  Scanner.blanks
  let offset ← Scanner.zone
  return { date := { year, month, day }, hour, minute, second, nanos, offset }

/-- The instant of the parts. A second 60 is a leap second. -/
def Parts.toInstant (p : Parts) : Except Fault Instant :=
  if ¬p.date.Valid then .error .outOfRange
  else
    let leap := p.second = 60
    let clock := p.hour * 3600 + p.minute * 60 + (if leap then 59 else p.second)
    let nanos := if leap then p.nanos + 1000000000 else p.nanos
    let seconds := p.date.toDays * 86400 + clock
    if p.date.year < -262143 ∨ 262142 < p.date.year ∨ 86400 ≤ p.offset.natAbs then
      .error .outOfRange
    else
      match of? (seconds - p.offset) nanos with
      | some t => .ok t
      | none => .error .impossible

def read (s : String) : Except Fault Instant :=
  match scan.run s.toList with
  | .error f => .error f
  | .ok (p, rest) => if (trimStart rest).isEmpty then p.toInstant else .error .trailing

/-! ### The stored form -/

/-- Splits off a number of exactly `width` digits followed by `mark`. -/
def field? (width : Nat) (mark : Char) (cs : List Char) : Option (Nat × List Char) :=
  let ds := cs.take width
  match cs.drop width with
  | c :: rest =>
    if ds.length = width ∧ ds.all Decimal.isDigit ∧ c = mark then some (Decimal.ofDigits ds, rest)
    else none
  | [] => none

def readStored? (s : String) : Option Instant := do
  let (year, cs) ← field? 4 '-' s.toList
  let (month, cs) ← field? 2 '-' cs
  let (day, cs) ← field? 2 'T' cs
  let (hour, cs) ← field? 2 ':' cs
  let (minute, cs) ← field? 2 ':' cs
  let (second, cs) ← field? 2 '.' cs
  let (nanos, cs) ← field? 9 'Z' cs
  guard (cs.isEmpty ∧ hour < 24 ∧ minute < 60 ∧ second ≤ 60)
  let date : Date := ⟨year, month, day⟩
  (Parts.toInstant { date, hour, minute, second, nanos, offset := 0 }).toOption

end Instant

end Relay
