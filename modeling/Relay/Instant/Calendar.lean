/-!
# Calendar dates

Days since 1970-01-01 and dates of the proleptic Gregorian calendar. Years are counted from
March, so that a leap day ends its year.
-/

namespace Relay

structure Date where
  year : Int
  month : Nat
  day : Nat
  deriving DecidableEq, Repr

namespace Date

def isLeap (year : Int) : Bool := year % 4 == 0 && (year % 100 != 0 || year % 400 == 0)

def monthLength (year : Int) (month : Nat) : Nat :=
  match month with
  | 2 => if isLeap year then 29 else 28
  | 4 | 6 | 9 | 11 => 30
  | _ => 31

def Valid (d : Date) : Prop :=
  1 ≤ d.month ∧ d.month ≤ 12 ∧ 1 ≤ d.day ∧ d.day ≤ monthLength d.year d.month

instance (d : Date) : Decidable d.Valid := inferInstanceAs (Decidable (_ ∧ _))

/-- Days from 1970-01-01 to a date. -/
def toDays (d : Date) : Int :=
  let year := if d.month ≤ 2 then d.year - 1 else d.year
  let ofEra := (year % 400).toNat
  let ofYear := (153 * ((d.month + 9) % 12) + 2) / 5 + d.day - 1
  let day := ofEra * 365 + ofEra / 4 - ofEra / 100 + ofYear
  year / 400 * 146097 + day - 719468

/-- The date so many days after 1970-01-01. -/
def ofDays (days : Int) : Date :=
  let shifted := days + 719468
  let day := (shifted % 146097).toNat
  let ofEra := (day - day / 1460 + day / 36524 - day / 146096) / 365
  let ofYear := day - (365 * ofEra + ofEra / 4 - ofEra / 100)
  let march := (5 * ofYear + 2) / 153
  let month := if march < 10 then march + 3 else march - 9
  { year := shifted / 146097 * 400 + ofEra + (if month ≤ 2 then 1 else 0)
    month
    day := ofYear - (153 * march + 2) / 5 + 1 }

end Date

end Relay
