import Relay.Instant.Calendar

/-!
# Days and dates

Counting days and naming dates are inverse to each other, and of two valid dates the one that
stands first by year, month and day has fewer days. Both count years from March, in eras of 400
years.
-/

namespace Relay.Date

/-! ### Days of an era -/

/-- Days of an era before its year `e`. -/
def daysBefore (e : Nat) : Nat := e * 365 + e / 4 - e / 100

/-- The year of an era that one of its days falls in. -/
def yearOfEra (day : Nat) : Nat := (day - day / 1460 + day / 36524 - day / 146096) / 365

/-- A day as century, four-year cycle, year and day of the year. -/
theorem exists_split {day : Nat} (h : day < 146097) :
    ∃ c q y t, 36524 * c + 1461 * q + 365 * y + t = day ∧ c ≤ 3 ∧ q ≤ 24 ∧ y ≤ 3 ∧ t ≤ 365 ∧
      (t = 365 → y = 3 ∧ (q = 24 → c = 3)) := by
  -- division puts the last day of an era, and of a cycle, into a year that does not exist
  by_cases last : day = 146096
  · exact ⟨3, 24, 3, 365, by omega, by omega, by omega, by omega, by omega, by omega⟩
  · have hc : day / 36524 ≤ 3 := by omega
    by_cases leap : day % 36524 % 1461 = 1460
    · exact ⟨day / 36524, day % 36524 / 1461, 3, 365, by omega, hc, by omega, by omega, by omega,
        by omega⟩
    · exact ⟨day / 36524, day % 36524 / 1461, day % 36524 % 1461 / 365, day % 36524 % 1461 % 365,
        by omega, hc, by omega, by omega, by omega, by omega⟩

theorem cycles_eq {c q y t day : Nat} (hd : 36524 * c + 1461 * q + 365 * y + t = day) :
    day / 1460 = 25 * c + q + (24 * c + q + 365 * y + t) / 1460 := by
  have : day = (24 * c + q + 365 * y + t) + 1460 * (25 * c + q) := by omega
  rw [this, Nat.add_mul_div_left _ _ (by decide)]
  omega

theorem centuries_eq {c r day : Nat} (hd : 36524 * c + r = day) (hc : c ≤ 3) (hr : r ≤ 36524)
    (last : r = 36524 → c = 3) : day / 36524 = c + day / 146096 := by omega

/-- The last day of a leap year is made up for by the four-year cycle that it ends. -/
theorem yearOfEra_eq_of_cycles {c q y t ε δ day : Nat}
    (hd : 36524 * c + 1461 * q + 365 * y + (t + ε) = day) (ht : t < 365)
    (cycles : day / 1460 = 25 * c + q + ε) (centuries : day / 36524 = c + δ)
    (eras : day / 146096 = δ) : yearOfEra day = 100 * c + 4 * q + y := by
  have total : day - day / 1460 + day / 36524 - day / 146096 =
      t + 365 * (100 * c + 4 * q + y) := by
    rw [cycles, centuries, eras]
    clear cycles centuries eras
    omega
  rw [yearOfEra, total, Nat.add_mul_div_left _ _ (by decide), Nat.div_eq_of_lt ht, Nat.zero_add]

theorem cycle_day {c q y t : Nat} (hc : c ≤ 3) (hq : q ≤ 24) (hy : y ≤ 3) (ht : t ≤ 365)
    (leap : t = 365 → y = 3) :
    (24 * c + q + 365 * y + t) / 1460 ≤ t ∧ t < 365 + (24 * c + q + 365 * y + t) / 1460 := by
  by_cases last : t = 365
  · obtain rfl := leap last
    omega
  · by_cases first : t = 0
    · omega
    · omega

theorem yearOfEra_split {c q y t day : Nat} (hd : 36524 * c + 1461 * q + 365 * y + t = day)
    (hc : c ≤ 3) (hq : q ≤ 24) (hy : y ≤ 3) (ht : t ≤ 365)
    (leap : t = 365 → y = 3 ∧ (q = 24 → c = 3)) : yearOfEra day = 100 * c + 4 * q + y := by
  have centuries : day / 36524 = c + day / 146096 := by
    have hr : 1461 * q + 365 * y + t ≤ 36524 := by omega
    refine centuries_eq (r := 1461 * q + 365 * y + t) (by omega) hc hr fun last => ?_
    exact (leap (by omega)).2 (by omega)
  have cycles := cycles_eq hd
  obtain ⟨le, lt⟩ := cycle_day hc hq hy ht fun h => (leap h).1
  refine yearOfEra_eq_of_cycles (t := t - (24 * c + q + 365 * y + t) / 1460) ?_
    (Nat.sub_lt_right_of_lt_add le lt) cycles centuries rfl
  rw [Nat.sub_add_cancel le, hd]

theorem daysBefore_split {c q y : Nat} (hq : q ≤ 24) (hy : y ≤ 3) :
    daysBefore (100 * c + 4 * q + y) = 36524 * c + 1461 * q + 365 * y := by
  unfold daysBefore
  have h₁ : (100 * c + 4 * q + y) / 4 = 25 * c + q := by omega
  have h₂ : (100 * c + 4 * q + y) / 100 = c := by omega
  rw [h₁, h₂]
  omega

/-- Whether the year of an era ends in a leap day. -/
def EndsLeap (e : Nat) : Prop := e % 4 = 3 ∧ (e % 100 ≠ 99 ∨ e = 399)

/-- Every day of an era falls in one of its years. -/
theorem daysBefore_yearOfEra {day : Nat} (h : day < 146097) :
    ∃ t, day = daysBefore (yearOfEra day) + t ∧ yearOfEra day ≤ 399 ∧ t ≤ 365 ∧
      (t = 365 → EndsLeap (yearOfEra day)) := by
  obtain ⟨c, q, y, t, hd, hc, hq, hy, ht, leap⟩ := exists_split h
  rw [yearOfEra_split hd hc hq hy ht leap]
  refine ⟨t, by rw [daysBefore_split hq hy, hd], by omega, ht, fun last => ?_⟩
  obtain ⟨rfl, century⟩ := leap last
  unfold EndsLeap
  omega

/-! ### Months of a year -/

/-- Days of a year before its month, counted from March. -/
def monthStart (march : Nat) : Nat := (153 * march + 2) / 5

/-- The month, counted from March, that a day of a year falls in. -/
def marchOf (t : Nat) : Nat := (5 * t + 2) / 153

def fromMarch (month : Nat) : Nat := (month + 9) % 12

theorem monthStart_le {m n : Nat} (h : m ≤ n) : monthStart m ≤ monthStart n := by
  unfold monthStart; omega

theorem marchOf_spec {t : Nat} (h : t ≤ 365) :
    marchOf t ≤ 11 ∧ monthStart (marchOf t) ≤ t ∧ t < monthStart (marchOf t + 1) := by
  unfold marchOf monthStart
  omega

/-- A month lasts to the start of the next one; February is the last. -/
theorem monthStart_add_length (year : Int) {month : Nat} (low : 1 ≤ month) (high : month ≤ 12)
    (h : month ≠ 2) :
    monthStart (fromMarch month) + monthLength year month = monthStart (fromMarch month + 1) := by
  have : month = 1 ∨ month = 3 ∨ month = 4 ∨ month = 5 ∨ month = 6 ∨ month = 7 ∨ month = 8 ∨
    month = 9 ∨ month = 10 ∨ month = 11 ∨ month = 12 := by omega
  rcases this with rfl | rfl | rfl | rfl | rfl | rfl | rfl | rfl | rfl | rfl | rfl <;> rfl

/-! ### Years that begin in March -/

/-- The year a month belongs to if years begin in March. -/
def marchYear (d : Date) : Int := if d.month ≤ 2 then d.year - 1 else d.year

/-- Days from the start of the era of the year 0 to the start of a year. -/
def yearStart (y : Int) : Int := y / 400 * 146097 + daysBefore (y % 400).toNat

theorem isLeap_iff (year : Int) :
    isLeap year ↔ year % 4 = 0 ∧ (year % 100 ≠ 0 ∨ year % 400 = 0) := by
  simp [isLeap]

/-- The days of a year that begins in March. -/
def yearLength (y : Int) : Nat := if isLeap (y + 1) then 366 else 365

theorem yearStart_succ (y : Int) : yearStart (y + 1) = yearStart y + yearLength y := by
  unfold yearStart daysBefore yearLength
  have leap := isLeap_iff (y + 1)
  by_cases last : y % 400 = 399
  · rw [if_pos (leap.2 (by omega))]
    have hq : (y + 1) / 400 = y / 400 + 1 := by omega
    have hr : (y + 1) % 400 = 0 := by omega
    rw [hq, hr, last]
    omega
  · have hq : (y + 1) / 400 = y / 400 := by omega
    have hr : ((y + 1) % 400).toNat = (y % 400).toNat + 1 := by omega
    rw [hq, hr]
    generalize he : (y % 400).toNat = e
    have four : (y + 1) % 4 = (e + 1) % 4 := by omega
    have hundred : (y + 1) % 100 = (e + 1) % 100 := by omega
    have fresh : (y + 1) % 400 ≠ 0 := by omega
    rw [four, hundred] at leap
    clear he hq hr four hundred
    split
    · have := leap.1 ‹_›
      omega
    · have : ¬((e + 1) % 4 = 0 ∧ (e + 1) % 100 ≠ 0) := by
        intro h
        exact absurd (leap.2 (by omega)) ‹_›
      omega

theorem yearStart_add_le {y z : Int} (h : y < z) : yearStart y + yearLength y ≤ yearStart z := by
  obtain ⟨n, rfl⟩ : ∃ n : Nat, z = y + 1 + n := ⟨(z - y - 1).toNat, by omega⟩
  clear h
  induction n with
  | zero => rw [← yearStart_succ]; simp
  | succ n ih =>
    have := yearStart_succ (y + 1 + n)
    rw [show y + 1 + ((n + 1 : Nat) : Int) = y + 1 + n + 1 by omega, this]
    omega

/-- The day of the year, counted from 0, of a date. -/
def dayOfYear (d : Date) : Nat := monthStart (fromMarch d.month) + d.day - 1

theorem toDays_eq (d : Date) : d.toDays = yearStart d.marchYear + d.dayOfYear - 719468 := by
  unfold toDays yearStart marchYear dayOfYear monthStart fromMarch daysBefore
  dsimp only
  rw [Int.natCast_add, Int.add_assoc]

/-! ### Earlier dates have fewer days -/

def Before (d e : Date) : Prop :=
  d.year < e.year ∨ d.year = e.year ∧ (d.month < e.month ∨ d.month = e.month ∧ d.day < e.day)

theorem dayOfYear_lt {d : Date} (h : d.Valid) : d.dayOfYear < yearLength d.marchYear := by
  obtain ⟨low, high, first, last⟩ := h
  unfold dayOfYear yearLength
  by_cases february : d.month = 2
  · have start : monthStart (fromMarch 2) = 337 := rfl
    have year : d.marchYear + 1 = d.year := by unfold marchYear; rw [february]; simp
    rw [february, start, year]
    rw [february, monthLength] at last
    split at last <;> split <;> simp_all <;> omega
  · have next := monthStart_add_length d.year low high february
    have : monthStart (fromMarch d.month + 1) ≤ monthStart 11 :=
      monthStart_le (by unfold fromMarch; omega)
    have end_ : monthStart 11 = 337 := rfl
    split <;> omega

theorem toDays_lt {d e : Date} (hd : d.Valid) (he : e.Valid) (h : d.Before e) :
    d.toDays < e.toDays := by
  have bound := dayOfYear_lt hd
  rw [toDays_eq, toDays_eq]
  obtain ⟨lowd, highd, firstd, lastd⟩ := hd
  obtain ⟨lowe, highe, firste, laste⟩ := he
  -- a later year counts more than any day of the year, as no year is longer than its length
  by_cases years : d.marchYear < e.marchYear
  · have := yearStart_add_le years
    omega
  · have order : d.marchYear = e.marchYear ∧ (fromMarch d.month < fromMarch e.month ∨
        d.month = e.month ∧ d.day < e.day) := by
      unfold marchYear fromMarch at *
      unfold Before at h
      split at years <;> split at years <;> simp_all <;> omega
    rw [order.1]
    have : d.dayOfYear < e.dayOfYear := by
      unfold dayOfYear
      rcases order.2 with months | ⟨month, day⟩
      · have next := monthStart_add_length d.year lowd highd (by unfold fromMarch at months; omega)
        have := monthStart_le months
        simp only [Nat.succ_eq_add_one] at this
        omega
      · rw [month]
        omega
    omega

/-! ### Counting and naming are inverse -/

/-- The date with the given place in a year that begins in March. -/
def ofMarch (y : Int) (t : Nat) : Date :=
  let march := marchOf t
  let month := if march < 10 then march + 3 else march - 9
  { year := y + if month ≤ 2 then 1 else 0, month, day := t - monthStart march + 1 }

theorem ofDays_eq {days : Int} {day t : Nat} (hd : ((days + 719468) % 146097).toNat = day)
    (h : day = daysBefore (yearOfEra day) + t) :
    ofDays days = ofMarch ((days + 719468) / 146097 * 400 + yearOfEra day) t := by
  have ht : day - (365 * yearOfEra day + yearOfEra day / 4 - yearOfEra day / 100) = t := by
    rw [Nat.mul_comm 365]
    change day - daysBefore (yearOfEra day) = t
    omega
  unfold ofDays
  dsimp only
  rw [hd]
  change ofMarch _ (day - (365 * yearOfEra day + yearOfEra day / 4 - yearOfEra day / 100)) = _
  rw [ht]
  rfl

theorem month_ofMarch {t : Nat} (h : t ≤ 365) (y : Int) :
    1 ≤ (ofMarch y t).month ∧ (ofMarch y t).month ≤ 12 ∧
      fromMarch (ofMarch y t).month = marchOf t := by
  obtain ⟨bound, -, -⟩ := marchOf_spec h
  unfold ofMarch fromMarch
  dsimp only
  split <;> omega

theorem marchYear_ofMarch (y : Int) (t : Nat) : (ofMarch y t).marchYear = y := by
  unfold ofMarch marchYear
  dsimp only
  split <;> split <;> simp_all

theorem dayOfYear_ofMarch {t : Nat} (h : t ≤ 365) (y : Int) : (ofMarch y t).dayOfYear = t := by
  obtain ⟨-, start, -⟩ := marchOf_spec h
  rw [dayOfYear, (month_ofMarch h y).2.2, ofMarch]
  dsimp only
  omega

theorem valid_ofMarch {y : Int} {t : Nat} (h : t < yearLength y) : (ofMarch y t).Valid := by
  have ht : t ≤ 365 := by unfold yearLength at h; split at h <;> omega
  obtain ⟨bound, start, next⟩ := marchOf_spec ht
  obtain ⟨low, high, place⟩ := month_ofMarch ht y
  refine ⟨low, high, Nat.succ_pos _, ?_⟩
  have day : (ofMarch y t).day = t - monthStart (marchOf t) + 1 := rfl
  rw [day]
  by_cases february : (ofMarch y t).month = 2
  · have year : (ofMarch y t).year = y + 1 := by
      have := marchYear_ofMarch y t
      unfold marchYear at this
      rw [february] at this
      simp at this
      omega
    have head : monthStart (marchOf t) = 337 := by rw [← place, february]; rfl
    rw [february, year, monthLength, head]
    unfold yearLength at h
    split at h <;> simp_all <;> omega
  · have := monthStart_add_length (ofMarch y t).year low high february
    rw [place] at this
    omega

theorem ofDays_spec (days : Int) :
    ∃ y t, ofDays days = ofMarch y t ∧ t < yearLength y ∧ yearStart y + t - 719468 = days := by
  generalize hd : ((days + 719468) % 146097).toNat = day
  have small : day < 146097 := by omega
  obtain ⟨t, split, last, bound, leap⟩ := daysBefore_yearOfEra small
  refine ⟨_, t, ofDays_eq hd split, ?_, ?_⟩
  · unfold yearLength
    generalize yearOfEra day = e at leap last
    by_cases full : t = 365
    · have ends := leap full
      unfold EndsLeap at ends
      rw [if_pos ((isLeap_iff _).2 (by omega))]
      omega
    · split <;> omega
  · unfold yearStart
    generalize yearOfEra day = e at split last
    have hq : ((days + 719468) / 146097 * 400 + e) / 400 = (days + 719468) / 146097 := by omega
    have hr : (((days + 719468) / 146097 * 400 + e) % 400).toNat = e := by omega
    rw [hq, hr]
    omega

theorem valid_ofDays (days : Int) : (ofDays days).Valid := by
  obtain ⟨y, t, h, bound, -⟩ := ofDays_spec days
  rw [h]
  exact valid_ofMarch bound

theorem toDays_ofDays (days : Int) : (ofDays days).toDays = days := by
  obtain ⟨y, t, h, bound, total⟩ := ofDays_spec days
  have ht : t ≤ 365 := by unfold yearLength at bound; split at bound <;> omega
  rw [h, toDays_eq, marchYear_ofMarch, dayOfYear_ofMarch ht, total]

theorem toDays_injective {d e : Date} (hd : d.Valid) (he : e.Valid) (h : d.toDays = e.toDays) :
    d = e := by
  have forward : ¬ d.Before e := fun b => by have := toDays_lt hd he b; omega
  have backward : ¬ e.Before d := fun b => by have := toDays_lt he hd b; omega
  unfold Before at forward backward
  obtain ⟨year, month, day⟩ := d
  obtain ⟨year', month', day'⟩ := e
  simp only [Date.mk.injEq]
  simp only at forward backward
  omega

theorem ofDays_toDays {d : Date} (h : d.Valid) : ofDays d.toDays = d :=
  toDays_injective (valid_ofDays _) h (toDays_ofDays _)

end Relay.Date
