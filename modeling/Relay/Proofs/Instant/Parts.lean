import Relay.Instant.Reading
import Relay.Proofs.Instant.Calendar

/-!
# The parts of an instant

An instant is made of its date, its time of day and its nanoseconds, and is found again from
them: `toInstant_parts` and `parts_of_toInstant`. A leap second within a minute has the parts of
the second after it, and that is what is found.
-/

namespace Relay.Instant

def parts (t : Instant) : Parts :=
  { date := t.date, hour := t.hour, minute := t.minute, second := t.second, nanos := t.fraction
    offset := 0 }

/-! ### Leap seconds -/

/-- The instant is no leap second, or one that ends a minute. All readings of a clock are. -/
def Regular (t : Instant) : Prop := t.nanos < 1000000000 ∨ t.seconds % 60 = 59

instance (t : Instant) : Decidable t.Regular := inferInstanceAs (Decidable (_ ∨ _))

theorem not_regular_iff {t : Instant} :
    ¬t.Regular ↔ 1000000000 ≤ t.nanos ∧ t.seconds % 60 ≠ 59 := by
  rw [Regular, not_or, Nat.not_lt]

/-- What a leap second is taken for that does not end a minute: the second after it. -/
def next (t : Instant) (within : ¬t.Regular) : Instant where
  seconds := t.seconds + 1
  nanos := t.nanos - 1000000000
  first_le := Int.le_add_one t.first_le
  le_last := by
    have := t.le_last
    have := not_regular_iff.1 within
    omega
  nanos_lt := Nat.lt_of_le_of_lt (Nat.sub_le _ _) t.nanos_lt

/-- The instant that calendar and clock show. -/
def shown (t : Instant) : Instant := if h : t.Regular then t else t.next h

theorem shown_of_regular {t : Instant} (h : t.Regular) : t.shown = t := dif_pos h

theorem shown_of_not_regular {t : Instant} (h : ¬t.Regular) : t.shown = t.next h := dif_neg h

theorem regular_shown (t : Instant) : t.shown.Regular := by
  by_cases h : t.Regular
  · rw [shown_of_regular h]
    exact h
  · rw [shown_of_not_regular h]
    have := t.nanos_lt
    left
    show t.nanos - 1000000000 < 1000000000
    omega

theorem shown_eq_self_iff {t : Instant} : t.shown = t ↔ t.Regular :=
  ⟨fun same => same ▸ t.regular_shown, shown_of_regular⟩

theorem parts_next {t : Instant} (h : ¬t.Regular) : (t.next h).parts = t.parts := by
  obtain ⟨leap, inside⟩ := not_regular_iff.1 h
  have lt := t.nanos_lt
  have day : (t.next h).seconds / 86400 = t.seconds / 86400 := by
    show (t.seconds + 1) / 86400 = _
    omega
  have ofDay : (t.next h).secondOfDay = t.secondOfDay + 1 := by
    show ((t.seconds + 1) % 86400).toNat = (t.seconds % 86400).toNat + 1
    omega
  have stays : t.secondOfDay % 60 ≠ 59 := by
    unfold secondOfDay
    omega
  have nanos : (t.next h).nanos + 1000000000 = t.nanos := Nat.sub_add_cancel leap
  have date : (t.next h).date = t.date := congrArg Date.ofDays day
  have hour : (t.next h).hour = t.hour := by
    unfold Instant.hour
    omega
  have minute : (t.next h).minute = t.minute := by
    unfold Instant.minute
    omega
  have second : (t.next h).second = t.second := by
    unfold Instant.second
    omega
  have fraction : (t.next h).fraction = t.fraction := by
    unfold Instant.fraction
    omega
  rw [parts, date, hour, minute, second, fraction, parts]

theorem parts_shown (t : Instant) : t.shown.parts = t.parts := by
  by_cases h : t.Regular
  · rw [shown_of_regular h]
  · rw [shown_of_not_regular h, parts_next h]

/-! ### Time of day -/

theorem secondOfDay_lt (t : Instant) : t.secondOfDay < 86400 := by
  unfold secondOfDay
  omega

theorem seconds_eq (t : Instant) : t.seconds = t.date.toDays * 86400 + t.secondOfDay := by
  rw [date, Date.toDays_ofDays, secondOfDay]
  omega

theorem hour_lt (t : Instant) : t.hour < 24 := by
  have := t.secondOfDay_lt
  unfold hour
  omega

theorem minute_lt (t : Instant) : t.minute < 60 := Nat.mod_lt _ (by decide)

theorem fraction_lt (t : Instant) : t.fraction < 1000000000 := Nat.mod_lt _ (by decide)

theorem second_le (t : Instant) : t.second ≤ 60 := by
  have := t.nanos_lt
  unfold second
  omega

theorem secondOfDay_of_leap {t : Instant} (h : t.Regular) (leap : 1000000000 ≤ t.nanos) :
    t.secondOfDay % 60 = 59 := by
  have ends : t.seconds % 60 = 59 := h.resolve_left (Nat.not_lt.2 leap)
  unfold secondOfDay
  omega

theorem second_eq_sixty_iff {t : Instant} (h : t.Regular) :
    t.second = 60 ↔ 1000000000 ≤ t.nanos := by
  have := t.nanos_lt
  have ends := secondOfDay_of_leap h
  unfold second
  omega

theorem secondOfDay_eq {t : Instant} (h : t.Regular) : t.secondOfDay =
    t.hour * 3600 + t.minute * 60 + (if t.second = 60 then 59 else t.second) := by
  have lt := t.nanos_lt
  have clock : t.secondOfDay = t.hour * 3600 + t.minute * 60 + t.secondOfDay % 60 := by
    unfold hour minute
    omega
  by_cases leap : 1000000000 ≤ t.nanos
  · rw [if_pos ((second_eq_sixty_iff h).2 leap), ← secondOfDay_of_leap h leap]
    exact clock
  · have : t.second = t.secondOfDay % 60 := by
      unfold second
      omega
    rw [if_neg (mt (second_eq_sixty_iff h).1 leap), this]
    exact clock

theorem nanos_eq {t : Instant} (h : t.Regular) :
    t.nanos = if t.second = 60 then t.fraction + 1000000000 else t.fraction := by
  have := t.nanos_lt
  simp only [second_eq_sixty_iff h]
  unfold fraction
  split <;> omega

/-! ### Years -/

theorem year_le (t : Instant) : t.date.year ≤ 262142 := by
  refine Int.not_lt.1 fun late => ?_
  have last : (⟨262142, 12, 31⟩ : Date).Valid := by decide
  have := Date.toDays_lt last (Date.valid_ofDays _) (e := t.date) (.inl late)
  rw [show (⟨262142, 12, 31⟩ : Date).toDays = 95026236 by decide] at this
  have := t.seconds_eq
  have := t.le_last
  omega

theorem le_year (t : Instant) : -262143 ≤ t.date.year := by
  refine Int.not_lt.1 fun early => ?_
  have first : (⟨-262143, 1, 1⟩ : Date).Valid := by decide
  have := Date.toDays_lt (Date.valid_ofDays _) first (d := t.date) (.inl early)
  rw [show (⟨-262143, 1, 1⟩ : Date).toDays = -96465292 by decide] at this
  have := t.seconds_eq
  have := t.secondOfDay_lt
  have := t.first_le
  omega

/-! ### Days of the year -/

theorem month_bounds (t : Instant) : 1 ≤ t.date.month ∧ t.date.month ≤ 12 :=
  have valid := Date.valid_ofDays (t.seconds / 86400)
  ⟨valid.1, valid.2.1⟩

theorem day_bounds (t : Instant) : 1 ≤ t.date.day ∧ t.date.day ≤ 31 := by
  have valid := (Date.valid_ofDays (t.seconds / 86400)).2.2
  have length : Date.monthLength t.date.year t.date.month ≤ 31 := by
    unfold Date.monthLength
    split
    · split <;> decide
    all_goals decide
  unfold date at *
  omega

/-! ### From parts to instants and back -/

theorem of?_self (t : Instant) : of? t.seconds t.nanos = some t := by
  rw [of?, dif_pos ⟨t.first_le, t.le_last, t.nanos_lt⟩]

theorem of?_eq_some {seconds : Int} {nanos : Nat} {t : Instant} (h : of? seconds nanos = some t) :
    t.seconds = seconds ∧ t.nanos = nanos := by
  unfold of? at h
  split at h
  · cases h
    exact ⟨rfl, rfl⟩
  · cases h

theorem toInstant_parts_of_regular {t : Instant} (h : t.Regular) : t.parts.toInstant = .ok t := by
  have valid : t.parts.date.Valid := Date.valid_ofDays _
  have years : ¬(t.parts.date.year < -262143 ∨ 262142 < t.parts.date.year ∨
      86400 ≤ t.parts.offset.natAbs) := by
    have := t.le_year
    have := t.year_le
    simp only [parts]
    omega
  have seconds : t.parts.date.toDays * 86400 + ((t.parts.hour * 3600 + t.parts.minute * 60 +
      (if t.parts.second = 60 then 59 else t.parts.second) : Nat) : Int) - t.parts.offset =
      t.seconds := by
    rw [t.seconds_eq, secondOfDay_eq h]
    exact Int.sub_zero _
  have nanos : (if t.parts.second = 60 then t.parts.nanos + 1000000000 else t.parts.nanos) =
      t.nanos := (nanos_eq h).symm
  simp only [Parts.toInstant, valid, not_true, if_false, years, seconds, nanos, of?_self]

theorem toInstant_parts (t : Instant) : t.parts.toInstant = .ok t.shown := by
  rw [← t.parts_shown]
  exact toInstant_parts_of_regular t.regular_shown

/-- The parts that a clock and a calendar show. -/
structure Parts.InRange (p : Parts) : Prop where
  hour_lt : p.hour < 24
  minute_lt : p.minute < 60
  second_le : p.second ≤ 60
  nanos_lt : p.nanos < 1000000000
  utc : p.offset = 0

theorem inRange_parts (t : Instant) : t.parts.InRange :=
  ⟨t.hour_lt, t.minute_lt, t.second_le, t.fraction_lt, rfl⟩

theorem parts_of_toInstant {p : Parts} {t : Instant} (ranges : p.InRange)
    (h : p.toInstant = .ok t) : t.parts = p := by
  obtain ⟨date, hour, minute, second, nanos, offset⟩ := p
  obtain ⟨hour_lt, minute_lt, second_le, nanos_lt, utc⟩ := ranges
  simp only at hour_lt minute_lt second_le nanos_lt utc
  subst utc
  unfold Parts.toInstant at h
  split at h
  · cases h
  next valid =>
  rw [Decidable.not_not] at valid
  dsimp only at h valid
  split at h
  · cases h
  split at h
  · next found =>
    cases h
    obtain ⟨hs, hn⟩ := of?_eq_some found
    rw [Int.sub_zero] at hs
    -- the clock stays within the day, so date and time of day are found by division
    have clock : hour * 3600 + minute * 60 + (if second = 60 then 59 else second) < 86400 := by
      split <;> omega
    have day : t.seconds / 86400 = date.toDays := by omega
    have ofDay : t.secondOfDay =
        hour * 3600 + minute * 60 + (if second = 60 then 59 else second) := by
      unfold secondOfDay
      omega
    clear hs
    have sameDate : t.date = date := by rw [Instant.date, day, Date.ofDays_toDays valid]
    have sameHour : t.hour = hour := by
      unfold Instant.hour
      split at ofDay <;> omega
    have sameMinute : t.minute = minute := by
      unfold Instant.minute
      split at ofDay <;> omega
    have sameSecond : t.second = second := by
      unfold Instant.second
      split at ofDay <;> split at hn <;> omega
    have sameNanos : t.fraction = nanos := by
      unfold Instant.fraction
      split at hn <;> omega
    rw [parts, sameDate, sameHour, sameMinute, sameSecond, sameNanos]
  · cases h

theorem shown_eq_of_parts {s t : Instant} (h : s.parts = t.parts) : s.shown = t.shown := by
  have hs := s.toInstant_parts
  rw [h, t.toInstant_parts] at hs
  exact (Except.ok.inj hs).symm

theorem regular_of_toInstant {p : Parts} {t : Instant} (ranges : p.InRange)
    (h : p.toInstant = .ok t) : t.Regular := by
  have found := t.toInstant_parts
  rw [parts_of_toInstant ranges h, h, Except.ok.injEq] at found
  exact shown_eq_self_iff.1 found.symm

end Relay.Instant
