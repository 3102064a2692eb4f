import Relay.Proofs.Except
import Relay.Proofs.Instant.Parts
import Relay.Proofs.Text.Decimal
import Relay.Proofs.Text.Utf8

/-!
# Stored dates

The texts of the record store are read back for years of four digits, and stand in the order of
the instants. A listing sorted by these texts is therefore sorted by date. A leap second within a
minute is kept as the second after it.
-/

namespace Relay

open Text

/-! ### Order of instants -/

def Instant.Parts.Before (p q : Parts) : Prop :=
  p.date.Before q.date ∨ p.date = q.date ∧
    (p.hour < q.hour ∨ p.hour = q.hour ∧
      (p.minute < q.minute ∨ p.minute = q.minute ∧
        (p.second < q.second ∨ p.second = q.second ∧ p.nanos < q.nanos)))

namespace Instant

instance (s t : Instant) : Decidable (s < t) := inferInstanceAs (Decidable (_ ∨ _))

theorem lt_iff {s t : Instant} :
    s < t ↔ s.seconds < t.seconds ∨ s.seconds = t.seconds ∧ s.nanos < t.nanos := Iff.rfl

/-- The clock shows a leap second, or second and nanoseconds as they are. -/
theorem clock_cases {t : Instant} (regular : t.Regular) :
    t.second = 60 ∧ t.secondOfDay = t.hour * 3600 + t.minute * 60 + 59 ∧
      t.nanos = t.fraction + 1000000000 ∨
    t.second < 60 ∧ t.secondOfDay = t.hour * 3600 + t.minute * 60 + t.second ∧
      t.nanos = t.fraction := by
  have clock := secondOfDay_eq regular
  have nanos := nanos_eq regular
  by_cases leap : t.second = 60
  · rw [if_pos leap] at clock nanos
    exact .inl ⟨leap, clock, nanos⟩
  · rw [if_neg leap] at clock nanos
    have := t.second_le
    exact .inr ⟨by omega, clock, nanos⟩

theorem lt_of_before {s t : Instant} (hs : s.Regular) (ht : t.Regular)
    (h : s.parts.Before t.parts) : s < t := by
  rw [lt_iff, s.seconds_eq, t.seconds_eq]
  rcases h with date | ⟨date, clock⟩
  · have := Date.toDays_lt (d := s.date) (e := t.date) (Date.valid_ofDays _)
      (Date.valid_ofDays _) date
    have := s.secondOfDay_lt
    have := t.secondOfDay_lt
    omega
  · simp only [parts] at date clock
    rw [date]
    have hs := clock_cases hs
    have ht := clock_cases ht
    have := s.minute_lt
    have := t.minute_lt
    have := s.fraction_lt
    have := t.fraction_lt
    clear date
    rcases hs with ⟨_, hs, _⟩ | ⟨_, hs, _⟩ <;> rcases ht with ⟨_, ht, _⟩ | ⟨_, ht, _⟩ <;>
      rw [hs, ht] <;> omega

theorem before_total (p q : Parts) (utc : p.offset = q.offset) :
    p.Before q ∨ p = q ∨ q.Before p := by
  obtain ⟨⟨y, m, d⟩, hour, minute, second, nanos, offset⟩ := p
  obtain ⟨⟨y', m', d'⟩, hour', minute', second', nanos', offset'⟩ := q
  cases utc
  rcases Int.lt_trichotomy y y' with h | rfl | h
  · exact .inl (.inl (.inl h))
  · rcases Nat.lt_trichotomy m m' with h | rfl | h
    · exact .inl (.inl (.inr ⟨rfl, .inl h⟩))
    · rcases Nat.lt_trichotomy d d' with h | rfl | h
      · exact .inl (.inl (.inr ⟨rfl, .inr ⟨rfl, h⟩⟩))
      · rcases Nat.lt_trichotomy hour hour' with h | rfl | h
        · exact .inl (.inr ⟨rfl, .inl h⟩)
        · rcases Nat.lt_trichotomy minute minute' with h | rfl | h
          · exact .inl (.inr ⟨rfl, .inr ⟨rfl, .inl h⟩⟩)
          · rcases Nat.lt_trichotomy second second' with h | rfl | h
            · exact .inl (.inr ⟨rfl, .inr ⟨rfl, .inr ⟨rfl, .inl h⟩⟩⟩)
            · rcases Nat.lt_trichotomy nanos nanos' with h | rfl | h
              · exact .inl (.inr ⟨rfl, .inr ⟨rfl, .inr ⟨rfl, .inr ⟨rfl, h⟩⟩⟩⟩)
              · exact .inr (.inl rfl)
              · exact .inr (.inr (.inr ⟨rfl, .inr ⟨rfl, .inr ⟨rfl, .inr ⟨rfl, h⟩⟩⟩⟩))
            · exact .inr (.inr (.inr ⟨rfl, .inr ⟨rfl, .inr ⟨rfl, .inl h⟩⟩⟩))
          · exact .inr (.inr (.inr ⟨rfl, .inr ⟨rfl, .inl h⟩⟩))
        · exact .inr (.inr (.inr ⟨rfl, .inl h⟩))
      · exact .inr (.inr (.inl (.inr ⟨rfl, .inr ⟨rfl, h⟩⟩)))
    · exact .inr (.inr (.inl (.inr ⟨rfl, .inl h⟩)))
  · exact .inr (.inr (.inl (.inl h)))

theorem lt_asymm {s t : Instant} (h : s < t) : ¬t < s := by
  rw [lt_iff] at *
  omega

theorem lt_trichotomy (s t : Instant) : s < t ∨ s = t ∨ t < s := by
  by_cases same : s.seconds = t.seconds ∧ s.nanos = t.nanos
  · obtain ⟨seconds, nanos⟩ := s
    obtain ⟨rfl, rfl⟩ := same
    exact .inr (.inl rfl)
  · rw [lt_iff, lt_iff]
    omega

theorem lt_iff_before {s t : Instant} (hs : s.Regular) (ht : t.Regular) :
    s < t ↔ s.parts.Before t.parts := by
  constructor
  · intro lt
    rcases before_total s.parts t.parts rfl with before | same | after
    · exact before
    · have shown := shown_eq_of_parts same
      rw [shown_of_regular hs, shown_of_regular ht] at shown
      rw [shown] at lt
      exact absurd lt (lt_asymm lt)
    · exact absurd (lt_of_before ht hs after) (lt_asymm lt)
  · exact lt_of_before hs ht

/-! ### Fields of a text -/

theorem field?_eq_some_iff {width n : Nat} {mark : Char} {cs rest : List Char} :
    field? width mark cs = some (n, rest) ↔
      n < 10 ^ width ∧ cs = Decimal.padded width n ++ mark :: rest := by
  unfold field?
  constructor
  · intro h
    split at h
    · next c rest' drop =>
      dsimp only at h
      split at h
      · next found =>
        obtain ⟨length, digits, rfl⟩ := found
        simp only [Option.some.injEq, Prod.mk.injEq] at h
        obtain ⟨rfl, rfl⟩ := h
        have written := Decimal.padded_ofDigits (List.all_eq_true.1 digits)
        rw [length] at written
        refine ⟨written.2, ?_⟩
        rw [written.1, ← drop, List.take_append_drop]
      · cases h
    · cases h
  · rintro ⟨small, rfl⟩
    have length := Decimal.length_padded width n
    have digits : (Decimal.padded width n).all Decimal.isDigit :=
      List.all_eq_true.2 fun c hc => Decimal.isDigit_of_mem_padded hc
    simp only [List.take_left' length, List.drop_left' length, length, digits,
      Decimal.ofDigits_padded small, and_self, if_true]

theorem field_lt_iff {width m n : Nat} (hm : m < 10 ^ width) (hn : n < 10 ^ width) (mark : Char)
    (cs ds : List Char) :
    Decimal.padded width m ++ mark :: cs < Decimal.padded width n ++ mark :: ds ↔
      m < n ∨ m = n ∧ cs < ds := by
  have same : (Decimal.padded width m).length = (Decimal.padded width n).length := by simp
  have inj : Decimal.padded width m = Decimal.padded width n ↔ m = n :=
    ⟨Decimal.padded_injective hm hn, fun h => by rw [h]⟩
  rw [Decimal.append_lt_append_iff same, Decimal.padded_lt_padded_iff hm hn, inj,
    List.cons_lt_cons_iff]
  simp

theorem bind_eq_some_iff {α β : Type} {x : Option α} {f : α → Option β} {b : β} :
    (x >>= f) = some b ↔ ∃ a, x = some a ∧ f a = some b := Option.bind_eq_some_iff

theorem guard_eq_some_iff {p : Prop} [Decidable p] {u : Unit} : guard p = some u ↔ p := by
  by_cases h : p
  · have passes : guard p = some u := if_pos h
    exact ⟨fun _ => h, fun _ => passes⟩
  · have fails : guard p = (none : Option Unit) := if_neg h
    rw [fails]
    refine ⟨fun found => ?_, fun holds => absurd holds h⟩
    cases found

/-! ### Stored texts -/

def Parts.storedChars (p : Parts) : List Char :=
  Decimal.padded 4 p.date.year.toNat ++ '-' :: (Decimal.padded 2 p.date.month ++ '-' ::
    (Decimal.padded 2 p.date.day ++ 'T' :: (Decimal.padded 2 p.hour ++ ':' ::
      (Decimal.padded 2 p.minute ++ ':' :: (Decimal.padded 2 p.second ++ '.' ::
        (Decimal.padded 9 p.nanos ++ 'Z' :: []))))))

/-- The parts that such a text can hold. -/
structure Parts.FitText (p : Parts) : Prop extends p.InRange where
  year_nonneg : 0 ≤ p.date.year
  year_le : p.date.year ≤ 9999
  month_lt : p.date.month < 10 ^ 2
  day_lt : p.date.day < 10 ^ 2

theorem readStored?_eq_some_iff_parts {s : String} {t : Instant} :
    readStored? s = some t ↔
      ∃ p : Parts, p.FitText ∧ s.toList = p.storedChars ∧ p.toInstant = .ok t := by
  unfold readStored?
  simp only [↓bind_eq_some_iff, ↓Prod.exists, field?_eq_some_iff, ↓guard_eq_some_iff,
    toOption_eq_some_iff]
  constructor
  · rintro ⟨year, _, ⟨hy, text⟩, month, _, ⟨hm, rfl⟩, day, _, ⟨hd, rfl⟩, hour, _, ⟨-, rfl⟩, minute,
      _, ⟨-, rfl⟩, second, _, ⟨-, rfl⟩, nanos, rest, ⟨hn, rfl⟩, ⟨⟩, ⟨ended, hour_lt,
      minute_lt, second_le⟩, found⟩
    rw [List.isEmpty_iff] at ended
    subst ended
    refine ⟨⟨⟨year, month, day⟩, hour, minute, second, nanos, 0⟩, ⟨⟨hour_lt, minute_lt, second_le,
      hn, rfl⟩, Int.natCast_nonneg _, ?_, hm, hd⟩, text, found⟩
    dsimp only
    omega
  · rintro ⟨⟨⟨year, month, day⟩, hour, minute, second, nanos, offset⟩, fit, text, found⟩
    obtain ⟨⟨hour_lt, minute_lt, second_le, hn, utc⟩, low, high, hm, hd⟩ := fit
    simp only at hour_lt minute_lt second_le hn utc low high hm hd
    subst utc
    obtain ⟨year, rfl⟩ := Int.eq_ofNat_of_zero_le low
    exact ⟨year, _, ⟨by omega, text⟩, month, _, ⟨hm, rfl⟩, day, _, ⟨hd, rfl⟩, hour, _,
      ⟨by omega, rfl⟩, minute, _, ⟨by omega, rfl⟩, second, _, ⟨by omega, rfl⟩, nanos, _, ⟨hn, rfl⟩,
      (), ⟨rfl, hour_lt, minute_lt, second_le⟩, found⟩

/-- The years that a stored date can have. -/
def HasShortYear (t : Instant) : Prop := 0 ≤ t.date.year ∧ t.date.year ≤ 9999

theorem fitText_parts {t : Instant} (h : t.HasShortYear) : t.parts.FitText :=
  ⟨t.inRange_parts, h.1, h.2, Nat.lt_of_le_of_lt t.month_bounds.2 (by decide),
    Nat.lt_of_le_of_lt t.day_bounds.2 (by decide)⟩

theorem storedChars_parts {t : Instant} (h : t.HasShortYear) :
    t.parts.storedChars = t.storedChars := by
  have year : 0 ≤ t.date.year ∧ t.date.year ≤ 9999 := h
  simp only [parts, Parts.storedChars, Instant.storedChars, charsToSecond, Date.chars,
    Date.yearChars, year, and_self, if_true, List.append_assoc, List.cons_append, List.nil_append]

/-- The dates that the record store gives back as they are. -/
structure ReadsBack (t : Instant) : Prop where
  regular : t.Regular
  short : t.HasShortYear

theorem storedText_shown (t : Instant) : t.shown.storedText = t.storedText := by
  obtain ⟨date, hour, minute, second, fraction, -⟩ := Parts.mk.inj t.parts_shown
  rw [storedText, storedChars, charsToSecond, date, hour, minute, second, fraction]
  rfl

theorem hasShortYear_shown {t : Instant} : t.shown.HasShortYear ↔ t.HasShortYear := by
  rw [HasShortYear, HasShortYear, (Parts.mk.inj t.parts_shown).1]

theorem readsBack_shown {t : Instant} (short : t.HasShortYear) : t.shown.ReadsBack :=
  ⟨t.regular_shown, hasShortYear_shown.2 short⟩

/-- A text of the record store is read back as the instant that calendar and clock show, if its
year is short. No other text is read. -/
theorem readStored?_eq_some_iff {s : String} {t : Instant} :
    readStored? s = some t ↔ t.ReadsBack ∧ s = t.storedText := by
  rw [readStored?_eq_some_iff_parts]
  constructor
  · rintro ⟨p, fit, text, found⟩
    have regular := regular_of_toInstant fit.toInRange found
    obtain rfl := parts_of_toInstant fit.toInRange found
    have short : t.HasShortYear := ⟨fit.year_nonneg, fit.year_le⟩
    refine ⟨⟨regular, short⟩, ?_⟩
    rw [storedText, ← storedChars_parts short, ← text, String.ofList_toList]
  · rintro ⟨⟨regular, short⟩, rfl⟩
    refine ⟨t.parts, fitText_parts short, ?_, toInstant_parts_of_regular regular⟩
    rw [storedText, String.toList_ofList, storedChars_parts short]

theorem readStored?_of_short {t : Instant} (short : t.HasShortYear) :
    readStored? t.storedText = some t.shown :=
  readStored?_eq_some_iff.2 ⟨readsBack_shown short, t.storedText_shown.symm⟩

theorem storedText_injective {s t : Instant} (hs : s.ReadsBack) (ht : t.ReadsBack)
    (same : s.storedText = t.storedText) : s = t := by
  have read := readStored?_eq_some_iff.2 ⟨hs, rfl⟩
  rw [readStored?_eq_some_iff.2 ⟨ht, same⟩, Option.some.injEq] at read
  exact read.symm

/-- A year of any other length is written with a sign, where a digit has to be. -/
theorem readStored?_of_long {t : Instant} (long : ¬t.HasShortYear) :
    readStored? t.storedText = none := by
  have long : ¬(0 ≤ t.date.year ∧ t.date.year ≤ 9999) := long
  cases found : readStored? t.storedText with
  | none => rfl
  | some s =>
    obtain ⟨p, -, text, -⟩ := readStored?_eq_some_iff_parts.1 found
    rw [storedText, String.toList_ofList, storedChars, charsToSecond, Date.chars, Date.yearChars,
      if_neg long, Parts.storedChars] at text
    simp only [Decimal.padded, List.nil_append, List.cons_append, List.append_assoc,
      List.cons.injEq] at text
    have digit := Decimal.isDigit_digit (p.date.year.toNat / 10 / 10 / 10)
    rw [← text.1] at digit
    split at digit
    · cases digit
    · cases digit

/-! ### Order of stored texts -/

theorem Parts.storedChars_lt_iff {p q : Parts} (hp : p.FitText) (hq : q.FitText) :
    p.storedChars < q.storedChars ↔ p.Before q := by
  obtain ⟨⟨y, m, d⟩, hour, minute, second, nanos, offset⟩ := p
  obtain ⟨⟨y', m', d'⟩, hour', minute', second', nanos', offset'⟩ := q
  obtain ⟨⟨hh, hmi, hs, hn, -⟩, low, high, hm, hd⟩ := hp
  obtain ⟨⟨hh', hmi', hs', hn', -⟩, low', high', hm', hd'⟩ := hq
  simp only at hh hmi hs hn low high hm hd hh' hmi' hs' hn' low' high' hm' hd'
  obtain ⟨year, rfl⟩ := Int.eq_ofNat_of_zero_le low
  obtain ⟨year', rfl⟩ := Int.eq_ofNat_of_zero_le low'
  simp only [Parts.storedChars, Int.toNat_natCast]
  rw [field_lt_iff (by omega) (by omega), field_lt_iff hm hm', field_lt_iff hd hd',
    field_lt_iff (by omega) (by omega), field_lt_iff (by omega) (by omega),
    field_lt_iff (by omega) (by omega), field_lt_iff hn hn']
  simp only [Parts.Before, Date.Before, Date.mk.injEq, Int.ofNat_lt, Int.natCast_inj,
    List.lt_irrefl, and_false, or_false, and_or_left, or_assoc, and_assoc]

/-- Texts of stored dates stand in the order of the dates. -/
theorem storedText_lt_iff {s t : Instant} (hs : s.ReadsBack) (ht : t.ReadsBack) :
    s.storedText < t.storedText ↔ s < t := by
  rw [lt_iff_before hs.regular ht.regular,
    ← Parts.storedChars_lt_iff (fitText_parts hs.short) (fitText_parts ht.short),
    storedChars_parts hs.short, storedChars_parts ht.short]
  change s.storedText.toList < t.storedText.toList ↔ _
  rw [storedText, storedText, String.toList_ofList, String.toList_ofList]

/-- Of any dates, the texts stand in the order of what calendar and clock show. -/
theorem storedText_lt_iff_shown {s t : Instant} (hs : s.HasShortYear) (ht : t.HasShortYear) :
    s.storedText < t.storedText ↔ s.shown < t.shown := by
  rw [← s.storedText_shown, ← t.storedText_shown,
    storedText_lt_iff (readsBack_shown hs) (readsBack_shown ht)]

theorem isPlain_storedChars {t : Instant} (short : t.HasShortYear) :
    ∀ c ∈ t.storedChars, Utf8.IsPlain c := by
  have digits : ∀ width n, ∀ c ∈ Decimal.padded width n, Utf8.IsPlain c := by
    intro width n c mem
    have bounds := Decimal.isDigit_iff.1 (Decimal.isDigit_of_mem_padded mem)
    unfold Utf8.IsPlain
    omega
  have marks : Utf8.IsPlain '-' ∧ Utf8.IsPlain 'T' ∧ Utf8.IsPlain ':' ∧ Utf8.IsPlain '.' ∧
      Utf8.IsPlain 'Z' := by
    unfold Utf8.IsPlain
    decide
  rw [← storedChars_parts short, Parts.storedChars]
  simp only [List.forall_mem_append, List.forall_mem_cons, List.not_mem_nil, false_implies,
    implies_true, marks, true_and, and_true]
  exact ⟨digits _ _, digits _ _, digits _ _, digits _ _, digits _ _, digits _ _, digits _ _⟩

/-- Stored texts are compared byte by byte as their characters are. -/
theorem storedText_bytes_lt_iff {s t : Instant} (hs : s.HasShortYear)
    (ht : t.HasShortYear) : Utf8.ofText s.storedText < Utf8.ofText t.storedText ↔
      s.shown < t.shown := by
  have plain : ∀ {t : Instant}, t.HasShortYear → ∀ c ∈ t.storedText.toList, Utf8.IsPlain c := by
    intro t short
    rw [storedText, String.toList_ofList]
    exact isPlain_storedChars short
  rw [← storedText_lt_iff_shown hs ht, Utf8.ofText, Utf8.ofText,
    Utf8.encode_lt_encode_iff (plain hs) (plain ht)]
  exact Iff.rfl

end Instant

end Relay
