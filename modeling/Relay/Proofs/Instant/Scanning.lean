import Relay.Proofs.Instant.Parts
import Relay.Proofs.Text.Decimal

/-!
# Dates on the wire

The relaxed reader takes the text that is written for an instant, of any year and with any
number of fraction digits, and finds what calendar and clock show, which is the same instant
unless that is a leap second within a minute.
-/

namespace Relay.Instant

open Text

namespace Scanner

variable {α β : Type}

/-! ### Parts of a text -/

theorem bind_apply {value : Scanner α} {next : α → Scanner β} {cs rest : List Char} {a : α}
    (h : value cs = .ok (a, rest)) : (value >>= next) cs = next a rest := by
  change (value cs >>= fun r => next r.1 r.2) = next a rest
  rw [h]
  rfl

theorem get_bind (next : List Char → Scanner β) (cs : List Char) :
    (get >>= next) cs = next cs cs := rfl

theorem set_bind (cs : List Char) (next : PUnit → Scanner β) (cs' : List Char) :
    (set cs >>= next) cs' = next ⟨⟩ cs := rfl

/-- A character that no number is written with. -/
def IsMark (c : Char) : Prop := Decimal.isDigit c = false ∧ isBlank c = false

theorem isBlank_of_isDigit {c : Char} (h : Decimal.isDigit c) : isBlank c = false := by
  rw [Decimal.isDigit_iff] at h
  simp only [isBlank, Bool.or_eq_false_iff, Bool.and_eq_false_iff, decide_eq_false_iff_not,
    beq_eq_false_iff_ne]
  omega

theorem blanks_cons {c : Char} (h : isBlank c = false) (cs : List Char) :
    blanks (c :: cs) = .ok ((), c :: cs) := by
  change Except.ok ((), trimStart (c :: cs)) = _
  rw [trimStart, List.dropWhile_cons_of_neg (by rw [h]; decide)]

theorem literal_cons (c : Char) (cs : List Char) : literal c (c :: cs) = .ok ((), cs) := by
  change (if c = c then _ else _ : Scanner Unit) (c :: cs) = _
  rw [if_pos rfl]
  rfl

theorem separator_cons {c : Char} (h : IsMark c) (next : Unit → Scanner β) (cs : List Char) :
    (blanks >>= fun _ => literal c >>= next) (c :: cs) = next () cs := by
  rw [bind_apply (blanks_cons h.2 cs), bind_apply (literal_cons c cs)]

theorem takeWhile_eq_self {ds : List Char} (h : ∀ c ∈ ds, Decimal.isDigit c) :
    ds.takeWhile Decimal.isDigit = ds := by
  have : (ds ++ []).takeWhile Decimal.isDigit = ds ++ [] := List.takeWhile_append_of_pos h
  rwa [List.append_nil] at this

theorem takeWhile_digits {ds : List Char} (h : ∀ c ∈ ds, Decimal.isDigit c) {c : Char}
    (mark : IsMark c) (rest : List Char) :
    (ds ++ c :: rest).takeWhile Decimal.isDigit = ds := by
  rw [List.takeWhile_append_of_pos h, List.takeWhile_cons_of_neg (by rw [mark.1]; decide),
    List.append_nil]

/-- Reads a number up to a mark, or up to the most digits that are allowed. -/
theorem digits_append {most : Nat} {ds rest : List Char} (all : ∀ c ∈ ds, Decimal.isDigit c)
    (some : ds ≠ []) (small : Decimal.ofDigits ds < 2 ^ 63)
    (stop : ds.length = most ∨ ds.length ≤ most ∧ ∃ c more, rest = c :: more ∧ IsMark c) :
    digits most (ds ++ rest) = .ok (Decimal.ofDigits ds, rest) := by
  have taken : ((ds ++ rest).take most).takeWhile Decimal.isDigit = ds := by
    rcases stop with rfl | ⟨few, c, more, rfl, mark⟩
    · rw [List.take_left]
      exact takeWhile_eq_self all
    · rw [List.take_append, List.take_of_length_le few]
      cases most - ds.length with
      | zero => rw [List.take_zero, List.append_nil, takeWhile_eq_self all]
      | succ n => exact takeWhile_digits all mark _
  have more : (ds ++ rest).isEmpty = false := by
    cases ds with
    | nil => exact absurd rfl some
    | cons d ds => rfl
  have found : ds.isEmpty = false := List.isEmpty_eq_false_iff.2 some
  have fits : ¬2 ^ 63 ≤ Decimal.ofDigits ds := Nat.not_le_of_lt small
  unfold digits
  rw [get_bind]
  simp only [more, taken, found, fits, Bool.false_eq_true, if_false]
  rw [set_bind, List.drop_left]
  rfl

theorem digits_padded {width n : Nat} (wide : 0 < width) (short : width < 19)
    (small : n < 10 ^ width) (rest : List Char) :
    digits width (Decimal.padded width n ++ rest) = .ok (n, rest) := by
  have value := Decimal.ofDigits_padded small
  have bound : 10 ^ width ≤ 10 ^ 18 := Nat.pow_le_pow_right (by decide) (by omega)
  rw [digits_append (fun c => Decimal.isDigit_of_mem_padded) ?_ ?_ (.inl (by simp)), value]
  · intro empty
    have := congrArg List.length empty
    simp at this
    omega
  · rw [value]
    omega

theorem exists_padded_succ (width n : Nat) :
    ∃ d ds, Decimal.padded (width + 1) n = d :: ds ∧ Decimal.isDigit d := by
  cases h : Decimal.padded (width + 1) n with
  | nil => simpa using congrArg List.length h
  | cons d ds => exact ⟨d, ds, rfl, Decimal.isDigit_of_mem_padded (h ▸ List.mem_cons_self)⟩

theorem blanks_padded (width n : Nat) (rest : List Char) :
    blanks (Decimal.padded (width + 1) n ++ rest) =
      .ok ((), Decimal.padded (width + 1) n ++ rest) := by
  obtain ⟨d, ds, written, digit⟩ := exists_padded_succ width n
  rw [written, List.cons_append]
  exact blanks_cons (isBlank_of_isDigit digit) _

theorem within_padded {low high n : Nat} (hl : low ≤ n) (hh : n ≤ high) (small : n < 10 ^ 2)
    (rest : List Char) : within low high (Decimal.padded 2 n ++ rest) = .ok (n, rest) := by
  unfold within
  rw [bind_apply (blanks_padded 1 n rest),
    bind_apply (digits_padded (by decide) (by decide) small rest)]
  have inside : ¬(n < low ∨ high < n) := by omega
  simp only [inside, if_false]
  rfl

/-! ### Years -/

theorem signed_digits (n : Nat) :
    ∃ ds, (if n ≤ 9999 then Decimal.padded 4 n else Decimal.natural n) = ds ∧ ds ≠ [] ∧
      (∀ c ∈ ds, Decimal.isDigit c) ∧ Decimal.ofDigits ds = n := by
  split
  · refine ⟨_, rfl, ?_, fun c => Decimal.isDigit_of_mem_padded,
      Decimal.ofDigits_padded (by omega)⟩
    intro empty
    have := congrArg List.length empty
    simp at this
  · exact ⟨_, rfl, Decimal.natural_ne_nil n, fun c => Decimal.isDigit_of_mem_natural,
      Decimal.ofDigits_natural n⟩

theorem dash_isMark : IsMark '-' := by unfold IsMark; decide

theorem colon_isMark : IsMark ':' := by unfold IsMark; decide

theorem digits_signed {n : Nat} (small : n < 2 ^ 63) {ds : List Char} (some : ds ≠ [])
    (all : ∀ c ∈ ds, Decimal.isDigit c) (value : Decimal.ofDigits ds = n) (rest : List Char) :
    digits (ds ++ '-' :: rest).length (ds ++ '-' :: rest) = .ok (n, '-' :: rest) := by
  rw [digits_append all some (by omega) (.inr ⟨?_, '-', rest, rfl, dash_isMark⟩), value]
  rw [List.length_append]
  omega

def checkYear (y : Int) : Scanner Int := do
  if y < -(2 ^ 31) ∨ 2 ^ 31 ≤ y then throw .outOfRange
  return y

theorem checkYear_apply {y : Int} (low : -(2 ^ 31) ≤ y) (high : y < 2 ^ 31) (cs : List Char) :
    checkYear y cs = .ok (y, cs) := by
  have inside : ¬(y < -(2 ^ 31) ∨ 2 ^ 31 ≤ y) := by omega
  unfold checkYear
  rw [if_neg inside]
  rfl

theorem year_minus (ds : List Char) :
    year ('-' :: ds) = (digits ds.length >>= fun n => checkYear (-(n : Int))) ds := by
  unfold year
  rw [bind_apply (blanks_cons (by decide) _)]
  rfl

theorem year_plus (ds : List Char) :
    year ('+' :: ds) = (digits ds.length >>= fun n => checkYear n) ds := by
  unfold year
  rw [bind_apply (blanks_cons (by decide) _)]
  rfl

theorem unsigned_match {d : Char} (digit : Decimal.isDigit d) (ds : List Char)
    (minus plus : List Char → Scanner α) (none : Scanner α) :
    (match d :: ds with
      | '-' :: rest => minus rest
      | '+' :: rest => plus rest
      | _ => none) = none := by
  split
  · next h =>
    cases h
    cases digit
  · next h =>
    cases h
    cases digit
  · rfl

theorem year_unsigned {d : Char} (digit : Decimal.isDigit d) (ds : List Char) :
    year (d :: ds) = (digits 4 >>= fun n => checkYear n) (d :: ds) := by
  unfold year
  rw [bind_apply (blanks_cons (isBlank_of_isDigit digit) _), get_bind]
  exact congrFun (unsigned_match digit _ _ _ _) _

theorem year_yearChars {y : Int} (low : -(2 ^ 31) ≤ y) (high : y < 2 ^ 31) (rest : List Char) :
    year (Date.yearChars y ++ '-' :: rest) = .ok (y, '-' :: rest) := by
  unfold Date.yearChars
  by_cases short : 0 ≤ y ∧ y ≤ 9999
  · have scanned := digits_padded (by decide) (by decide)
      (show y.toNat < 10 ^ 4 by omega) ('-' :: rest)
    obtain ⟨d, ds, written, digit⟩ := exists_padded_succ 3 y.toNat
    rw [if_pos short]
    rw [written, List.cons_append] at scanned ⊢
    rw [year_unsigned digit, bind_apply scanned, Int.toNat_of_nonneg short.1]
    exact checkYear_apply low high _
  · obtain ⟨ds, written, some, all, value⟩ := signed_digits y.natAbs
    have scanned := digits_signed (by omega) some all value rest
    rw [if_neg short]
    dsimp only
    rw [written, List.cons_append]
    by_cases negative : y < 0
    · have same : -(y.natAbs : Int) = y := by omega
      rw [if_pos negative, year_minus, bind_apply scanned, same]
      exact checkYear_apply low high _
    · have same : (y.natAbs : Int) = y := by omega
      rw [if_neg negative, year_plus, bind_apply scanned, same]
      exact checkYear_apply low high _

/-! ### Fractions and the zone -/

theorem zulu_isMark : IsMark 'Z' := by unfold IsMark; decide

theorem fraction_point (cs : List Char) :
    fraction ('.' :: cs) =
      (digits 9 >>= fun n => get >>= fun rest => modify (·.dropWhile Decimal.isDigit) >>= fun _ =>
        pure (n * 10 ^ (9 - (cs.length - rest.length)))) cs := rfl

theorem fraction_padded {width n : Nat} (wide : 0 < width) (short : width ≤ 9)
    (small : n < 10 ^ width) (rest : List Char) :
    fraction ('.' :: (Decimal.padded width n ++ 'Z' :: rest)) =
      .ok (n * 10 ^ (9 - width), 'Z' :: rest) := by
  have value := Decimal.ofDigits_padded small
  have bound : 10 ^ width ≤ 10 ^ 9 := Nat.pow_le_pow_right (by decide) short
  have scanned : digits 9 (Decimal.padded width n ++ 'Z' :: rest) = .ok (n, 'Z' :: rest) := by
    rw [digits_append (fun c => Decimal.isDigit_of_mem_padded) ?_ ?_
      (.inr ⟨by simpa using short, 'Z', rest, rfl, zulu_isMark⟩), value]
    · intro empty
      have := congrArg List.length empty
      simp at this
      omega
    · rw [value]
      omega
  have used : (Decimal.padded width n ++ 'Z' :: rest).length - ('Z' :: rest).length = width := by
    rw [List.length_append, Decimal.length_padded, Nat.add_sub_cancel]
  rw [fraction_point, bind_apply scanned, get_bind, used]
  change Except.ok (_, ('Z' :: rest).dropWhile Decimal.isDigit) = _
  rw [List.dropWhile_cons_of_neg (by decide)]

/-- The fewest digits that are exact are read as all nine. -/
theorem fraction_fewestDigits {n : Nat} (small : n < 1000000000) (rest : List Char) :
    fraction (fewestDigits n ++ 'Z' :: rest) = .ok (n, 'Z' :: rest) := by
  unfold fewestDigits
  split
  · next zero =>
    rw [zero]
    rfl
  · split
    · next millis =>
      rw [List.cons_append, fraction_padded (by decide) (by decide) (by omega)]
      have : n / 1000000 * 10 ^ (9 - 3) = n := by omega
      rw [this]
    · split
      · next micros =>
        rw [List.cons_append, fraction_padded (by decide) (by decide) (by omega)]
        have : n / 1000 * 10 ^ (9 - 6) = n := by omega
        rw [this]
      · rw [List.cons_append, fraction_padded (by decide) (by decide) small]
        have : n * 10 ^ (9 - 9) = n := Nat.mul_one n
        rw [this]

theorem zone_zulu : zone ['Z'] = .ok (0, []) := rfl

end Scanner

/-! ### The fewest digits -/

/-- A fraction of a second with so many digits, after a point if there are any. -/
def fractionChars (digits nanos : Nat) : List Char :=
  if digits = 0 then [] else '.' :: Decimal.padded digits (nanos / 10 ^ (9 - digits))

/-- The text has so many fraction digits, which lose nothing, and no fewer would do. -/
structure HasFraction (t : Instant) (digits : Nat) : Prop where
  offered : digits ∈ [0, 3, 6, 9]
  lossless : 10 ^ (9 - digits) ∣ t.fraction
  fewest : ∀ fewer ∈ [0, 3, 6, 9], 10 ^ (9 - fewer) ∣ t.fraction → digits ≤ fewer
  text : t.text = String.ofList (t.charsToSecond ++ fractionChars digits t.fraction ++ ['Z'])

/-- It is enough to look at what is offered. -/
theorem fewest_of_offered {digits n : Nat} (zero : 10 ^ 9 ∣ n → digits ≤ 0)
    (three : 10 ^ 6 ∣ n → digits ≤ 3) (six : 10 ^ 3 ∣ n → digits ≤ 6) (nine : digits ≤ 9) :
    ∀ fewer ∈ [0, 3, 6, 9], 10 ^ (9 - fewer) ∣ n → digits ≤ fewer := by
  rw [List.forall_mem_cons, List.forall_mem_cons, List.forall_mem_cons, List.forall_mem_singleton]
  exact ⟨zero, three, six, fun _ => nine⟩

theorem fewestDigits_eq {n : Nat} (small : n < 1000000000) :
    ∃ digits ∈ [0, 3, 6, 9], 10 ^ (9 - digits) ∣ n ∧
      (∀ fewer ∈ [0, 3, 6, 9], 10 ^ (9 - fewer) ∣ n → digits ≤ fewer) ∧
      fewestDigits n = fractionChars digits n := by
  unfold fewestDigits
  split
  · next zero =>
    subst zero
    exact ⟨0, by decide, Nat.dvd_zero _, fun _ _ _ => Nat.zero_le _, rfl⟩
  next nonzero =>
  have whole : ¬10 ^ 9 ∣ n := fun exact => by
    have := Nat.le_of_dvd (Nat.pos_of_ne_zero nonzero) exact
    omega
  split
  · next millis =>
    refine ⟨3, by decide, Nat.dvd_of_mod_eq_zero millis, ?_, rfl⟩
    exact fewest_of_offered (fun exact => absurd exact whole) (fun _ => by decide)
      (fun _ => by decide) (by decide)
  next millis =>
  have millis : ¬10 ^ 6 ∣ n := fun exact => millis (Nat.mod_eq_zero_of_dvd exact)
  split
  · next micros =>
    refine ⟨6, by decide, Nat.dvd_of_mod_eq_zero micros, ?_, rfl⟩
    exact fewest_of_offered (fun exact => absurd exact whole) (fun exact => absurd exact millis)
      (fun _ => by decide) (by decide)
  · next micros =>
    have micros : ¬10 ^ 3 ∣ n := fun exact => micros (Nat.mod_eq_zero_of_dvd exact)
    refine ⟨9, by decide, Nat.one_dvd n, ?_, ?_⟩
    · exact fewest_of_offered (fun exact => absurd exact whole)
        (fun exact => absurd exact millis) (fun exact => absurd exact micros) (by decide)
    · have all : n / 10 ^ (9 - 9) = n := Nat.div_one n
      rw [fractionChars, if_neg (by decide), all]

theorem exists_hasFraction (t : Instant) : ∃ digits, t.HasFraction digits := by
  obtain ⟨digits, offered, lossless, fewest, written⟩ := fewestDigits_eq t.fraction_lt
  exact ⟨digits, offered, lossless, fewest, by rw [text, chars, written]⟩

/-! ### Whole texts -/

theorem chars_eq (t : Instant) : t.chars =
    Date.yearChars t.date.year ++ '-' :: (Decimal.padded 2 t.date.month ++ '-' ::
      (Decimal.padded 2 t.date.day ++ 'T' :: (Decimal.padded 2 t.hour ++ ':' ::
        (Decimal.padded 2 t.minute ++ ':' :: (Decimal.padded 2 t.second ++
          (fewestDigits t.fraction ++ ['Z'])))))) := by
  simp only [chars, charsToSecond, Date.chars, List.append_assoc, List.cons_append,
    List.nil_append]

open Scanner

theorem scan_chars (t : Instant) : scan t.chars = .ok (t.parts, []) := by
  have low := t.le_year
  have high := t.year_le
  have month := t.month_bounds
  have day := t.day_bounds
  have hour := t.hour_lt
  have minute := t.minute_lt
  have second := t.second_le
  unfold scan
  rw [chars_eq, bind_apply (year_yearChars (by omega) (by omega) _),
    separator_cons dash_isMark,
    bind_apply (within_padded month.1 month.2 (by omega) _), separator_cons dash_isMark,
    bind_apply (within_padded day.1 day.2 (by omega) _), get_bind]
  dsimp only
  rw [if_pos (by decide), set_bind,
    bind_apply (within_padded (Nat.zero_le _) (by omega) (by omega) _),
    separator_cons colon_isMark,
    bind_apply (within_padded (Nat.zero_le _) (by omega) (by omega) _),
    separator_cons colon_isMark,
    bind_apply (within_padded (Nat.zero_le _) second (by omega) _),
    bind_apply (fraction_fewestDigits t.fraction_lt []),
    bind_apply (blanks_cons zulu_isMark.2 []), bind_apply zone_zulu]
  rfl

/-- Dates come over the wire as calendar and clock show them. -/
theorem read_text (t : Instant) : read t.text = .ok t.shown := by
  have scanned : scan.run t.text.toList = .ok (t.parts, []) := by
    rw [text, String.toList_ofList]
    exact t.scan_chars
  rw [read, scanned]
  exact t.toInstant_parts

end Relay.Instant
