import Relay.Text.Decimal

/-!
# Decimal digits

Numbers of a fixed width are read back and stand in the order of their texts.
-/

namespace Relay.Text.Decimal

theorem le_iff_toNat_le (c d : Char) : c ≤ d ↔ c.toNat ≤ d.toNat := by
  rw [Char.le_def, UInt32.le_iff_toNat_le]
  rfl

theorem value?_eq_some_iff {c : Char} {n : Nat} :
    value? c = some n ↔ n < 10 ∧ c.toNat = 48 + n := by
  unfold value?
  simp only [le_iff_toNat_le, show '0'.toNat = 48 from rfl, show '9'.toNat = 57 from rfl]
  split
  · rw [Option.some.injEq]
    omega
  · constructor
    · intro h; cases h
    · omega

theorem isDigit_iff {c : Char} : isDigit c ↔ 48 ≤ c.toNat ∧ c.toNat ≤ 57 := by
  unfold isDigit value?
  simp only [le_iff_toNat_le, show '0'.toNat = 48 from rfl, show '9'.toNat = 57 from rfl]
  split <;> simp_all

theorem toNat_digit (n : Nat) : (digit n).toNat = 48 + n % 10 := by
  rw [digit, Char.ofNat, dif_pos (by unfold Nat.isValidChar; omega)]
  rfl

theorem value?_digit (n : Nat) : value? (digit n) = some (n % 10) :=
  value?_eq_some_iff.2 ⟨Nat.mod_lt _ (by decide), toNat_digit n⟩

theorem isDigit_digit (n : Nat) : isDigit (digit n) := by
  rw [isDigit, value?_digit]
  rfl

theorem digit_of_isDigit {c : Char} (h : isDigit c) : digit (c.toNat - 48) = c := by
  rw [isDigit_iff] at h
  rw [← Char.toNat_inj, toNat_digit]
  omega

/-! ### Numbers of a fixed width -/

@[simp] theorem length_padded (width n : Nat) : (padded width n).length = width := by
  induction width generalizing n with
  | zero => rfl
  | succ width ih => simp [padded, ih]

theorem isDigit_of_mem_padded {width n : Nat} {c : Char} (h : c ∈ padded width n) : isDigit c := by
  induction width generalizing n with
  | zero => simp [padded] at h
  | succ width ih =>
    rw [padded, List.mem_append, List.mem_singleton] at h
    rcases h with h | rfl
    · exact ih h
    · exact isDigit_digit n

theorem ofDigits_append (cs : List Char) (c : Char) :
    ofDigits (cs ++ [c]) = 10 * ofDigits cs + (c.toNat - 48) := by
  simp [ofDigits]

theorem ofDigits_padded {width n : Nat} (h : n < 10 ^ width) : ofDigits (padded width n) = n := by
  induction width generalizing n with
  | zero =>
    have : n = 0 := by simpa using h
    rw [this]
    rfl
  | succ width ih =>
    rw [Nat.pow_succ] at h
    rw [padded, ofDigits_append, ih (by omega), toNat_digit]
    omega

theorem padded_ofDigits {ds : List Char} (h : ∀ c ∈ ds, isDigit c) :
    padded ds.length (ofDigits ds) = ds ∧ ofDigits ds < 10 ^ ds.length := by
  induction hl : ds.length generalizing ds with
  | zero =>
    rw [List.length_eq_zero_iff] at hl
    subst hl
    exact ⟨rfl, by decide⟩
  | succ width ih =>
    rcases List.eq_nil_or_concat ds with rfl | ⟨init, c, rfl⟩
    · cases hl
    · rw [List.concat_eq_append] at h hl ⊢
      simp only [List.length_append, List.length_singleton, Nat.add_right_cancel_iff] at hl
      obtain ⟨same, small⟩ := ih (fun d hd => h d (List.mem_append_left _ hd)) hl
      have hc := h c (List.mem_append_right _ List.mem_cons_self)
      have last := digit_of_isDigit hc
      rw [isDigit_iff] at hc
      rw [ofDigits_append, padded, Nat.pow_succ]
      have quotient : (10 * ofDigits init + (c.toNat - 48)) / 10 = ofDigits init := by omega
      have remainder : digit (10 * ofDigits init + (c.toNat - 48)) = digit (c.toNat - 48) := by
        rw [← Char.toNat_inj, toNat_digit, toNat_digit]
        omega
      rw [quotient, same, remainder, last]
      exact ⟨rfl, by omega⟩

/-! ### Numbers of any width -/

theorem isDigit_of_mem_natural {n : Nat} {c : Char} (h : c ∈ natural n) : isDigit c := by
  have := Nat.isDigit_of_mem_toDigits (by decide) (by decide) h
  rw [Char.isDigit_iff_toNat] at this
  exact isDigit_iff.2 this

theorem natural_ne_nil (n : Nat) : natural n ≠ [] := Nat.toDigits_ne_nil

theorem ofDigits_natural (n : Nat) : ofDigits (natural n) = n := Nat.ofDigitChars_ten_toDigits

/-! ### Order -/

/-- Texts whose heads have one length are compared head first. -/
theorem append_lt_append_iff {as bs : List Char} (same : as.length = bs.length)
    (cs ds : List Char) : as ++ cs < bs ++ ds ↔ as < bs ∨ as = bs ∧ cs < ds := by
  induction as generalizing bs with
  | nil =>
    cases bs with
    | nil => simp
    | cons b bs => cases same
  | cons a as ih =>
    cases bs with
    | nil => cases same
    | cons b bs =>
      rw [List.cons_append, List.cons_append, List.cons_lt_cons_iff, List.cons_lt_cons_iff,
        List.cons.injEq, ih (Nat.succ.inj same)]
      clear ih same
      constructor
      · rintro (first | ⟨rfl, second | ⟨rfl, second⟩⟩)
        · exact .inl (.inl first)
        · exact .inl (.inr ⟨rfl, second⟩)
        · exact .inr ⟨⟨rfl, rfl⟩, second⟩
      · rintro ((first | ⟨rfl, second⟩) | ⟨⟨rfl, rfl⟩, second⟩)
        · exact .inl first
        · exact .inr ⟨rfl, .inl second⟩
        · exact .inr ⟨rfl, .inr ⟨rfl, second⟩⟩

theorem padded_injective {width m n : Nat} (hm : m < 10 ^ width) (hn : n < 10 ^ width)
    (h : padded width m = padded width n) : m = n := by
  rw [← ofDigits_padded hm, h, ofDigits_padded hn]

theorem padded_lt_padded_iff {width m n : Nat} (hm : m < 10 ^ width) (hn : n < 10 ^ width) :
    padded width m < padded width n ↔ m < n := by
  induction width generalizing m n with
  | zero =>
    have : m = 0 ∧ n = 0 := by simpa using And.intro hm hn
    simp [padded, this]
  | succ width ih =>
    rw [Nat.pow_succ] at hm hn
    have order : [digit m] < [digit n] ↔ m % 10 < n % 10 := by
      simp only [List.cons_lt_cons_iff, List.lt_irrefl, and_false, or_false, Char.lt_def,
        UInt32.lt_iff_toNat_lt]
      have h₁ := toNat_digit m
      have h₂ := toNat_digit n
      simp only [Char.toNat] at h₁ h₂
      omega
    rw [padded, padded, append_lt_append_iff (by simp), ih (by omega) (by omega), order]
    constructor
    · rintro (h | ⟨h, hlt⟩)
      · omega
      · have := padded_injective (by omega) (by omega) h
        omega
    · intro h
      by_cases hq : m / 10 < n / 10
      · exact .inl hq
      · have same : m / 10 = n / 10 := by omega
        exact .inr ⟨by rw [same], by omega⟩

/-! ### Numbers that stand alone -/

/-- The text is the digits of a number, at least one, perhaps with a plus in front. -/
def Spells (cs : List Char) (n : Nat) : Prop :=
  ∃ sign ds, cs = sign ++ ds ∧ (sign = [] ∨ sign = ['+']) ∧ ds ≠ [] ∧ (∀ d ∈ ds, isDigit d) ∧
    ofDigits ds = n

theorem readNatural?_eq_some_iff {cs : List Char} {n : Nat} :
    readNatural? cs = some n ↔ Spells cs n := by
  have digits (ds : List Char) : (if ds ≠ [] ∧ ds.all isDigit then some (ofDigits ds) else none) =
      some n ↔ ds ≠ [] ∧ (∀ d ∈ ds, isDigit d) ∧ ofDigits ds = n := by
    simp [and_assoc]
  by_cases signed : ∃ rest, cs = '+' :: rest
  case pos =>
    obtain ⟨rest, rfl⟩ := signed
    change (if rest ≠ [] ∧ rest.all isDigit then some (ofDigits rest) else none) = some n ↔ _
    rw [digits rest]
    constructor
    · exact fun read => ⟨['+'], rest, rfl, .inr rfl, read⟩
    · rintro ⟨sign, ds, same, rfl | rfl, read⟩
      · -- a plus is no digit
        rw [List.nil_append] at same
        have plus : isDigit '+' := read.2.1 '+' (same ▸ List.mem_cons_self)
        exact absurd plus (by decide)
      · cases same
        exact read
  case neg =>
    have bare : readNatural? cs =
        if cs ≠ [] ∧ cs.all isDigit then some (ofDigits cs) else none := by
      simp only [readNatural?]
      split
      · next rest => exact absurd ⟨rest, rfl⟩ signed
      · rfl
    rw [bare, digits cs]
    constructor
    · exact fun read => ⟨[], cs, rfl, .inl rfl, read⟩
    · rintro ⟨sign, ds, same, rfl | rfl, read⟩
      · rw [same]
        exact read
      · exact absurd ⟨ds, same⟩ signed

theorem Spells.unique {cs : List Char} {m n : Nat} (h : Spells cs m) (h' : Spells cs n) :
    m = n :=
  Option.some.inj ((readNatural?_eq_some_iff.2 h).symm.trans (readNatural?_eq_some_iff.2 h'))

end Relay.Text.Decimal
